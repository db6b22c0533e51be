/-
The control plane: from an `AddPolicyRule` request to the policy store.

A request becomes a JSON document and the document is read rule by rule.  Reading a
rule stores its HTTP rules first and installs every combination of its addresses and
ports last; a missing field ends the loop, and an address range whose bounds are not
numbers throws out of it, with what was stored before left in place.  Printing and
parsing the document are taken to give the document back.
-/

import NetPolicy.Library.SeparatedText
import NetPolicy.Daemon.Store

namespace NetPolicy.Daemon

open NetPolicy.Policy NetPolicy.Flow SeparatedText

/-! ### Address lists -/

/-- What `ParseIpString` can end in besides a list: the two exceptions of `std::stoi`,
and a range up to the largest `int`, whose counter overflows. -/
inductive Fault where
  | invalidArgument
  | outOfRange
  | signedOverflow
deriving DecidableEq, Repr

def intMin : Int := -2147483648
def intMax : Int := 2147483647

def isCSpace (char : Char) : Bool :=
  char == ' ' || char == '\t' || char == '\n' || char == '\x0b' || char == '\x0c' || char == '\r'

def signOf : List Char → Bool × List Char
  | '-' :: rest => (true, rest)
  | '+' :: rest => (false, rest)
  | rest => (false, rest)

/-- `std::stoi`: blanks, a sign, digits, and whatever follows is not looked at. -/
def stoi (text : List Char) : Except Fault Int :=
  let signed := signOf (text.dropWhile isCSpace)
  match parseDecimal (signed.2.takeWhile Char.isDigit) with
  | none => .error .invalidArgument
  | some magnitude =>
      let value : Int := if signed.1 then -(magnitude : Int) else magnitude
      if intMin ≤ value ∧ value ≤ intMax then .ok value else .error .outOfRange

/-- `std::getline` with a comma: no last item after a final comma. -/
def commaItems (text : List Char) : List (List Char) :=
  let items := text.splitOn ','
  if items.getLast? = some [] then items.dropLast else items

def rangeItems (base : String) (first last : Int) : Except Fault (List String) :=
  if last = intMax ∧ first ≤ last then .error .signedOverflow
  else
    .ok ((List.range (last - first + 1).toNat).map fun (step : Nat) =>
      base ++ toString (first + step))

/-- An item with a dash is a range of the last octet; a range whose start is not four
numbers gives nothing. -/
def parseIpItem (item : List Char) : Except Fault (List String) :=
  if item.contains '-' then
    let startIp := item.takeWhile (· ≠ '-')
    let endIp := (item.dropWhile (· ≠ '-')).drop 1
    if startIp.count '.' = 3 then do
      let lastOctet := (startIp.reverse.takeWhile (· ≠ '.')).reverse
      let base := String.ofList (startIp.take (startIp.length - lastOctet.length))
      let first ← stoi lastOctet
      let last ← stoi endIp
      rangeItems base first last
    else .ok []
  else .ok [String.ofList item]

def parseIpItems : List (List Char) → Except Fault (List String)
  | [] => .ok []
  | item :: rest => do
      let here ← parseIpItem item
      let later ← parseIpItems rest
      pure (here ++ later)

def parseIpString (input : String) : Except Fault (List String) :=
  parseIpItems (commaItems input.toList)

/-! ### Documents -/

structure HttpDoc where
  host : Option String
  method : Option String
  path : Option String
deriving DecidableEq, Repr

/-- The pod identifiers of a document only steer connection tracking outside. -/
structure AddressDoc where
  ip : Option String
deriving DecidableEq, Repr

structure PortDoc where
  endPort : Option Int
  port : Option Int
deriving DecidableEq, Repr

structure RuleDoc where
  action : Option String
  direction : Option String
  protocol : Option String
  http : Option (List HttpDoc)
  fromAddresses : Option (List AddressDoc)
  ports : Option (List PortDoc)
  priority : Option Int
  toAddresses : Option (List AddressDoc)
deriving DecidableEq, Repr

structure PolicyDoc where
  policyName : Option String
  rules : Option (List RuleDoc)
deriving DecidableEq, Repr

/-! ### Reading a document -/

def convertRuleAction (text : String) : NetPolicyRule :=
  if text = "Allow" ∨ text = "Log" then .allow
  else if text = "Alert" then .mark
  else .deny

def netProtoConvert (proto : String) : Nat :=
  if proto = "TCP" then ipprotoTcp
  else if proto = "UDP" then ipprotoUdp
  else if proto = "ICMP" then ipprotoIcmp
  else 0

def readDirection (text : String) : FlowDir := if text = "ingress" then .ingress else .egress

/-- A rule without one of its three texts ends the loop. -/
def addHttpRules (dir : FlowDir) (key : String) (action : NetPolicyRule) :
    MicroSegEngine → List HttpDoc → MicroSegEngine
  | store, [] => store
  | store, doc :: rest =>
      match doc.host, doc.method, doc.path with
      | some host, some method, some path =>
          addHttpRules dir key action
            (store.addHttpPolicy dir key
              { direction := dir, action := action, host := host, method := method, path := path })
            rest
      | _, _, _ => store

/-- An address without text ends the loop. -/
def parseAddresses : List AddressDoc → Except Fault (List String)
  | [] => .ok []
  | doc :: rest =>
      match doc.ip with
      | none => .ok []
      | some ip => do
          let here ← parseIpString ip
          let later ← parseAddresses rest
          pure (here ++ later)

def toU16 (value : Int) : Nat := (value % 65536).toNat

def readPort (proto : Nat) (doc : PortDoc) : RulePort :=
  let endPort := (doc.endPort.map toU16).getD 0
  let port := (doc.port.map toU16).getD 0
  { endPort := if endPort = 0 then port else endPort, port := port, proto := proto }

def addNewPolicy (store : MicroSegEngine) (policy : RuleDetail) (port : RulePort) :
    MicroSegEngine × Int :=
  if policy.priority ≤ 0 ∨ policy.priority ≥ 129 then (store, -1)
  else (store.addPolicy policy port, 0)

/-- Every source with every destination and every port; no ports is one empty port. -/
def combinations (rule : RuleDetail) (sources destinations : List String)
    (ports : List RulePort) : List (RuleDetail × RulePort) :=
  let ports := if ports.isEmpty then [{ endPort := 0, port := 0, proto := 0 }] else ports
  sources.flatMap fun source =>
    destinations.flatMap fun destination =>
      ports.map fun port => ({ rule with srcIp := source, dstIp := destination }, port)

/-- The return values of the single additions are only logged. -/
def installAll (store : MicroSegEngine) (additions : List (RuleDetail × RulePort)) :
    MicroSegEngine :=
  additions.foldl (fun store addition => (addNewPolicy store addition.1 addition.2).1) store

inductive LoopExit where
  | next
  | stop
  | threw (fault : Fault)
deriving DecidableEq, Repr

def parseRule (name : String) (store : MicroSegEngine) (doc : RuleDoc) :
    MicroSegEngine × LoopExit :=
  match doc.action, doc.direction with
  | some action, some direction =>
      let rule : RuleDetail :=
        { proto := (doc.protocol.map netProtoConvert).getD 0
          priority := doc.priority.getD 0
          addrType := 0
          direction := readDirection direction
          action := (convertRuleAction action).value
          actionDsc := action
          policyKey := name
          srcIp := ""
          dstIp := ""
          ports := [] }
      let store :=
        addHttpRules rule.direction name (convertRuleAction action) store (doc.http.getD [])
      match doc.fromAddresses with
      | none => (store, .stop)
      | some sources =>
          match parseAddresses sources with
          | .error fault => (store, .threw fault)
          | .ok sources =>
              let ports := (doc.ports.getD []).map (readPort rule.proto)
              match doc.priority, doc.toAddresses with
              | some _, some destinations =>
                  match parseAddresses destinations with
                  | .error fault => (store, .threw fault)
                  | .ok destinations =>
                      (installAll store (combinations rule sources destinations ports), .next)
              | _, _ => (store, .stop)
  | _, _ => (store, .stop)

def parseRules (name : String) : MicroSegEngine → List RuleDoc → MicroSegEngine × LoopExit
  | store, [] => (store, .next)
  | store, doc :: rest =>
      match parseRule name store doc with
      | (store, .next) => parseRules name store rest
      | (store, exit) => (store, exit)

/-- `DeletePolicy`: an empty name deletes nothing. -/
def deletePolicy (name : String) (store : MicroSegEngine) : MicroSegEngine :=
  if name = "" then store else store.deletePolicy name

def parseNetPolicy (store : MicroSegEngine) (doc : PolicyDoc) :
    MicroSegEngine × Except Fault Int :=
  match doc.policyName with
  | none => (store, .ok (-1))
  | some name =>
      let store := deletePolicy name store
      match doc.rules with
      | none => (store, .ok (-1))
      | some rules =>
          match parseRules name store rules with
          | (store, .threw fault) => (store, .error fault)
          | (store, _) => (store, .ok 0)

/-! ### Requests -/

inductive PolicyAction where
  | unspecified
  | deny
  | allow
  | alert
  | unrecognized (value : Int)
deriving DecidableEq, Repr

inductive FlowDirection where
  | unspecified
  | ingress
  | egress
  | unrecognized (value : Int)
deriving DecidableEq, Repr

inductive L4Protocol where
  | unspecified
  | tcp
  | udp
  | icmp
  | unrecognized (value : Int)
deriving DecidableEq, Repr

structure HttpMatchRule where
  host : String
  method : String
  path : String
deriving DecidableEq, Repr

structure PortRange where
  port : Nat
  endPort : Nat
deriving DecidableEq, Repr

structure PolicyRuleSpec where
  action : PolicyAction
  direction : FlowDirection
  protocol : L4Protocol
  httpRules : List HttpMatchRule
  fromAddresses : List String
  toAddresses : List String
  ports : List PortRange
  priority : Int
deriving DecidableEq, Repr

def policyActionToStr : PolicyAction → String
  | .allow => "Allow"
  | .alert => "Alert"
  | _ => "Deny"

def flowDirectionToStr : FlowDirection → String
  | .ingress => "ingress"
  | _ => "egress"

def l4ProtocolToStr : L4Protocol → String
  | .tcp => "TCP"
  | .udp => "UDP"
  | .icmp => "ICMP"
  | _ => ""

/-- `c_str` handed to a C function: the text up to the first NUL. -/
def cString (text : String) : String :=
  String.ofList (text.toList.takeWhile (· ≠ '\x00'))

/-- The `valueint` of a number: values too large for an `int` read as the largest. -/
def valueInt (value : Nat) : Int := min (value : Int) intMax

def HttpMatchRule.toDoc (rule : HttpMatchRule) : HttpDoc :=
  { host := some (cString rule.host)
    method := some (cString rule.method)
    path := some (cString rule.path) }

def PolicyRuleSpec.toDoc (rule : PolicyRuleSpec) : RuleDoc :=
  { action := some (policyActionToStr rule.action)
    direction := some (flowDirectionToStr rule.direction)
    protocol :=
      if rule.protocol = .unspecified then none else some (l4ProtocolToStr rule.protocol)
    http := if rule.httpRules.isEmpty then none else some (rule.httpRules.map HttpMatchRule.toDoc)
    fromAddresses := some (rule.fromAddresses.map fun ip => { ip := some (cString ip) })
    ports :=
      if rule.ports.isEmpty then none
      else
        some (rule.ports.map fun range =>
          { endPort := some (valueInt range.endPort), port := some (valueInt range.port) })
    priority := some rule.priority
    toAddresses := some (rule.toAddresses.map fun ip => { ip := some (cString ip) }) }

/-- `GrpcDispatchAddPolicyRule`.  When the closure throws, the status keeps its
initial value. -/
def addPolicyRule (store : MicroSegEngine) (policyName : String) (rules : List PolicyRuleSpec) :
    MicroSegEngine × Int :=
  match
    parseNetPolicy store
      { policyName := some (cString policyName)
        rules := some (rules.map PolicyRuleSpec.toDoc) } with
  | (store, .ok status) => (store, status)
  | (store, .error _) => (store, 1)

/-- `ParseNodeCfg`; an address that does not parse stands for 0.0.0.0. -/
def updateNodeConfig (store : MicroSegEngine) (isDelete : Bool) (nodeIps : List String) :
    MicroSegEngine :=
  nodeIps.foldl
    (fun store ip =>
      let address := (parseIpv4Addr (cString ip)).getD 0
      { store with
        nodesIp :=
          if isDelete then store.nodesIp.erase address else store.nodesIp.insert address () })
    store

inductive ControlOp where
  | addPolicyRule (policyName : String) (rules : List PolicyRuleSpec)
  | deletePolicyRule (policyName : String)
  | resetConfig
  | updateNodeConfig (isDelete : Bool) (nodeIps : List String)
deriving DecidableEq, Repr

def MicroSegEngine.apply (store : MicroSegEngine) : ControlOp → MicroSegEngine
  | .addPolicyRule policyName rules => (NetPolicy.Daemon.addPolicyRule store policyName rules).1
  | .deletePolicyRule policyName => NetPolicy.Daemon.deletePolicy policyName store
  | .resetConfig => store.clearCfg
  | .updateNodeConfig isDelete nodeIps => NetPolicy.Daemon.updateNodeConfig store isDelete nodeIps

end NetPolicy.Daemon
