/-
The policy store: layer 3/4 rules in the policy engine, HTTP rules in two maps.

HTTP rules are kept under the policy's name, one map for each direction.  A packet is
matched in its own direction first; when the answer is not an allowance, a rule of the
opposite direction with a smaller priority number takes its place.
-/

import NetPolicy.Library.Tables
import NetPolicy.Policy.Engine
import NetPolicy.Flow.Packet
import NetPolicy.Http.Connection

namespace NetPolicy.Daemon

open NetPolicy.Policy NetPolicy.Flow NetPolicy.Http

inductive NetPolicyRule where
  | deny
  | allow
  | mark
  | allowRsp
  | allowReq
  | default
  | max
deriving DecidableEq, Repr

namespace NetPolicyRule

def value : NetPolicyRule → Nat
  | .deny => 0
  | .allow => 1
  | .mark => 2
  | .allowRsp => 3
  | .allowReq => 4
  | .default => 5
  | .max => 6

/-- `static_cast<NetPolicyRule>`.  Only values of the enumeration are ever stored. -/
def ofValue : Nat → NetPolicyRule
  | 0 => .deny
  | 1 => .allow
  | 2 => .mark
  | 3 => .allowRsp
  | 4 => .allowReq
  | 5 => .default
  | _ => .max

end NetPolicyRule

/-! ### Five-tuples of the daemon -/

structure FiveTuple where
  proto : Nat
  totLen : Nat
  srcPort : Nat
  dstPort : Nat
  srcAddrU32 : Ipv4Addr
  dstAddrU32 : Ipv4Addr
  srcAddr : String
  dstAddr : String
deriving DecidableEq, Repr

namespace FiveTuple

def reverseTuple (tuple : FiveTuple) : FiveTuple :=
  { proto := tuple.proto
    totLen := tuple.totLen
    srcPort := tuple.dstPort
    dstPort := tuple.srcPort
    srcAddrU32 := tuple.dstAddrU32
    dstAddrU32 := tuple.srcAddrU32
    srcAddr := tuple.dstAddr
    dstAddr := tuple.srcAddr }

def ofResult (result : FiveTupleResult) : FiveTuple :=
  { proto := result.proto
    totLen := result.totLen
    srcPort := result.srcPort
    dstPort := result.dstPort
    srcAddrU32 := result.srcAddr
    dstAddrU32 := result.dstAddr
    srcAddr := formatIpv4Addr result.srcAddr
    dstAddr := formatIpv4Addr result.dstAddr }

end FiveTuple

/-! ### The store -/

structure HttpRuleInfo where
  direction : FlowDir
  action : NetPolicyRule
  host : String
  method : String
  path : String
deriving DecidableEq, Repr

structure MicroSegEngine where
  policyRule : RustPolicyEngine
  nodesIp : Table Ipv4Addr Unit
  inputHttpPolicy : Table String (List HttpRuleInfo)
  outputHttpPolicy : Table String (List HttpRuleInfo)

namespace MicroSegEngine

def new : MicroSegEngine :=
  { policyRule := RustPolicyEngine.new
    nodesIp := Table.empty
    inputHttpPolicy := Table.empty
    outputHttpPolicy := Table.empty }

def httpPolicy (store : MicroSegEngine) : FlowDir → Table String (List HttpRuleInfo)
  | .ingress => store.inputHttpPolicy
  | .egress => store.outputHttpPolicy

def isNodeIp (store : MicroSegEngine) (ip : Ipv4Addr) : Bool := store.nodesIp.contains ip

def deletePolicy (store : MicroSegEngine) (name : String) : MicroSegEngine :=
  { store with
    inputHttpPolicy := store.inputHttpPolicy.erase name
    outputHttpPolicy := store.outputHttpPolicy.erase name
    policyRule := (store.policyRule.deletePolicy .ingress name).deletePolicy .egress name }

def addHttpPolicy (store : MicroSegEngine) (dir : FlowDir) (key : String) (rule : HttpRuleInfo) :
    MicroSegEngine :=
  let rules := ((store.httpPolicy dir).lookup key).getD [] ++ [rule]
  match dir with
  | .ingress => { store with inputHttpPolicy := store.inputHttpPolicy.insert key rules }
  | .egress => { store with outputHttpPolicy := store.outputHttpPolicy.insert key rules }

def addPolicy (store : MicroSegEngine) (policy : RuleDetail) (port : RulePort) : MicroSegEngine :=
  { store with policyRule := store.policyRule.addPolicy policy port }

/-- `ClearCfg` clears the layer 3/4 rules and nothing else. -/
def clearCfg (store : MicroSegEngine) : MicroSegEngine :=
  { store with policyRule := store.policyRule.clearCfg }

end MicroSegEngine

/-! ### Matching -/

def HttpRuleInfo.covers (rule : HttpRuleInfo) (state : Header) : Bool :=
  (rule.host == "" || rule.host == state.host) &&
    (rule.method == "" || rule.method == state.method) &&
    (rule.path == "" || rule.path == state.path)

def matchHttpPolicyRule (rules : List HttpRuleInfo) (state : Header) : NetPolicyRule :=
  match rules.find? fun rule => rule.covers state with
  | some rule => rule.action
  | none => .default

def matchNetPolicyRule (order : IterationOrder RuleDetail) (store : MicroSegEngine)
    (tuple : FiveTuple) (dir : FlowDir) : Option RuleDetail :=
  if store.isNodeIp tuple.srcAddrU32 then none
  else
    store.policyRule.matchFiveTuple order tuple.proto tuple.dstPort tuple.srcPort tuple.srcAddr
      tuple.dstAddr dir

def opposite : FlowDir → FlowDir
  | .ingress => .egress
  | .egress => .ingress

/-- The answer of `MatchMicroPolicyRule`, with the three arguments it overwrites. -/
structure MicroMatch where
  rule : NetPolicyRule
  tuple : FiveTuple
  dir : FlowDir
  ruleKey : String
deriving DecidableEq, Repr

def matchMicroPolicyRule (order : IterationOrder RuleDetail) (store : MicroSegEngine)
    (tuple : FiveTuple) (dir : FlowDir) : MicroMatch :=
  match matchNetPolicyRule order store tuple dir with
  | none => { rule := .default, tuple := tuple, dir := dir, ruleKey := "" }
  | some detail =>
      let action := NetPolicyRule.ofValue detail.action
      let forward : MicroMatch :=
        { rule := action, tuple := tuple, dir := dir, ruleKey := detail.policyKey }
      if action = .allow then forward
      else
        match matchNetPolicyRule order store tuple.reverseTuple (opposite dir) with
        | none => forward
        | some revDetail =>
            if detail.priority ≤ revDetail.priority then forward
            else
              { rule := NetPolicyRule.ofValue revDetail.action
                tuple := tuple.reverseTuple
                dir := opposite dir
                ruleKey := revDetail.policyKey }

theorem matchMicroPolicyRule_congr {left right : MicroSegEngine}
    (rules : left.policyRule = right.policyRule) (nodes : left.nodesIp = right.nodesIp)
    (order : IterationOrder RuleDetail) :
    matchMicroPolicyRule order left = matchMicroPolicyRule order right := by
  have net : matchNetPolicyRule order left = matchNetPolicyRule order right := by
    funext probe dir
    unfold matchNetPolicyRule MicroSegEngine.isNodeIp
    rw [rules, nodes]
  funext tuple dir
  unfold matchMicroPolicyRule
  rw [net]

end NetPolicy.Daemon
