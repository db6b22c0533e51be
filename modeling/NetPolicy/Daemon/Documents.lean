/-
Requests on their way through a text.

The gRPC thread builds a document, prints it and hands over the text; the epoll thread parses it
and carries the document out.  Whatever a request holds, every field comes out of the text as it
went in: strings up to their first NUL, ports and priorities as they are, pod identifiers rounded
to 53 bits.  So the text carries out the request, and takes permissions back from the pods that
it names.
-/

import NetPolicy.Cjson.WholeNumbers
import NetPolicy.Daemon.MarkProtocol

namespace NetPolicy.Daemon

open NetPolicy.Policy NetPolicy.Flow NetPolicy.Cjson RustText BinaryFormats

/-! ### Building documents -/

inductive Field where
  | policyName
  | rules
  | action
  | direction
  | protocol
  | http
  | host
  | method
  | path
  | fromAddresses
  | toAddresses
  | ip
  | podId
  | ports
  | port
  | endPort
  | priority
  | nodeIps
deriving DecidableEq, Repr

def Field.text : Field → List Char
  | .policyName => ['p', 'o', 'l', 'i', 'c', 'y', '_', 'n', 'a', 'm', 'e']
  | .rules => ['r', 'u', 'l', 'e', 's']
  | .action => ['a', 'c', 't', 'i', 'o', 'n']
  | .direction => ['d', 'i', 'r', 'e', 'c', 't', 'i', 'o', 'n']
  | .protocol => ['p', 'r', 'o', 't', 'o', 'c', 'o', 'l']
  | .http => ['h', 't', 't', 'p']
  | .host => ['h', 'o', 's', 't']
  | .method => ['m', 'e', 't', 'h', 'o', 'd']
  | .path => ['p', 'a', 't', 'h']
  | .fromAddresses => ['f', 'r', 'o', 'm', '_', 'a', 'd', 'd', 'r', 'e', 's', 's', 'e', 's']
  | .toAddresses => ['t', 'o', '_', 'a', 'd', 'd', 'r', 'e', 's', 's', 'e', 's']
  | .ip => ['i', 'p']
  | .podId => ['p', 'o', 'd', '_', 'i', 'd']
  | .ports => ['p', 'o', 'r', 't', 's']
  | .port => ['p', 'o', 'r', 't']
  | .endPort => ['e', 'n', 'd', 'P', 'o', 'r', 't']
  | .priority => ['p', 'r', 'i', 'o', 'r', 'i', 't', 'y']
  | .nodeIps => ['n', 'o', 'd', 'e', '_', 'i', 'p', 's']

def Field.name (field : Field) : CString := CString.ofBuffer (bytesOf field.text)

theorem caseInsensitiveEq_name (left right : Field) :
    caseInsensitiveEq left.name right.name = decide (left = right) := by
  cases left <;> cases right <;> rfl

def cBytes (text : String) : CString := CString.ofBuffer (toUtf8 text.toList)

def stringItem (text : String) : Item := .string (cBytes text)

def numberItem (value : Int) : Item := .number (Double.ofInt value)

def member (field : Field) (item : Item) : CString × Item := (field.name, item)

def AddressEndpoint.item (endpoint : AddressEndpoint) : Item :=
  .object [member .ip (stringItem endpoint.ip), member .podId (numberItem endpoint.podId)]

def HttpMatchRule.item (rule : HttpMatchRule) : Item :=
  .object [member .host (stringItem rule.host), member .method (stringItem rule.method),
    member .path (stringItem rule.path)]

def PortRange.item (range : PortRange) : Item :=
  .object [member .port (numberItem range.port), member .endPort (numberItem range.endPort)]

def RuleRequest.item (rule : RuleRequest) : Item :=
  .object
    ([member .action (stringItem (policyActionToStr rule.action)),
        member .direction (stringItem (flowDirectionToStr rule.direction))] ++
      (if rule.protocol = .unspecified then []
        else [member .protocol (stringItem (l4ProtocolToStr rule.protocol))]) ++
      (if rule.httpRules.isEmpty then []
        else [member .http (.array (rule.httpRules.map HttpMatchRule.item))]) ++
      [member .fromAddresses (.array (rule.fromAddresses.map AddressEndpoint.item)),
        member .toAddresses (.array (rule.toAddresses.map AddressEndpoint.item))] ++
      (if rule.ports.isEmpty then []
        else [member .ports (.array (rule.ports.map PortRange.item))]) ++
      [member .priority (numberItem rule.priority)])

def PolicyRequest.item (request : PolicyRequest) : Item :=
  .object [member .policyName (stringItem request.policyName),
    member .rules (.array (request.rules.map RuleRequest.item))]

/-! ### Reading documents -/

def textOf (string : CString) : String := String.ofList (fromUtf8Lossy string.bytes)

section

variable (item : Item) (field : Field)

/-- No document of a request has another kind of value where a string is read. -/
def stringAt : Option String :=
  ((item.getObjectItem field.name).bind Item.valuestring?).map textOf

def intAt : Option Int := (item.getObjectItem field.name).map Item.valueint

def wordAt : Option Nat :=
  (item.getObjectItem field.name).map fun param => (Double.truncate param.valuedouble).toNat

def childrenAt : Option (List Item) := (item.getObjectItem field.name).map Item.children

end

def readHttp (item : Item) : HttpDoc where
  host := stringAt item .host
  method := stringAt item .method
  path := stringAt item .path

def readAddress (item : Item) : AddressDoc := ⟨stringAt item .ip⟩

def readPortDoc (item : Item) : PortDoc := ⟨intAt item .endPort, intAt item .port⟩

def readRule (item : Item) : RuleDoc where
  action := stringAt item .action
  direction := stringAt item .direction
  protocol := stringAt item .protocol
  http := (childrenAt item .http).map (List.map readHttp)
  fromAddresses := (childrenAt item .fromAddresses).map (List.map readAddress)
  ports := (childrenAt item .ports).map (List.map readPortDoc)
  priority := intAt item .priority
  toAddresses := (childrenAt item .toAddresses).map (List.map readAddress)

def readPolicy (item : Item) : PolicyDoc where
  policyName := stringAt item .policyName
  rules := (childrenAt item .rules).map (List.map readRule)

/-- The pods of addresses up to one without text; an address without a pod is passed over. -/
def addressPods (addresses : List Item) : List Nat :=
  (addresses.takeWhile fun address => (stringAt address .ip).isSome).filterMap fun address =>
    wordAt address .podId

def rulePods (rule : Item) : List Nat :=
  match stringAt rule .action, stringAt rule .direction, childrenAt rule .fromAddresses with
  | some _, some direction, some sources =>
      match readDirection direction with
      | .egress => addressPods sources
      | .ingress =>
          match intAt rule .priority, childrenAt rule .toAddresses with
          | some _, some destinations => addressPods destinations
          | _, _ => []
  | _, _, _ => []

def rulesPods (name : String) : MicroSegEngine → List Item → List Nat
  | _, [] => []
  | store, rule :: rest =>
      match parseRule name store (readRule rule) with
      | (store, .next) => rulePods rule ++ rulesPods name store rest
      | _ => rulePods rule

/-- `ParseNetPolicy`: the store, the outcome, and the pods that `UpdateMark` is called for. -/
def parseNetPolicyText (store : MicroSegEngine) (buf : CString) :
    MicroSegEngine × Except Fault Int × List Nat :=
  match parse buf with
  | none => (store, .ok (-1), [])
  | some root =>
      match parseNetPolicy store (readPolicy root), (readPolicy root).policyName,
        childrenAt root .rules with
      | (after, .ok 0), some name, some rules =>
          (after, .ok 0, rulesPods name (deletePolicy name store) rules)
      | (after, outcome), _, _ => (after, outcome, [])

def dispatchAddPolicyRule (store : MicroSegEngine) (request : PolicyRequest) :
    Except Failure ((MicroSegEngine × Int) × List Nat) :=
  (printUnformatted request.item).map fun json =>
    match parseNetPolicyText store (CString.ofBuffer json) with
    | (store, .ok status, pods) => ((store, status), pods)
    | (store, .error _, pods) => ((store, 1), pods)

/-! ### Strings and numbers -/

theorem toUtf8_takeWhile (text : List Char) :
    (toUtf8 text).takeWhile (· ≠ 0) = toUtf8 (text.takeWhile (· ≠ '\x00')) := by
  induction text with
  | nil => rfl
  | cons character text ih =>
      by_cases nul : character = '\x00'
      · subst nul
        rfl
      · have kept : ∀ byte ∈ String.utf8EncodeChar character, decide (byte ≠ 0) = true := by
          intro byte mem
          refine decide_eq_true fun zero => nul (eq_nul_of_zero_mem ?_)
          exact zero ▸ mem
        have head : (character :: text).takeWhile (· ≠ '\x00') =
            character :: text.takeWhile (· ≠ '\x00') :=
          List.takeWhile_cons_of_pos (by simpa using nul)
        rw [head, toUtf8, List.flatMap_cons, List.takeWhile_append_of_pos kept]
        exact congrArg (String.utf8EncodeChar character ++ ·) ih

theorem textOf_cBytes (text : String) : textOf (cBytes text) = cString text := by
  rw [textOf, cBytes, CString.ofBuffer, cString]
  simp only [toUtf8_takeWhile, fromUtf8Lossy_toUtf8]

theorem toDouble_eq (value : Nat) : toDouble value = binary64.nearest value := by
  have step : binary64.step value = 2 ^ (value.log2 - 52) := by
    have precision : binary64.precision = 53 := rfl
    rw [Format.step, precision, show value.log2 + 1 - 53 = value.log2 - 52 by omega]
  have positive : 0 < 2 ^ (value.log2 - 52) := Nat.two_pow_pos _
  rw [toDouble, Format.nearest, Nat.floor_natCast, step, roundEven_div value positive]
  generalize 2 ^ (value.log2 - 52) = unit at positive ⊢
  have division := Nat.div_add_mod' value unit
  have below : value - value % unit = value / unit * unit := by omega
  rw [← Int.natCast_div]
  split
  · rw [Int.toNat_natCast, below]
  · rw [below, show ((value / unit : Nat) : Int) + 1 = ((value / unit + 1 : Nat) : Int) from rfl,
      Int.toNat_natCast, Nat.add_mul, Nat.one_mul]

/-! ### Documents as their texts have them -/

theorem asPrinted_object {child : List (CString × Item)}
    (members : ∀ member ∈ child, member.2.asPrinted = member.2) :
    (Item.object child).asPrinted = .object child := by
  rw [Item.asPrinted, membersAsPrinted_eq]
  refine congrArg Item.object ((List.map_congr_left fun member mem => ?_).trans (List.map_id child))
  rw [memberAsPrinted, members member mem]
  rfl

theorem asPrinted_array {child : List Item} (elements : ∀ item ∈ child, item.asPrinted = item) :
    (Item.array child).asPrinted = .array child := by
  rw [Item.asPrinted, elementsAsPrinted_eq]
  exact congrArg Item.array ((List.map_congr_left elements).trans (List.map_id child))

theorem asPrinted_number {value : Int} (small : value.natAbs < 2 ^ 64) :
    (numberItem value).asPrinted = numberItem value := by
  obtain ⟨magnitude, finite, _⟩ := ofInt_finite small
  rw [numberItem, finite, Item.asPrinted]

/-- The values that the fields of a rule can take; a pod identifier does not round up to
`2 ^ 64`, which has no conversion back. -/
structure RuleRequest.Typed (rule : RuleRequest) : Prop where
  pods : ∀ endpoint ∈ rule.fromAddresses ++ rule.toAddresses, endpoint.podId + 2 ^ 10 < 2 ^ 64
  ports : ∀ range ∈ rule.ports, range.port < 2 ^ 32 ∧ range.endPort < 2 ^ 32
  priority : intMin ≤ rule.priority ∧ rule.priority ≤ intMax

theorem asPrinted_address {endpoint : AddressEndpoint}
    (small : endpoint.podId + 2 ^ 10 < 2 ^ 64) : endpoint.item.asPrinted = endpoint.item := by
  refine asPrinted_object ?_
  simp only [List.forall_mem_cons, member]
  exact ⟨rfl, asPrinted_number (by omega), List.forall_mem_nil _⟩

theorem asPrinted_http (rule : HttpMatchRule) : rule.item.asPrinted = rule.item := by
  refine asPrinted_object ?_
  simp only [List.forall_mem_cons, member]
  exact ⟨rfl, rfl, rfl, List.forall_mem_nil _⟩

theorem asPrinted_range {range : PortRange} (small : range.port < 2 ^ 32 ∧ range.endPort < 2 ^ 32) :
    range.item.asPrinted = range.item := by
  refine asPrinted_object ?_
  simp only [List.forall_mem_cons, member]
  exact ⟨asPrinted_number (by omega), asPrinted_number (by omega), List.forall_mem_nil _⟩

theorem forall_mem_optional {absent : Prop} [Decidable absent] {entry : CString × Item}
    {p : CString × Item → Prop} (holds : p entry) : ∀ member ∈ if absent then [] else [entry], p member := by
  intro member mem
  split at mem
  · cases mem
  · rw [List.mem_singleton.mp mem]
    exact holds

theorem asPrinted_list {α : Type} {build : α → Item} {values : List α}
    (each : ∀ value ∈ values, (build value).asPrinted = build value) :
    (Item.array (values.map build)).asPrinted = .array (values.map build) :=
  asPrinted_array (List.forall_mem_map.mpr each)

theorem asPrinted_rule {rule : RuleRequest} (typed : rule.Typed) :
    rule.item.asPrinted = rule.item := by
  have sources : ∀ endpoint ∈ rule.fromAddresses, endpoint.item.asPrinted = endpoint.item :=
    fun endpoint mem => asPrinted_address (typed.pods endpoint (List.mem_append_left _ mem))
  have destinations : ∀ endpoint ∈ rule.toAddresses, endpoint.item.asPrinted = endpoint.item :=
    fun endpoint mem => asPrinted_address (typed.pods endpoint (List.mem_append_right _ mem))
  have bounds := typed.priority
  rw [intMin, intMax] at bounds
  refine asPrinted_object ?_
  simp only [List.forall_mem_append, List.forall_mem_cons, member]
  refine ⟨⟨⟨⟨⟨⟨rfl, rfl, List.forall_mem_nil _⟩, forall_mem_optional rfl⟩, forall_mem_optional ?_⟩,
    asPrinted_list sources, asPrinted_list destinations, List.forall_mem_nil _⟩,
    forall_mem_optional ?_⟩, asPrinted_number (by omega), List.forall_mem_nil _⟩
  · exact asPrinted_list fun http _ => asPrinted_http http
  · exact asPrinted_list fun range mem => asPrinted_range (typed.ports range mem)

theorem asPrinted_request {request : PolicyRequest} (typed : ∀ rule ∈ request.rules, rule.Typed) :
    request.item.asPrinted = request.item := by
  refine asPrinted_object ?_
  simp only [List.forall_mem_cons, member]
  exact ⟨rfl, asPrinted_list fun rule mem => asPrinted_rule (typed rule mem), List.forall_mem_nil _⟩

/-! ### Nesting -/

theorem depth_list {α : Type} {build : α → Item} {room : Nat} (each : ∀ value, (build value).depth ≤ room)
    (values : List α) : (Item.array (values.map build)).depth ≤ room + 1 :=
  array_depth_le.mpr (List.forall_mem_map.mpr fun value _ => each value)

theorem depth_address (endpoint : AddressEndpoint) : endpoint.item.depth ≤ 1 := by
  rw [AddressEndpoint.item, object_depth_le]
  simp [member, stringItem, numberItem, Item.depth]

theorem depth_http (rule : HttpMatchRule) : rule.item.depth ≤ 1 := by
  rw [HttpMatchRule.item, object_depth_le]
  simp [member, stringItem, Item.depth]

theorem depth_range (range : PortRange) : range.item.depth ≤ 1 := by
  rw [PortRange.item, object_depth_le]
  simp [member, numberItem, Item.depth]

theorem depth_rule (rule : RuleRequest) : rule.item.depth ≤ 3 := by
  rw [RuleRequest.item, object_depth_le]
  simp only [List.forall_mem_append, List.forall_mem_cons, member]
  exact ⟨⟨⟨⟨⟨⟨Nat.zero_le _, Nat.zero_le _, List.forall_mem_nil _⟩,
    forall_mem_optional (Nat.zero_le _)⟩, forall_mem_optional (depth_list depth_http _)⟩,
    depth_list depth_address _, depth_list depth_address _, List.forall_mem_nil _⟩,
    forall_mem_optional (depth_list depth_range _)⟩, Nat.zero_le _, List.forall_mem_nil _⟩

theorem depth_request (request : PolicyRequest) : request.item.depth ≤ 5 := by
  rw [PolicyRequest.item, object_depth_le]
  simp only [List.forall_mem_cons, member]
  exact ⟨Nat.zero_le _, depth_list depth_rule _, List.forall_mem_nil _⟩

/-! ### Members -/

section Members

variable {name field : Field} {item : Item}

theorem getObjectItem_member {rest : List (CString × Item)} :
    (Item.object (member field item :: rest)).getObjectItem name.name =
      if name = field then some item else (Item.object rest).getObjectItem name.name := by
  rw [Item.getObjectItem, List.find?_cons, member, caseInsensitiveEq_name]
  by_cases same : name = field
  · rw [if_pos same, decide_eq_true same]
    rfl
  · rw [if_neg same, decide_eq_false same]
    rfl

theorem getObjectItem_append {name : CString} {first later : List (CString × Item)} :
    (Item.object (first ++ later)).getObjectItem name =
      ((Item.object first).getObjectItem name).or ((Item.object later).getObjectItem name) := by
  rw [Item.getObjectItem, List.find?_append, Option.map_or]
  rfl

theorem getObjectItem_optional {absent : Prop} [Decidable absent] :
    (Item.object (if absent then [] else [member field item])).getObjectItem name.name =
      if absent then none else if name = field then some item else none := by
  split
  · rfl
  · exact getObjectItem_member

theorem getObjectItem_nil {name : CString} : (Item.object []).getObjectItem name = none := rfl

end Members

theorem valuestring_stringItem (text : String) :
    (stringItem text).valuestring?.map textOf = some (cString text) :=
  congrArg some (textOf_cBytes text)

theorem valueint_numberItem {value : Int} (small : value.natAbs < 2 ^ 53) :
    (numberItem value).valueint = max intMin (min intMax value) := by
  rw [numberItem, Item.valueint, valueint_ofInt small]
  rfl

theorem valueint_natCast {value : Nat} (small : value < 2 ^ 32) :
    (numberItem value).valueint = valueInt value := by
  rw [valueint_numberItem (by omega), valueInt, min_comm, max_eq_right]
  exact le_min (by rw [intMin]; omega) (by decide)

theorem truncate_valuedouble {value : Nat} (small : value < 2 ^ 64) :
    (Double.truncate (numberItem value).valuedouble).toNat = toDouble value := by
  have whole : (value : Int).natAbs < 2 ^ 64 := by omega
  have number : (numberItem value).valuedouble = Double.ofInt value := rfl
  rw [number, truncate_ofInt whole, if_neg (by omega), Int.toNat_natCast, Int.natAbs_natCast,
    toDouble_eq]

theorem readHttp_item (rule : HttpMatchRule) : readHttp rule.item = rule.toDoc := by
  simp [readHttp, HttpMatchRule.item, HttpMatchRule.toDoc, stringAt, getObjectItem_member,
    valuestring_stringItem]

theorem ip_item (endpoint : AddressEndpoint) :
    stringAt endpoint.item .ip = some (cString endpoint.ip) := by
  simp [AddressEndpoint.item, stringAt, getObjectItem_member, valuestring_stringItem]

theorem podId_item {endpoint : AddressEndpoint} (small : endpoint.podId + 2 ^ 10 < 2 ^ 64) :
    wordAt endpoint.item .podId = some (toDouble endpoint.podId) := by
  rw [wordAt, AddressEndpoint.item, getObjectItem_member, if_neg (by decide), getObjectItem_member,
    if_pos rfl, Option.map_some, truncate_valuedouble (by omega)]

theorem readPortDoc_item {range : PortRange} (small : range.port < 2 ^ 32 ∧ range.endPort < 2 ^ 32) :
    readPortDoc range.item = ⟨some (valueInt range.endPort), some (valueInt range.port)⟩ := by
  simp [readPortDoc, PortRange.item, intAt, getObjectItem_member, valueint_natCast small.1,
    valueint_natCast small.2]

/-! ### Rules -/

theorem cString_policyActionToStr (action : PolicyAction) :
    cString (policyActionToStr action) = policyActionToStr action := by
  rw [policyActionToStr.eq_def]
  split <;> decide

theorem cString_flowDirectionToStr (direction : FlowDirection) :
    cString (flowDirectionToStr direction) = flowDirectionToStr direction := by
  rw [flowDirectionToStr.eq_def]
  split <;> decide

theorem cString_l4ProtocolToStr (protocol : L4Protocol) :
    cString (l4ProtocolToStr protocol) = l4ProtocolToStr protocol := by
  rw [l4ProtocolToStr.eq_def]
  split <;> decide

section Rule

variable (rule : RuleRequest)

theorem action_item : stringAt rule.item .action = some (policyActionToStr rule.action) := by
  simp [stringAt, RuleRequest.item, getObjectItem_member, valuestring_stringItem,
    cString_policyActionToStr]

theorem direction_item :
    stringAt rule.item .direction = some (flowDirectionToStr rule.direction) := by
  simp [stringAt, RuleRequest.item, getObjectItem_member, valuestring_stringItem,
    cString_flowDirectionToStr]

theorem fromAddresses_item :
    childrenAt rule.item .fromAddresses = some (rule.fromAddresses.map AddressEndpoint.item) := by
  simp [childrenAt, RuleRequest.item, getObjectItem_member, getObjectItem_append,
    getObjectItem_optional, Item.children]

theorem toAddresses_item :
    childrenAt rule.item .toAddresses = some (rule.toAddresses.map AddressEndpoint.item) := by
  simp [childrenAt, RuleRequest.item, getObjectItem_member, getObjectItem_append,
    getObjectItem_optional, Item.children]

theorem protocol_item :
    stringAt rule.item .protocol =
      if rule.protocol = .unspecified then none else some (l4ProtocolToStr rule.protocol) := by
  by_cases absent : rule.protocol = .unspecified <;>
    simp [absent, stringAt, RuleRequest.item, getObjectItem_member, getObjectItem_append,
      getObjectItem_optional, getObjectItem_nil, valuestring_stringItem, cString_l4ProtocolToStr]

theorem http_item :
    childrenAt rule.item .http =
      if rule.httpRules.isEmpty then none else some (rule.httpRules.map HttpMatchRule.item) := by
  by_cases absent : rule.httpRules.isEmpty <;>
    simp [absent, childrenAt, RuleRequest.item, getObjectItem_member, getObjectItem_append,
      getObjectItem_optional, getObjectItem_nil, Item.children]

theorem ports_item :
    childrenAt rule.item .ports =
      if rule.ports.isEmpty then none else some (rule.ports.map PortRange.item) := by
  by_cases absent : rule.ports.isEmpty <;>
    simp [absent, childrenAt, RuleRequest.item, getObjectItem_member, getObjectItem_append,
      getObjectItem_optional, getObjectItem_nil, Item.children]

theorem priority_item (typed : rule.Typed) : intAt rule.item .priority = some rule.priority := by
  have bounds := typed.priority
  have fits : rule.priority.natAbs < 2 ^ 53 := by
    rw [intMin, intMax] at bounds
    omega
  have priority : (numberItem rule.priority).valueint = rule.priority := by
    rw [valueint_numberItem fits, min_eq_right bounds.2, max_eq_right bounds.1]
  simp [intAt, RuleRequest.item, getObjectItem_member, getObjectItem_append,
    getObjectItem_optional, priority]

theorem readRule_item (typed : rule.Typed) : readRule rule.item = rule.spec.toDoc := by
  have https : (rule.httpRules.map HttpMatchRule.item).map readHttp =
      rule.httpRules.map HttpMatchRule.toDoc := by
    rw [List.map_map]
    exact List.map_congr_left fun http _ => readHttp_item http
  have addresses : ∀ endpoints : List AddressEndpoint,
      (endpoints.map AddressEndpoint.item).map readAddress =
        (endpoints.map AddressEndpoint.ip).map fun ip => ⟨some (cString ip)⟩ := by
    intro endpoints
    rw [List.map_map, List.map_map]
    exact List.map_congr_left fun endpoint _ => congrArg AddressDoc.mk (ip_item endpoint)
  have ports : (rule.ports.map PortRange.item).map readPortDoc =
      rule.ports.map fun range => ⟨some (valueInt range.endPort), some (valueInt range.port)⟩ := by
    rw [List.map_map]
    exact List.map_congr_left fun range mem => readPortDoc_item (typed.ports range mem)
  rw [readRule, action_item, direction_item, protocol_item, http_item, fromAddresses_item,
    ports_item, priority_item rule typed, toAddresses_item, apply_ite (Option.map _),
    apply_ite (Option.map _), Option.map_some, Option.map_some, Option.map_some, Option.map_some,
    https, addresses, addresses, ports]
  rfl

end Rule

theorem readPolicy_item {request : PolicyRequest} (typed : ∀ rule ∈ request.rules, rule.Typed) :
    readPolicy request.item =
      ⟨some (cString request.policyName),
        some ((request.rules.map RuleRequest.spec).map PolicyRuleSpec.toDoc)⟩ := by
  have rules : (request.rules.map RuleRequest.item).map readRule =
      (request.rules.map RuleRequest.spec).map PolicyRuleSpec.toDoc := by
    rw [List.map_map, List.map_map]
    exact List.map_congr_left fun rule mem => readRule_item rule (typed rule mem)
  rw [readPolicy, ← rules]
  simp [PolicyRequest.item, stringAt, childrenAt, getObjectItem_member, valuestring_stringItem,
    Item.children]

theorem rules_item (request : PolicyRequest) :
    childrenAt request.item .rules = some (request.rules.map RuleRequest.item) := by
  simp [PolicyRequest.item, childrenAt, getObjectItem_member, Item.children]

/-! ### Pods -/

theorem addressPods_item {endpoints : List AddressEndpoint}
    (small : ∀ endpoint ∈ endpoints, endpoint.podId + 2 ^ 10 < 2 ^ 64) :
    addressPods (endpoints.map AddressEndpoint.item) =
      endpoints.map fun endpoint => toDouble endpoint.podId := by
  have texts : ∀ item ∈ endpoints.map AddressEndpoint.item, (stringAt item .ip).isSome = true := by
    refine List.forall_mem_map.mpr fun endpoint _ => ?_
    rw [ip_item]
    rfl
  rw [addressPods, List.takeWhile_eq_self_iff.mpr texts, List.filterMap_map, ← List.filterMap_eq_map]
  exact List.filterMap_congr fun endpoint mem => podId_item (small endpoint mem)

theorem rulePods_item {rule : RuleRequest} (typed : rule.Typed) :
    rulePods rule.item = rule.localPods := by
  have sources : ∀ endpoint ∈ rule.fromAddresses, endpoint.podId + 2 ^ 10 < 2 ^ 64 :=
    fun endpoint mem => typed.pods endpoint (List.mem_append_left _ mem)
  have destinations : ∀ endpoint ∈ rule.toAddresses, endpoint.podId + 2 ^ 10 < 2 ^ 64 :=
    fun endpoint mem => typed.pods endpoint (List.mem_append_right _ mem)
  rw [rulePods, action_item, direction_item, fromAddresses_item, RuleRequest.localPods,
    priority_item rule typed, toAddresses_item]
  dsimp only
  cases readDirection (flowDirectionToStr rule.direction) with
  | ingress => exact addressPods_item destinations
  | egress => exact addressPods_item sources

/-- Every rule of a document is read unless an address range throws. -/
theorem rulesPods_item (name : String) {rules : List RuleRequest} :
    ∀ store, (∀ rule ∈ rules, rule.Typed) →
      (parseRules name store ((rules.map RuleRequest.spec).map PolicyRuleSpec.toDoc)).2 = .next →
      rulesPods name store (rules.map RuleRequest.item) = rules.flatMap RuleRequest.localPods := by
  induction rules with
  | nil => exact fun _ _ _ => rfl
  | cons rule rest ih =>
      intro store typed read
      obtain ⟨first, later⟩ := List.forall_mem_cons.mp typed
      rw [List.map_cons, List.map_cons, parseRules] at read
      rw [List.map_cons, rulesPods, readRule_item rule first, List.flatMap_cons]
      rcases parsed : parseRule name store rule.spec.toDoc with ⟨next, _ | _ | fault⟩
      · rw [parsed] at read
        exact congrArg₂ (· ++ ·) (rulePods_item first) (ih next later read)
      · rw [parsed] at read
        cases read
      · rw [parsed] at read
        cases read

/-! ### Requests -/

section

variable (store : MicroSegEngine) {request : PolicyRequest}

theorem parseNetPolicyText_item (typed : ∀ rule ∈ request.rules, rule.Typed) :
    parseNetPolicyText store request.item.printed =
      let read := parseRules (cString request.policyName)
        (deletePolicy (cString request.policyName) store)
        ((request.rules.map RuleRequest.spec).map PolicyRuleSpec.toDoc)
      (read.1, match read.2 with
        | .threw fault => (.error fault, [])
        | _ => (.ok 0, request.rules.flatMap RuleRequest.localPods)) := by
  have shallow : request.item.depth ≤ nestingLimit := (depth_request request).trans (by decide)
  rw [parseNetPolicyText, parse_printed, if_pos shallow, asPrinted_request typed]
  dsimp only
  rw [readPolicy_item typed, rules_item, parseNetPolicy]
  dsimp only
  have exit := parseRules_exit (deletePolicy (cString request.policyName) store)
    (cString request.policyName) (request.rules.map RuleRequest.spec)
  have pods := rulesPods_item (cString request.policyName)
    (deletePolicy (cString request.policyName) store) typed
  revert exit pods
  generalize parseRules (cString request.policyName)
    (deletePolicy (cString request.policyName) store)
    ((request.rules.map RuleRequest.spec).map PolicyRuleSpec.toDoc) = read
  intro exit pods
  rcases read with ⟨next, _ | _ | fault⟩
  · exact congrArg (fun pods => (next, Except.ok 0, pods)) (pods rfl)
  · exact absurd rfl exit
  · rfl

theorem dispatchAddPolicyRule_eq (typed : ∀ rule ∈ request.rules, rule.Typed) :
    dispatchAddPolicyRule store request =
      if request.item.text.length + 2 ≤ largestInt then
        let added := addPolicyRule store request.policyName (request.rules.map RuleRequest.spec)
        .ok (added, if added.2 = 0 then request.rules.flatMap RuleRequest.localPods else [])
      else .error .refused := by
  rw [dispatchAddPolicyRule, printUnformatted_eq]
  split
  · have back : CString.ofBuffer request.item.text = request.item.printed :=
      ofBuffer_bytes request.item.printed
    rw [Except.map, back, parseNetPolicyText_item store typed, addPolicyRule_eq]
    dsimp only
    generalize parseRules (cString request.policyName)
      (deletePolicy (cString request.policyName) store)
      ((request.rules.map RuleRequest.spec).map PolicyRuleSpec.toDoc) = read
    rcases read with ⟨next, _ | _ | fault⟩ <;> rfl
  · rfl

end

def World.carryOut (kernel : Kernel) (world : World)
    (outcome : (MicroSegEngine × Int) × List Nat) : World where
  daemon := { world.daemon with microseg := outcome.1.1 }
  pods := fun pod =>
    if pod ∈ outcome.2 then (world.pods pod).updateMark kernel.toCtnetlink else world.pods pod

/-- A policy request that fits into a text is carried out as the system's step has it. -/
theorem policy_step_of_text (env : Environment) (kernel : Kernel) (world : World)
    {request : PolicyRequest} (typed : ∀ rule ∈ request.rules, rule.Typed) :
    (dispatchAddPolicyRule world.daemon.microseg request).map
        (fun outcome => some (world.carryOut kernel outcome)) =
      if request.item.text.length + 2 ≤ largestInt then
        .ok (world.step env kernel (.policy request))
      else .error .refused := by
  rw [dispatchAddPolicyRule_eq _ typed]
  split
  · refine congrArg (fun world => Except.ok (some world)) ?_
    rw [World.carryOut]
    refine congrArg (World.mk _) (funext fun pod => if_congr ?_ rfl rfl)
    rw [PolicyRequest.clears, Bool.and_eq_true, decide_eq_true_iff, decide_eq_true_iff]
    split
    · rename_i done
      exact (and_iff_right done).symm
    · rename_i threw
      exact iff_of_false List.not_mem_nil fun both => threw both.1
  · rfl

theorem policy_step_of_text_dns :
    (∀ rule ∈ dnsRequest.rules, rule.Typed) ∧
      (dispatchAddPolicyRule World.start.daemon.microseg dnsRequest).map
        (fun outcome => some (World.start.carryOut plainKernel outcome)) =
      .ok (World.start.step plainEnvironment plainKernel (.policy dnsRequest)) := by
  have typed : ∀ rule ∈ dnsRequest.rules, rule.Typed :=
    List.forall_mem_singleton.mpr ⟨by decide, by decide, by decide⟩
  have fits : dnsRequest.item.text.length + 2 ≤ largestInt := by decide +kernel
  have step := policy_step_of_text plainEnvironment plainKernel World.start typed
  rw [if_pos fits] at step
  exact ⟨typed, step⟩

/-! ### Node addresses -/

def nodeConfigItem (isDelete : Bool) (nodeIps : List String) : Item :=
  .object [member .action (stringItem (if isDelete then "delete" else "add")),
    member .nodeIps (.array (nodeIps.map stringItem))]

def parseNodeCfgText (store : MicroSegEngine) (buf : CString) : MicroSegEngine × Int :=
  match parse buf with
  | none => (store, -1)
  | some root =>
      match stringAt root .action, childrenAt root .nodeIps with
      | some action, some ips =>
          (updateNodeConfig store (action == "delete")
            (ips.filterMap fun ip => ip.valuestring?.map textOf), 0)
      | _, _ => (store, -1)

def dispatchUpdateNodeConfig (store : MicroSegEngine) (isDelete : Bool) (nodeIps : List String) :
    Except Failure (MicroSegEngine × Int) :=
  (printUnformatted (nodeConfigItem isDelete nodeIps)).map fun json =>
    parseNodeCfgText store (CString.ofBuffer json)

theorem cString_cString (text : String) : cString (cString text) = cString text := by
  rw [cString, cString, String.toList_ofList, List.takeWhile_idem]

theorem updateNodeConfig_cString (store : MicroSegEngine) (isDelete : Bool) (nodeIps : List String) :
    updateNodeConfig store isDelete (nodeIps.map cString) =
      updateNodeConfig store isDelete nodeIps := by
  rw [updateNodeConfig, List.foldl_map, updateNodeConfig]
  simp only [cString_cString]

theorem dispatchUpdateNodeConfig_eq (store : MicroSegEngine) (isDelete : Bool)
    (nodeIps : List String) :
    dispatchUpdateNodeConfig store isDelete nodeIps =
      if (nodeConfigItem isDelete nodeIps).text.length + 2 ≤ largestInt then
        .ok (updateNodeConfig store isDelete nodeIps, 0)
      else .error .refused := by
  have same : (nodeConfigItem isDelete nodeIps).asPrinted = nodeConfigItem isDelete nodeIps := by
    refine asPrinted_object ?_
    simp only [List.forall_mem_cons, member]
    exact ⟨rfl, asPrinted_list fun _ _ => rfl, List.forall_mem_nil _⟩
  have shallow : (nodeConfigItem isDelete nodeIps).depth ≤ 2 := by
    rw [nodeConfigItem, object_depth_le]
    simp only [List.forall_mem_cons, member]
    exact ⟨Nat.zero_le _, depth_list (fun _ => Nat.zero_le 0) _, List.forall_mem_nil _⟩
  have action : stringAt (nodeConfigItem isDelete nodeIps) .action =
      some (if isDelete then "delete" else "add") := by
    rw [stringAt, nodeConfigItem, getObjectItem_member, if_pos rfl]
    cases isDelete <;> decide
  have ips : childrenAt (nodeConfigItem isDelete nodeIps) .nodeIps =
      some (nodeIps.map stringItem) := by
    simp [childrenAt, nodeConfigItem, getObjectItem_member, Item.children]
  have texts : (nodeIps.map stringItem).filterMap (fun ip => ip.valuestring?.map textOf) =
      nodeIps.map cString := by
    rw [List.filterMap_map, ← List.filterMap_eq_map]
    exact List.filterMap_congr fun ip _ => valuestring_stringItem ip
  rw [dispatchUpdateNodeConfig, printUnformatted_eq]
  split
  · have back : CString.ofBuffer (nodeConfigItem isDelete nodeIps).text =
        (nodeConfigItem isDelete nodeIps).printed :=
      ofBuffer_bytes (nodeConfigItem isDelete nodeIps).printed
    rw [Except.map, back, parseNodeCfgText, parse_printed, if_pos (shallow.trans (by decide)), same]
    dsimp only
    rw [action, ips]
    dsimp only
    rw [texts, updateNodeConfig_cString]
    cases isDelete <;> rfl
  · rfl

end NetPolicy.Daemon
