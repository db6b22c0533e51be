/-
What a policy request does to the store.

A request lists rules with address texts and port ranges.  Each rule stands for layer 3/4
additions and HTTP clauses, unless one of its ranges cannot be read.  The store after a
request represents what the deletion left of its additions, followed by the additions of
the rules that were read and taken; the clauses of the policy's name grow with each rule.
Every store that requests lead to is of this kind.
-/

import NetPolicy.Policy.Provenance
import NetPolicy.Daemon.HttpClauses

namespace NetPolicy.Daemon

open NetPolicy.Policy NetPolicy.Flow

/-! ### Addresses as a request writes them -/

def addressItems (texts : List String) : List (List Char) :=
  texts.flatMap fun text => commaItems (cString text).toList

/-- The item is the address, or a range the address is in. -/
def StandsFor (item : List Char) (address : String) : Prop :=
  ∃ addresses, parseIpItem item = .ok addresses ∧ address ∈ addresses

def Legible (item : List Char) : Prop := ∃ addresses, parseIpItem item = .ok addresses

theorem parseIpItems_append (first second : List (List Char)) :
    parseIpItems (first ++ second) =
      (do
        let here ← parseIpItems first
        let later ← parseIpItems second
        pure (here ++ later)) := by
  induction first with
  | nil => cases later : parseIpItems second <;> exact later
  | cons item rest ih =>
      rw [List.cons_append, parseIpItems, parseIpItems, ih]
      cases parseIpItem item with
      | error fault => rfl
      | ok here =>
          cases parseIpItems rest with
          | error fault => rfl
          | ok middle =>
              cases parseIpItems second with
              | error fault => rfl
              | ok later => exact congrArg Except.ok (List.append_assoc here middle later).symm

theorem parseAddresses_texts (texts : List String) :
    parseAddresses (texts.map fun ip => { ip := some (cString ip) }) =
      parseIpItems (addressItems texts) := by
  induction texts with
  | nil => rfl
  | cons text rest ih =>
      have items : addressItems (text :: rest) =
          commaItems (cString text).toList ++ addressItems rest := List.flatMap_cons
      rw [List.map_cons, parseAddresses, ih, items, parseIpItems_append]
      rfl

theorem parseIpItems_of_legible {items : List (List Char)}
    (legible : ∀ item ∈ items, Legible item) :
    ∃ addresses, parseIpItems items = .ok addresses := by
  induction items with
  | nil => exact ⟨[], rfl⟩
  | cons item rest ih =>
      obtain ⟨here, readHere⟩ := legible item List.mem_cons_self
      obtain ⟨later, readLater⟩ := ih fun other member =>
        legible other (List.mem_cons_of_mem item member)
      refine ⟨here ++ later, ?_⟩
      rw [parseIpItems, readHere, readLater]
      rfl

theorem parseIpItems_cons_ok {item : List Char} {rest : List (List Char)}
    {addresses : List String} (read : parseIpItems (item :: rest) = .ok addresses) :
    ∃ here later, parseIpItem item = .ok here ∧ parseIpItems rest = .ok later ∧
      addresses = here ++ later := by
  rw [parseIpItems] at read
  cases readHere : parseIpItem item with
  | error fault =>
      rw [readHere] at read
      cases read
  | ok here =>
      cases readLater : parseIpItems rest with
      | error fault =>
          rw [readHere, readLater] at read
          cases read
      | ok later =>
          rw [readHere, readLater] at read
          exact ⟨here, later, rfl, rfl, (Except.ok.inj read).symm⟩

theorem legible_of_parseIpItems {items : List (List Char)} {addresses : List String}
    (read : parseIpItems items = .ok addresses) : ∀ item ∈ items, Legible item := by
  induction items generalizing addresses with
  | nil =>
      intro item member
      cases member
  | cons item rest ih =>
      obtain ⟨here, later, readHere, readLater, -⟩ := parseIpItems_cons_ok read
      exact List.forall_mem_cons.mpr ⟨⟨here, readHere⟩, ih readLater⟩

theorem mem_parseIpItems {items : List (List Char)} {addresses : List String}
    (read : parseIpItems items = .ok addresses) (address : String) :
    address ∈ addresses ↔ ∃ item ∈ items, StandsFor item address := by
  induction items generalizing addresses with
  | nil =>
      cases read
      simp
  | cons item rest ih =>
      obtain ⟨here, later, readHere, readLater, rfl⟩ := parseIpItems_cons_ok read
      rw [List.mem_append, ih readLater, List.exists_mem_cons_iff, StandsFor, readHere]
      simp

/-! ### What a request asks for -/

def Narrow (port : RulePort) : Prop := port.port < 65536 ∧ port.endPort < 65536

def noPort : RulePort := { endPort := 0, port := 0, proto := 0 }

def wantedPort (proto : Nat) (range : PortRange) : RulePort :=
  { endPort := if range.endPort = 0 then range.port else range.endPort
    port := range.port
    proto := proto }

def storedPort (proto : Nat) (range : PortRange) : RulePort :=
  readPort proto { endPort := some (valueInt range.endPort), port := some (valueInt range.port) }

theorem toU16_lt (value : Int) : toU16 value < 65536 := by
  unfold toU16
  omega

theorem toU16_valueInt {value : Nat} (small : value < 65536) : toU16 (valueInt value) = value := by
  unfold toU16 valueInt intMax
  omega

theorem storedPort_narrow (proto : Nat) (range : PortRange) :
    Narrow (storedPort proto range) := by
  refine ⟨toU16_lt _, ?_⟩
  simp only [storedPort, readPort, Option.map_some, Option.getD_some]
  split
  · exact toU16_lt _
  · exact toU16_lt _

theorem storedPort_eq_wantedPort {proto : Nat} {range : PortRange}
    (narrow : Narrow (wantedPort proto range)) :
    storedPort proto range = wantedPort proto range := by
  have portSmall : range.port < 65536 := narrow.1
  have endSmall : range.endPort < 65536 := by
    have wanted := narrow.2
    simp only [wantedPort] at wanted
    split at wanted <;> omega
  simp only [storedPort, readPort, wantedPort, Option.map_some, Option.getD_some,
    toU16_valueInt endSmall, toU16_valueInt portSmall]

namespace PolicyRuleSpec

def netProto (rule : PolicyRuleSpec) : Nat := (rule.toDoc.protocol.map netProtoConvert).getD 0

/-- No ports stand for one empty port. -/
def wantedPorts (rule : PolicyRuleSpec) : List RulePort :=
  if rule.ports.isEmpty then [noPort] else rule.ports.map (wantedPort rule.netProto)

def storedPorts (rule : PolicyRuleSpec) : List RulePort :=
  if rule.ports.isEmpty then [noPort] else rule.ports.map (storedPort rule.netProto)

def between (name : String) (rule : PolicyRuleSpec) (source destination : String) : RuleDetail :=
  { rule.detail name with srcIp := source, dstIp := destination }

def Readable (rule : PolicyRuleSpec) : Prop :=
  ∀ item ∈ addressItems rule.fromAddresses ++ addressItems rule.toAddresses, Legible item

def added (name : String) (rule : PolicyRuleSpec) : List Addition :=
  match rule.additions name with
  | .error _ => []
  | .ok additions => additions

theorem storedPorts_narrow {rule : PolicyRuleSpec} {port : RulePort}
    (member : port ∈ rule.storedPorts) : Narrow port := by
  unfold storedPorts at member
  split at member
  · rw [List.mem_singleton.mp member]
    exact ⟨by decide, by decide⟩
  · obtain ⟨range, -, rfl⟩ := List.mem_map.mp member
    exact storedPort_narrow _ range

theorem mem_storedPorts {rule : PolicyRuleSpec} {port : RulePort}
    (member : port ∈ rule.wantedPorts) (narrow : Narrow port) :
    port ∈ rule.storedPorts := by
  unfold wantedPorts at member
  unfold storedPorts
  split at member
  · rename_i none
    rw [if_pos none]
    exact member
  · rename_i some
    rw [if_neg some]
    obtain ⟨range, inRule, rfl⟩ := List.mem_map.mp member
    exact List.mem_map.mpr ⟨range, inRule, storedPort_eq_wantedPort narrow⟩

theorem wantedPorts_ne_nil (rule : PolicyRuleSpec) : rule.wantedPorts ≠ [] := by
  unfold wantedPorts
  split
  · exact List.cons_ne_nil _ _
  · rename_i some
    intro none
    rw [List.map_eq_nil_iff.mp none] at some
    exact some rfl

theorem mem_combinations (name : String) (rule : PolicyRuleSpec)
    (sources destinations : List String) (addition : Addition) :
    addition ∈ combinations (rule.detail name) sources destinations
        ((rule.toDoc.ports.getD []).map (readPort (rule.detail name).proto)) ↔
      ∃ source ∈ sources, ∃ destination ∈ destinations, ∃ port ∈ rule.storedPorts,
        addition = (rule.between name source destination, port) := by
  have ports : (let ports := (rule.toDoc.ports.getD []).map (readPort (rule.detail name).proto)
      if ports.isEmpty then [{ endPort := 0, port := 0, proto := 0 }] else ports) =
        rule.storedPorts := by
    unfold storedPorts toDoc
    cases rule.ports with
    | nil => rfl
    | cons range rest => simp [storedPort, netProto, detail, toDoc]
  unfold combinations
  dsimp only at ports ⊢
  rw [ports]
  simp only [List.mem_flatMap, List.mem_map, between, eq_comm]

theorem additions_eq_ok_iff (name : String) (rule : PolicyRuleSpec)
    (additions : List Addition) :
    rule.additions name = .ok additions ↔
      ∃ sources destinations, parseIpItems (addressItems rule.fromAddresses) = .ok sources ∧
        parseIpItems (addressItems rule.toAddresses) = .ok destinations ∧
        combinations (rule.detail name) sources destinations
          ((rule.toDoc.ports.getD []).map (readPort (rule.detail name).proto)) = additions := by
  unfold PolicyRuleSpec.additions
  rw [parseAddresses_texts, parseAddresses_texts]
  cases parseIpItems (addressItems rule.fromAddresses) with
  | error fault => simp
  | ok sources =>
      cases parseIpItems (addressItems rule.toAddresses) with
      | error fault => simp
      | ok destinations => simp

theorem readable_iff (name : String) (rule : PolicyRuleSpec) :
    rule.Readable ↔ ∃ additions, rule.additions name = .ok additions := by
  constructor
  · intro readable
    obtain ⟨sources, readSources⟩ := parseIpItems_of_legible fun item member =>
      readable item (List.mem_append_left _ member)
    obtain ⟨destinations, readDestinations⟩ := parseIpItems_of_legible fun item member =>
      readable item (List.mem_append_right _ member)
    exact ⟨_, (rule.additions_eq_ok_iff name _).mpr
      ⟨sources, destinations, readSources, readDestinations, rfl⟩⟩
  · rintro ⟨additions, read⟩
    obtain ⟨sources, destinations, readSources, readDestinations, -⟩ :=
      (rule.additions_eq_ok_iff name additions).mp read
    exact List.forall_mem_append.mpr
      ⟨legible_of_parseIpItems readSources, legible_of_parseIpItems readDestinations⟩

structure Contributes (name : String) (rule : PolicyRuleSpec) (source destination : List Char)
    (addition : Addition) : Prop where
  inSources : source ∈ addressItems rule.fromAddresses
  inDestinations : destination ∈ addressItems rule.toAddresses
  inPorts : addition.2 ∈ rule.storedPorts
  stands : ∃ src dst, StandsFor source src ∧ StandsFor destination dst ∧
    addition.1 = rule.between name src dst

theorem mem_added {rule : PolicyRuleSpec} (readable : rule.Readable) (name : String)
    (addition : Addition) :
    addition ∈ rule.added name ↔
      ∃ source destination, rule.Contributes name source destination addition := by
  obtain ⟨additions, read⟩ := (rule.readable_iff name).mp readable
  obtain ⟨sources, destinations, readSources, readDestinations, rfl⟩ :=
    (rule.additions_eq_ok_iff name additions).mp read
  rw [added, read]
  dsimp only
  rw [rule.mem_combinations]
  constructor
  · rintro ⟨src, inSources, dst, inDestinations, port, inPorts, rfl⟩
    obtain ⟨source, fromSource, forSource⟩ := (mem_parseIpItems readSources src).mp inSources
    obtain ⟨destination, fromDestination, forDestination⟩ :=
      (mem_parseIpItems readDestinations dst).mp inDestinations
    exact ⟨source, destination, fromSource, fromDestination, inPorts,
      src, dst, forSource, forDestination, rfl⟩
  · rintro ⟨source, destination, asked⟩
    obtain ⟨src, dst, forSource, forDestination, ruleEq⟩ := asked.stands
    have inSources := (mem_parseIpItems readSources src).mpr ⟨source, asked.inSources, forSource⟩
    have inDestinations := (mem_parseIpItems readDestinations dst).mpr
      ⟨destination, asked.inDestinations, forDestination⟩
    refine ⟨src, inSources, dst, inDestinations, addition.2, asked.inPorts, ?_⟩
    rw [← ruleEq]

theorem added_of_not_readable {rule : PolicyRuleSpec} (unreadable : ¬rule.Readable)
    (name : String) : rule.added name = [] := by
  unfold added
  cases read : rule.additions name with
  | error fault => rfl
  | ok additions => exact absurd ((rule.readable_iff name).mpr ⟨additions, read⟩) unreadable

/-- Rules that throw add nothing, so what is added always comes from a combination. -/
theorem contributes_of_mem_added {name : String} {rule : PolicyRuleSpec} {addition : Addition}
    (member : addition ∈ rule.added name) :
    ∃ source destination, rule.Contributes name source destination addition := by
  by_cases readable : rule.Readable
  · exact (mem_added readable name addition).mp member
  · rw [added_of_not_readable readable name] at member
    cases member

end PolicyRuleSpec

/-! ### What reading a list of rules stores -/

def admitted (addition : Addition) : Bool :=
  decide (0 < addition.1.priority ∧ addition.1.priority < 129)

def PolicyRuleSpec.clause (rule : PolicyRuleSpec) (http : HttpMatchRule) : HttpRuleInfo :=
  { direction := rule.flowDir
    action := rule.netAction
    host := cString http.host
    method := cString http.method
    path := cString http.path }

def clausesOf (rules : List PolicyRuleSpec) (dir : FlowDir) : List HttpRuleInfo :=
  rules.flatMap fun rule => if rule.flowDir = dir then rule.httpRules.map rule.clause else []

def taken (name : String) (rules : List PolicyRuleSpec) : List Addition :=
  rules.flatMap fun rule => (rule.added name).filter admitted

/-- A list with more appended; appending nothing makes no entry. -/
def extended (found : Option (List HttpRuleInfo)) (more : List HttpRuleInfo) :
    Option (List HttpRuleInfo) :=
  if more = [] then found else some (found.getD [] ++ more)

theorem extended_nil (found : Option (List HttpRuleInfo)) : extended found [] = found := rfl

theorem extended_extended (found : Option (List HttpRuleInfo)) (first second : List HttpRuleInfo) :
    extended (extended found first) second = extended found (first ++ second) := by
  cases first with
  | nil => rfl
  | cons info rest =>
      cases second with
      | nil => rw [extended_nil, List.append_nil]
      | cons other others => simp [extended]

/-- The second store is the first with additions and clauses of one policy. -/
structure Grown (name : String) (before after : MicroSegEngine) (additions : List Addition)
    (clauses : FlowDir → List HttpRuleInfo) : Prop where
  rules : ∀ live, EngineRepresents before.policyRule live →
    EngineRepresents after.policyRule (live ++ additions)
  own : ∀ dir, (after.httpPolicy dir).lookup name =
    extended ((before.httpPolicy dir).lookup name) (clauses dir)
  others : ∀ dir key, key ≠ name →
    (after.httpPolicy dir).lookup key = (before.httpPolicy dir).lookup key

namespace Grown

variable {name : String} {before middle after : MicroSegEngine}

theorem refl (name : String) (store : MicroSegEngine) : Grown name store store [] fun _ => [] where
  rules live represents := by
    rw [List.append_nil]
    exact represents
  own _ := rfl
  others _ _ _ := rfl

theorem trans {additions more : List Addition} {clauses further : FlowDir → List HttpRuleInfo}
    (first : Grown name before middle additions clauses)
    (second : Grown name middle after more further) :
    Grown name before after (additions ++ more) fun dir => clauses dir ++ further dir where
  rules live represents := by
    rw [← List.append_assoc]
    exact second.rules _ (first.rules live represents)
  own dir := by rw [second.own dir, first.own dir, extended_extended]
  others dir key other := (second.others dir key other).trans (first.others dir key other)

end Grown

theorem addHttpRules_policyRule (dir : FlowDir) (name : String) (action : NetPolicyRule)
    (store : MicroSegEngine) (docs : List HttpDoc) :
    (addHttpRules dir name action store docs).policyRule = store.policyRule := by
  induction docs generalizing store with
  | nil => rfl
  | cons doc rest ih =>
      unfold addHttpRules
      split
      · rw [ih]
        cases dir <;> rfl
      · rfl

theorem addHttpRules_others (dir : FlowDir) {name key : String} (other : key ≠ name)
    (action : NetPolicyRule) (store : MicroSegEngine) (docs : List HttpDoc) (side : FlowDir) :
    ((addHttpRules dir name action store docs).httpPolicy side).lookup key =
      (store.httpPolicy side).lookup key := by
  induction docs generalizing store with
  | nil => rfl
  | cons doc rest ih =>
      unfold addHttpRules
      split
      · rw [ih]
        by_cases same : dir = side
        · subst same
          rw [MicroSegEngine.httpPolicy_addHttpPolicy_same, Table.lookup_insert_ne _ _ other]
        · rw [store.httpPolicy_addHttpPolicy_other same]
      · rfl

theorem addHttpRules_own (rule : PolicyRuleSpec) (name : String) (store : MicroSegEngine)
    (https : List HttpMatchRule) (dir : FlowDir) :
    ((addHttpRules rule.flowDir name rule.netAction store
        (https.map HttpMatchRule.toDoc)).httpPolicy dir).lookup name =
      extended ((store.httpPolicy dir).lookup name)
        (if rule.flowDir = dir then https.map rule.clause else []) := by
  induction https generalizing store with
  | nil =>
      rw [List.map_nil, List.map_nil, ite_self]
      rfl
  | cons http rest ih =>
      rw [List.map_cons, addHttpRules]
      simp only [HttpMatchRule.toDoc]
      refine (ih _).trans ?_
      by_cases own : rule.flowDir = dir
      · rw [if_pos own, if_pos own, ← own, MicroSegEngine.httpPolicy_addHttpPolicy_same,
          Table.lookup_insert_same]
        exact extended_extended _ [rule.clause http] (rest.map rule.clause)
      · rw [if_neg own, if_neg own, store.httpPolicy_addHttpPolicy_other own]

theorem grown_addHttpRules (name : String) (store : MicroSegEngine) (rule : PolicyRuleSpec) :
    Grown name store
      (addHttpRules rule.flowDir name rule.netAction store
        (rule.httpRules.map HttpMatchRule.toDoc)) [] (clausesOf [rule]) where
  rules live represents := by
    rw [addHttpRules_policyRule, List.append_nil]
    exact represents
  own dir := by
    rw [addHttpRules_own]
    exact congrArg _ (List.append_nil _).symm
  others dir key other := addHttpRules_others _ other _ store _ dir

theorem addNewPolicy_eq (store : MicroSegEngine) (addition : Addition) :
    (addNewPolicy store addition.1 addition.2).1 =
      if admitted addition then store.addPolicy addition.1 addition.2 else store := by
  unfold addNewPolicy
  by_cases taken : admitted addition = true
  · have within := of_decide_eq_true taken
    rw [if_pos taken, if_neg (by omega)]
  · have outside : ¬(0 < addition.1.priority ∧ addition.1.priority < 129) :=
      fun within => taken (decide_eq_true within)
    rw [if_neg taken, if_pos (by omega)]

theorem addNewPolicy_represents {store : MicroSegEngine} {live : List Addition}
    (represents : EngineRepresents store.policyRule live) (addition : Addition) :
    EngineRepresents (addNewPolicy store addition.1 addition.2).1.policyRule
      (live ++ [addition].filter admitted) := by
  rw [addNewPolicy_eq]
  by_cases taken : admitted addition = true
  · rw [if_pos taken, List.filter_cons_of_pos taken]
    exact represents.addPolicy addition.1 addition.2
  · rw [if_neg taken, List.filter_cons_of_neg taken, List.filter_nil, List.append_nil]
    exact represents

theorem grown_installAll (name : String) (store : MicroSegEngine) (additions : List Addition) :
    Grown name store (installAll store additions) (additions.filter admitted) fun _ => [] where
  rules := by
    induction additions generalizing store with
    | nil =>
        intro live represents
        rw [List.filter_nil, List.append_nil]
        exact represents
    | cons addition rest ih =>
        intro live represents
        have first := addNewPolicy_represents represents addition
        rw [← List.singleton_append, List.filter_append, ← List.append_assoc]
        exact ih _ _ first
  own dir := by
    rw [installAll_httpPolicy]
    rfl
  others dir key _ := by rw [installAll_httpPolicy]

theorem parseRule_readable (name : String) (store : MicroSegEngine) {rule : PolicyRuleSpec}
    (readable : rule.Readable) :
    ∃ next, parseRule name store rule.toDoc = (next, .next) ∧
      Grown name store next (taken name [rule]) (clausesOf [rule]) := by
  obtain ⟨additions, read⟩ := (rule.readable_iff name).mp readable
  have takes : taken name [rule] = additions.filter admitted := by
    rw [taken, List.flatMap_singleton, PolicyRuleSpec.added, read]
  rw [parseRule_toDoc, read]
  refine ⟨_, rfl, ?_⟩
  have grown := (grown_addHttpRules name store rule).trans (grown_installAll name _ additions)
  simp only [List.append_nil, List.nil_append] at grown
  rw [takes]
  exact grown

theorem parseRule_throws (name : String) (store : MicroSegEngine) {rule : PolicyRuleSpec}
    (unreadable : ¬rule.Readable) :
    ∃ next fault, parseRule name store rule.toDoc = (next, .threw fault) ∧
      Grown name store next [] (clausesOf [rule]) := by
  rw [parseRule_toDoc]
  cases read : rule.additions name with
  | error fault => exact ⟨_, fault, rfl, grown_addHttpRules name store rule⟩
  | ok additions => exact absurd ((rule.readable_iff name).mpr ⟨additions, read⟩) unreadable

theorem parseRules_readable (name : String) (store : MicroSegEngine)
    {rules : List PolicyRuleSpec} (readable : ∀ rule ∈ rules, rule.Readable) :
    ∃ next, Grown name store next (taken name rules) (clausesOf rules) ∧
      ∀ rest, parseRules name store ((rules ++ rest).map PolicyRuleSpec.toDoc) =
        parseRules name next (rest.map PolicyRuleSpec.toDoc) := by
  induction rules generalizing store with
  | nil => exact ⟨store, Grown.refl name store, fun _ => rfl⟩
  | cons rule others ih =>
      obtain ⟨middle, read, first⟩ :=
        parseRule_readable name store (readable rule List.mem_cons_self)
      obtain ⟨next, later, onward⟩ := ih middle fun other member =>
        readable other (List.mem_cons_of_mem rule member)
      refine ⟨next, ?_, ?_⟩
      · have grown := first.trans later
        simp only [taken, clausesOf, ← List.flatMap_append, List.singleton_append] at grown
        exact grown
      · intro rest
        rw [List.cons_append, List.map_cons, parseRules, read]
        exact onward rest

/-! ### The whole request -/

/-- What deleting a policy leaves; the empty name deletes nothing. -/
def kept (name : String) (live : List Addition) : List Addition :=
  if name = "" then live else live.filter fun addition => addition.1.policyKey ≠ name

theorem deletePolicy_represents {store : MicroSegEngine} {live : List Addition}
    (represents : EngineRepresents store.policyRule live) (name : String) :
    EngineRepresents (deletePolicy name store).policyRule (kept name live) := by
  unfold deletePolicy kept
  split
  · exact represents
  · have deleted := (represents.deletePolicy .ingress name).deletePolicy .egress name
    rw [List.filter_filter] at deleted
    have both : (live.filter fun addition => decide (addition.owner ≠ (.egress, name)) &&
        decide (addition.owner ≠ (.ingress, name))) =
          live.filter fun addition => addition.1.policyKey ≠ name := by
      apply List.filter_congr
      intro addition _member
      unfold Addition.owner
      cases addition.1.direction <;> simp
    rw [both] at deleted
    exact deleted

theorem deletePolicy_lookup_other (store : MicroSegEngine) {name key : String}
    (other : key ≠ name) (dir : FlowDir) :
    ((deletePolicy name store).httpPolicy dir).lookup key =
      (store.httpPolicy dir).lookup key := by
  unfold deletePolicy
  split
  · rfl
  · cases dir with
    | ingress => exact Table.lookup_erase_ne store.inputHttpPolicy other
    | egress => exact Table.lookup_erase_ne store.outputHttpPolicy other

theorem deletePolicy_lookup_same (store : MicroSegEngine) {name : String} (named : name ≠ "")
    (dir : FlowDir) : ((deletePolicy name store).httpPolicy dir).lookup name = none := by
  unfold deletePolicy
  rw [if_neg named]
  cases dir with
  | ingress => exact Table.lookup_erase_same store.inputHttpPolicy name
  | egress => exact Table.lookup_erase_same store.outputHttpPolicy name

theorem addPolicyRule_readable (store : MicroSegEngine) (policyName : String)
    {rules : List PolicyRuleSpec} (readable : ∀ rule ∈ rules, rule.Readable) :
    ∃ next, addPolicyRule store policyName rules = (next, 0) ∧
      Grown (cString policyName) (deletePolicy (cString policyName) store) next
        (taken (cString policyName) rules) (clausesOf rules) := by
  obtain ⟨next, grown, onward⟩ := parseRules_readable (cString policyName)
    (deletePolicy (cString policyName) store) readable
  have read := onward []
  rw [List.append_nil] at read
  rw [addPolicyRule_eq, read]
  exact ⟨next, rfl, grown⟩

/-- A rule that throws has stored its clauses; the rules after it are not looked at. -/
theorem addPolicyRule_throws (store : MicroSegEngine) (policyName : String)
    {before : List PolicyRuleSpec} {bad : PolicyRuleSpec} (rest : List PolicyRuleSpec)
    (readable : ∀ rule ∈ before, rule.Readable) (unreadable : ¬bad.Readable) :
    ∃ next, addPolicyRule store policyName (before ++ bad :: rest) = (next, 1) ∧
      Grown (cString policyName) (deletePolicy (cString policyName) store) next
        (taken (cString policyName) before) (clausesOf (before ++ [bad])) := by
  obtain ⟨middle, first, onward⟩ := parseRules_readable (cString policyName)
    (deletePolicy (cString policyName) store) readable
  obtain ⟨next, fault, read, last⟩ := parseRule_throws (cString policyName) middle unreadable
  have grown := first.trans last
  simp only [List.append_nil, clausesOf, ← List.flatMap_append] at grown
  rw [addPolicyRule_eq, onward, List.map_cons, parseRules, read]
  exact ⟨next, rfl, grown⟩

theorem first_unreadable {rules : List PolicyRuleSpec}
    (some : ¬∀ rule ∈ rules, rule.Readable) :
    ∃ before bad rest, rules = before ++ bad :: rest ∧ (∀ rule ∈ before, rule.Readable) ∧
      ¬bad.Readable := by
  induction rules with
  | nil => exact absurd (fun rule member => absurd member List.not_mem_nil) some
  | cons rule others ih =>
      by_cases readable : rule.Readable
      · have later : ¬∀ other ∈ others, other.Readable := fun every =>
          some (List.forall_mem_cons.mpr ⟨readable, every⟩)
        obtain ⟨before, bad, rest, rfl, clean, unreadable⟩ := ih later
        exact ⟨rule :: before, bad, rest, rfl,
          List.forall_mem_cons.mpr ⟨readable, clean⟩, unreadable⟩
      · exact ⟨[], rule, others, rfl, fun other member => absurd member List.not_mem_nil,
          readable⟩

/-! ### Stores that requests lead to -/

/-- The additions a store holds; every one of them passed the checks of the control
plane. -/
structure Represented (store : MicroSegEngine) (live : List Addition) : Prop where
  engine : EngineRepresents store.policyRule live
  passed : ∀ addition ∈ live, admitted addition = true ∧ Narrow addition.2

theorem mem_taken {name : String} {rules : List PolicyRuleSpec} {addition : Addition} :
    addition ∈ taken name rules ↔
      ∃ rule ∈ rules, addition ∈ rule.added name ∧ admitted addition = true := by
  simp [taken]

theorem taken_passed {name : String} {rules : List PolicyRuleSpec} :
    ∀ addition ∈ taken name rules, admitted addition = true ∧ Narrow addition.2 := by
  intro addition member
  obtain ⟨rule, -, added, isTaken⟩ := mem_taken.mp member
  obtain ⟨_, _, asked⟩ := PolicyRuleSpec.contributes_of_mem_added added
  exact ⟨isTaken, PolicyRuleSpec.storedPorts_narrow asked.inPorts⟩

namespace Represented

variable {store : MicroSegEngine} {live : List Addition}

theorem deletePolicy (represented : Represented store live) (name : String) :
    Represented (NetPolicy.Daemon.deletePolicy name store) (kept name live) := by
  refine ⟨deletePolicy_represents represented.engine name, fun addition member => ?_⟩
  unfold kept at member
  split at member
  · exact represented.passed addition member
  · exact represented.passed addition (List.mem_filter.mp member).1

theorem grown (represented : Represented store live) {name : String} {after : MicroSegEngine}
    {rules : List PolicyRuleSpec} {clauses : FlowDir → List HttpRuleInfo}
    (grown : Grown name store after (taken name rules) clauses) :
    Represented after (live ++ taken name rules) :=
  ⟨grown.rules live represented.engine,
    List.forall_mem_append.mpr ⟨represented.passed, taken_passed⟩⟩

theorem addPolicyRule (represented : Represented store live) (policyName : String)
    (rules : List PolicyRuleSpec) :
    ∃ next, Represented (NetPolicy.Daemon.addPolicyRule store policyName rules).1 next := by
  have deleted := represented.deletePolicy (cString policyName)
  by_cases readable : ∀ rule ∈ rules, rule.Readable
  · obtain ⟨next, call, grown⟩ := addPolicyRule_readable store policyName readable
    rw [call]
    exact ⟨_, deleted.grown grown⟩
  · obtain ⟨before, bad, rest, rfl, clean, unreadable⟩ := first_unreadable readable
    obtain ⟨next, call, grown⟩ := addPolicyRule_throws store policyName rest clean unreadable
    rw [call]
    exact ⟨_, deleted.grown grown⟩

end Represented

theorem updateNodeConfig_policyRule (store : MicroSegEngine) (isDelete : Bool)
    (nodeIps : List String) :
    (updateNodeConfig store isDelete nodeIps).policyRule = store.policyRule := by
  unfold updateNodeConfig
  induction nodeIps generalizing store with
  | nil => rfl
  | cons ip rest ih => exact ih _

def storeAfter (ops : List ControlOp) : MicroSegEngine :=
  Runs.run MicroSegEngine.apply MicroSegEngine.new ops

theorem Represented.apply {store : MicroSegEngine} {live : List Addition}
    (represented : Represented store live) (op : ControlOp) :
    ∃ next, Represented (store.apply op) next := by
  cases op with
  | addPolicyRule policyName rules => exact represented.addPolicyRule policyName rules
  | deletePolicyRule policyName => exact ⟨_, represented.deletePolicy policyName⟩
  | resetConfig =>
      exact ⟨[], represented.engine.apply .clearCfg,
        fun addition member => absurd member List.not_mem_nil⟩
  | updateNodeConfig isDelete nodeIps =>
      refine ⟨live, ?_, represented.passed⟩
      exact (updateNodeConfig_policyRule store isDelete nodeIps).symm ▸ represented.engine

theorem represented_new : Represented MicroSegEngine.new [] :=
  ⟨engineRepresents_run [], fun _ member => absurd member List.not_mem_nil⟩

theorem represented_storeAfter (ops : List ControlOp) :
    ∃ live, Represented (storeAfter ops) live := by
  apply Runs.run_invariant MicroSegEngine.apply (fun _ _ => True)
    (fun store => ∃ live, Represented store live)
  · intro store op represents _
    obtain ⟨live, represented⟩ := represents
    exact represented.apply op
  · exact ⟨[], represented_new⟩
  · exact Runs.meets_of_forall (fun _ _ => trivial) _

end NetPolicy.Daemon
