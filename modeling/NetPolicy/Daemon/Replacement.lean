/-
Adding a policy again.

What `AddPolicyRule` leaves under the name of its policy is read off the rules of the
request: their additions up to the first rule that throws, and their clauses up to and
including that rule.  Nothing that was there before takes part, nothing under another
name is touched, and the same request once more finds everything as it would leave it.
-/

import NetPolicy.Daemon.AllOrNothing

namespace NetPolicy.Daemon

open NetPolicy.Policy NetPolicy.Flow

/-! ### The rules of a request that take effect -/

def PolicyRuleSpec.isReadable (rule : PolicyRuleSpec) : Bool :=
  match rule.additions "" with
  | .error _ => false
  | .ok _ => true

theorem PolicyRuleSpec.isReadable_iff (rule : PolicyRuleSpec) :
    rule.isReadable = true ↔ rule.Readable := by
  rw [rule.readable_iff "", isReadable]
  cases rule.additions "" <;> simp

def readPart (rules : List PolicyRuleSpec) : List PolicyRuleSpec :=
  rules.takeWhile PolicyRuleSpec.isReadable

/-- These rules and the one that throws, whose clauses are stored already. -/
def seenPart (rules : List PolicyRuleSpec) : List PolicyRuleSpec :=
  rules.take ((readPart rules).length + 1)

theorem readPart_of_readable {rules : List PolicyRuleSpec}
    (readable : ∀ rule ∈ rules, rule.Readable) : readPart rules = rules ∧ seenPart rules = rules := by
  have whole : readPart rules = rules := List.takeWhile_eq_self_iff.mpr fun rule member =>
    rule.isReadable_iff.mpr (readable rule member)
  refine ⟨whole, ?_⟩
  rw [seenPart, whole]
  exact List.take_of_length_le (Nat.le_succ _)

theorem readPart_of_throws {before : List PolicyRuleSpec} {bad : PolicyRuleSpec}
    (rest : List PolicyRuleSpec) (readable : ∀ rule ∈ before, rule.Readable)
    (unreadable : ¬bad.Readable) :
    readPart (before ++ bad :: rest) = before ∧
      seenPart (before ++ bad :: rest) = before ++ [bad] := by
  have front : readPart (before ++ bad :: rest) = before := by
    rw [readPart, List.takeWhile_append_of_pos fun rule member =>
      rule.isReadable_iff.mpr (readable rule member),
      List.takeWhile_cons_of_neg fun read => unreadable (bad.isReadable_iff.mp read),
      List.append_nil]
  refine ⟨front, ?_⟩
  rw [seenPart, front, List.take_length_add_append]
  rfl

theorem addPolicyRule_grown (store : MicroSegEngine) (policyName : String)
    (rules : List PolicyRuleSpec) :
    Grown (cString policyName) (deletePolicy (cString policyName) store)
      (addPolicyRule store policyName rules).1 (taken (cString policyName) (readPart rules))
      (clausesOf (seenPart rules)) := by
  by_cases readable : ∀ rule ∈ rules, rule.Readable
  · obtain ⟨next, call, grown⟩ := addPolicyRule_readable store policyName readable
    obtain ⟨read, seen⟩ := readPart_of_readable readable
    rw [call, read, seen]
    exact grown
  · obtain ⟨before, bad, rest, rfl, clean, unreadable⟩ := first_unreadable readable
    obtain ⟨next, call, grown⟩ := addPolicyRule_throws store policyName rest clean unreadable
    obtain ⟨read, seen⟩ := readPart_of_throws rest clean unreadable
    rw [call, read, seen]
    exact grown

/-! ### The same rules under another name -/

def under (name : String) (rule : RuleDetail) : RuleDetail := { rule with policyKey := name }

def Addition.under (name : String) (addition : Addition) : Addition :=
  (NetPolicy.Daemon.under name addition.1, addition.2)

theorem added_under (name : String) (rule : PolicyRuleSpec) :
    rule.added name = (rule.added "").map (Addition.under name) := by
  unfold PolicyRuleSpec.added PolicyRuleSpec.additions
  cases parseAddresses (rule.fromAddresses.map fun ip => { ip := some (cString ip) }) with
  | error fault => rfl
  | ok sources =>
      dsimp only
      cases parseAddresses (rule.toAddresses.map fun ip => { ip := some (cString ip) }) with
      | error fault => rfl
      | ok destinations =>
          dsimp only
          unfold combinations
          simp only [List.map_flatMap, List.map_map]
          rfl

theorem taken_under (name : String) (rules : List PolicyRuleSpec) :
    taken name rules = (taken "" rules).map (Addition.under name) := by
  unfold taken
  rw [List.map_flatMap]
  refine congrArg (fun each => rules.flatMap each) (funext fun rule => ?_)
  rw [added_under name rule, List.filter_map]
  rfl

theorem merged_under (name : String) {additions : List Addition}
    (unnamed : ∀ addition ∈ additions, addition.1.policyKey = "") (key : String) :
    merged (additions.map (Addition.under name)) key name =
      (merged additions key "").map (under name) := by
  have shared : sharing key name (additions.map (Addition.under name)) =
      (sharing key "" additions).map (Addition.under name) := by
    unfold sharing
    rw [List.filter_map]
    refine congrArg (List.map _) (List.filter_congr fun addition member => ?_)
    have sameKey : (Addition.under name addition).1.key = addition.1.key := rfl
    have named : (Addition.under name addition).1.policyKey = name := rfl
    simp only [Function.comp_apply, sameKey, named, unnamed addition member]
  unfold merged
  rw [shared]
  cases sharing key "" additions with
  | nil => rfl
  | cons first rest =>
      simp [Addition.under, under, Function.comp_def]

/-! ### Masks, priorities and nodes -/

def addAll (engine : RustPolicyEngine) (additions : List Addition) : RustPolicyEngine :=
  additions.foldl (fun engine addition => engine.addPolicy addition.1 addition.2) engine

theorem mem_maskCidr_addAll (engine : RustPolicyEngine) (additions : List Addition) (mask : Int) :
    mask ∈ (addAll engine additions).maskCidr ↔
      (∃ addition ∈ additions, mask = addition.1.createRuleKey.2 ∧ 0 < mask ∧ mask ≤ 32) ∨
        mask ∈ engine.maskCidr := by
  induction additions generalizing engine with
  | nil => simp [addAll]
  | cons addition rest ih =>
      refine (ih (engine.addPolicy addition.1 addition.2)).trans ?_
      rw [mem_maskCidr_addPolicy, List.exists_mem_cons_iff]
      exact or_left_comm.trans or_assoc.symm

theorem mem_priority_addAll (engine : RustPolicyEngine) (additions : List Addition)
    (priority : Int) :
    priority ∈ (addAll engine additions).priority ↔
      (∃ addition ∈ additions, priority = addition.1.priority) ∨ priority ∈ engine.priority := by
  induction additions generalizing engine with
  | nil => simp [addAll]
  | cons addition rest ih =>
      refine (ih (engine.addPolicy addition.1 addition.2)).trans ?_
      rw [mem_priority_addPolicy, List.exists_mem_cons_iff]
      exact or_left_comm.trans or_assoc.symm

structure Adds (before after : MicroSegEngine) (additions : List Addition) : Prop where
  engine : after.policyRule = addAll before.policyRule additions
  nodes : after.nodesIp = before.nodesIp

theorem Adds.trans {before middle after : MicroSegEngine} {additions more : List Addition}
    (first : Adds before middle additions) (second : Adds middle after more) :
    Adds before after (additions ++ more) where
  engine := by rw [second.engine, first.engine, addAll, addAll, addAll, List.foldl_append]
  nodes := second.nodes.trans first.nodes

theorem adds_addHttpRules (dir : FlowDir) (name : String) (action : NetPolicyRule)
    (store : MicroSegEngine) (docs : List HttpDoc) :
    Adds store (addHttpRules dir name action store docs) [] where
  engine := addHttpRules_policyRule dir name action store docs
  nodes := by
    induction docs generalizing store with
    | nil => rfl
    | cons doc rest ih =>
        unfold addHttpRules
        split
        · rw [ih]
          cases dir <;> rfl
        · rfl

theorem adds_installAll (store : MicroSegEngine) (additions : List Addition) :
    Adds store (installAll store additions) (additions.filter admitted) := by
  induction additions generalizing store with
  | nil => exact ⟨rfl, rfl⟩
  | cons addition rest ih =>
      have first : Adds store (addNewPolicy store addition.1 addition.2).1
          ([addition].filter admitted) := by
        rw [addNewPolicy_eq]
        by_cases taken : admitted addition = true
        · rw [if_pos taken, List.filter_cons_of_pos taken]
          exact ⟨rfl, rfl⟩
        · rw [if_neg taken, List.filter_cons_of_neg taken]
          exact ⟨rfl, rfl⟩
      have whole := first.trans (ih _)
      rw [← List.filter_append, List.singleton_append] at whole
      exact whole

theorem adds_parseRules (name : String) (store : MicroSegEngine) (rules : List PolicyRuleSpec) :
    Adds store (parseRules name store (rules.map PolicyRuleSpec.toDoc)).1
      (taken name (readPart rules)) := by
  induction rules generalizing store with
  | nil => exact ⟨rfl, rfl⟩
  | cons rule rest ih =>
      have clauses := adds_addHttpRules rule.flowDir name rule.netAction store
        (rule.httpRules.map HttpMatchRule.toDoc)
      rw [List.map_cons, parseRules, parseRule_toDoc]
      cases read : rule.additions name with
      | error fault =>
          have unreadable : ¬rule.isReadable = true := by
            rw [rule.isReadable_iff, rule.readable_iff name, read]
            rintro ⟨additions, absurd⟩
            cases absurd
          rw [readPart, List.takeWhile_cons_of_neg unreadable]
          exact clauses
      | ok additions =>
          have readable : rule.isReadable = true := by
            rw [rule.isReadable_iff, rule.readable_iff name]
            exact ⟨additions, read⟩
          have here : taken name (readPart (rule :: rest)) =
              additions.filter admitted ++ taken name (readPart rest) := by
            rw [readPart, List.takeWhile_cons_of_pos readable, taken, List.flatMap_cons,
              PolicyRuleSpec.added, read]
            rfl
          rw [here]
          exact (clauses.trans (adds_installAll _ additions)).trans (ih _)

theorem adds_addPolicyRule (store : MicroSegEngine) (policyName : String)
    (rules : List PolicyRuleSpec) :
    Adds (deletePolicy (cString policyName) store) (addPolicyRule store policyName rules).1
      (taken (cString policyName) (readPart rules)) := by
  rw [addPolicyRule_eq]
  exact adds_parseRules _ _ rules

theorem deletePolicy_frame (name : String) (store : MicroSegEngine) :
    (deletePolicy name store).policyRule.maskCidr = store.policyRule.maskCidr ∧
      (deletePolicy name store).policyRule.priority = store.policyRule.priority ∧
      (deletePolicy name store).nodesIp = store.nodesIp := by
  unfold deletePolicy
  split <;> exact ⟨rfl, rfl, rfl⟩

/-! ### What is stored under a name -/

/-- Both stores hold the same rules, with their ports, and the same clauses under a name. -/
structure SameUnder (name : String) (left right : MicroSegEngine) : Prop where
  entries : ∀ dir key, (left.policyRule.tree dir).chain.entry key name =
    (right.policyRule.tree dir).chain.entry key name
  recorded : ∀ dir key, (left.policyRule.tree dir).Recorded name key ↔
    (right.policyRule.tree dir).Recorded name key
  clauses : ∀ dir, (left.httpPolicy dir).lookup name = (right.httpPolicy dir).lookup name

/-- The rule that a list of rules leaves under a key, up to the policy's name. -/
def installedBy (rules : List PolicyRuleSpec) (dir : FlowDir) (key : String) : Option RuleDetail :=
  merged (inDirection dir (taken "" (readPart rules))) key ""

def clausesBy (rules : List PolicyRuleSpec) (dir : FlowDir) : Option (List HttpRuleInfo) :=
  extended none (clausesOf (seenPart rules) dir)

theorem cString_of_nulFree {text : String} (free : '\x00' ∉ text.toList) : cString text = text := by
  have whole : text.toList.takeWhile (· ≠ '\x00') = text.toList :=
    List.takeWhile_eq_self_iff.mpr fun _ member => decide_eq_true fun same => free (same ▸ member)
  rw [cString, whole, String.ofList_toList]

theorem clauses_replaced (store : MicroSegEngine) {policyName : String}
    (named : cString policyName ≠ "") (rules : List PolicyRuleSpec) (dir : FlowDir) :
    ((addPolicyRule store policyName rules).1.httpPolicy dir).lookup (cString policyName) =
      clausesBy rules dir := by
  rw [(addPolicyRule_grown store policyName rules).own dir, deletePolicy_lookup_same store named dir]
  rfl

section Replacing

variable {store : MicroSegEngine} {live : List Addition}
  (represents : EngineRepresents store.policyRule live) {name : String} (named : name ≠ "")
  (nulFree : '\x00' ∉ name.toList) (rules : List PolicyRuleSpec)

include represents nulFree in
theorem engine_after :
    EngineRepresents (addPolicyRule store name rules).1.policyRule
      (kept name live ++ taken name (readPart rules)) := by
  have grown := addPolicyRule_grown store name rules
  rw [cString_of_nulFree nulFree] at grown
  exact grown.rules _ (deletePolicy_represents represents name)

include represents named nulFree in
theorem entry_replaced (dir : FlowDir) (key : String) :
    ((addPolicyRule store name rules).1.policyRule.tree dir).chain.entry key name =
      (installedBy rules dir key).map (under name) := by
  have unnamed : ∀ addition ∈ inDirection dir (taken "" (readPart rules)),
      addition.1.policyKey = "" := fun addition member =>
    policyKey_of_taken (mem_inDirection.mp member).1
  have renamed : inDirection dir (taken name (readPart rules)) =
      (inDirection dir (taken "" (readPart rules))).map (Addition.under name) := by
    rw [taken_under name, inDirection, List.filter_map]
    rfl
  rw [entry_after_own (engine_after represents nulFree rules) named, renamed,
    merged_under name unnamed]
  rfl

include represents nulFree in
theorem sameUnder_other {other : String} (different : other ≠ name) :
    SameUnder other (addPolicyRule store name rules).1 store := by
  have grown := addPolicyRule_grown store name rules
  rw [cString_of_nulFree nulFree] at grown
  have after := engine_after represents nulFree rules
  have entries : ∀ dir key,
      ((addPolicyRule store name rules).1.policyRule.tree dir).chain.entry key other =
        (store.policyRule.tree dir).chain.entry key other :=
    entry_after_other represents after different
  refine ⟨entries, ?_, ?_⟩
  · intro dir key
    rw [(after.trees dir).recorded_iff, (represents.trees dir).recorded_iff, entries]
  · intro dir
    rw [grown.others dir other different, deletePolicy_lookup_other store different]

include represents named nulFree in
theorem recorded_replaced (dir : FlowDir) (key : String) :
    ((addPolicyRule store name rules).1.policyRule.tree dir).Recorded name key ↔
      installedBy rules dir key ≠ none := by
  have after := engine_after represents nulFree rules
  rw [(after.trees dir).recorded_iff, entry_replaced represents named nulFree rules, Ne,
    Option.map_eq_none_iff]

include represents nulFree in
theorem repeated_frame :
    let after := (addPolicyRule store name rules).1
    let again := (addPolicyRule after name rules).1
    again.policyRule.maskCidr = after.policyRule.maskCidr ∧
      again.policyRule.priority = after.policyRule.priority ∧ again.nodesIp = after.nodesIp := by
  intro after again
  have engine : EngineRepresents after.policyRule (kept name live ++ taken name (readPart rules)) :=
    engine_after represents nulFree rules
  have adds := adds_addPolicyRule after name rules
  rw [cString_of_nulFree nulFree] at adds
  obtain ⟨masks, priorities, nodes⟩ := deletePolicy_frame name after
  refine ⟨OrderedSet.eq_of_mem_iff fun mask => ?_, OrderedSet.eq_of_mem_iff fun priority => ?_,
    adds.nodes.trans nodes⟩
  · rw [adds.engine, mem_maskCidr_addAll, masks]
    refine or_iff_right_of_imp ?_
    rintro ⟨addition, member, rfl, positive, bound⟩
    exact engine.masks addition (List.mem_append_right _ member) positive bound
  · rw [adds.engine, mem_priority_addAll, priorities]
    refine or_iff_right_of_imp ?_
    rintro ⟨addition, member, rfl⟩
    exact engine.priorities addition (List.mem_append_right _ member)

end Replacing

/-- For every store that requests lead to, every policy name and every rule list: what
`AddPolicyRule` leaves under the name, in either direction, is read off the rules; what
is stored under other names stays; and the same request once more changes nothing. -/
theorem addPolicyRule_replaces (ops : List ControlOp) {name : String} (named : name ≠ "")
    (nulFree : '\x00' ∉ name.toList) (rules : List PolicyRuleSpec) :
    let store := storeAfter ops
    let after := (addPolicyRule store name rules).1
    let again := (addPolicyRule after name rules).1
    ((∀ dir key, (after.policyRule.tree dir).chain.entry key name =
          (installedBy rules dir key).map (under name)) ∧
        (∀ dir key, (after.policyRule.tree dir).Recorded name key ↔
          installedBy rules dir key ≠ none) ∧
        ∀ dir, (after.httpPolicy dir).lookup name = clausesBy rules dir) ∧
      (∀ other, other ≠ name → SameUnder other after store) ∧
      SameStore again after ∧ again.policyRule.maskCidr = after.policyRule.maskCidr ∧
      again.policyRule.priority = after.policyRule.priority ∧ again.nodesIp = after.nodesIp := by
  intro store after again
  obtain ⟨live, represented⟩ := represented_storeAfter ops
  have before : EngineRepresents store.policyRule live := represented.engine
  have engine : EngineRepresents after.policyRule (kept name live ++ taken name (readPart rules)) :=
    engine_after before nulFree rules
  have clauses (store : MicroSegEngine) (dir : FlowDir) :
      ((addPolicyRule store name rules).1.httpPolicy dir).lookup name = clausesBy rules dir := by
    have own := clauses_replaced store ((cString_of_nulFree nulFree).trans_ne named) rules dir
    rw [cString_of_nulFree nulFree] at own
    exact own
  have kept (key : String) : SameUnder key again after := by
    by_cases own : key = name
    · subst own
      refine ⟨fun dir index => ?_, fun dir index => ?_, fun dir => ?_⟩
      · exact (entry_replaced engine named nulFree rules dir index).trans
          (entry_replaced before named nulFree rules dir index).symm
      · exact (recorded_replaced engine named nulFree rules dir index).trans
          (recorded_replaced before named nulFree rules dir index).symm
      · exact (clauses after dir).trans (clauses store dir).symm
    · exact sameUnder_other engine nulFree rules own
  refine ⟨⟨entry_replaced before named nulFree rules, recorded_replaced before named nulFree rules,
    clauses store⟩,
    fun other different => sameUnder_other before nulFree rules different, ?_,
    repeated_frame before nulFree rules⟩
  exact ⟨fun dir key other => (kept other).entries dir key,
    fun dir other key => (kept other).recorded dir key, fun dir other => (kept other).clauses dir⟩

/-- A policy with a clause gives way to one without, and adding that twice is adding it
once. -/
theorem webPolicy_replaced :
    let after := (addPolicyRule (storeAfter [webPolicy]) "web" [sshRule]).1
    let key := (sshRule.between "web" "10.0.0.1" "10.0.0.2").key
    ((after.policyRule.tree .ingress).chain.entry key "web").isSome = true ∧
      (after.httpPolicy .ingress).lookup "web" = none ∧
      SameStore (addPolicyRule after "web" [sshRule]).1 after := by
  intro after key
  have named : "web" ≠ "" := by decide
  have nulFree : '\x00' ∉ "web".toList := by decide
  obtain ⟨⟨entries, -, clauses⟩, -, same, -⟩ :=
    addPolicyRule_replaces [webPolicy] named nulFree [sshRule]
  refine ⟨?_, (clauses .ingress).trans (by decide +kernel), same⟩
  rw [show (after.policyRule.tree .ingress).chain.entry key "web" = _ from entries .ingress key]
  decide +kernel

end NetPolicy.Daemon
