/-
Deletion leaves no trace that can be observed.

A deletion takes the rules out of the chain but leaves their priorities and prefix
lengths in the sets candidate keys are made from.  The keys that remain without rules
answer nothing, so what can be observed of an engine depends on the live additions
alone: its list of rules, and for every packet the set of answers that some iteration
order gives.
-/

import NetPolicy.Policy.LinearScan

namespace NetPolicy.Policy

/-! ### The first key that answers -/

section Query

variable (proto dstPort srcPort : Nat) (srcAddr dstAddr : String) (dir : FlowDir)

def RuleChain.answers (chain : RuleChain) (key : String) : Bool :=
  (chain.matchRuleGroup .stored key proto dstPort srcPort).isSome

theorem RuleChain.answers_iff (chain : RuleChain) (key : String) :
    chain.answers proto dstPort srcPort key = true ↔
      ∃ name rule, chain.entry key name = some rule ∧
        rule.matches proto dstPort srcPort = true :=
  chain.matchRuleGroup_isSome_iff .stored key proto dstPort srcPort

/-- Whether a group answers does not depend on the order, only which rule does. -/
theorem RuleChain.matchRuleGroup_isSome (order : IterationOrder RuleDetail) (chain : RuleChain)
    (key : String) :
    (chain.matchRuleGroup order key proto dstPort srcPort).isSome =
      chain.answers proto dstPort srcPort key := by
  rw [Bool.eq_iff_iff, RuleChain.matchRuleGroup_isSome_iff, RuleChain.answers_iff]

def RustPolicyEngine.firstKey (engine : RustPolicyEngine) : Option String :=
  (engine.createRuleKeyByTuple proto srcAddr dstAddr dir).find?
    ((engine.tree dir).chain.answers proto dstPort srcPort)

theorem RustPolicyEngine.matchFiveTuple_eq_bind (order : IterationOrder RuleDetail)
    (engine : RustPolicyEngine) :
    engine.matchFiveTuple order proto dstPort srcPort srcAddr dstAddr dir =
      (engine.firstKey proto dstPort srcPort srcAddr dstAddr dir).bind fun key =>
        (engine.tree dir).chain.matchRuleGroup order key proto dstPort srcPort := by
  rw [matchFiveTuple_eq_findSome?, ← findSome?_flatMap, ← createRuleKeyByTuple_eq]
  exact findSome?_eq_find?_bind
    (fun key => RuleChain.matchRuleGroup_isSome proto dstPort srcPort order _ key) _

/-- Some iteration order gives this answer. -/
def RustPolicyEngine.Possible (engine : RustPolicyEngine) (answer : Option RuleDetail) : Prop :=
  ∃ order, engine.matchFiveTuple order proto dstPort srcPort srcAddr dstAddr dir = answer

theorem RustPolicyEngine.possible_none_iff (engine : RustPolicyEngine) :
    engine.Possible proto dstPort srcPort srcAddr dstAddr dir none ↔
      engine.firstKey proto dstPort srcPort srcAddr dstAddr dir = none := by
  unfold Possible
  constructor
  · rintro ⟨order, silent⟩
    rw [matchFiveTuple_eq_bind] at silent
    cases first : engine.firstKey proto dstPort srcPort srcAddr dstAddr dir with
    | none => rfl
    | some key =>
        have answers := List.find?_some first
        rw [← RuleChain.matchRuleGroup_isSome proto dstPort srcPort order] at answers
        rw [first, Option.bind_some] at silent
        rw [silent] at answers
        cases answers
  · intro first
    refine ⟨.stored, ?_⟩
    rw [matchFiveTuple_eq_bind, first]
    rfl

/-- At the first key that answers, every matching rule is a possible answer. -/
theorem RustPolicyEngine.possible_some_iff (engine : RustPolicyEngine) (rule : RuleDetail) :
    engine.Possible proto dstPort srcPort srcAddr dstAddr dir (some rule) ↔
      ∃ key, engine.firstKey proto dstPort srcPort srcAddr dstAddr dir = some key ∧
        ∃ name, (engine.tree dir).chain.entry key name = some rule ∧
          rule.matches proto dstPort srcPort = true := by
  unfold Possible
  constructor
  · rintro ⟨order, answer⟩
    rw [matchFiveTuple_eq_bind, Option.bind_eq_some_iff] at answer
    obtain ⟨key, first, atKey⟩ := answer
    exact ⟨key, first, RuleChain.matchRuleGroup_eq_some atKey⟩
  · rintro ⟨key, first, name, stored, accepted⟩
    refine ⟨.preferring rule, ?_⟩
    rw [matchFiveTuple_eq_bind, first, Option.bind_some]
    obtain ⟨group, found, entry⟩ := (entry_eq_some_iff _ _ _ _).mp stored
    rw [RuleChain.matchRuleGroup, found]
    exact IterationOrder.find?_preferring ((HashMap.mem_values _ _).mpr ⟨name, entry⟩) accepted

end Query

/-! ### Engines with the same live additions -/

section SameLive

variable {left right : RustPolicyEngine} {live : List Addition}
  (proto dstPort srcPort : Nat) (srcAddr dstAddr : String) (dir : FlowDir)

theorem answers_eq (leftRepresents : EngineRepresents left live)
    (rightRepresents : EngineRepresents right live) :
    (left.tree dir).chain.answers proto dstPort srcPort =
      (right.tree dir).chain.answers proto dstPort srcPort := by
  funext key
  rw [Bool.eq_iff_iff, RuleChain.answers_iff, RuleChain.answers_iff]
  simp only [(leftRepresents.trees dir).entry, (rightRepresents.trees dir).entry]

theorem live_of_answers (represents : EngineRepresents left live) {key : String}
    (answers : (left.tree dir).chain.answers proto dstPort srcPort key = true) :
    ∃ addition ∈ live, addition.1.direction = dir ∧ addition.1.key = key := by
  obtain ⟨name, rule, stored, _⟩ := (RuleChain.answers_iff _ _ _ _ _).mp answers
  rw [(represents.trees dir).entry] at stored
  obtain ⟨first, member, keyEq, _⟩ := merged_eq_some stored
  obtain ⟨firstLive, firstDir⟩ := mem_inDirection.mp member
  exact ⟨first, firstLive, firstDir, keyEq⟩

def livePriority (live : List Addition) (priority : Int) : Bool :=
  live.any fun addition => addition.1.priority = priority

def liveMask (live : List Addition) (mask : Int) : Bool :=
  live.any fun addition => addition.1.createRuleKey.2 = mask

theorem maskKeys_silent {answers : String → Bool}
    (owned : ∀ key, answers key = true →
      ∃ addition ∈ live, addition.1.direction = dir ∧ addition.1.key = key)
    {priority mask : Int} {address exact : String} (dead : liveMask live mask = false) :
    [keyText dir priority proto (ipv4CidrToIp address mask) mask exact,
        keyText dir priority 0 (ipv4CidrToIp address mask) mask exact].find? answers = none := by
  rw [List.find?_eq_none]
  intro key member answered
  obtain ⟨addition, additionLive, direction, keyEq⟩ := owned key answered
  have written : ∃ written,
      addition.1.key =
        keyText addition.1.direction priority written (ipv4CidrToIp address mask) mask exact := by
    rw [keyEq, direction]
    rcases List.mem_cons.mp member with same | later
    · exact ⟨proto, same⟩
    · exact ⟨0, List.mem_singleton.mp later⟩
  obtain ⟨written, same⟩ := written
  have maskEq := (fields_of_key (ipv4CidrToIp_separators address mask) same).2
  rw [liveMask, List.any_eq_false] at dead
  exact dead addition additionLive (decide_eq_true maskEq)

theorem keysAt_find?_eq (leftRepresents : EngineRepresents left live)
    (rightRepresents : EngineRepresents right live) {answers : String → Bool}
    (owned : ∀ key, answers key = true →
      ∃ addition ∈ live, addition.1.direction = dir ∧ addition.1.key = key) (priority : Int) :
    (left.keysAt proto srcAddr dstAddr dir priority).find? answers =
      (right.keysAt proto srcAddr dstAddr dir priority).find? answers := by
  have common : ∀ mask, liveMask live mask = true →
      (mask ∈ left.maskCidr ↔ mask ∈ right.maskCidr) := by
    intro mask used
    obtain ⟨addition, member, same⟩ := List.any_eq_true.mp used
    have maskEq := of_decide_eq_true same
    constructor
    · intro recorded
      obtain ⟨positive, bound⟩ := leftRepresents.maskRange mask recorded
      rw [← maskEq] at positive bound ⊢
      exact rightRepresents.masks addition member positive bound
    · intro recorded
      obtain ⟨positive, bound⟩ := rightRepresents.maskRange mask recorded
      rw [← maskEq] at positive bound ⊢
      exact leftRepresents.masks addition member positive bound
  unfold RustPolicyEngine.keysAt
  rw [List.find?_append, List.find?_append, List.find?_flatMap, List.find?_flatMap]
  congr 1
  exact OrderedSet.findSome?_eq (liveMask live) common fun mask dead =>
    maskKeys_silent proto dir owned dead

theorem keysAt_silent (engine : RustPolicyEngine) {answers : String → Bool}
    (owned : ∀ key, answers key = true →
      ∃ addition ∈ live, addition.1.direction = dir ∧ addition.1.key = key)
    {priority : Int} (dead : livePriority live priority = false) :
    (engine.keysAt proto srcAddr dstAddr dir priority).find? answers = none := by
  rw [List.find?_eq_none]
  intro key member answered
  obtain ⟨addition, additionLive, direction, keyEq⟩ := owned key answered
  rw [← keyEq, ← direction] at member
  obtain ⟨priorityEq, _⟩ := components_of_key_mem member
  rw [livePriority, List.any_eq_false] at dead
  exact dead addition additionLive (decide_eq_true priorityEq)

theorem firstKey_eq (leftRepresents : EngineRepresents left live)
    (rightRepresents : EngineRepresents right live) :
    left.firstKey proto dstPort srcPort srcAddr dstAddr dir =
      right.firstKey proto dstPort srcPort srcAddr dstAddr dir := by
  have owned : ∀ key, (right.tree dir).chain.answers proto dstPort srcPort key = true →
      ∃ addition ∈ live, addition.1.direction = dir ∧ addition.1.key = key :=
    fun key => live_of_answers proto dstPort srcPort dir rightRepresents
  have common : ∀ priority, livePriority live priority = true →
      (priority ∈ left.priority ↔ priority ∈ right.priority) := by
    intro priority used
    obtain ⟨addition, member, same⟩ := List.any_eq_true.mp used
    rw [← of_decide_eq_true same]
    exact ⟨fun _ => rightRepresents.priorities addition member,
      fun _ => leftRepresents.priorities addition member⟩
  unfold RustPolicyEngine.firstKey
  rw [left.createRuleKeyByTuple_eq, right.createRuleKeyByTuple_eq, List.find?_flatMap,
    List.find?_flatMap, answers_eq proto dstPort srcPort dir leftRepresents rightRepresents]
  calc
    left.priority.elements.findSome? (fun priority =>
          (left.keysAt proto srcAddr dstAddr dir priority).find?
            ((right.tree dir).chain.answers proto dstPort srcPort))
        = left.priority.elements.findSome? (fun priority =>
          (right.keysAt proto srcAddr dstAddr dir priority).find?
            ((right.tree dir).chain.answers proto dstPort srcPort)) := by
          congr 1
          funext priority
          exact keysAt_find?_eq proto srcAddr dstAddr dir leftRepresents rightRepresents owned
            priority
    _ = _ := OrderedSet.findSome?_eq (livePriority live) common fun priority dead =>
          keysAt_silent proto srcAddr dstAddr dir right owned dead

/-- What a lookup can answer depends on the live additions alone. -/
theorem possible_congr (leftRepresents : EngineRepresents left live)
    (rightRepresents : EngineRepresents right live) (answer : Option RuleDetail) :
    left.Possible proto dstPort srcPort srcAddr dstAddr dir answer ↔
      right.Possible proto dstPort srcPort srcAddr dstAddr dir answer := by
  have first := firstKey_eq proto dstPort srcPort srcAddr dstAddr dir leftRepresents
    rightRepresents
  cases answer with
  | none => rw [left.possible_none_iff, right.possible_none_iff, first]
  | some rule =>
      rw [left.possible_some_iff, right.possible_some_iff, first]
      simp only [(leftRepresents.trees dir).entry, (rightRepresents.trees dir).entry]

end SameLive

/-! ### The list of all rules -/

/-- `all_rules`; the order is that of the hash maps. -/
def RustPolicyEngine.allRules (engine : RustPolicyEngine) (dir : FlowDir) : List RuleDetail :=
  (HashMap.values (engine.tree dir).chain.chain).flatMap fun group => HashMap.values group.rules

theorem mem_allRules (engine : RustPolicyEngine) (dir : FlowDir) (rule : RuleDetail) :
    rule ∈ engine.allRules dir ↔
      ∃ key name, (engine.tree dir).chain.entry key name = some rule := by
  unfold RustPolicyEngine.allRules
  rw [List.mem_flatMap]
  constructor
  · rintro ⟨group, groupMember, ruleMember⟩
    obtain ⟨key, found⟩ := (HashMap.mem_values _ _).mp groupMember
    obtain ⟨name, stored⟩ := (HashMap.mem_values _ _).mp ruleMember
    exact ⟨key, name, (entry_eq_some_iff _ _ _ _).mpr ⟨group, found, stored⟩⟩
  · rintro ⟨key, name, entry⟩
    obtain ⟨group, found, stored⟩ := (entry_eq_some_iff _ _ _ _).mp entry
    exact ⟨group, (HashMap.mem_values _ _).mpr ⟨key, found⟩,
      (HashMap.mem_values _ _).mpr ⟨name, stored⟩⟩

/-- No rule is listed twice: its key tells its group and its policy its place there. -/
theorem allRules_nodup {engine : RustPolicyEngine} {dir : FlowDir}
    (coherent : Coherent (engine.tree dir) dir) : (engine.allRules dir).Nodup := by
  have stands : ∀ entry ∈ (engine.tree dir).chain.chain.entries, ∀ stored ∈ entry.2.rules.entries,
      stored.2.policyKey = stored.1 ∧ stored.2.createRuleKey.1 = entry.1 := by
    intro entry member stored inside
    have facts := coherent.entries entry.1 entry.2 stored.1 stored.2
      (AList.mem_lookup_iff.mpr member) (AList.mem_lookup_iff.mpr inside)
    exact ⟨facts.1, facts.2.2.1⟩
  unfold RustPolicyEngine.allRules HashMap.values
  rw [List.flatMap_map, List.nodup_flatMap]
  constructor
  · intro entry member
    apply List.Nodup.of_map RuleDetail.policyKey
    rw [List.map_map]
    have names : entry.2.rules.entries.map (RuleDetail.policyKey ∘ Sigma.snd) =
        entry.2.rules.entries.map Sigma.fst :=
      List.map_congr_left fun stored inside => (stands entry member stored inside).1
    rw [names]
    exact entry.2.rules.nodupKeys
  · refine ((engine.tree dir).chain.chain.nodupKeys.pairwise_ne).imp_of_mem ?_
    intro first second firstMember secondMember different rule inFirst inSecond
    obtain ⟨left, leftMember, leftEq⟩ := List.mem_map.mp inFirst
    obtain ⟨right, rightMember, rightEq⟩ := List.mem_map.mp inSecond
    apply different
    rw [← (stands first firstMember left leftMember).2, leftEq, ← rightEq]
    exact (stands second secondMember right rightMember).2

theorem allRules_perm {left right : RustPolicyEngine} {live : List Addition} {dir : FlowDir}
    (leftRepresents : EngineRepresents left live) (rightRepresents : EngineRepresents right live)
    (leftCoherent : Coherent (left.tree dir) dir) (rightCoherent : Coherent (right.tree dir) dir) :
    (left.allRules dir).Perm (right.allRules dir) := by
  rw [List.perm_ext_iff_of_nodup (allRules_nodup leftCoherent) (allRules_nodup rightCoherent)]
  intro rule
  rw [mem_allRules, mem_allRules]
  simp only [(leftRepresents.trees dir).entry, (rightRepresents.trees dir).entry]

/-! ### Replaying the additions that survive -/

def EngineOp.removes (owner : FlowDir × String) : EngineOp → Bool
  | .addPolicy _ _ => false
  | .deletePolicy dir name => owner = (dir, name)
  | .clearCfg => true

/-- The additions that no later call takes out. -/
def survivors : List EngineOp → List Addition
  | [] => []
  | .addPolicy rule port :: rest =>
      if rest.any (EngineOp.removes (Addition.owner (rule, port))) then survivors rest
      else (rule, port) :: survivors rest
  | .deletePolicy _ _ :: rest => survivors rest
  | .clearCfg :: rest => survivors rest

theorem run_liveAfter (live : List Addition) (ops : List EngineOp) :
    Runs.run liveAfter live ops =
      live.filter (fun addition => !ops.any (EngineOp.removes addition.owner)) ++
        survivors ops := by
  induction ops generalizing live with
  | nil =>
      rw [Runs.run_nil, survivors, List.append_nil]
      exact (List.filter_eq_self.mpr fun _ _ => rfl).symm
  | cons op rest ih =>
      rw [Runs.run_cons, ih]
      cases op with
      | addPolicy rule port =>
          rw [liveAfter, List.filter_append, survivors]
          have kept : ∀ addition : Addition,
              (EngineOp.addPolicy rule port :: rest).any (EngineOp.removes addition.owner) =
                rest.any (EngineOp.removes addition.owner) := fun _ => rfl
          simp only [kept]
          cases removed : rest.any (EngineOp.removes (Addition.owner (rule, port))) with
          | true => simp [removed]
          | false => simp [removed]
      | deletePolicy dir name =>
          rw [liveAfter, List.filter_filter, survivors]
          congr 1
          apply List.filter_congr
          intro addition _
          rw [List.any_cons, Bool.not_or, Bool.and_comm]
          congr 1
          exact decide_not
      | clearCfg =>
          have none : live.filter (fun addition =>
              !(EngineOp.clearCfg :: rest).any (EngineOp.removes addition.owner)) = [] :=
            List.filter_eq_nil_iff.mpr fun _ _ kept => by cases kept
          rw [liveAfter, List.filter_nil, none, survivors]

theorem liveAdditions_eq_survivors (ops : List EngineOp) : liveAdditions ops = survivors ops := by
  rw [liveAdditions, run_liveAfter, List.filter_nil, List.nil_append]

def replayed (ops : List EngineOp) : List EngineOp :=
  (survivors ops).map fun addition => .addPolicy addition.1 addition.2

theorem liveAdditions_replayed (ops : List EngineOp) :
    liveAdditions (replayed ops) = liveAdditions ops := by
  rw [liveAdditions_eq_survivors, liveAdditions_eq_survivors, replayed]
  induction survivors ops with
  | nil => rfl
  | cons addition rest ih =>
      have untouched : (rest.map fun addition : Addition =>
          EngineOp.addPolicy addition.1 addition.2).any
            (EngineOp.removes (Addition.owner (addition.1, addition.2))) = false := by
        rw [List.any_map, List.any_eq_false]
        intro other _ removes
        cases removes
      rw [List.map_cons, survivors, untouched, if_neg Bool.false_ne_true, ih]

/-! ### What one deletion can change -/

section OneDeletion

variable {engine : RustPolicyEngine} {dir : FlowDir} {name : String}
  (proto dstPort srcPort : Nat) (srcAddr dstAddr : String)

theorem createRuleKeyByTuple_deletePolicy (side : FlowDir) :
    (engine.deletePolicy dir name).createRuleKeyByTuple proto srcAddr dstAddr side =
      engine.createRuleKeyByTuple proto srcAddr dstAddr side := by
  cases dir <;> rfl

theorem matchFiveTuple_deletePolicy_other (order : IterationOrder RuleDetail) {side : FlowDir}
    (other : side ≠ dir) :
    (engine.deletePolicy dir name).matchFiveTuple order proto dstPort srcPort srcAddr dstAddr
        side =
      engine.matchFiveTuple order proto dstPort srcPort srcAddr dstAddr side := by
  unfold RustPolicyEngine.matchFiveTuple
  rw [createRuleKeyByTuple_deletePolicy, tree_deletePolicy, if_neg other]

theorem entry_deletePolicy {live : List Addition} (represents : EngineRepresents engine live)
    (key other : String) :
    ((engine.deletePolicy dir name).tree dir).chain.entry key other =
      if other = name then none else (engine.tree dir).chain.entry key other := by
  rw [tree_deletePolicy, if_pos rfl,
    ((represents.trees dir).deletePolicyFromTree name).entry, merged_filter,
    (represents.trees dir).entry]

theorem answers_of_deletePolicy {live : List Addition}
    (represents : EngineRepresents engine live) {key : String}
    (answers : ((engine.deletePolicy dir name).tree dir).chain.answers proto dstPort srcPort key =
      true) : (engine.tree dir).chain.answers proto dstPort srcPort key = true := by
  obtain ⟨other, rule, stored, accepted⟩ := (RuleChain.answers_iff _ _ _ _ _).mp answers
  rw [entry_deletePolicy represents] at stored
  split at stored
  · cases stored
  · exact (RuleChain.answers_iff _ _ _ _ _).mpr ⟨other, rule, stored, accepted⟩

theorem firstKey_deletePolicy {live : List Addition} (represents : EngineRepresents engine live)
    {key other : String} {rule : RuleDetail}
    (first : engine.firstKey proto dstPort srcPort srcAddr dstAddr dir = some key)
    (stored : (engine.tree dir).chain.entry key other = some rule)
    (accepted : rule.matches proto dstPort srcPort = true) (different : other ≠ name) :
    (engine.deletePolicy dir name).firstKey proto dstPort srcPort srcAddr dstAddr dir =
      some key := by
  unfold RustPolicyEngine.firstKey at first ⊢
  rw [createRuleKeyByTuple_deletePolicy]
  obtain ⟨_, earlier, later, split, silent⟩ := List.find?_eq_some_iff_append.mp first
  refine List.find?_eq_some_iff_append.mpr ⟨?_, earlier, later, split, ?_⟩
  · refine (RuleChain.answers_iff _ _ _ _ _).mpr ⟨other, rule, ?_, accepted⟩
    rw [entry_deletePolicy represents, if_neg different]
    exact stored
  · intro before member
    have unanswered := silent before member
    rw [Bool.not_eq_true'] at unanswered ⊢
    by_contra answers
    rw [Bool.not_eq_false] at answers
    rw [answers_of_deletePolicy proto dstPort srcPort represents answers] at unanswered
    cases unanswered

theorem name_of_entry {live : List Addition} (represents : EngineRepresents engine live)
    {key other : String} {rule : RuleDetail}
    (stored : (engine.tree dir).chain.entry key other = some rule) : rule.policyKey = other := by
  rw [(represents.trees dir).entry] at stored
  obtain ⟨addition, _, _, nameEq, ruleEq⟩ := merged_eq_some stored
  rw [ruleEq]
  exact nameEq

theorem possible_deletePolicy {live : List Addition} (represents : EngineRepresents engine live)
    {rule : RuleDetail} (different : rule.policyKey ≠ name)
    (possible : engine.Possible proto dstPort srcPort srcAddr dstAddr dir (some rule)) :
    (engine.deletePolicy dir name).Possible proto dstPort srcPort srcAddr dstAddr dir
      (some rule) := by
  obtain ⟨key, first, other, stored, accepted⟩ := (engine.possible_some_iff _ _ _ _ _ _ _).mp
    possible
  rw [name_of_entry represents stored] at different
  refine (RustPolicyEngine.possible_some_iff _ _ _ _ _ _ _ _).mpr ⟨key, ?_, other, ?_, accepted⟩
  · exact firstKey_deletePolicy proto dstPort srcPort srcAddr dstAddr represents first stored
      accepted different
  · rw [entry_deletePolicy represents, if_neg different]
    exact stored

theorem possible_deletePolicy_iff {live : List Addition}
    (represents : EngineRepresents engine live)
    (unowed : ∀ rule, engine.Possible proto dstPort srcPort srcAddr dstAddr dir (some rule) →
      rule.policyKey ≠ name) (answer : Option RuleDetail) :
    (engine.deletePolicy dir name).Possible proto dstPort srcPort srcAddr dstAddr dir answer ↔
      engine.Possible proto dstPort srcPort srcAddr dstAddr dir answer := by
  have first : (engine.deletePolicy dir name).firstKey proto dstPort srcPort srcAddr dstAddr dir =
      engine.firstKey proto dstPort srcPort srcAddr dstAddr dir := by
    cases first : engine.firstKey proto dstPort srcPort srcAddr dstAddr dir with
    | none =>
        unfold RustPolicyEngine.firstKey at first ⊢
        rw [createRuleKeyByTuple_deletePolicy]
        rw [List.find?_eq_none] at first ⊢
        intro key member answers
        exact first key member (answers_of_deletePolicy proto dstPort srcPort represents answers)
    | some key =>
        obtain ⟨other, rule, stored, accepted⟩ :=
          (RuleChain.answers_iff _ _ _ _ _).mp (List.find?_some first)
        have different := unowed rule ((engine.possible_some_iff _ _ _ _ _ _ _).mpr
          ⟨key, first, other, stored, accepted⟩)
        rw [name_of_entry represents stored] at different
        exact firstKey_deletePolicy proto dstPort srcPort srcAddr dstAddr represents first stored
          accepted different
  cases answer with
  | none => rw [RustPolicyEngine.possible_none_iff, RustPolicyEngine.possible_none_iff, first]
  | some rule =>
      constructor
      · intro possible
        obtain ⟨key, atKey, other, stored, accepted⟩ :=
          (RustPolicyEngine.possible_some_iff _ _ _ _ _ _ _ _).mp possible
        rw [entry_deletePolicy represents] at stored
        split at stored
        · cases stored
        · exact (engine.possible_some_iff _ _ _ _ _ _ _).mpr
            ⟨key, first.symm.trans atKey, other, stored, accepted⟩
      · intro possible
        exact possible_deletePolicy proto dstPort srcPort srcAddr dstAddr represents
          (unowed rule possible) possible

end OneDeletion

/-- After any history: the engine lists the same rules and can give the same answers as one
that was only given the additions no later call took out.  One more deletion changes no
lookup of the other direction, takes no answer of another policy away, and changes nothing
for packets the deleted policy could not answer. -/
theorem deletion_leaves_no_trace (ops : List EngineOp) (dir : FlowDir) :
    let engine := RustPolicyEngine.new.run ops
    (engine.allRules dir).Perm ((RustPolicyEngine.new.run (replayed ops)).allRules dir) ∧
    ∀ (proto dstPort srcPort : Nat) (srcAddr dstAddr : String),
      (∀ answer, engine.Possible proto dstPort srcPort srcAddr dstAddr dir answer ↔
        (RustPolicyEngine.new.run (replayed ops)).Possible proto dstPort srcPort srcAddr dstAddr
          dir answer) ∧
      ∀ name,
        (∀ order side, side ≠ dir →
          (engine.deletePolicy dir name).matchFiveTuple order proto dstPort srcPort srcAddr
              dstAddr side =
            engine.matchFiveTuple order proto dstPort srcPort srcAddr dstAddr side) ∧
        (∀ rule : RuleDetail, rule.policyKey ≠ name →
          engine.Possible proto dstPort srcPort srcAddr dstAddr dir (some rule) →
            (engine.deletePolicy dir name).Possible proto dstPort srcPort srcAddr dstAddr dir
              (some rule)) ∧
        ((∀ rule, engine.Possible proto dstPort srcPort srcAddr dstAddr dir (some rule) →
            rule.policyKey ≠ name) →
          ∀ answer,
            (engine.deletePolicy dir name).Possible proto dstPort srcPort srcAddr dstAddr dir
                answer ↔
              engine.Possible proto dstPort srcPort srcAddr dstAddr dir answer) := by
  intro engine
  have represents : EngineRepresents engine (liveAdditions ops) := engineRepresents_run ops
  have again := engineRepresents_run (replayed ops)
  rw [liveAdditions_replayed] at again
  refine ⟨?_, ?_⟩
  · exact allRules_perm represents again (coherent_run ops dir) (coherent_run (replayed ops) dir)
  · intro proto dstPort srcPort srcAddr dstAddr
    refine ⟨possible_congr proto dstPort srcPort srcAddr dstAddr dir represents again, ?_⟩
    intro name
    refine ⟨?_, ?_, ?_⟩
    · intro order side other
      exact matchFiveTuple_deletePolicy_other proto dstPort srcPort srcAddr dstAddr order other
    · intro rule different
      exact possible_deletePolicy proto dstPort srcPort srcAddr dstAddr represents different
    · exact possible_deletePolicy_iff proto dstPort srcPort srcAddr dstAddr represents

/-- The priority of the deleted policy is still recorded, and makes no difference. -/
theorem webHistory_traceless :
    (7 : Int) ∈ (RustPolicyEngine.new.run webHistory).priority ∧
      (7 : Int) ∉ (RustPolicyEngine.new.run (replayed webHistory)).priority ∧
        ((RustPolicyEngine.new.run webHistory).Possible 6 80 40000 "10.1.2.3" "192.168.1.5" .ingress
            none ↔
          (RustPolicyEngine.new.run (replayed webHistory)).Possible 6 80 40000 "10.1.2.3"
            "192.168.1.5" .ingress none) :=
  ⟨by decide +kernel, by decide +kernel,
    ((deletion_leaves_no_trace webHistory .ingress).2 6 80 40000 "10.1.2.3" "192.168.1.5").1 none⟩

end NetPolicy.Policy
