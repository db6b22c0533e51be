/-
What a policy tree holds after any history.

The abstract state of a tree is the list of live additions.  `merged` says what
the tree stores for one index key and one policy name: the first such addition,
with the ports of all of them.  `Represents` relates a tree to its additions and
every operation keeps the relation, so the contents of chain and tree after any
history are a function of the live additions alone.
-/

import NetPolicy.Policy.Engine

namespace NetPolicy.Policy

def RuleDetail.key (rule : RuleDetail) : String := rule.createRuleKey.1

/-! ### Merging additions -/

def sharing (key name : String) (additions : List Addition) : List Addition :=
  additions.filter fun addition => addition.1.key = key ∧ addition.1.policyKey = name

def merged (additions : List Addition) (key name : String) : Option RuleDetail :=
  match sharing key name additions with
  | [] => none
  | first :: rest => some { first.1 with ports := (first :: rest).map Prod.snd }

theorem mem_sharing {key name : String} {additions : List Addition} {addition : Addition} :
    addition ∈ sharing key name additions ↔
      addition ∈ additions ∧ addition.1.key = key ∧ addition.1.policyKey = name := by
  simp [sharing]

theorem merged_eq_none_iff (additions : List Addition) (key name : String) :
    merged additions key name = none ↔
      ∀ addition ∈ additions, ¬(addition.1.key = key ∧ addition.1.policyKey = name) := by
  have emptiness : merged additions key name = none ↔ sharing key name additions = [] := by
    unfold merged
    cases sharing key name additions <;> simp
  rw [emptiness, sharing, List.filter_eq_nil_iff]
  simp

/-- A stored entry is the first addition of its key and name, and its ports are
exactly the ports of the additions it stands for. -/
theorem merged_eq_some {additions : List Addition} {key name : String} {entry : RuleDetail}
    (stored : merged additions key name = some entry) :
    ∃ first ∈ additions, first.1.key = key ∧ first.1.policyKey = name ∧
      entry = { first.1 with ports := (sharing key name additions).map Prod.snd } := by
  unfold merged at stored
  cases shape : sharing key name additions with
  | nil =>
      rw [shape] at stored
      contradiction
  | cons first rest =>
      rw [shape] at stored
      have member : first ∈ sharing key name additions := by
        rw [shape]
        exact List.mem_cons_self
      rcases mem_sharing.mp member with ⟨live, keyEq, nameEq⟩
      exact ⟨first, live, keyEq, nameEq, (Option.some.inj stored).symm⟩

theorem merged_append (additions : List Addition) (rule : RuleDetail) (port : RulePort)
    (key name : String) :
    merged (additions ++ [(rule, port)]) key name =
      if rule.key = key ∧ rule.policyKey = name then
        some (match merged additions key name with
          | none => { rule with ports := [port] }
          | some existing => { existing with ports := existing.ports ++ [port] })
      else merged additions key name := by
  unfold merged sharing
  rw [List.filter_append]
  by_cases same : rule.key = key ∧ rule.policyKey = name
  · rw [if_pos same]
    cases shape : additions.filter
        (fun addition => addition.1.key = key ∧ addition.1.policyKey = name) with
    | nil => simp [same]
    | cons first rest => simp [same]
  · rw [if_neg same]
    simp [same]

theorem sharing_append (key name : String) (first second : List Addition) :
    sharing key name (first ++ second) = sharing key name first ++ sharing key name second :=
  List.filter_append _ _

theorem merged_append_of_some {first second : List Addition} {key name : String}
    {existing : RuleDetail} (stored : merged first key name = some existing) :
    merged (first ++ second) key name =
      some { existing with
        ports := existing.ports ++ (sharing key name second).map Prod.snd } := by
  unfold merged at stored ⊢
  rw [sharing_append]
  cases shape : sharing key name first with
  | nil =>
      rw [shape] at stored
      cases stored
  | cons addition rest =>
      rw [shape] at stored
      cases stored
      simp

theorem merged_append_of_none {first : List Addition} {key name : String}
    (absent : merged first key name = none) (second : List Addition) :
    merged (first ++ second) key name = merged second key name := by
  have nothing : sharing key name first = [] := by
    rw [sharing, List.filter_eq_nil_iff]
    simpa using (merged_eq_none_iff first key name).mp absent
  rw [merged, merged, sharing_append, nothing, List.nil_append]

theorem merged_filter (additions : List Addition) (removed key name : String) :
    merged (additions.filter fun addition => addition.1.policyKey ≠ removed) key name =
      if name = removed then none else merged additions key name := by
  have commuted : sharing key name
      (additions.filter fun addition => addition.1.policyKey ≠ removed) =
        if name = removed then [] else sharing key name additions := by
    unfold sharing
    rw [List.filter_filter]
    split
    · rename_i same
      rw [List.filter_eq_nil_iff]
      intro addition _member
      simp only [same, decide_eq_true_eq, Bool.and_eq_true, not_and, ne_eq, decide_not,
        Bool.not_eq_eq_eq_not, Bool.not_true, decide_eq_false_iff_not]
      tauto
    · rename_i different
      apply List.filter_congr
      intro addition _member
      by_cases hits : addition.1.key = key ∧ addition.1.policyKey = name
      · simp [hits, different]
      · simp [hits]
  unfold merged
  rw [commuted]
  by_cases same : name = removed
  · rw [if_pos same, if_pos same]
  · rw [if_neg same, if_neg same]

/-! ### Chain entries -/

def RuleChain.entry (chain : RuleChain) (key name : String) : Option RuleDetail :=
  (chain.chain.lookup key).bind fun group => group.rules.lookup name

def RuleChain.NoEmptyGroup (chain : RuleChain) : Prop :=
  ∀ key group, chain.chain.lookup key = some group → group.size ≠ 0

theorem RuleChain.entry_addRuleToChain (chain : RuleChain) (ruleKey : String)
    (rule : RuleDetail) (port : RulePort) (key name : String) :
    (chain.addRuleToChain ruleKey rule port).entry key name =
      if ruleKey = key ∧ rule.policyKey = name then
        some (match chain.entry key name with
          | none => { rule with ports := [port] }
          | some existing => { existing with ports := existing.ports ++ [port] })
      else chain.entry key name := by
  unfold RuleChain.entry RuleChain.addRuleToChain
  simp only [HashMap.lookup_insert_eq]
  by_cases sameKey : key = ruleKey
  · rw [if_pos sameKey, Option.bind_some]
    have groupLookup : ((chain.chain.lookup ruleKey).getD RuleGroup.new).rules.lookup name =
        (chain.chain.lookup ruleKey).bind fun group => group.rules.lookup name := by
      cases chain.chain.lookup ruleKey <;> rfl
    unfold RuleGroup.addRuleDetail
    by_cases sameName : name = rule.policyKey
    · rw [if_pos ⟨sameKey.symm, sameName.symm⟩, sameKey, sameName, ← sameName, ← groupLookup,
        sameName]
      cases found : ((chain.chain.lookup ruleKey).getD RuleGroup.new).rules.lookup
          rule.policyKey with
      | none => simp
      | some existing => simp
    · have distinct : ¬(ruleKey = key ∧ rule.policyKey = name) := by
        rintro ⟨-, nameEq⟩
        exact sameName nameEq.symm
      rw [if_neg distinct, sameKey, ← groupLookup]
      split <;> simp [sameName]
  · have distinct : ¬(ruleKey = key ∧ rule.policyKey = name) := by
      rintro ⟨keyEq, -⟩
      exact sameKey keyEq.symm
    rw [if_neg sameKey, if_neg distinct]

theorem RuleChain.noEmptyGroup_addRuleToChain {chain : RuleChain} (clean : chain.NoEmptyGroup)
    (ruleKey : String) (rule : RuleDetail) (port : RulePort) :
    (chain.addRuleToChain ruleKey rule port).NoEmptyGroup := by
  intro key group found
  unfold RuleChain.addRuleToChain at found
  simp only [HashMap.lookup_insert_eq] at found
  split at found
  · cases found
    intro empty
    have absent := (HashMap.size_eq_zero_iff _).mp empty rule.policyKey
    unfold RuleGroup.addRuleDetail at absent
    split at absent <;> simp at absent
  · exact clean key group found

theorem RuleChain.entry_deleteRuleFromChain (chain : RuleChain) (policyName ruleKey : String)
    (key name : String) :
    (chain.deleteRuleFromChain policyName ruleKey).entry key name =
      if key = ruleKey ∧ name = policyName then none else chain.entry key name := by
  unfold RuleChain.entry RuleChain.deleteRuleFromChain
  cases found : chain.chain.lookup ruleKey with
  | none =>
      by_cases hits : key = ruleKey ∧ name = policyName
      · rw [if_pos hits, hits.1, found]
        rfl
      · rw [if_neg hits]
  | some group =>
      have erased : (group.deleteRule policyName).rules.lookup name =
          if name = policyName then none else group.rules.lookup name :=
        HashMap.lookup_erase_eq group.rules policyName name
      by_cases sameKey : key = ruleKey
      · -- the group itself: either it is dropped because nothing is left in it,
        -- or it stays without the policy
        have kept : (chain.chain.lookup key).bind (fun stored => stored.rules.lookup name) =
            group.rules.lookup name := by
          rw [sameKey, found]
          rfl
        simp only [kept]
        split
        · rename_i empty
          have nothing := (HashMap.size_eq_zero_iff _).mp empty name
          rw [erased] at nothing
          simp only [HashMap.lookup_erase_eq, sameKey, if_true, Option.bind_none, true_and]
          split
          · rfl
          · rename_i different
            rw [if_neg different] at nothing
            exact nothing.symm
        · simp only [HashMap.lookup_insert_eq, sameKey, if_true, Option.bind_some, true_and,
            erased]
      · have distinct : ¬(key = ruleKey ∧ name = policyName) := by
          rintro ⟨keyEq, -⟩
          exact sameKey keyEq
        rw [if_neg distinct]
        dsimp only
        split
        · simp only [HashMap.lookup_erase_eq, if_neg sameKey]
        · simp only [HashMap.lookup_insert_eq, if_neg sameKey]

theorem RuleChain.noEmptyGroup_deleteRuleFromChain {chain : RuleChain}
    (clean : chain.NoEmptyGroup) (policyName ruleKey : String) :
    (chain.deleteRuleFromChain policyName ruleKey).NoEmptyGroup := by
  unfold RuleChain.deleteRuleFromChain
  split
  · exact clean
  · intro key group found
    simp only at found
    split at found
    · simp only [HashMap.lookup_erase_eq] at found
      split at found
      · contradiction
      · exact clean key group found
    · rename_i nonempty
      simp only [HashMap.lookup_insert_eq] at found
      split at found
      · cases found
        exact nonempty
      · exact clean key group found

theorem RuleChain.deleteLoop (name : String) (keys : List String) (chain : RuleChain)
    (clean : chain.NoEmptyGroup) :
    (keys.foldl (fun chain key => chain.deleteRuleFromChain name key) chain).NoEmptyGroup ∧
      ∀ key other,
        (keys.foldl (fun chain key => chain.deleteRuleFromChain name key) chain).entry key other =
          if key ∈ keys ∧ other = name then none else chain.entry key other := by
  induction keys generalizing chain with
  | nil =>
      refine ⟨clean, ?_⟩
      intro key other
      simp
  | cons head tail ih =>
      rcases ih (chain.deleteRuleFromChain name head)
        (noEmptyGroup_deleteRuleFromChain clean name head) with ⟨tailClean, tailEntry⟩
      refine ⟨tailClean, ?_⟩
      intro key other
      rw [List.foldl_cons, tailEntry, entry_deleteRuleFromChain]
      by_cases later : key ∈ tail ∧ other = name
      · simp [later]
      · by_cases now : key = head ∧ other = name
        · simp [now]
        · have neither : ¬(key ∈ head :: tail ∧ other = name) := by
            rw [List.mem_cons]
            tauto
          rw [if_neg later, if_neg now, if_neg neither]

/-! ### Trees and their additions -/

def PolicyTree.Recorded (tree : PolicyTree) (name key : String) : Prop :=
  ∃ keys, tree.tree.lookup name = some keys ∧ key ∈ keys

structure Represents (tree : PolicyTree) (additions : List Addition) : Prop where
  entry : ∀ key name, tree.chain.entry key name = merged additions key name
  clean : tree.chain.NoEmptyGroup
  recorded : ∀ name key, tree.Recorded name key ↔
    ∃ addition ∈ additions, addition.1.key = key ∧ addition.1.policyKey = name
  named : ∀ name keys, tree.tree.lookup name = some keys → ∃ key, key ∈ keys

theorem Represents.empty (dir : FlowDir) : Represents ⟨⟨dir, ∅⟩, ∅⟩ [] := by
  refine ⟨?_, ?_, ?_, ?_⟩
  · intro key name
    rfl
  · intro key group found
    cases found
  · intro name key
    constructor
    · rintro ⟨keys, found, -⟩
      cases found
    · rintro ⟨addition, member, -⟩
      cases member
  · intro name keys found
    cases found

theorem Represents.addPolicyToChain {tree : PolicyTree} {additions : List Addition}
    (represents : Represents tree additions) (rule : RuleDetail) (port : RulePort) :
    Represents (tree.addPolicyToChain rule port) (additions ++ [(rule, port)]) := by
  have chainEq : (tree.addPolicyToChain rule port).chain =
      tree.chain.addRuleToChain rule.key rule port := rfl
  have lookupEq : ∀ name, (tree.addPolicyToChain rule port).tree.lookup name =
      if name = rule.policyKey then
        some (((tree.tree.lookup rule.policyKey).getD ∅).insert rule.key rule.direction)
      else tree.tree.lookup name :=
    fun name => HashMap.lookup_insert_eq tree.tree rule.policyKey name _
  refine ⟨?_, ?_, ?_, ?_⟩
  · intro key name
    rw [chainEq, RuleChain.entry_addRuleToChain, merged_append, represents.entry key name]
  · rw [chainEq]
    exact RuleChain.noEmptyGroup_addRuleToChain represents.clean rule.key rule port
  · intro name key
    have earlier := represents.recorded name key
    have split : (∃ addition ∈ additions ++ [(rule, port)],
        addition.1.key = key ∧ addition.1.policyKey = name) ↔
        (∃ addition ∈ additions, addition.1.key = key ∧ addition.1.policyKey = name) ∨
          (rule.key = key ∧ rule.policyKey = name) := by
      simp only [List.mem_append, List.mem_singleton, or_and_right, exists_or, exists_eq_left]
    rw [split, ← earlier]
    unfold PolicyTree.Recorded
    rw [lookupEq]
    by_cases same : name = rule.policyKey
    · rw [if_pos same, same]
      cases found : tree.tree.lookup rule.policyKey with
      | none =>
          simp only [Option.getD_none, Option.some.injEq, exists_eq_left', AList.mem_insert,
            AList.notMem_empty, or_false, and_true, reduceCtorEq, false_and, exists_false,
            false_or]
          exact eq_comm
      | some keys =>
          simp only [Option.getD_some, Option.some.injEq, exists_eq_left', AList.mem_insert,
            and_true]
          constructor
          · rintro (now | before)
            · exact Or.inr now.symm
            · exact Or.inl before
          · rintro (before | now)
            · exact Or.inr before
            · exact Or.inl now.symm
    · rw [if_neg same]
      have distinct : ¬(rule.key = key ∧ rule.policyKey = name) := by
        rintro ⟨-, nameEq⟩
        exact same nameEq.symm
      simp only [distinct, or_false]
  · intro name keys found
    rw [lookupEq] at found
    split at found
    · cases found
      exact ⟨rule.key, (AList.mem_insert _).mpr (Or.inl rfl)⟩
    · exact represents.named name keys found

theorem Represents.nil_of_no_names {tree : PolicyTree} {additions : List Addition}
    (represents : Represents tree additions)
    (empty : HashMap.size tree.tree = 0) : additions = [] := by
  cases shape : additions with
  | nil => rfl
  | cons first rest =>
      have recorded : tree.Recorded first.1.policyKey first.1.key := by
        apply (represents.recorded _ _).mpr
        exact ⟨first, by rw [shape]; exact List.mem_cons_self, rfl, rfl⟩
      rcases recorded with ⟨keys, found, -⟩
      rw [(HashMap.size_eq_zero_iff _).mp empty first.1.policyKey] at found
      contradiction

/-- The tree once a policy's name and the chain entries of its keys are gone, before the
last check whether any name is left. -/
def PolicyTree.withoutName (tree : PolicyTree) (name : String) (rules : HashMap String FlowDir) :
    PolicyTree :=
  { chain := rules.keys.foldl (fun chain key => chain.deleteRuleFromChain name key) tree.chain
    tree := tree.tree.erase name }

theorem PolicyTree.deletePolicyFromTree_some {tree : PolicyTree} {name : String}
    {rules : HashMap String FlowDir} (found : tree.tree.lookup name = some rules) :
    tree.deletePolicyFromTree name =
      if HashMap.size (tree.withoutName name rules).tree = 0 then
        (tree.withoutName name rules).clear
      else tree.withoutName name rules := by
  unfold PolicyTree.deletePolicyFromTree
  rw [found]
  rfl

theorem Represents.withoutName {tree : PolicyTree} {additions : List Addition}
    (represents : Represents tree additions) {name : String} {rules : HashMap String FlowDir}
    (found : tree.tree.lookup name = some rules) :
    Represents (tree.withoutName name rules)
      (additions.filter fun addition => addition.1.policyKey ≠ name) := by
  rcases RuleChain.deleteLoop name rules.keys tree.chain represents.clean with
    ⟨remainingClean, remainingEntry⟩
  have lookupEq : ∀ other, (tree.withoutName name rules).tree.lookup other =
      if other = name then none else tree.tree.lookup other :=
    HashMap.lookup_erase_eq tree.tree name
  have survives : ∀ key other,
      (∃ addition ∈ additions.filter fun addition => addition.1.policyKey ≠ name,
          addition.1.key = key ∧ addition.1.policyKey = other) ↔
        other ≠ name ∧ ∃ addition ∈ additions,
          addition.1.key = key ∧ addition.1.policyKey = other := by
    intro key other
    simp only [List.mem_filter, decide_eq_true_eq]
    constructor
    · rintro ⟨addition, ⟨member, different⟩, keyEq, nameEq⟩
      exact ⟨nameEq ▸ different, addition, member, keyEq, nameEq⟩
    · rintro ⟨different, addition, member, keyEq, nameEq⟩
      exact ⟨addition, ⟨member, nameEq ▸ different⟩, keyEq, nameEq⟩
  refine ⟨?_, remainingClean, ?_, ?_⟩
  · intro key other
    rw [merged_filter, PolicyTree.withoutName, remainingEntry key other,
      represents.entry key other]
    by_cases same : other = name
    · rw [if_pos same]
      split
      · rfl
      · rename_i unlisted
        have absent : key ∉ rules := fun member =>
          unlisted ⟨AList.mem_keys.mp member, same⟩
        rw [merged_eq_none_iff]
        rintro addition member ⟨keyEq, nameEq⟩
        rcases (represents.recorded name key).mpr
          ⟨addition, member, keyEq, nameEq.trans same⟩ with ⟨keys, recorded, listed⟩
        rw [found] at recorded
        cases recorded
        exact absent listed
    · rw [if_neg same, if_neg (fun both => same both.2)]
  · intro other key
    rw [survives key other, ← represents.recorded other key]
    unfold PolicyTree.Recorded
    rw [lookupEq]
    by_cases same : other = name
    · simp [same]
    · simp [same]
  · intro other keys recorded
    rw [lookupEq] at recorded
    split at recorded
    · contradiction
    · exact represents.named other keys recorded

theorem Represents.deletePolicyFromTree {tree : PolicyTree} {additions : List Addition}
    (represents : Represents tree additions) (name : String) :
    Represents (tree.deletePolicyFromTree name)
      (additions.filter fun addition => addition.1.policyKey ≠ name) := by
  cases found : tree.tree.lookup name with
  | none =>
      -- no key is recorded under the name, so no addition has it
      have untouched : (additions.filter fun addition => addition.1.policyKey ≠ name) =
          additions := by
        apply List.filter_eq_self.mpr
        intro addition member
        have different : addition.1.policyKey ≠ name := by
          intro same
          rcases (represents.recorded name addition.1.key).mpr ⟨addition, member, rfl, same⟩ with
            ⟨keys, recorded, -⟩
          rw [found] at recorded
          contradiction
        simpa using different
      unfold PolicyTree.deletePolicyFromTree
      rw [untouched, found]
      exact represents
  | some rules =>
      have kept := represents.withoutName found
      rw [PolicyTree.deletePolicyFromTree_some found]
      split
      · rename_i empty
        rw [kept.nil_of_no_names empty]
        exact Represents.empty _
      · exact kept

/-! ### Engines and histories -/

def inDirection (dir : FlowDir) (additions : List Addition) : List Addition :=
  additions.filter fun addition => addition.1.direction = dir

theorem mem_inDirection {dir : FlowDir} {additions : List Addition} {addition : Addition} :
    addition ∈ inDirection dir additions ↔
      addition ∈ additions ∧ addition.1.direction = dir := by
  simp [inDirection]

theorem inDirection_append (dir : FlowDir) (first second : List Addition) :
    inDirection dir (first ++ second) = inDirection dir first ++ inDirection dir second :=
  List.filter_append _ _

/-- Both trees represent the live additions of their direction, and the
generated candidate keys cover every one of them. -/
structure EngineRepresents (engine : RustPolicyEngine) (live : List Addition) : Prop where
  trees : ∀ dir, Represents (engine.tree dir) (inDirection dir live)
  priorities : ∀ addition ∈ live, addition.1.priority ∈ engine.priority
  masks : ∀ addition ∈ live, 0 < addition.1.createRuleKey.2 → addition.1.createRuleKey.2 ≤ 32 →
    addition.1.createRuleKey.2 ∈ engine.maskCidr
  fullMask : (32 : Int) ∈ engine.maskCidr
  maskRange : ∀ mask ∈ engine.maskCidr, 0 < mask ∧ mask ≤ 32

theorem mem_fresh_masks {mask : Int} :
    mask ∈ (OrderedSet.empty.insert 32 : OrderedSet Int) ↔ mask = 32 := by
  rw [OrderedSet.mem_insert]
  simp [OrderedSet.not_mem_empty]

theorem EngineRepresents.of_cleared (engine : RustPolicyEngine)
    (input : ∃ dir, engine.inputTree = ⟨⟨dir, ∅⟩, ∅⟩)
    (output : ∃ dir, engine.outputTree = ⟨⟨dir, ∅⟩, ∅⟩)
    (masks : engine.maskCidr = OrderedSet.empty.insert 32) :
    EngineRepresents engine [] := by
  refine ⟨?_, ?_, ?_, ?_, ?_⟩
  · intro dir
    rcases input with ⟨inputDir, inputEq⟩
    rcases output with ⟨outputDir, outputEq⟩
    cases dir with
    | ingress =>
        change Represents engine.inputTree []
        rw [inputEq]
        exact Represents.empty inputDir
    | egress =>
        change Represents engine.outputTree []
        rw [outputEq]
        exact Represents.empty outputDir
  · intro addition member
    cases member
  · intro addition member
    cases member
  · rw [masks]
    exact mem_fresh_masks.mpr rfl
  · intro mask member
    rw [masks, mem_fresh_masks] at member
    omega

theorem tree_addPolicy (engine : RustPolicyEngine) (rule : RuleDetail) (port : RulePort)
    (dir : FlowDir) :
    (engine.addPolicy rule port).tree dir =
      if rule.direction = dir then (engine.tree dir).addPolicyToChain rule port
      else engine.tree dir := by
  unfold RustPolicyEngine.addPolicy RustPolicyEngine.setTree RustPolicyEngine.tree
    RustPolicyEngine.addMaskAndPriority
  cases direction : rule.direction <;> cases dir <;> simp_all

theorem tree_deletePolicy (engine : RustPolicyEngine) (dir other : FlowDir) (name : String) :
    (engine.deletePolicy dir name).tree other =
      if other = dir then (engine.tree other).deletePolicyFromTree name else engine.tree other := by
  cases dir <;> cases other <;> rfl

theorem mem_maskCidr_addPolicy (engine : RustPolicyEngine) (rule : RuleDetail)
    (port : RulePort) (mask : Int) :
    mask ∈ (engine.addPolicy rule port).maskCidr ↔
      (mask = rule.createRuleKey.2 ∧ 0 < mask ∧ mask ≤ 32) ∨ mask ∈ engine.maskCidr := by
  have shape : (engine.addPolicy rule port).maskCidr =
      if rule.createRuleKey.2 > 0 ∧ rule.createRuleKey.2 ≤ 32 then
        engine.maskCidr.insert rule.createRuleKey.2 else engine.maskCidr := by
    unfold RustPolicyEngine.addPolicy RustPolicyEngine.setTree
      RustPolicyEngine.addMaskAndPriority
    cases rule.direction <;> rfl
  rw [shape]
  split
  · rename_i range
    rw [OrderedSet.mem_insert]
    constructor
    · rintro (same | earlier)
      · exact Or.inl ⟨same, same ▸ range⟩
      · exact Or.inr earlier
    · rintro (⟨same, -⟩ | earlier)
      · exact Or.inl same
      · exact Or.inr earlier
  · rename_i outside
    constructor
    · exact Or.inr
    · rintro (⟨same, range⟩ | earlier)
      · exact absurd (same ▸ range) outside
      · exact earlier

theorem mem_priority_addPolicy (engine : RustPolicyEngine) (rule : RuleDetail)
    (port : RulePort) (priority : Int) :
    priority ∈ (engine.addPolicy rule port).priority ↔
      priority = rule.priority ∨ priority ∈ engine.priority := by
  have shape : (engine.addPolicy rule port).priority =
      engine.priority.insert rule.priority := by
    unfold RustPolicyEngine.addPolicy RustPolicyEngine.setTree
      RustPolicyEngine.addMaskAndPriority
    cases rule.direction <;> rfl
  rw [shape, OrderedSet.mem_insert]

theorem EngineRepresents.addPolicy {engine : RustPolicyEngine} {live : List Addition}
    (represents : EngineRepresents engine live) (rule : RuleDetail) (port : RulePort) :
    EngineRepresents (engine.addPolicy rule port) (live ++ [(rule, port)]) := by
  have maskSet := mem_maskCidr_addPolicy engine rule port
  refine ⟨?_, ?_, ?_, ?_, ?_⟩
  · intro dir
    by_cases same : rule.direction = dir
    · have liveEq : inDirection dir (live ++ [(rule, port)]) =
          inDirection dir live ++ [(rule, port)] := by
        simp [inDirection, same]
      rw [tree_addPolicy, if_pos same, liveEq]
      exact (represents.trees dir).addPolicyToChain rule port
    · have liveEq : inDirection dir (live ++ [(rule, port)]) = inDirection dir live := by
        simp [inDirection, same]
      rw [tree_addPolicy, if_neg same, liveEq]
      exact represents.trees dir
  · intro addition member
    rw [mem_priority_addPolicy]
    rcases List.mem_append.mp member with earlier | now
    · exact Or.inr (represents.priorities addition earlier)
    · rw [List.mem_singleton.mp now]
      exact Or.inl rfl
  · intro addition member positive bound
    rw [maskSet]
    rcases List.mem_append.mp member with earlier | now
    · exact Or.inr (represents.masks addition earlier positive bound)
    · rw [List.mem_singleton.mp now] at positive bound ⊢
      exact Or.inl ⟨rfl, positive, bound⟩
  · exact (maskSet 32).mpr (Or.inr represents.fullMask)
  · intro mask member
    rcases (maskSet mask).mp member with ⟨-, range⟩ | earlier
    · exact range
    · exact represents.maskRange mask earlier

theorem inDirection_deleted (dir other : FlowDir) (name : String) (live : List Addition) :
    inDirection other (live.filter fun addition => addition.owner ≠ (dir, name)) =
      if other = dir then
        (inDirection other live).filter fun addition => addition.1.policyKey ≠ name
      else inDirection other live := by
  unfold inDirection
  by_cases same : other = dir
  · rw [if_pos same, List.filter_filter, List.filter_filter]
    apply List.filter_congr
    intro addition _member
    by_cases here : addition.1.direction = other
    · simp [Addition.owner, here, same]
    · simp [here]
  · rw [if_neg same, List.filter_filter]
    apply List.filter_congr
    intro addition _member
    by_cases here : addition.1.direction = other
    · simp [Addition.owner, here, same]
    · simp [here]

theorem EngineRepresents.deletePolicy {engine : RustPolicyEngine} {live : List Addition}
    (represents : EngineRepresents engine live) (dir : FlowDir) (name : String) :
    EngineRepresents (engine.deletePolicy dir name)
      (live.filter fun addition => addition.owner ≠ (dir, name)) := by
  have maskEq : (engine.deletePolicy dir name).maskCidr = engine.maskCidr := by
    cases dir <;> rfl
  have priorityEq : (engine.deletePolicy dir name).priority = engine.priority := by
    cases dir <;> rfl
  refine ⟨?_, ?_, ?_, ?_, ?_⟩
  · intro other
    rw [tree_deletePolicy, inDirection_deleted]
    split
    · exact (represents.trees other).deletePolicyFromTree name
    · exact represents.trees other
  · intro addition member
    rw [priorityEq]
    exact represents.priorities addition (List.mem_filter.mp member).1
  · intro addition member positive bound
    rw [maskEq]
    exact represents.masks addition (List.mem_filter.mp member).1 positive bound
  · rw [maskEq]
    exact represents.fullMask
  · intro mask member
    rw [maskEq] at member
    exact represents.maskRange mask member

theorem EngineRepresents.apply {engine : RustPolicyEngine} {live : List Addition}
    (represents : EngineRepresents engine live) (op : EngineOp) :
    EngineRepresents (engine.apply op) (liveAfter live op) := by
  cases op with
  | addPolicy rule port => exact represents.addPolicy rule port
  | deletePolicy dir name => exact represents.deletePolicy dir name
  | clearCfg =>
      exact EngineRepresents.of_cleared engine.clearCfg ⟨engine.inputTree.chain.dir, rfl⟩
        ⟨engine.outputTree.chain.dir, rfl⟩ rfl

theorem engineRepresents_run (ops : List EngineOp) :
    EngineRepresents (RustPolicyEngine.new.run ops) (liveAdditions ops) := by
  have initial : EngineRepresents RustPolicyEngine.new [] :=
    EngineRepresents.of_cleared RustPolicyEngine.new ⟨.ingress, rfl⟩ ⟨.egress, rfl⟩ rfl
  exact Runs.run_simulation RustPolicyEngine.apply liveAfter (fun _ _ => True) EngineRepresents
    (fun _ _ op represents _ => represents.apply op) initial
    (Runs.meets_of_forall (fun _ _ => trivial) _)

/-! ### Directions -/

theorem RuleChain.dir_deleteRuleFromChain (chain : RuleChain) (name key : String) :
    (chain.deleteRuleFromChain name key).dir = chain.dir := by
  unfold RuleChain.deleteRuleFromChain
  split
  · rfl
  · dsimp only
    split <;> rfl

theorem RuleChain.dir_deleteLoop (name : String) (keys : List String) (chain : RuleChain) :
    (keys.foldl (fun chain key => chain.deleteRuleFromChain name key) chain).dir = chain.dir := by
  induction keys generalizing chain with
  | nil => rfl
  | cons key rest ih =>
      rw [List.foldl_cons, ih]
      exact chain.dir_deleteRuleFromChain name key

theorem PolicyTree.dir_deletePolicyFromTree (tree : PolicyTree) (name : String) :
    (tree.deletePolicyFromTree name).chain.dir = tree.chain.dir := by
  have loop (rules : HashMap String FlowDir) :
      (tree.withoutName name rules).chain.dir = tree.chain.dir :=
    RuleChain.dir_deleteLoop name rules.keys tree.chain
  cases found : tree.tree.lookup name with
  | none =>
      unfold PolicyTree.deletePolicyFromTree
      rw [found]
  | some rules =>
      rw [PolicyTree.deletePolicyFromTree_some found]
      split
      · exact loop rules
      · exact loop rules

theorem dir_run (ops : List EngineOp) (dir : FlowDir) :
    ((RustPolicyEngine.new.run ops).tree dir).chain.dir = dir := by
  have kept : ∀ engine op, (∀ dir, (engine.tree dir).chain.dir = dir) → True →
      ∀ dir, ((RustPolicyEngine.apply engine op).tree dir).chain.dir = dir := by
    intro engine op directed _ dir
    cases op with
    | addPolicy rule port =>
        rw [RustPolicyEngine.apply, tree_addPolicy]
        split
        · exact directed dir
        · exact directed dir
    | deletePolicy side name =>
        rw [RustPolicyEngine.apply, tree_deletePolicy]
        split
        · exact ((engine.tree dir).dir_deletePolicyFromTree name).trans (directed dir)
        · exact directed dir
    | clearCfg =>
        cases dir with
        | ingress => exact directed .ingress
        | egress => exact directed .egress
  have initial : ∀ dir, (RustPolicyEngine.new.tree dir).chain.dir = dir := by
    intro side
    cases side <;> rfl
  exact Runs.run_invariant RustPolicyEngine.apply (fun _ _ => True)
    (fun engine => ∀ dir, (engine.tree dir).chain.dir = dir) kept initial
    (Runs.meets_of_forall (fun _ _ => trivial) _) dir

/-! ### Coherence -/

/-- The tree records exactly what the chain holds, nothing of either is empty, and every
entry stands where its own fields say. -/
structure Coherent (tree : PolicyTree) (dir : FlowDir) : Prop where
  direction : tree.chain.dir = dir
  recorded : ∀ name key, tree.Recorded name key ↔
    ∃ group, tree.chain.chain.lookup key = some group ∧ name ∈ group.rules
  groups : tree.chain.NoEmptyGroup
  names : ∀ name keys, tree.tree.lookup name = some keys → HashMap.size keys ≠ 0
  entries : ∀ key group name rule, tree.chain.chain.lookup key = some group →
    group.rules.lookup name = some rule →
      rule.policyKey = name ∧ rule.direction = dir ∧ rule.createRuleKey.1 = key ∧
        rule.ports ≠ []

theorem entry_eq_some_iff (chain : RuleChain) (key name : String) (rule : RuleDetail) :
    chain.entry key name = some rule ↔
      ∃ group, chain.chain.lookup key = some group ∧ group.rules.lookup name = some rule :=
  Option.bind_eq_some_iff

theorem Represents.recorded_iff {tree : PolicyTree} {additions : List Addition}
    (represents : Represents tree additions) (name key : String) :
    tree.Recorded name key ↔ tree.chain.entry key name ≠ none := by
  rw [represents.recorded name key, represents.entry key name, ne_eq, merged_eq_none_iff]
  constructor
  · rintro ⟨addition, member, same⟩ absent
    exact absent addition member same
  · intro present
    by_contra unrecorded
    exact present fun addition member same => unrecorded ⟨addition, member, same⟩

theorem Represents.coherent {tree : PolicyTree} {additions : List Addition} {dir : FlowDir}
    (represents : Represents tree additions) (directed : tree.chain.dir = dir)
    (ours : ∀ addition ∈ additions, addition.1.direction = dir) : Coherent tree dir := by
  refine ⟨directed, ?_, represents.clean, ?_, ?_⟩
  · intro name key
    have present : (∃ group, tree.chain.chain.lookup key = some group ∧ name ∈ group.rules) ↔
        tree.chain.entry key name ≠ none := by
      rw [Option.ne_none_iff_exists']
      constructor
      · rintro ⟨group, found, member⟩
        obtain ⟨rule, stored⟩ := Option.isSome_iff_exists.mp (AList.lookup_isSome.mpr member)
        exact ⟨rule, (entry_eq_some_iff _ _ _ _).mpr ⟨group, found, stored⟩⟩
      · rintro ⟨rule, stored⟩
        obtain ⟨group, found, entry⟩ := (entry_eq_some_iff _ _ _ _).mp stored
        exact ⟨group, found, AList.lookup_isSome.mp (Option.isSome_iff_exists.mpr ⟨rule, entry⟩)⟩
    rw [present, represents.recorded_iff name key]
  · intro name keys found empty
    obtain ⟨key, member⟩ := represents.named name keys found
    have absent := (HashMap.size_eq_zero_iff keys).mp empty key
    have present := AList.lookup_isSome.mpr member
    rw [absent] at present
    cases present
  · intro key group name rule found stored
    have entry := (entry_eq_some_iff _ _ _ _).mpr ⟨group, found, stored⟩
    rw [represents.entry key name] at entry
    obtain ⟨first, member, keyEq, nameEq, ruleEq⟩ := merged_eq_some entry
    have shared := mem_sharing.mpr ⟨member, keyEq, nameEq⟩
    rw [ruleEq]
    refine ⟨nameEq, ours first member, keyEq, ?_⟩
    exact List.ne_nil_of_mem (List.mem_map_of_mem shared)

theorem Represents.chain_empty {tree : PolicyTree} {additions : List Addition}
    (represents : Represents tree additions) (noNames : HashMap.size tree.tree = 0) :
    tree.size = 0 := by
  have nothing := represents.nil_of_no_names noNames
  refine (HashMap.size_eq_zero_iff _).mpr fun key => ?_
  by_contra some
  obtain ⟨group, found⟩ := Option.ne_none_iff_exists'.mp some
  refine represents.clean key group found ((HashMap.size_eq_zero_iff _).mpr fun name => ?_)
  have entry := represents.entry key name
  rw [nothing, RuleChain.entry, found, Option.bind_some] at entry
  exact entry

theorem coherent_run (ops : List EngineOp) (dir : FlowDir) :
    Coherent ((RustPolicyEngine.new.run ops).tree dir) dir :=
  ((engineRepresents_run ops).trees dir).coherent (dir_run ops dir) fun _ member =>
    (mem_inDirection.mp member).2

/-- After any history both trees are coherent, and the clearing at the end of a deletion
finds an empty chain. -/
theorem trees_coherent (ops : List EngineOp) (dir : FlowDir) :
    let tree := (RustPolicyEngine.new.run ops).tree dir
    Coherent tree dir ∧
      ∀ name rules, tree.tree.lookup name = some rules →
        (tree.deletePolicyFromTree name =
          if HashMap.size (tree.withoutName name rules).tree = 0 then
            (tree.withoutName name rules).clear
          else tree.withoutName name rules) ∧
        (HashMap.size (tree.withoutName name rules).tree = 0 →
          (tree.withoutName name rules).size = 0) := by
  intro tree
  have represents := (engineRepresents_run ops).trees dir
  refine ⟨coherent_run ops dir, ?_⟩
  intro name rules found
  exact ⟨PolicyTree.deletePolicyFromTree_some found, (represents.withoutName found).chain_empty⟩

end NetPolicy.Policy
