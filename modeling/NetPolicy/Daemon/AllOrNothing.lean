/-
Requests that are carried out in part.

`AddPolicyRule` deletes the policy it is about, reads the rules one after another and
stores as it reads.  A combination of a rule, a source, a destination and a port can be
passed over without a word, and a range that cannot be read ends the request where it
stands.  The combinations a request asks for are compared with what the store holds
afterwards, for the status the caller sees and for what is left behind.
-/

import NetPolicy.Daemon.Requests

namespace NetPolicy.Daemon

open NetPolicy.Policy NetPolicy.Flow

/-! ### Combinations -/

/-- The store holds the rule, with its action and the port. -/
def MicroSegEngine.Holds (store : MicroSegEngine) (rule : RuleDetail) (port : RulePort) : Prop :=
  ∃ entry, (store.policyRule.tree rule.direction).chain.entry rule.key rule.policyKey =
      some entry ∧ entry.action = rule.action ∧ port ∈ entry.ports

/-- A rule of a request with a source and a destination as they are written, and a port
in full width. -/
structure Combination where
  rule : PolicyRuleSpec
  source : List Char
  destination : List Char
  port : RulePort

def requested (rules : List PolicyRuleSpec) : List Combination :=
  rules.flatMap fun rule =>
    (addressItems rule.fromAddresses).flatMap fun source =>
      (addressItems rule.toAddresses).flatMap fun destination =>
        rule.wantedPorts.map fun port => ⟨rule, source, destination, port⟩

theorem mem_requested {rules : List PolicyRuleSpec} {combination : Combination} :
    combination ∈ requested rules ↔
      combination.rule ∈ rules ∧
        combination.source ∈ addressItems combination.rule.fromAddresses ∧
        combination.destination ∈ addressItems combination.rule.toAddresses ∧
        combination.port ∈ combination.rule.wantedPorts := by
  simp only [requested, List.mem_flatMap, List.mem_map]
  constructor
  · rintro ⟨rule, inRules, source, inSources, destination, inDestinations, port, inPorts, rfl⟩
    exact ⟨inRules, inSources, inDestinations, inPorts⟩
  · rintro ⟨inRules, inSources, inDestinations, inPorts⟩
    exact ⟨_, inRules, _, inSources, _, inDestinations, _, inPorts, rfl⟩

namespace Combination

/-- Source and destination stand for addresses, and the store holds the rule between
any two of them. -/
structure Installed (store : MicroSegEngine) (name : String) (combination : Combination) :
    Prop where
  source : ∃ src, StandsFor combination.source src
  destination : ∃ dst, StandsFor combination.destination dst
  holds : ∀ src dst, StandsFor combination.source src → StandsFor combination.destination dst →
    store.Holds (combination.rule.between name src dst) combination.port

/-- The priority is one `AddNewPolicy` takes, source and destination stand for addresses,
and the port has sixteen bits. -/
structure Fits (combination : Combination) : Prop where
  priority : 0 < combination.rule.priority ∧ combination.rule.priority < 129
  source : ∃ src, StandsFor combination.source src
  destination : ∃ dst, StandsFor combination.destination dst
  port : Narrow combination.port

end Combination

structure SameStore (left right : MicroSegEngine) : Prop where
  entries : ∀ dir key name, (left.policyRule.tree dir).chain.entry key name =
    (right.policyRule.tree dir).chain.entry key name
  recorded : ∀ dir name key, (left.policyRule.tree dir).Recorded name key ↔
    (right.policyRule.tree dir).Recorded name key
  clauses : ∀ dir name, (left.httpPolicy dir).lookup name = (right.httpPolicy dir).lookup name

theorem SameStore.installed_iff {left right : MicroSegEngine} (same : SameStore left right)
    (name : String) (combination : Combination) :
    combination.Installed left name ↔ combination.Installed right name := by
  have holds (rule : RuleDetail) (port : RulePort) :
      left.Holds rule port ↔ right.Holds rule port := by
    unfold MicroSegEngine.Holds
    rw [same.entries]
  constructor
  · intro installed
    exact ⟨installed.source, installed.destination, fun src dst forSource forDestination =>
      (holds _ _).mp (installed.holds src dst forSource forDestination)⟩
  · intro installed
    exact ⟨installed.source, installed.destination, fun src dst forSource forDestination =>
      (holds _ _).mpr (installed.holds src dst forSource forDestination)⟩

/-! ### Entries after the request -/

theorem policyKey_of_taken {name : String} {rules : List PolicyRuleSpec} {addition : Addition}
    (member : addition ∈ taken name rules) : addition.1.policyKey = name := by
  obtain ⟨rule, -, added, -⟩ := mem_taken.mp member
  obtain ⟨_, _, asked⟩ := PolicyRuleSpec.contributes_of_mem_added added
  obtain ⟨src, dst, -, -, ruleEq⟩ := asked.stands
  rw [ruleEq]
  rfl

theorem inDirection_kept (name : String) (live : List Addition) (dir : FlowDir) :
    inDirection dir (kept name live) = kept name (inDirection dir live) := by
  unfold kept
  split
  · rfl
  · unfold inDirection
    rw [List.filter_filter, List.filter_filter]
    exact List.filter_congr fun addition _member => Bool.and_comm _ _

theorem merged_kept_other {name other : String} (different : other ≠ name)
    (live : List Addition) (key : String) : merged (kept name live) key other =
      merged live key other := by
  unfold kept
  split
  · rfl
  · rw [merged_filter, if_neg different]

theorem merged_kept_same {name : String} (named : name ≠ "") (live : List Addition)
    (key : String) : merged (kept name live) key name = none := by
  rw [kept, if_neg named, merged_filter, if_pos rfl]

section Entries

variable {store after : MicroSegEngine} {live : List Addition} {name : String}
  {rules : List PolicyRuleSpec}
  (before : EngineRepresents store.policyRule live)
  (engine : EngineRepresents after.policyRule (kept name live ++ taken name rules))

include engine in
theorem entry_after (dir : FlowDir) (key other : String) :
    (after.policyRule.tree dir).chain.entry key other =
      merged (kept name (inDirection dir live) ++ inDirection dir (taken name rules)) key
        other := by
  rw [(engine.trees dir).entry key other, inDirection_append, inDirection_kept]

include engine in
theorem entry_after_own (named : name ≠ "") (dir : FlowDir) (key : String) :
    (after.policyRule.tree dir).chain.entry key name =
      merged (inDirection dir (taken name rules)) key name := by
  rw [entry_after engine, merged_append_of_none (merged_kept_same named _ key)]

include before engine in
theorem entry_after_other {other : String} (different : other ≠ name) (dir : FlowDir)
    (key : String) :
    (after.policyRule.tree dir).chain.entry key other =
      (store.policyRule.tree dir).chain.entry key other := by
  have foreign : sharing key other (inDirection dir (taken name rules)) = [] := by
    rw [List.eq_nil_iff_forall_not_mem]
    intro addition member
    obtain ⟨inTree, -, nameEq⟩ := mem_sharing.mp member
    exact different (nameEq.symm.trans (policyKey_of_taken (mem_inDirection.mp inTree).1))
  rw [entry_after engine, (before.trees dir).entry key other]
  have same := merged_kept_other different (inDirection dir live) key
  unfold merged at same ⊢
  rw [sharing_append, foreign, List.append_nil]
  exact same

include before engine in
/-- Under the empty name nothing was deleted, and an entry found there stays with its
action. -/
theorem entry_after_unnamed (unnamed : name = "") (dir : FlowDir) {key : String}
    {existing : RuleDetail}
    (found : (store.policyRule.tree dir).chain.entry key name = some existing) :
    (after.policyRule.tree dir).chain.entry key name =
      some { existing with
        ports := existing.ports ++
          (sharing key name (inDirection dir (taken name rules))).map Prod.snd } := by
  rw [(before.trees dir).entry key name] at found
  have untouched : kept name (inDirection dir live) = inDirection dir live := if_pos unnamed
  rw [entry_after engine, untouched, merged_append_of_some found]

end Entries

/-! ### When the status is zero -/

/-- Every combination fits, no two additions of one key differ in their action, and
neither do an addition under the empty name and the entry it finds there. -/
structure Accepted (store : MicroSegEngine) (name : String) (rules : List PolicyRuleSpec) :
    Prop where
  fits : ∀ combination ∈ requested rules, combination.Fits
  uniform : UniformActions (taken name rules)
  unnamed : name = "" → ∀ addition ∈ taken name rules, ∀ existing,
    (store.policyRule.tree addition.1.direction).chain.entry addition.1.key name =
      some existing → existing.action = addition.1.action

theorem priority_of_key {left right : RuleDetail} (direction : left.direction = right.direction)
    (key : left.key = right.key) : left.priority = right.priority := by
  have written : left.key = keyText left.direction right.priority right.proto
      (parseCidr right.cidrIp).1 (parseCidr right.cidrIp).2 right.exactIp := by
    rw [key, RuleDetail.key, RuleDetail.createRuleKey_eq, direction]
  exact (fields_of_key (ipv4CidrToIp_separators _ _) written).1

theorem Represented.of_holds {store : MicroSegEngine} {live : List Addition}
    (represented : Represented store live) {rule : RuleDetail} {port : RulePort}
    (holds : store.Holds rule port) :
    ∃ addition ∈ live, addition.1.direction = rule.direction ∧ addition.1.key = rule.key ∧
      addition.2 = port := by
  obtain ⟨entry, stored, -, inPorts⟩ := holds
  rw [(represented.engine.trees rule.direction).entry] at stored
  obtain ⟨first, -, -, -, entryEq⟩ := merged_eq_some stored
  rw [entryEq] at inPorts
  obtain ⟨addition, shared, portEq⟩ := List.mem_map.mp inPorts
  obtain ⟨inTree, keyEq, -⟩ := mem_sharing.mp shared
  obtain ⟨member, directionEq⟩ := mem_inDirection.mp inTree
  exact ⟨addition, member, directionEq, keyEq, portEq⟩

theorem fits_of_installed {store : MicroSegEngine} {live : List Addition}
    (represented : Represented store live) {name : String} {combination : Combination}
    (installed : combination.Installed store name) : combination.Fits := by
  obtain ⟨src, forSource⟩ := installed.source
  obtain ⟨dst, forDestination⟩ := installed.destination
  obtain ⟨addition, member, directionEq, keyEq, portEq⟩ :=
    represented.of_holds (installed.holds src dst forSource forDestination)
  obtain ⟨isTaken, narrow⟩ := represented.passed addition member
  have priorityEq : addition.1.priority = combination.rule.priority :=
    priority_of_key directionEq keyEq
  rw [admitted, decide_eq_true_eq, priorityEq] at isTaken
  exact ⟨isTaken, ⟨src, forSource⟩, ⟨dst, forDestination⟩, portEq ▸ narrow⟩

theorem action_of_installed {after : MicroSegEngine} {name : String}
    {rules : List PolicyRuleSpec}
    (installed : ∀ combination ∈ requested rules, combination.Installed after name)
    {addition : Addition} (member : addition ∈ taken name rules) :
    ∃ entry, (after.policyRule.tree addition.1.direction).chain.entry addition.1.key name =
      some entry ∧ entry.action = addition.1.action := by
  obtain ⟨rule, inRules, added, -⟩ := mem_taken.mp member
  obtain ⟨source, destination, asked⟩ := PolicyRuleSpec.contributes_of_mem_added added
  obtain ⟨src, dst, forSource, forDestination, ruleEq⟩ := asked.stands
  obtain ⟨port, inPorts⟩ := List.exists_mem_of_ne_nil _ rule.wantedPorts_ne_nil
  have wanted : (⟨rule, source, destination, port⟩ : Combination) ∈ requested rules :=
    mem_requested.mpr ⟨inRules, asked.inSources, asked.inDestinations, inPorts⟩
  obtain ⟨entry, stored, action, -⟩ :=
    (installed _ wanted).holds src dst forSource forDestination
  rw [ruleEq]
  exact ⟨entry, stored, action⟩

theorem taken_of_fits (name : String) {rules : List PolicyRuleSpec} {combination : Combination}
    (readable : ∀ rule ∈ rules, rule.Readable) (wanted : combination ∈ requested rules)
    (fits : combination.Fits) {src dst : String} (forSource : StandsFor combination.source src)
    (forDestination : StandsFor combination.destination dst) :
    (combination.rule.between name src dst, combination.port) ∈ taken name rules := by
  obtain ⟨inRules, inSources, inDestinations, inPorts⟩ := mem_requested.mp wanted
  have added : (combination.rule.between name src dst, combination.port) ∈
      combination.rule.added name :=
    (PolicyRuleSpec.mem_added (readable _ inRules) name _).mpr
      ⟨combination.source, combination.destination, inSources, inDestinations,
        PolicyRuleSpec.mem_storedPorts inPorts fits.port, src, dst, forSource, forDestination, rfl⟩
  have isTaken : admitted (combination.rule.between name src dst, combination.port) = true :=
    decide_eq_true fits.priority
  exact mem_taken.mpr ⟨combination.rule, inRules, added, isTaken⟩

section Accepting

variable {store after : MicroSegEngine} {live : List Addition} {name : String}
  {rules : List PolicyRuleSpec}
  (before : EngineRepresents store.policyRule live)
  (represented : Represented after (kept name live ++ taken name rules))

include before represented

theorem action_after (accepted : Accepted store name rules) {addition : Addition}
    (member : addition ∈ taken name rules) {entry : RuleDetail}
    (stored : (after.policyRule.tree addition.1.direction).chain.entry addition.1.key name =
      some entry) :
    entry.action = addition.1.action := by
  have engine := represented.engine
  by_cases absent : merged (kept name (inDirection addition.1.direction live)) addition.1.key
      name = none
  · -- no earlier entry: the first addition of the request decides the action
    rw [entry_after engine, merged_append_of_none absent] at stored
    obtain ⟨first, inTree, keyEq, nameEq, entryEq⟩ := merged_eq_some stored
    obtain ⟨firstTaken, directionEq⟩ := mem_inDirection.mp inTree
    rw [entryEq]
    exact accepted.uniform first firstTaken addition member directionEq keyEq
      (nameEq.trans (policyKey_of_taken member).symm)
  · have unnamed : name = "" := by
      by_contra named
      exact absent (merged_kept_same named _ _)
    have untouched : kept name (inDirection addition.1.direction live) =
        inDirection addition.1.direction live := if_pos unnamed
    rw [untouched, ← (before.trees addition.1.direction).entry] at absent
    obtain ⟨existing, found⟩ := Option.ne_none_iff_exists'.mp absent
    rw [entry_after_unnamed before engine unnamed _ found] at stored
    cases stored
    exact accepted.unnamed unnamed addition member existing found

theorem installed_iff_accepted (readable : ∀ rule ∈ rules, rule.Readable) :
    (∀ combination ∈ requested rules, combination.Installed after name) ↔
      Accepted store name rules := by
  constructor
  · intro installed
    refine ⟨fun combination wanted => fits_of_installed represented (installed _ wanted), ?_, ?_⟩
    · intro left leftTaken right rightTaken direction key _name
      obtain ⟨entry, stored, leftAction⟩ := action_of_installed installed leftTaken
      obtain ⟨other, found, rightAction⟩ := action_of_installed installed rightTaken
      rw [direction, key, found] at stored
      cases stored
      rw [← leftAction, rightAction]
    · intro unnamed addition member existing found
      obtain ⟨entry, stored, action⟩ := action_of_installed installed member
      rw [entry_after_unnamed before represented.engine unnamed _ found] at stored
      cases stored
      exact action
  · intro accepted combination wanted
    have fits := accepted.fits combination wanted
    refine ⟨fits.source, fits.destination, fun src dst forSource forDestination => ?_⟩
    have member := taken_of_fits name readable wanted fits forSource forDestination
    generalize combination.rule.between name src dst = detail at member ⊢
    have nameEq : detail.policyKey = name := policyKey_of_taken member
    have shared : (detail, combination.port) ∈ sharing detail.key name
        (inDirection detail.direction (kept name live ++ taken name rules)) :=
      mem_sharing.mpr
        ⟨mem_inDirection.mpr ⟨List.mem_append_right _ member, rfl⟩, rfl, nameEq⟩
    have entryEq := (represented.engine.trees detail.direction).entry detail.key name
    cases stored : merged (inDirection detail.direction (kept name live ++ taken name rules))
        detail.key name with
    | none =>
        rw [merged_eq_none_iff] at stored
        exact absurd ⟨rfl, nameEq⟩ (stored _ (mem_sharing.mp shared).1)
    | some entry =>
        rw [stored] at entryEq
        refine ⟨entry, ?_, action_after before represented accepted member entryEq, ?_⟩
        · rw [nameEq]
          exact entryEq
        · obtain ⟨first, -, -, -, rfl⟩ := merged_eq_some stored
          exact List.mem_map.mpr ⟨_, shared, rfl⟩

end Accepting

/-! ### When the request throws -/

/-- The policy stored under the name is just what the rules before the throwing one add,
with the clauses of all of them.  Under the empty name, where nothing is deleted, they add
nothing and there are no clauses. -/
def Restates (store : MicroSegEngine) (name : String) (before : List PolicyRuleSpec)
    (bad : PolicyRuleSpec) : Prop :=
  if name = "" then
    taken name before = [] ∧ ∀ dir, clausesOf (before ++ [bad]) dir = []
  else
    (∀ dir key, (store.policyRule.tree dir).chain.entry key name =
        merged (inDirection dir (taken name before)) key name) ∧
      ∀ dir, (store.httpPolicy dir).lookup name = extended none (clausesOf (before ++ [bad]) dir)

theorem extended_eq_self_iff (found : Option (List HttpRuleInfo)) (more : List HttpRuleInfo) :
    extended found more = found ↔ more = [] := by
  constructor
  · intro same
    by_contra some
    rw [extended, if_neg some] at same
    rw [← same, Option.getD_some] at same
    have lengths := congrArg List.length (Option.some.inj same)
    rw [List.length_append, List.length_append] at lengths
    exact some (List.eq_nil_of_length_eq_zero (by omega))
  · rintro rfl
    rfl

section Throwing

variable {store after : MicroSegEngine} {live : List Addition} {name : String}
  {read : List PolicyRuleSpec} {clauses : FlowDir → List HttpRuleInfo}
  (before : EngineRepresents store.policyRule live)
  (grown : Grown name (deletePolicy name store) after (taken name read) clauses)

include before grown

theorem entries_same_iff_unnamed (unnamed : name = "") :
    (∀ dir key, (after.policyRule.tree dir).chain.entry key name =
        (store.policyRule.tree dir).chain.entry key name) ↔ taken name read = [] := by
  have engine := grown.rules _ (deletePolicy_represents before name)
  constructor
  · intro same
    rw [List.eq_nil_iff_forall_not_mem]
    intro addition member
    have shared : addition ∈ sharing addition.1.key name
        (inDirection addition.1.direction (taken name read)) :=
      mem_sharing.mpr ⟨mem_inDirection.mpr ⟨member, rfl⟩, rfl, policyKey_of_taken member⟩
    have here := same addition.1.direction addition.1.key
    cases found : (store.policyRule.tree addition.1.direction).chain.entry addition.1.key name with
    | none =>
        -- the addition made an entry where there was none
        rw [found, (engine.trees addition.1.direction).entry, merged_eq_none_iff] at here
        exact here addition
          (mem_inDirection.mpr ⟨List.mem_append_right _ member, rfl⟩)
          ⟨rfl, policyKey_of_taken member⟩
    | some existing =>
        -- the addition left its port with the entry it found
        rw [entry_after_unnamed before engine unnamed _ found, found] at here
        have ports := congrArg RuleDetail.ports (Option.some.inj here)
        have lengths := congrArg List.length ports
        rw [List.length_append, List.length_map] at lengths
        have positive := List.length_pos_of_mem shared
        omega
  · intro nothing dir key
    rw [entry_after engine, (before.trees dir).entry, nothing]
    have untouched : kept name (inDirection dir live) = inDirection dir live := if_pos unnamed
    rw [untouched, inDirection, inDirection, List.filter_nil, List.append_nil]

theorem entries_same_iff :
    (∀ dir key, (after.policyRule.tree dir).chain.entry key name =
        (store.policyRule.tree dir).chain.entry key name) ↔
      if name = "" then taken name read = []
      else ∀ dir key, (store.policyRule.tree dir).chain.entry key name =
        merged (inDirection dir (taken name read)) key name := by
  have engine := grown.rules _ (deletePolicy_represents before name)
  split
  · rename_i unnamed
    exact entries_same_iff_unnamed before grown unnamed
  · rename_i named
    simp only [entry_after_own engine named, eq_comm]

omit before in
theorem clauses_same_iff :
    (∀ dir, (after.httpPolicy dir).lookup name = (store.httpPolicy dir).lookup name) ↔
      if name = "" then ∀ dir, clauses dir = []
      else ∀ dir, (store.httpPolicy dir).lookup name = extended none (clauses dir) := by
  split
  · rename_i unnamed
    have untouched : deletePolicy name store = store := if_pos unnamed
    simp only [grown.own, untouched, extended_eq_self_iff]
  · rename_i named
    simp only [grown.own, deletePolicy_lookup_same store named, eq_comm]

theorem sameStore_iff :
    SameStore after store ↔
      (∀ dir key, (after.policyRule.tree dir).chain.entry key name =
          (store.policyRule.tree dir).chain.entry key name) ∧
        ∀ dir, (after.httpPolicy dir).lookup name = (store.httpPolicy dir).lookup name := by
  have engine := grown.rules _ (deletePolicy_represents before name)
  constructor
  · intro same
    exact ⟨fun dir key => same.entries dir key name, fun dir => same.clauses dir name⟩
  · rintro ⟨ownEntries, ownClauses⟩
    have entries (dir : FlowDir) (key other : String) :
        (after.policyRule.tree dir).chain.entry key other =
          (store.policyRule.tree dir).chain.entry key other := by
      by_cases own : other = name
      · rw [own]
        exact ownEntries dir key
      · exact entry_after_other before engine own dir key
    refine ⟨entries, ?_, ?_⟩
    · intro dir other key
      rw [(engine.trees dir).recorded_iff, (before.trees dir).recorded_iff, entries]
    · intro dir other
      by_cases own : other = name
      · rw [own]
        exact ownClauses dir
      · rw [grown.others dir other own, deletePolicy_lookup_other store own]

end Throwing

theorem sameStore_iff_restates {store after : MicroSegEngine} {live : List Addition}
    {name : String} {before : List PolicyRuleSpec} {bad : PolicyRuleSpec}
    (represents : EngineRepresents store.policyRule live)
    (grown : Grown name (deletePolicy name store) after (taken name before)
      (clausesOf (before ++ [bad]))) :
    SameStore after store ↔ Restates store name before bad := by
  rw [sameStore_iff represents grown, entries_same_iff represents grown, clauses_same_iff grown,
    Restates]
  split <;> rfl

/-! ### All or nothing -/

/-- The status is zero exactly when every combination was installed, and a request with
another status leaves the store as it was. -/
def AllOrNothing (store : MicroSegEngine) (policyName : String) (rules : List PolicyRuleSpec) :
    Prop :=
  let call := addPolicyRule store policyName rules
  (call.2 = 0 ↔
      ∀ combination ∈ requested rules, combination.Installed call.1 (cString policyName)) ∧
    (call.2 ≠ 0 → SameStore call.1 store)

theorem allOrNothing_readable {store : MicroSegEngine} {live : List Addition}
    (represented : Represented store live) (policyName : String) {rules : List PolicyRuleSpec}
    (readable : ∀ rule ∈ rules, rule.Readable) :
    AllOrNothing store policyName rules ↔ Accepted store (cString policyName) rules := by
  obtain ⟨next, call, grown⟩ := addPolicyRule_readable store policyName readable
  have after := (represented.deletePolicy (cString policyName)).grown grown
  unfold AllOrNothing
  rw [call]
  dsimp only
  rw [installed_iff_accepted represented.engine after readable]
  simp

theorem allOrNothing_throws {store : MicroSegEngine} {live : List Addition}
    (represented : Represented store live) (policyName : String)
    {before : List PolicyRuleSpec} {bad : PolicyRuleSpec} (rest : List PolicyRuleSpec)
    (readable : ∀ rule ∈ before, rule.Readable) (unreadable : ¬bad.Readable) :
    AllOrNothing store policyName (before ++ bad :: rest) ↔
      Restates store (cString policyName) before bad ∧
        ∃ combination ∈ requested (before ++ bad :: rest),
          ¬combination.Installed store (cString policyName) := by
  obtain ⟨next, call, grown⟩ := addPolicyRule_throws store policyName rest readable unreadable
  have restates := sameStore_iff_restates represented.engine grown
  unfold AllOrNothing
  rw [call]
  dsimp only
  rw [← restates]
  constructor
  · rintro ⟨status, unchanged⟩
    have same := unchanged (by decide)
    refine ⟨same, ?_⟩
    by_contra everything
    push Not at everything
    have installed := status.mpr fun combination wanted =>
      (same.installed_iff _ combination).mpr (everything combination wanted)
    cases installed
  · rintro ⟨same, combination, wanted, missing⟩
    refine ⟨⟨fun zero => absurd zero (by decide), fun installed => ?_⟩, fun _ => same⟩
    exact absurd ((same.installed_iff _ combination).mp (installed combination wanted)) missing

/-- A request whose rules can all be read tells the truth exactly when every combination
is taken with its own action.  A request that throws does so exactly when the rules before
the one that throws restate the policy they replace, and something requested was not
there already. -/
theorem addPolicyRule_allOrNothing_iff (ops : List ControlOp) (policyName : String)
    (rules : List PolicyRuleSpec) :
    AllOrNothing (storeAfter ops) policyName rules ↔
      ((∀ rule ∈ rules, rule.Readable) ∧
          Accepted (storeAfter ops) (cString policyName) rules) ∨
        ∃ before bad rest, rules = before ++ bad :: rest ∧
          (∀ rule ∈ before, rule.Readable) ∧ ¬bad.Readable ∧
          Restates (storeAfter ops) (cString policyName) before bad ∧
          ∃ combination ∈ requested rules,
            ¬combination.Installed (storeAfter ops) (cString policyName) := by
  obtain ⟨live, represented⟩ := represented_storeAfter ops
  by_cases readable : ∀ rule ∈ rules, rule.Readable
  · rw [allOrNothing_readable represented policyName readable]
    constructor
    · intro accepted
      exact Or.inl ⟨readable, accepted⟩
    · rintro (⟨-, accepted⟩ | ⟨before, bad, rest, rfl, -, unreadable, -⟩)
      · exact accepted
      · have member : bad ∈ before ++ bad :: rest :=
          List.mem_append_right before List.mem_cons_self
        exact absurd (readable bad member) unreadable
  · constructor
    · intro truthful
      obtain ⟨before, bad, rest, rfl, clean, unreadable⟩ := first_unreadable readable
      exact Or.inr ⟨before, bad, rest, rfl, clean, unreadable,
        (allOrNothing_throws represented policyName rest clean unreadable).mp truthful⟩
    · rintro (⟨every, -⟩ | ⟨before, bad, rest, rfl, clean, unreadable, restated⟩)
      · exact absurd every readable
      · exact (allOrNothing_throws represented policyName rest clean unreadable).mpr restated

/-- A rule with priority 0 is passed over and the status is zero; a range that is not a
number costs the policy that was installed before. -/
theorem partialRequests_not_allOrNothing :
    let refused : PolicyRuleSpec := { sshRule with priority := 0 }
    let garbled : PolicyRuleSpec := { sshRule with fromAddresses := ["10.0.0.x-9"] }
    let installed := storeAfter [.addPolicyRule "ssh" [sshRule]]
    let key := (sshRule.between "ssh" "10.0.0.1" "10.0.0.2").key
    ((addPolicyRule (storeAfter []) "ssh" [refused]).2 = 0 ∧
        ¬AllOrNothing (storeAfter []) "ssh" [refused]) ∧
      (addPolicyRule installed "ssh" [garbled]).2 = 1 ∧
        ((installed.policyRule.tree .ingress).chain.entry key "ssh").isSome = true ∧
        ((addPolicyRule installed "ssh" [garbled]).1.policyRule.tree .ingress).chain.entry key
          "ssh" = none ∧
        ¬AllOrNothing installed "ssh" [garbled] := by
  intro refused garbled installed key
  have status : (addPolicyRule (storeAfter []) "ssh" [refused]).2 = 0 := by decide +kernel
  have failed : (addPolicyRule installed "ssh" [garbled]).2 = 1 := by decide +kernel
  have found : ((installed.policyRule.tree .ingress).chain.entry key "ssh").isSome = true := by
    decide +kernel
  have lost : ((addPolicyRule installed "ssh" [garbled]).1.policyRule.tree .ingress).chain.entry
      key "ssh" = none := by decide +kernel
  refine ⟨⟨status, fun truthful => ?_⟩, failed, found, lost, fun truthful => ?_⟩
  · have wanted : (⟨refused, "10.0.0.1".toList, "10.0.0.2".toList, ⟨22, 22, 6⟩⟩ : Combination) ∈
        requested [refused] :=
      mem_requested.mpr ⟨List.mem_singleton.mpr rfl, by decide +kernel, by decide +kernel,
        by decide +kernel⟩
    obtain ⟨entry, stored, -⟩ := (truthful.1.mp status _ wanted).holds "10.0.0.1" "10.0.0.2"
      ⟨["10.0.0.1"], by decide +kernel, List.mem_singleton.mpr rfl⟩
      ⟨["10.0.0.2"], by decide +kernel, List.mem_singleton.mpr rfl⟩
    have absent : ((addPolicyRule (storeAfter []) "ssh" [refused]).1.policyRule.tree
        .ingress).chain.entry (refused.between "ssh" "10.0.0.1" "10.0.0.2").key "ssh" = none := by
      decide +kernel
    cases absent.symm.trans stored
  · have same := truthful.2 (by rw [failed]; decide)
    rw [← same.entries, lost] at found
    cases found

end NetPolicy.Daemon
