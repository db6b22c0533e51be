/-
HTTP clauses and the rules they come with.

A request lists rules, some with HTTP clauses and some without, but the store keeps the
clauses under the policy's name and direction: every rule of the policy in that
direction shares them.  Two requests that differ in the clauses of one direction only
give stores that the callback of the other direction cannot tell apart.
-/

import NetPolicy.Daemon.Mediation

namespace NetPolicy.Daemon

open NetPolicy.Policy NetPolicy.Flow NetPolicy.Http

/-! ### What one rule of a request adds -/

namespace PolicyRuleSpec

def flowDir (rule : PolicyRuleSpec) : FlowDir := readDirection (flowDirectionToStr rule.direction)

def netAction (rule : PolicyRuleSpec) : NetPolicyRule :=
  convertRuleAction (policyActionToStr rule.action)

def detail (name : String) (rule : PolicyRuleSpec) : RuleDetail :=
  { proto := (rule.toDoc.protocol.map netProtoConvert).getD 0
    priority := rule.priority
    addrType := 0
    direction := rule.flowDir
    action := rule.netAction.value
    actionDsc := policyActionToStr rule.action
    policyKey := name
    srcIp := ""
    dstIp := ""
    ports := [] }

/-- The layer 3/4 rules the rule stands for; its HTTP clauses play no part in them. -/
def additions (name : String) (rule : PolicyRuleSpec) :
    Except Fault (List (RuleDetail × RulePort)) :=
  match parseAddresses (rule.fromAddresses.map fun ip => { ip := some (cString ip) }) with
  | .error fault => .error fault
  | .ok sources =>
      match parseAddresses (rule.toAddresses.map fun ip => { ip := some (cString ip) }) with
      | .error fault => .error fault
      | .ok destinations =>
          .ok (combinations (rule.detail name) sources destinations
            ((rule.toDoc.ports.getD []).map (readPort (rule.detail name).proto)))

def SameButClauses (left right : PolicyRuleSpec) : Prop :=
  { left with httpRules := [] } = { right with httpRules := [] }

instance (left right : PolicyRuleSpec) : Decidable (SameButClauses left right) :=
  inferInstanceAs (Decidable (_ = _))

theorem SameButClauses.congr {α : Type} {left right : PolicyRuleSpec}
    (same : left.SameButClauses right) (read : PolicyRuleSpec → α)
    (blind : ∀ rule : PolicyRuleSpec, read { rule with httpRules := [] } = read rule) :
    read left = read right := by
  rw [← blind left, ← blind right]
  exact congrArg read same

end PolicyRuleSpec

/-- Reading a rule of a request stores its clauses and then installs its layer 3/4
rules, unless an address list throws. -/
theorem parseRule_toDoc (name : String) (store : MicroSegEngine) (rule : PolicyRuleSpec) :
    parseRule name store rule.toDoc =
      let stored := addHttpRules rule.flowDir name rule.netAction store
        (rule.httpRules.map HttpMatchRule.toDoc)
      match rule.additions name with
      | .error fault => (stored, .threw fault)
      | .ok additions => (installAll stored additions, .next) := by
  have clauses : rule.toDoc.http.getD [] = rule.httpRules.map HttpMatchRule.toDoc := by
    unfold PolicyRuleSpec.toDoc
    cases rule.httpRules <;> rfl
  unfold parseRule PolicyRuleSpec.additions
  rw [clauses]
  dsimp only [PolicyRuleSpec.toDoc]
  cases parseAddresses (rule.fromAddresses.map fun ip => { ip := some (cString ip) }) with
  | error fault => rfl
  | ok sources =>
      dsimp only
      cases parseAddresses (rule.toAddresses.map fun ip => { ip := some (cString ip) }) <;> rfl

/-! ### The clauses under a name -/

namespace MicroSegEngine

def clauses (store : MicroSegEngine) (dir : FlowDir) (key : String) : List HttpRuleInfo :=
  ((store.httpPolicy dir).lookup key).getD []

theorem httpPolicy_addHttpPolicy_same (store : MicroSegEngine) (dir : FlowDir) (key : String)
    (info : HttpRuleInfo) :
    (store.addHttpPolicy dir key info).httpPolicy dir =
      (store.httpPolicy dir).insert key (store.clauses dir key ++ [info]) := by
  cases dir <;> rfl

theorem httpPolicy_addHttpPolicy_other (store : MicroSegEngine) {dir other : FlowDir}
    (different : other ≠ dir) (key : String) (info : HttpRuleInfo) :
    (store.addHttpPolicy other key info).httpPolicy dir = store.httpPolicy dir := by
  cases dir <;> cases other <;> first | rfl | exact absurd rfl different

theorem clauses_addHttpPolicy_same (store : MicroSegEngine) (dir : FlowDir) (key : String)
    (info : HttpRuleInfo) :
    (store.addHttpPolicy dir key info).clauses dir key = store.clauses dir key ++ [info] := by
  rw [clauses, httpPolicy_addHttpPolicy_same, Table.lookup_insert_same]
  rfl

theorem clauses_addHttpPolicy_other (store : MicroSegEngine) {dir other : FlowDir}
    {key name : String} (elsewhere : other ≠ dir ∨ name ≠ key) (info : HttpRuleInfo) :
    (store.addHttpPolicy other name info).clauses dir key = store.clauses dir key := by
  by_cases sameDir : other = dir
  · subst sameDir
    have otherName : key ≠ name := (elsewhere.resolve_left (fun moved => moved rfl)).symm
    rw [clauses, httpPolicy_addHttpPolicy_same, Table.lookup_insert_ne _ _ otherName]
    rfl
  · rw [clauses, store.httpPolicy_addHttpPolicy_other sameDir]
    rfl

end MicroSegEngine

theorem clauses_addHttpRules_other (store : MicroSegEngine) {dir other : FlowDir}
    {key name : String} (elsewhere : other ≠ dir ∨ name ≠ key) (action : NetPolicyRule)
    (docs : List HttpDoc) :
    (addHttpRules other name action store docs).clauses dir key = store.clauses dir key := by
  induction docs generalizing store with
  | nil => rfl
  | cons doc rest ih =>
      unfold addHttpRules
      split
      · rw [ih, store.clauses_addHttpPolicy_other elsewhere]
      · rfl

theorem clauses_addHttpRules_same (store : MicroSegEngine) (dir : FlowDir) (key : String)
    (action : NetPolicyRule) (clauses : List HttpMatchRule) :
    (addHttpRules dir key action store (clauses.map HttpMatchRule.toDoc)).clauses dir key = [] ↔
      store.clauses dir key = [] ∧ clauses = [] := by
  induction clauses generalizing store with
  | nil => simp [addHttpRules]
  | cons clause rest ih =>
      simp only [List.map_cons, addHttpRules, HttpMatchRule.toDoc]
      rw [ih, store.clauses_addHttpPolicy_same]
      simp

theorem installAll_httpPolicy (store : MicroSegEngine)
    (additions : List (RuleDetail × RulePort)) (dir : FlowDir) :
    (installAll store additions).httpPolicy dir = store.httpPolicy dir := by
  induction additions generalizing store with
  | nil => rfl
  | cons addition rest ih =>
      refine (ih _).trans ?_
      unfold addNewPolicy
      dsimp only
      split <;> cases dir <;> rfl

theorem installAll_clauses (store : MicroSegEngine) (additions : List (RuleDetail × RulePort))
    (dir : FlowDir) (key : String) :
    (installAll store additions).clauses dir key = store.clauses dir key := by
  rw [MicroSegEngine.clauses, installAll_httpPolicy]
  rfl

theorem parseRule_clauses_other (store : MicroSegEngine) {name key : String}
    (otherName : name ≠ key) (rule : PolicyRuleSpec) (dir : FlowDir) :
    (parseRule name store rule.toDoc).1.clauses dir key = store.clauses dir key := by
  rw [parseRule_toDoc]
  dsimp only
  cases rule.additions name with
  | error fault => exact clauses_addHttpRules_other store (Or.inr otherName) _ _
  | ok additions =>
      exact (installAll_clauses _ additions dir key).trans
        (clauses_addHttpRules_other store (Or.inr otherName) _ _)

theorem parseRule_clauses_empty (store : MicroSegEngine) (name : String) (rule : PolicyRuleSpec)
    (dir : FlowDir) :
    (parseRule name store rule.toDoc).1.clauses dir name = [] ↔
      store.clauses dir name = [] ∧ (rule.flowDir = dir → rule.httpRules = []) := by
  have stored :
      (addHttpRules rule.flowDir name rule.netAction store
          (rule.httpRules.map HttpMatchRule.toDoc)).clauses dir name = [] ↔
        store.clauses dir name = [] ∧ (rule.flowDir = dir → rule.httpRules = []) := by
    by_cases own : rule.flowDir = dir
    · rw [own, clauses_addHttpRules_same]
      simp
    · rw [clauses_addHttpRules_other store (Or.inl own)]
      simp [own]
  rw [parseRule_toDoc]
  dsimp only
  cases rule.additions name with
  | error fault => exact stored
  | ok additions =>
      dsimp only
      rw [installAll_clauses]
      exact stored

theorem parseRules_clauses_other (store : MicroSegEngine) {name key : String}
    (otherName : name ≠ key) (rules : List PolicyRuleSpec) (dir : FlowDir) :
    (parseRules name store (rules.map PolicyRuleSpec.toDoc)).1.clauses dir key =
      store.clauses dir key := by
  induction rules generalizing store with
  | nil => rfl
  | cons rule rest ih =>
      have first := parseRule_clauses_other store otherName rule dir
      rw [List.map_cons, parseRules]
      split
      · rename_i next read
        rw [read] at first
        exact (ih next).trans first
      · rename_i next exit _ read
        rw [read] at first
        exact first

theorem parseRules_clauses_empty (store : MicroSegEngine) (name : String)
    (rules : List PolicyRuleSpec) (dir : FlowDir)
    (finished : (parseRules name store (rules.map PolicyRuleSpec.toDoc)).2 = .next) :
    (parseRules name store (rules.map PolicyRuleSpec.toDoc)).1.clauses dir name = [] ↔
      store.clauses dir name = [] ∧ ∀ rule ∈ rules, rule.flowDir = dir → rule.httpRules = [] := by
  induction rules generalizing store with
  | nil => simp [parseRules]
  | cons rule rest ih =>
      have first := parseRule_clauses_empty store name rule dir
      rw [List.map_cons, parseRules] at finished ⊢
      split at finished
      · rename_i next read
        rw [read] at first
        rw [ih next finished, first, List.forall_mem_cons, and_assoc]
      · rename_i next exit notNext read
        exact absurd finished notNext

theorem parseRules_exit (store : MicroSegEngine) (name : String) (rules : List PolicyRuleSpec) :
    (parseRules name store (rules.map PolicyRuleSpec.toDoc)).2 ≠ .stop := by
  induction rules generalizing store with
  | nil => exact LoopExit.noConfusion
  | cons rule rest ih =>
      rw [List.map_cons, parseRules, parseRule_toDoc]
      cases rule.additions name with
      | error fault => exact LoopExit.noConfusion
      | ok additions => exact ih _

theorem addPolicyRule_eq (store : MicroSegEngine) (policyName : String)
    (rules : List PolicyRuleSpec) :
    addPolicyRule store policyName rules =
      let read := parseRules (cString policyName) (deletePolicy (cString policyName) store)
        (rules.map PolicyRuleSpec.toDoc)
      (read.1, match read.2 with
        | .threw _ => 1
        | _ => 0) := by
  unfold addPolicyRule parseNetPolicy
  dsimp only
  generalize parseRules (cString policyName) (deletePolicy (cString policyName) store)
    (rules.map PolicyRuleSpec.toDoc) = read
  rcases read with ⟨next, exit⟩
  cases exit <;> rfl

/-! ### Control requests that leave a policy alone -/

def ControlOp.Names (op : ControlOp) (key : String) : Prop :=
  match op with
  | .addPolicyRule policyName _ => cString policyName = key
  | .deletePolicyRule policyName => policyName = key
  | .resetConfig => False
  | .updateNodeConfig _ _ => False

def DaemonEvent.Renames (event : DaemonEvent) (key : String) : Prop :=
  ∃ op, event = .control op ∧ op.Names key

theorem deletePolicy_clauses_other (store : MicroSegEngine) {name key : String}
    (otherName : name ≠ key) (dir : FlowDir) :
    (deletePolicy name store).clauses dir key = store.clauses dir key := by
  unfold deletePolicy
  split
  · rfl
  · cases dir with
    | ingress =>
        exact congrArg (Option.getD · []) (Table.lookup_erase_ne store.inputHttpPolicy otherName.symm)
    | egress =>
        exact congrArg (Option.getD · [])
          (Table.lookup_erase_ne store.outputHttpPolicy otherName.symm)

theorem deletePolicy_clauses_same (store : MicroSegEngine) (name : String) (dir : FlowDir) :
    (deletePolicy name store).clauses dir name = [] ↔
      (name = "" → store.clauses dir "" = []) := by
  unfold deletePolicy
  by_cases unnamed : name = ""
  · rw [if_pos unnamed, unnamed]
    exact ⟨fun empty _ => empty, fun empty => empty rfl⟩
  · rw [if_neg unnamed]
    refine ⟨fun _ named => absurd named unnamed, fun _ => ?_⟩
    cases dir with
    | ingress =>
        exact congrArg (Option.getD · []) (Table.lookup_erase_same store.inputHttpPolicy name)
    | egress =>
        exact congrArg (Option.getD · []) (Table.lookup_erase_same store.outputHttpPolicy name)

theorem updateNodeConfig_httpPolicy (store : MicroSegEngine) (isDelete : Bool)
    (nodeIps : List String) (dir : FlowDir) :
    (updateNodeConfig store isDelete nodeIps).httpPolicy dir = store.httpPolicy dir := by
  unfold updateNodeConfig
  induction nodeIps generalizing store with
  | nil => rfl
  | cons ip rest ih =>
      refine (ih _).trans ?_
      cases dir <;> rfl

theorem apply_clauses (store : MicroSegEngine) {op : ControlOp} {key : String}
    (otherPolicy : ¬op.Names key) (dir : FlowDir) :
    (store.apply op).clauses dir key = store.clauses dir key := by
  cases op with
  | addPolicyRule policyName rules =>
      have read := congrArg Prod.fst (addPolicyRule_eq store policyName rules)
      refine (congrArg (fun next => MicroSegEngine.clauses next dir key) read).trans ?_
      exact (parseRules_clauses_other _ otherPolicy rules dir).trans
        (deletePolicy_clauses_other store otherPolicy dir)
  | deletePolicyRule policyName => exact deletePolicy_clauses_other store otherPolicy dir
  | resetConfig => cases dir <;> rfl
  | updateNodeConfig isDelete nodeIps =>
      exact congrArg (fun table => (Table.lookup table key).getD [])
        (updateNodeConfig_httpPolicy store isDelete nodeIps dir)

theorem run_clauses (env : Environment) (daemon : DaemonContext) {events : List DaemonEvent}
    {key : String} (kept : ∀ event ∈ events, ¬event.Renames key) (dir : FlowDir) :
    (Runs.run (DaemonContext.step env) daemon events).microseg.clauses dir key =
      daemon.microseg.clauses dir key := by
  refine Runs.run_invariant (DaemonContext.step env) (fun _ event => ¬event.Renames key)
    (fun current => current.microseg.clauses dir key = daemon.microseg.clauses dir key)
    ?_ rfl (Runs.meets_of_forall kept daemon)
  intro current event same other
  cases event with
  | packet queue msg now => exact same
  | reap now => exact same
  | control op =>
      exact (apply_clauses current.microseg (fun named => other ⟨op, rfl, named⟩) dir).trans same

theorem installed_clauses_empty {store : MicroSegEngine} {policyName : String}
    {rules : List PolicyRuleSpec}
    (installed : (addPolicyRule store policyName rules).2 = 0) (dir : FlowDir) :
    (addPolicyRule store policyName rules).1.clauses dir (cString policyName) = [] ↔
      (cString policyName = "" → store.clauses dir "" = []) ∧
        ∀ rule ∈ rules, rule.flowDir = dir → rule.httpRules = [] := by
  rw [addPolicyRule_eq] at installed ⊢
  dsimp only at installed ⊢
  have finished : (parseRules (cString policyName) (deletePolicy (cString policyName) store)
      (rules.map PolicyRuleSpec.toDoc)).2 = .next := by
    have notStopped := parseRules_exit (deletePolicy (cString policyName) store)
      (cString policyName) rules
    split at installed
    · cases installed
    · rename_i notThrown
      generalize (parseRules (cString policyName) (deletePolicy (cString policyName) store)
        (rules.map PolicyRuleSpec.toDoc)).2 = exit at notStopped notThrown ⊢
      cases exit with
      | next => rfl
      | stop => exact absurd rfl notStopped
      | threw fault => exact absurd rfl (notThrown fault)
  rw [parseRules_clauses_empty _ _ _ _ finished, deletePolicy_clauses_same]

/-! ### Stores a callback cannot tell apart -/

/-- The stores agree on everything the callback of one direction reads. -/
structure Alike (dir : FlowDir) (left right : MicroSegEngine) : Prop where
  rules : left.policyRule = right.policyRule
  nodes : left.nodesIp = right.nodesIp
  clauses : left.httpPolicy dir = right.httpPolicy dir

namespace Alike

variable {dir : FlowDir} {left right : MicroSegEngine}

theorem refl (dir : FlowDir) (store : MicroSegEngine) : Alike dir store store := ⟨rfl, rfl, rfl⟩

theorem addHttpPolicy (alike : Alike dir left right) (other : FlowDir) (key : String)
    (info : HttpRuleInfo) :
    Alike dir (left.addHttpPolicy other key info) (right.addHttpPolicy other key info) := by
  refine ⟨?_, ?_, ?_⟩
  · cases other <;> exact alike.rules
  · cases other <;> exact alike.nodes
  · by_cases own : other = dir
    · subst own
      simp only [MicroSegEngine.httpPolicy_addHttpPolicy_same, MicroSegEngine.clauses,
        alike.clauses]
    · rw [left.httpPolicy_addHttpPolicy_other own, right.httpPolicy_addHttpPolicy_other own]
      exact alike.clauses

theorem addHttpPolicy_left (alike : Alike dir left right) {other : FlowDir}
    (elsewhere : other ≠ dir) (key : String) (info : HttpRuleInfo) :
    Alike dir (left.addHttpPolicy other key info) right := by
  refine ⟨?_, ?_, ?_⟩
  · cases other <;> exact alike.rules
  · cases other <;> exact alike.nodes
  · rw [left.httpPolicy_addHttpPolicy_other elsewhere]
    exact alike.clauses

theorem symm (alike : Alike dir left right) : Alike dir right left :=
  ⟨alike.rules.symm, alike.nodes.symm, alike.clauses.symm⟩

theorem addHttpRules (alike : Alike dir left right) (other : FlowDir) (key : String)
    (action : NetPolicyRule) (docs : List HttpDoc) :
    Alike dir (NetPolicy.Daemon.addHttpRules other key action left docs)
      (NetPolicy.Daemon.addHttpRules other key action right docs) := by
  induction docs generalizing left right with
  | nil => exact alike
  | cons doc rest ih =>
      unfold NetPolicy.Daemon.addHttpRules
      split
      · exact ih (alike.addHttpPolicy other key _)
      · exact alike

theorem addHttpRules_left (alike : Alike dir left right) {other : FlowDir}
    (elsewhere : other ≠ dir) (key : String) (action : NetPolicyRule) (docs : List HttpDoc) :
    Alike dir (NetPolicy.Daemon.addHttpRules other key action left docs) right := by
  induction docs generalizing left with
  | nil => exact alike
  | cons doc rest ih =>
      unfold NetPolicy.Daemon.addHttpRules
      split
      · exact ih (alike.addHttpPolicy_left elsewhere key _)
      · exact alike

theorem installAll (alike : Alike dir left right) (additions : List (RuleDetail × RulePort)) :
    Alike dir (NetPolicy.Daemon.installAll left additions)
      (NetPolicy.Daemon.installAll right additions) := by
  induction additions generalizing left right with
  | nil => exact alike
  | cons addition rest ih =>
      apply ih
      unfold addNewPolicy
      dsimp only
      split
      · exact alike
      · refine ⟨?_, alike.nodes, ?_⟩
        · exact congrArg (fun rules => RustPolicyEngine.addPolicy rules addition.1 addition.2)
            alike.rules
        · have clauses := alike.clauses
          cases dir <;> exact clauses

theorem deletePolicy (alike : Alike dir left right) (name : String) :
    Alike dir (NetPolicy.Daemon.deletePolicy name left)
      (NetPolicy.Daemon.deletePolicy name right) := by
  unfold NetPolicy.Daemon.deletePolicy
  split
  · exact alike
  · refine ⟨?_, alike.nodes, ?_⟩
    · exact congrArg
        (fun rules : RustPolicyEngine => (rules.deletePolicy .ingress name).deletePolicy .egress name)
        alike.rules
    · have erased := congrArg (fun table => Table.erase table name) alike.clauses
      cases dir <;> exact erased

theorem updateNodeConfig (alike : Alike dir left right) (isDelete : Bool)
    (nodeIps : List String) :
    Alike dir (NetPolicy.Daemon.updateNodeConfig left isDelete nodeIps)
      (NetPolicy.Daemon.updateNodeConfig right isDelete nodeIps) := by
  unfold NetPolicy.Daemon.updateNodeConfig
  induction nodeIps generalizing left right with
  | nil => exact alike
  | cons ip rest ih =>
      apply ih
      refine ⟨alike.rules, ?_, ?_⟩
      · dsimp only
        rw [alike.nodes]
      · have clauses := alike.clauses
        cases dir <;> exact clauses

end Alike

/-- Two rules for one place in a request, as the callback of a direction sees them: the
same rule, with the same clauses if it is a rule of that direction. -/
def PolicyRuleSpec.SameFor (dir : FlowDir) (left right : PolicyRuleSpec) : Prop :=
  left.SameButClauses right ∧ (left.flowDir = dir → left.httpRules = right.httpRules)

theorem PolicyRuleSpec.SameFor.refl (dir : FlowDir) (rule : PolicyRuleSpec) :
    rule.SameFor dir rule := ⟨rfl, fun _ => rfl⟩

theorem alike_parseRule {dir : FlowDir} {left right : MicroSegEngine}
    (alike : Alike dir left right) (name : String) {rule changed : PolicyRuleSpec}
    (same : rule.SameFor dir changed) :
    Alike dir (parseRule name left rule.toDoc).1 (parseRule name right changed.toDoc).1 ∧
      (parseRule name left rule.toDoc).2 = (parseRule name right changed.toDoc).2 := by
  rcases same with ⟨sameRule, sameClauses⟩
  have direction : rule.flowDir = changed.flowDir := sameRule.congr PolicyRuleSpec.flowDir
    fun _ => rfl
  have action : rule.netAction = changed.netAction := sameRule.congr PolicyRuleSpec.netAction
    fun _ => rfl
  have additions : rule.additions name = changed.additions name :=
    sameRule.congr (PolicyRuleSpec.additions name) fun _ => rfl
  have stored : Alike dir
      (addHttpRules rule.flowDir name rule.netAction left
        (rule.httpRules.map HttpMatchRule.toDoc))
      (addHttpRules changed.flowDir name changed.netAction right
        (changed.httpRules.map HttpMatchRule.toDoc)) := by
    rw [← direction, ← action]
    by_cases own : rule.flowDir = dir
    · rw [sameClauses own]
      exact alike.addHttpRules _ name _ _
    · exact ((alike.addHttpRules_left own name _ _).symm.addHttpRules_left own name _ _).symm
  rw [parseRule_toDoc, parseRule_toDoc, ← additions]
  dsimp only
  cases rule.additions name with
  | error fault => exact ⟨stored, rfl⟩
  | ok additions => exact ⟨stored.installAll additions, rfl⟩

theorem alike_parseRules {dir : FlowDir} {left right : MicroSegEngine}
    (alike : Alike dir left right) (name : String) {rules changed : List PolicyRuleSpec}
    (same : List.Forall₂ (PolicyRuleSpec.SameFor dir) rules changed) :
    Alike dir (parseRules name left (rules.map PolicyRuleSpec.toDoc)).1
        (parseRules name right (changed.map PolicyRuleSpec.toDoc)).1 := by
  induction same generalizing left right with
  | nil => exact alike
  | @cons rule other rest others first later ih =>
      have read := alike_parseRule alike name first
      rw [List.map_cons, List.map_cons, parseRules, parseRules]
      generalize parseRule name left rule.toDoc = here at read ⊢
      generalize parseRule name right other.toDoc = there at read ⊢
      rcases here with ⟨here, exit⟩
      rcases there with ⟨there, otherExit⟩
      rcases read with ⟨readAlike, sameExit⟩
      cases sameExit
      cases exit with
      | next => exact ih readAlike
      | stop => exact readAlike
      | threw fault => exact readAlike

theorem alike_addPolicyRule {dir : FlowDir} {left right : MicroSegEngine}
    (alike : Alike dir left right) (policyName : String) {rules changed : List PolicyRuleSpec}
    (same : List.Forall₂ (PolicyRuleSpec.SameFor dir) rules changed) :
    Alike dir (addPolicyRule left policyName rules).1 (addPolicyRule right policyName changed).1 := by
  rw [addPolicyRule_eq, addPolicyRule_eq]
  exact alike_parseRules (alike.deletePolicy (cString policyName)) (cString policyName) same

theorem alike_apply {dir : FlowDir} {left right : MicroSegEngine} (alike : Alike dir left right)
    (op : ControlOp) : Alike dir (left.apply op) (right.apply op) := by
  cases op with
  | addPolicyRule policyName rules =>
      exact alike_addPolicyRule alike policyName
        (List.forall₂_same.mpr fun rule _ => PolicyRuleSpec.SameFor.refl dir rule)
  | deletePolicyRule policyName => exact alike.deletePolicy policyName
  | resetConfig =>
      refine ⟨congrArg RustPolicyEngine.clearCfg alike.rules, alike.nodes, ?_⟩
      have clauses := alike.clauses
      cases dir <;> exact clauses
  | updateNodeConfig isDelete nodeIps => exact alike.updateNodeConfig isDelete nodeIps

section Congruence

variable (env : Environment) {side : Side} {left right : MicroSegEngine}
  (alike : Alike side.dir left right) (msg : NfqMessage) (tuple : FiveTuple)

include alike

theorem matchMicroPolicyRule_alike :
    matchMicroPolicyRule env.order left tuple side.dir =
      matchMicroPolicyRule env.order right tuple side.dir := by
  rw [matchMicroPolicyRule_congr alike.rules alike.nodes]

theorem inspectCb_alike (ruleKey : String) (decision : PacketDecision) (now : Nat)
    (handling : Handling) :
    inspectCb env side left msg tuple ruleKey decision now handling =
      inspectCb env side right msg tuple ruleKey decision now handling := by
  unfold inspectCb
  rw [alike.clauses]

theorem tcpCb_alike (decision : PacketDecision) (now : Nat) (handling : Handling) :
    tcpCb env side left msg tuple decision now handling =
      tcpCb env side right msg tuple decision now handling := by
  unfold tcpCb trackedCb untrackedCb
  simp only [matchMicroPolicyRule_alike env alike, alike.clauses, inspectCb_alike env alike]

theorem nfqCb_alike (manager : ConnectionManager) (now : Nat) :
    nfqCb env side left msg manager now = nfqCb env side right msg manager now := by
  unfold nfqCb statelessCb
  simp only [matchMicroPolicyRule_alike env alike, tcpCb_alike env alike]

end Congruence

def DaemonContext.verdicts (env : Environment) : DaemonContext → List DaemonEvent →
    List (List VerdictCall)
  | _, [] => []
  | daemon, event :: rest =>
      (match event with
        | .packet queue msg now => (daemon.handle env queue msg now).verdicts
        | .reap _ => []
        | .control _ => []) :: (daemon.step env event).verdicts env rest

theorem verdicts_alike (env : Environment) {left right : DaemonContext}
    {events : List DaemonEvent} (sameManager : left.connMgr = right.connMgr)
    (alike : ∀ queue msg now, .packet queue msg now ∈ events →
      Alike queue.side.dir left.microseg right.microseg) :
    left.verdicts env events = right.verdicts env events := by
  induction events generalizing left right with
  | nil => rfl
  | cons event rest ih =>
      have later (queue : Queue) (msg : NfqMessage) (now : Nat)
          (member : .packet queue msg now ∈ rest) :
          Alike queue.side.dir left.microseg right.microseg :=
        alike queue msg now (List.mem_cons_of_mem event member)
      unfold DaemonContext.verdicts
      cases event with
      | packet queue msg now =>
          have handled : left.handle env queue msg now = right.handle env queue msg now := by
            rw [DaemonContext.handle, DaemonContext.handle, Queue.callback_eq, Queue.callback_eq,
              sameManager]
            exact nfqCb_alike env (alike queue msg now List.mem_cons_self) msg _ now
          exact congrArg₂ List.cons (congrArg Handling.verdicts handled)
            (ih (congrArg Handling.manager handled) later)
      | reap now =>
          have next := congrArg
            (fun manager => ConnectionManager.evictStale manager now staleConnectionTimeout)
            sameManager
          exact congrArg (List.cons []) (ih next later)
      | control op =>
          refine congrArg (List.cons []) (ih sameManager ?_)
          intro queue msg now member
          exact alike_apply (later queue msg now member) op

/-! ### Denied packets -/

def Handling.Drops (handling : Handling) : Prop :=
  ∃ call ∈ handling.verdicts, call.verdict = .drop

instance (handling : Handling) : Decidable handling.Drops :=
  inferInstanceAs (Decidable (∃ call ∈ handling.verdicts, _))

section Denied

variable (env : Environment) (side : Side) (store : MicroSegEngine) (msg : NfqMessage)
  (tuple : FiveTuple) (decision : PacketDecision) (now : Nat) {handling : Handling}

theorem verdictWithMark_accepts (unanswered : handling.verdicts = []) (id : Nat)
    (rule : NetPolicyRule) (payload : Option (List UInt8)) :
    ¬(handling.verdictWithMark id .accept rule payload).Drops := by
  rintro ⟨call, issued, drops⟩
  rw [Handling.verdictWithMark, unanswered, List.nil_append, List.mem_singleton] at issued
  rw [issued] at drops
  cases drops

/-- Once a flow is handed to its HTTP connection, no packet is dropped. -/
theorem inspectCb_accepts (unanswered : handling.verdicts = []) (ruleKey : String) :
    ¬(inspectCb env side store msg tuple ruleKey decision now handling).Drops := by
  unfold inspectCb
  dsimp only [Handling.dispatch]
  split
  · exact verdictWithMark_accepts unanswered _ _ _
  · split
    · exact verdictWithMark_accepts unanswered _ _ _
    · split
      · exact verdictWithMark_accepts unanswered _ _ _
      · exact verdictWithMark_accepts unanswered _ _ _

theorem untrackedCb_drops_iff (payload : Bool)
    (reaches : decision.syn = true ∨ payload = true)
    (denied : (matchMicroPolicyRule env.order store tuple side.dir).rule = .deny)
    (unanswered : handling.verdicts = []) :
    (untrackedCb env side store msg tuple decision payload now handling).Drops ↔
      store.clauses side.dir (matchMicroPolicyRule env.order store tuple side.dir).ruleKey =
        [] := by
  have looked : ¬((!decision.syn && !payload) = true) := by
    rcases reaches with syn | carried
    · rw [syn]
      exact Bool.false_ne_true
    · rw [carried, Bool.not_true, Bool.and_false]
      exact Bool.false_ne_true
  unfold untrackedCb MicroSegEngine.clauses
  dsimp only
  rw [if_neg looked, denied, if_neg (by intro default; cases default)]
  by_cases bare : ((store.httpPolicy side.dir).lookup
      (matchMicroPolicyRule env.order store tuple side.dir).ruleKey).getD [] = []
  · rw [if_pos bare, if_pos rfl]
    refine ⟨fun _ => bare, fun _ => ?_⟩
    exact ⟨_, List.mem_append_right _ (List.mem_singleton_self _), rfl⟩
  · rw [if_neg bare]
    refine ⟨fun drops => absurd drops ?_, fun empty => absurd empty bare⟩
    split
    · exact verdictWithMark_accepts unanswered _ _ _
    · refine inspectCb_accepts env side store msg _ decision now ?_ _
      exact unanswered

/-- A packet that a deny rule is selected for, on a flow without an entry, is dropped
exactly when nothing is stored under the rule's key. -/
theorem nfqCb_drops_iff (manager : ConnectionManager) {segment : Segment}
    (seen : side.bypasses msg.nfmark = false)
    (parsed : parseSegment msg.payload = some segment)
    (noFin : segment.fin = false) (noRst : segment.rst = false)
    (reaches : segment.syn = true ∨ 0 < segment.payloadLen)
    (untracked : manager.micro.contains segment.id = false)
    (denied : (matchMicroPolicyRule env.order store msg.tuple side.dir).rule = .deny) :
    (nfqCb env side store msg manager now).Drops ↔
      store.clauses side.dir
        (matchMicroPolicyRule env.order store msg.tuple side.dir).ruleKey = [] := by
  rw [nfqCb_segment env side store msg manager now seen parsed]
  have decides := onSegment_decides manager.engine segment now
  generalize manager.engine.onSegment segment now = next at decides
  have carried {kind : PacketKind} (carries : kind = .data ∨ kind = .duplicate ∨ kind = .unknownData) :
      (segment.decision kind).syn = true ∨ hasPayload msg (segment.decision kind) = true :=
    reaches.imp_right (hasPayload_decision msg carries parsed)
  have dropped (engine : FlowEngine) (decision : PacketDecision)
      (heeded : decision.kind ≠ .ignore) (own : decision.connId = segment.id)
      (matched : decision.syn = true ∨ hasPayload msg decision = true) :
      (tcpCb env side store msg msg.tuple decision now
          (Handling.start { manager with engine := engine })).Drops ↔
        store.clauses side.dir
          (matchMicroPolicyRule env.order store msg.tuple side.dir).ruleKey = [] := by
    rw [tcpCb_start_untracked env side store msg _ decision now manager engine heeded
      (by rw [own]; exact untracked)]
    exact untrackedCb_drops_iff env side store msg _ _ now _ matched denied
      (settle_verdicts env msg decision now _)
  cases decides with
  | closed state known ends =>
      rw [noFin, noRst] at ends
      rcases ends with fin | rst
      · cases fin
      · cases rst
  | duplicate state known _ _ behind =>
      exact dropped _ (segment.decision .duplicate) (by intro ignored; cases ignored) rfl
        (carried (Or.inr (Or.inl rfl)))
  | data state known _ _ ahead =>
      exact dropped _ (segment.decision .data) (by intro ignored; cases ignored) rfl
        (carried (Or.inl rfl))
  | ignored unknown rst =>
      rw [noRst] at rst
      cases rst
  | opened unknown _ syn =>
      exact dropped _ (segment.boundary .newConnection _) (by intro ignored; cases ignored) rfl
        (Or.inl syn)
  | unknownData unknown _ noSyn =>
      exact dropped _ (segment.decision .unknownData) (by intro ignored; cases ignored) rfl
        (carried (Or.inr (Or.inr rfl)))

end Denied

/-! ### Rules of one policy -/

/-- For every request that installs a policy, and a rule of it.  First, when the rule has
no clauses: whatever happened since, short of another request for the policy, a packet
that the policy's deny is selected for is dropped exactly when no other rule of the
policy in the callback's direction has clauses, and none were left under the empty name,
which requests do not clear.  Second, with any clauses: changing the clauses of the other
rules leaves the verdicts of every run as they are, if the rules of the directions whose
queues the run uses keep theirs. -/
theorem httpClauses_stay_with_rule (env : Environment) (daemon : DaemonContext)
    (policyName : String) (before after : List PolicyRuleSpec) (rule : PolicyRuleSpec) :
    (rule.httpRules = [] →
      (addPolicyRule daemon.microseg policyName (before ++ rule :: after)).2 = 0 →
      ∀ (events : List DaemonEvent) (queue : Queue) (msg : NfqMessage) (now : Nat)
        (segment : Segment),
        (∀ event ∈ events, ¬event.Renames (cString policyName)) →
        let current := Runs.run (DaemonContext.step env) daemon
          (.control (.addPolicyRule policyName (before ++ rule :: after)) :: events)
        let answer := matchMicroPolicyRule env.order current.microseg msg.tuple queue.side.dir
        queue.side.bypasses msg.nfmark = false → parseSegment msg.payload = some segment →
        segment.fin = false → segment.rst = false →
        (segment.syn = true ∨ 0 < segment.payloadLen) →
        current.connMgr.micro.lookup segment.id = none →
        answer.rule = .deny → answer.ruleKey = cString policyName →
        ((current.handle env queue msg now).Drops ↔
          (cString policyName = "" → daemon.microseg.clauses queue.side.dir "" = []) ∧
            ∀ other ∈ before ++ after, other.flowDir = queue.side.dir →
              other.httpRules = [])) ∧
    ∀ (otherBefore otherAfter : List PolicyRuleSpec) (events : List DaemonEvent),
      (∀ queue msg now, .packet queue msg now ∈ events →
        List.Forall₂ (PolicyRuleSpec.SameFor queue.side.dir) before otherBefore ∧
          List.Forall₂ (PolicyRuleSpec.SameFor queue.side.dir) after otherAfter) →
      (daemon.step env (.control (.addPolicyRule policyName (before ++ rule :: after)))).verdicts
          env events =
        (daemon.step env
          (.control (.addPolicyRule policyName (otherBefore ++ rule :: otherAfter)))).verdicts
          env events := by
  constructor
  · intro noClauses installed events queue msg now segment kept current answer seen parsed
      noFin noRst reaches untracked denied key
    have drops := nfqCb_drops_iff env queue.side current.microseg msg now current.connMgr seen
      parsed noFin noRst reaches (Table.not_contains_of_lookup untracked) denied
    have stored := run_clauses env
      (daemon.step env (.control (.addPolicyRule policyName (before ++ rule :: after)))) kept
      queue.side.dir
    have others :
        (∀ member ∈ before ++ rule :: after, member.flowDir = queue.side.dir →
            member.httpRules = []) ↔
          ∀ other ∈ before ++ after, other.flowDir = queue.side.dir → other.httpRules = [] := by
      simp only [List.forall_mem_append, List.forall_mem_cons, noClauses, implies_true, true_and]
    rw [DaemonContext.handle, Queue.callback_eq, drops, ← others,
      ← installed_clauses_empty installed queue.side.dir]
    exact Eq.congr_left (key ▸ stored)
  · intro otherBefore otherAfter events same
    refine verdicts_alike env rfl ?_
    intro queue msg now member
    rcases same queue msg now member with ⟨sameBefore, sameAfter⟩
    exact alike_addPolicyRule (Alike.refl _ _) policyName
      (List.rel_append sameBefore (.cons (PolicyRuleSpec.SameFor.refl _ rule) sameAfter))

def sshRule : PolicyRuleSpec :=
  { action := .deny
    direction := .ingress
    protocol := .tcp
    httpRules := []
    fromAddresses := ["10.0.0.1"]
    toAddresses := ["10.0.0.2"]
    ports := [{ port := 22, endPort := 22 }]
    priority := 1 }

def httpRule (direction : FlowDirection) (httpRules : List HttpMatchRule) : PolicyRuleSpec :=
  { sshRule with
    action := .allow
    direction := direction
    httpRules := httpRules
    ports := [{ port := 80, endPort := 80 }] }

def pathClause : HttpMatchRule := { host := "", method := "", path := "/a" }

def sshFlow : ConnectionId := { webFlow with foreignPort := 22 }

def sshSyn : NfqMessage := plainMessage sshFlow 100 synFlag []

def mixedDaemon (direction : FlowDirection) (httpRules : List HttpMatchRule) : DaemonContext :=
  DaemonContext.new.step plainEnvironment
    (.control (.addPolicyRule "mixed" [sshRule, httpRule direction httpRules]))

/-- Clauses of an egress rule beside the denied port: the SYN is dropped, with and
without them. -/
theorem sshSyn_dropped :
    ((mixedDaemon .egress [pathClause]).handle plainEnvironment .input sshSyn 0).Drops ∧
      (mixedDaemon .egress [pathClause]).verdicts plainEnvironment [.packet .input sshSyn 0] =
        (mixedDaemon .egress []).verdicts plainEnvironment [.packet .input sshSyn 0] := by
  have governed := httpClauses_stay_with_rule plainEnvironment DaemonContext.new "mixed" []
    [httpRule .egress [pathClause]] sshRule
  constructor
  · refine (governed.1 rfl (by decide +kernel) [] .input sshSyn 0
      { id := sshFlow, seq := 100, syn := true, fin := false, rst := false, ipHeaderLen := 20,
        payloadOffset := 40, payloadLen := 0 }
      (by intro event member; cases member) (by decide +kernel) (by decide +kernel) rfl rfl
      (Or.inl rfl) (by decide +kernel) (by decide +kernel) (by decide +kernel)).mpr ?_
    decide +kernel
  · refine governed.2 [] [httpRule .egress []] [.packet .input sshSyn 0] ?_
    intro queue msg now member
    cases List.mem_singleton.mp member
    exact ⟨.nil, .cons ⟨rfl, by decide +kernel⟩ .nil⟩

/-- The same clause on an ingress rule for another port: the SYN to the denied port is
accepted, and it is dropped again when the clause is removed. -/
theorem sshSyn_accepted_for_foreign_clause :
    (matchMicroPolicyRule plainEnvironment.order (mixedDaemon .ingress [pathClause]).microseg
        sshSyn.tuple .ingress).rule = .deny ∧
      (matchMicroPolicyRule plainEnvironment.order (mixedDaemon .ingress [pathClause]).microseg
        sshSyn.tuple .ingress).ruleKey = "mixed" ∧
      (mixedDaemon .ingress [pathClause]).verdicts plainEnvironment [.packet .input sshSyn 0] =
        [[{ id := 1, verdict := .accept, mark := some 4, payload := none }]] ∧
      (mixedDaemon .ingress []).verdicts plainEnvironment [.packet .input sshSyn 0] =
        [[{ id := 1, verdict := .drop, mark := none, payload := none }]] := by
  decide +kernel

end NetPolicy.Daemon
