/-
What `ResetConfig` forgets.

The request clears the policy engine and leaves the two HTTP maps alone.  A policy store
is as new after it exactly if both maps were empty, and then nothing installed before
has a say in any later verdict.  Otherwise the clauses of reset policies stay, and flows
that are tracked with their rule keys go on being judged by them.
-/

import NetPolicy.Daemon.Replacement
import NetPolicy.Daemon.Retransmission

namespace NetPolicy.Daemon

open NetPolicy.Policy NetPolicy.Flow

/-! ### The engine -/

theorem addAll_eq_run (engine : RustPolicyEngine) (additions : List Addition) :
    addAll engine additions =
      engine.run (additions.map fun addition => .addPolicy addition.1 addition.2) := by
  rw [addAll, RustPolicyEngine.run, Runs.run, List.foldl_map]
  rfl

theorem apply_policyRule (store : MicroSegEngine) (op : ControlOp) :
    ∃ ops, (store.apply op).policyRule = store.policyRule.run ops := by
  have deleted (name : String) :
      ∃ ops, (deletePolicy name store).policyRule = store.policyRule.run ops := by
    unfold deletePolicy
    split
    · exact ⟨[], rfl⟩
    · exact ⟨[.deletePolicy .ingress name, .deletePolicy .egress name], rfl⟩
  cases op with
  | addPolicyRule policyName rules =>
      obtain ⟨ops, deletes⟩ := deleted (cString policyName)
      have adds := (adds_addPolicyRule store policyName rules).engine
      rw [addAll_eq_run, deletes, RustPolicyEngine.run, RustPolicyEngine.run,
        ← Runs.run_append] at adds
      exact ⟨_, adds⟩
  | deletePolicyRule policyName => exact deleted policyName
  | resetConfig => exact ⟨[.clearCfg], rfl⟩
  | updateNodeConfig isDelete nodeIps =>
      exact ⟨[], updateNodeConfig_policyRule store isDelete nodeIps⟩

def Reached (store : MicroSegEngine) : Prop :=
  ∃ ops, store.policyRule = RustPolicyEngine.new.run ops

theorem Reached.apply {store : MicroSegEngine} (reached : Reached store) (op : ControlOp) :
    Reached (store.apply op) := by
  obtain ⟨ops, before⟩ := reached
  obtain ⟨more, after⟩ := apply_policyRule store op
  refine ⟨ops ++ more, ?_⟩
  rw [after, before, RustPolicyEngine.run, RustPolicyEngine.run, RustPolicyEngine.run,
    Runs.run_append]

theorem Reached.clearCfg {store : MicroSegEngine} (reached : Reached store) :
    store.clearCfg.policyRule = RustPolicyEngine.new := by
  obtain ⟨ops, engine⟩ := reached
  have input := dir_run ops .ingress
  have output := dir_run ops .egress
  rw [← engine] at input output
  change store.policyRule.inputTree.chain.dir = .ingress at input
  change store.policyRule.outputTree.chain.dir = .egress at output
  simp only [MicroSegEngine.clearCfg, RustPolicyEngine.clearCfg, PolicyTree.clear, RuleChain.clear,
    input, output]
  rfl

theorem httpPolicy_clearCfg (store : MicroSegEngine) (dir : FlowDir) :
    store.clearCfg.httpPolicy dir = store.httpPolicy dir := by
  cases dir <;> rfl

/-! ### Requests that are live -/

/-- The rules of the request that a policy's name stands for, if any. -/
abbrev LiveRequests := String → Option (List PolicyRuleSpec)

/-- A request takes the place of an earlier one for the same policy, a deletion ends it,
and a reset ends all of them. -/
def LiveRequests.apply (live : LiveRequests) : ControlOp → LiveRequests
  | .addPolicyRule policyName rules => fun key =>
      if key = cString policyName then some rules else live key
  | .deletePolicyRule policyName => fun key =>
      if key = cString policyName then none else live key
  | .resetConfig => fun _ => none
  | .updateNodeConfig _ _ => live

def LiveRequests.step (live : LiveRequests) : DaemonEvent → LiveRequests
  | .control op => live.apply op
  | .packet _ _ _ => live
  | .reap _ => live

def liveRequests (events : List DaemonEvent) : LiveRequests :=
  Runs.run LiveRequests.step (fun _ => none) events

/-- The name of an added policy is not empty, and that of a deleted one has no NUL. -/
def ControlOp.Proper : ControlOp → Prop
  | .addPolicyRule policyName _ => cString policyName ≠ ""
  | .deletePolicyRule policyName => cString policyName = policyName
  | .resetConfig => True
  | .updateNodeConfig _ _ => True

instance ControlOp.decidableProper : (op : ControlOp) → Decidable op.Proper
  | .addPolicyRule policyName _ => inferInstanceAs (Decidable (cString policyName ≠ ""))
  | .deletePolicyRule policyName => inferInstanceAs (Decidable (cString policyName = policyName))
  | .resetConfig => .isTrue trivial
  | .updateNodeConfig _ _ => .isTrue trivial

def DaemonEvent.Proper : DaemonEvent → Prop
  | .control op => op.Proper
  | .packet _ _ _ => True
  | .reap _ => True

instance DaemonEvent.decidableProper : (event : DaemonEvent) → Decidable event.Proper
  | .control op => ControlOp.decidableProper op
  | .packet _ _ _ => .isTrue trivial
  | .reap _ => .isTrue trivial

/-- The HTTP maps hold the clauses of the live requests and nothing else. -/
structure Tracks (store : MicroSegEngine) (live : LiveRequests) : Prop where
  unnamed : live "" = none
  clauses : ∀ dir key, (store.httpPolicy dir).lookup key =
    (live key).bind fun rules => clausesBy rules dir

theorem Tracks.apply {store : MicroSegEngine} {live : LiveRequests} (tracks : Tracks store live)
    {op : ControlOp} (proper : op.Proper)
    (cleared : op = .resetConfig → ∀ dir, store.httpPolicy dir = Table.empty) :
    Tracks (store.apply op) (live.apply op) := by
  cases op with
  | addPolicyRule policyName rules =>
      refine ⟨(if_neg (Ne.symm proper)).trans tracks.unnamed, fun dir key => ?_⟩
      change ((addPolicyRule store policyName rules).1.httpPolicy dir).lookup key =
        (if key = cString policyName then some rules else live key).bind _
      by_cases own : key = cString policyName
      · rw [if_pos own, own]
        exact clauses_replaced store proper rules dir
      · rw [if_neg own, (addPolicyRule_grown store policyName rules).others dir key own,
          deletePolicy_lookup_other store own]
        exact tracks.clauses dir key
  | deletePolicyRule policyName =>
      have spelled : cString policyName = policyName := proper
      refine ⟨?_, fun dir key => ?_⟩
      · change (if "" = cString policyName then none else live "") = none
        split
        · rfl
        · exact tracks.unnamed
      · change ((deletePolicy policyName store).httpPolicy dir).lookup key =
          (if key = cString policyName then none else live key).bind _
        rw [spelled]
        by_cases own : key = policyName
        · rw [if_pos own, own]
          by_cases named : policyName = ""
          · -- the empty name deletes nothing, and nothing is stored under it
            rw [deletePolicy, if_pos named, named, tracks.clauses dir, tracks.unnamed]
          · exact deletePolicy_lookup_same store named dir
        · rw [if_neg own, deletePolicy_lookup_other store own]
          exact tracks.clauses dir key
  | resetConfig =>
      refine ⟨rfl, fun dir key => ?_⟩
      change (store.clearCfg.httpPolicy dir).lookup key = none
      rw [httpPolicy_clearCfg, cleared rfl dir]
      rfl
  | updateNodeConfig isDelete nodeIps =>
      refine ⟨tracks.unnamed, fun dir key => ?_⟩
      exact (congrArg (fun table => Table.lookup table key)
        (updateNodeConfig_httpPolicy store isDelete nodeIps dir)).trans (tracks.clauses dir key)

/-! ### Runs -/

/-- Both HTTP maps are empty before every reset. -/
def EmptyAtReset (daemon : DaemonContext) (event : DaemonEvent) : Prop :=
  event = .control .resetConfig → ∀ dir, daemon.microseg.httpPolicy dir = Table.empty

def DaemonContext.forgotten (daemon : DaemonContext) : DaemonContext :=
  { daemon with microseg := { MicroSegEngine.new with nodesIp := daemon.microseg.nodesIp } }

/-- What a run with resets is to meet: a reset leaves the policies of a new daemon, every
packet after it is handled as if there never had been others, and what the HTTP maps
hold at any point are the clauses of live requests. -/
structure Forgets (env : Environment) (events : List DaemonEvent) : Prop where
  renewed : ∀ before after, events = before ++ .control .resetConfig :: after →
    let store := (Runs.run (DaemonContext.step env) DaemonContext.new
      (before ++ [.control .resetConfig])).microseg
    store.policyRule = RustPolicyEngine.new ∧ ∀ dir, store.httpPolicy dir = Table.empty
  unaffected : ∀ before after, events = before ++ .control .resetConfig :: after →
    let daemon := Runs.run (DaemonContext.step env) DaemonContext.new
      (before ++ [.control .resetConfig])
    ∀ queue msg now,
      (Runs.run (DaemonContext.step env) daemon after).handle env queue msg now =
        (Runs.run (DaemonContext.step env) daemon.forgotten after).handle env queue msg now
  live : ∀ before after, events = before ++ after → ∀ dir key rules,
    ((Runs.run (DaemonContext.step env) DaemonContext.new before).microseg.httpPolicy dir).lookup
        key = some rules →
      ∃ request, liveRequests before key = some request ∧ clausesBy request dir = some rules

theorem reached_run (env : Environment) (events : List DaemonEvent) :
    Reached (Runs.run (DaemonContext.step env) DaemonContext.new events).microseg := by
  refine Runs.run_invariant (DaemonContext.step env) (fun _ _ => True)
    (fun daemon => Reached daemon.microseg) ?_ ⟨[], rfl⟩ (Runs.meets_of_forall (fun _ _ => trivial) _)
  intro daemon event reached _
  cases event with
  | packet queue msg now => exact reached
  | reap now => exact reached
  | control op => exact reached.apply op

theorem tracks_run (env : Environment) {events : List DaemonEvent}
    (proper : ∀ event ∈ events, event.Proper)
    (cleared : Runs.Meets (DaemonContext.step env) EmptyAtReset DaemonContext.new events) :
    Tracks (Runs.run (DaemonContext.step env) DaemonContext.new events).microseg
      (liveRequests events) := by
  refine Runs.run_simulation (DaemonContext.step env) LiveRequests.step
    (fun daemon event => event.Proper ∧ EmptyAtReset daemon event)
    (fun daemon live => Tracks daemon.microseg live) ?_ ?_ ?_
  · intro daemon live event tracks guarded
    cases event with
    | packet queue msg now => exact tracks
    | reap now => exact tracks
    | control op =>
        exact tracks.apply guarded.1 fun reset => guarded.2 (congrArg DaemonEvent.control reset)
  · exact ⟨rfl, fun dir key => by cases dir <;> rfl⟩
  · rw [Runs.meets_iff_splits] at cleared ⊢
    rintro before event after rfl
    exact ⟨proper event (List.mem_append_right _ List.mem_cons_self),
      cleared before event after rfl⟩

theorem microseg_reset (env : Environment) (before : List DaemonEvent) :
    (Runs.run (DaemonContext.step env) DaemonContext.new
        (before ++ [.control .resetConfig])).microseg =
      (Runs.run (DaemonContext.step env) DaemonContext.new before).microseg.clearCfg := by
  rw [Runs.run_append]
  rfl

theorem DaemonContext.forgotten_eq {daemon : DaemonContext}
    (engine : daemon.microseg.policyRule = RustPolicyEngine.new)
    (maps : ∀ dir, daemon.microseg.httpPolicy dir = Table.empty) : daemon.forgotten = daemon := by
  have input : daemon.microseg.inputHttpPolicy = Table.empty := maps .ingress
  have output : daemon.microseg.outputHttpPolicy = Table.empty := maps .egress
  rcases daemon with ⟨manager, policyRule, nodesIp, inputPolicy, outputPolicy⟩
  cases engine
  cases input
  cases output
  rfl

/-- For every run of packets, sweeps and control requests whose names are in order: it
meets all three exactly if both HTTP maps are empty whenever it comes to a reset. -/
theorem resetConfig_forgets_iff (env : Environment) (events : List DaemonEvent)
    (proper : ∀ event ∈ events, event.Proper) :
    Forgets env events ↔
      Runs.Meets (DaemonContext.step env) EmptyAtReset DaemonContext.new events := by
  constructor
  · intro forgets
    rw [Runs.meets_iff_splits]
    rintro before event after split rfl dir
    have empty := (forgets.renewed before after split).2 dir
    rw [microseg_reset, httpPolicy_clearCfg] at empty
    exact empty
  · intro cleared
    have renewed : ∀ before after, events = before ++ .control .resetConfig :: after →
        let store := (Runs.run (DaemonContext.step env) DaemonContext.new
          (before ++ [.control .resetConfig])).microseg
        store.policyRule = RustPolicyEngine.new ∧ ∀ dir, store.httpPolicy dir = Table.empty := by
      intro before after split
      dsimp only
      rw [microseg_reset]
      refine ⟨(reached_run env before).clearCfg, fun dir => ?_⟩
      rw [httpPolicy_clearCfg]
      exact (Runs.meets_iff_splits _ _ _ _).mp cleared before _ after split rfl dir
    refine ⟨renewed, ?_, ?_⟩
    · intro before after split daemon queue msg now
      obtain ⟨engine, maps⟩ := renewed before after split
      rw [DaemonContext.forgotten_eq engine maps]
    · rintro before after rfl dir key rules found
      have earlier := ((Runs.meets_append _ _ _ before after).mp cleared).1
      have tracks := tracks_run env
        (fun event member => proper event (List.mem_append_left after member)) earlier
      rw [tracks.clauses dir key] at found
      exact Option.bind_eq_some_iff.mp found

/-- A policy without clauses is forgotten, and one with clauses can follow. -/
theorem sshPolicy_forgotten :
    Forgets getEnvironment [.control (.addPolicyRule "ssh" [sshRule]), .control .resetConfig,
      .control webPolicy, .packet .input getMessage 0] := by
  refine (resetConfig_forgets_iff getEnvironment _ (by decide)).mpr ⟨nofun, ?_, nofun, nofun, trivial⟩
  intro _ dir
  have unnamed (key : String) : (if key = "ssh" then none else none) =
      (none : Option (List HttpRuleInfo)) := ite_self _
  cases dir with
  | ingress => exact Table.ext (funext unnamed)
  | egress => exact Table.ext (funext unnamed)

/-- A tracked flow is denied its request by a clause of a policy that was reset. -/
theorem webPolicy_denies_after_reset :
    let events : List DaemonEvent :=
      [.control webPolicy, .packet .input (plainMessage webFlow 100 synFlag []) 0,
        .control .resetConfig]
    let daemon := Runs.run (DaemonContext.step getEnvironment) DaemonContext.new events
    (∀ event ∈ events, event.Proper) ∧ ¬Forgets getEnvironment events ∧
      liveRequests events "web" = none ∧
      (daemon.handle getEnvironment .input getMessage 1).Denies getMessage "web" := by
  intro events daemon
  have found : ((daemon.microseg.httpPolicy .ingress).lookup "web").isSome = true := by
    decide +kernel
  have ended : liveRequests events "web" = none := by decide +kernel
  refine ⟨by decide, fun forgets => ?_, ended, by decide +kernel⟩
  obtain ⟨rules, stored⟩ := Option.isSome_iff_exists.mp found
  obtain ⟨request, live, -⟩ := forgets.live events [] (List.append_nil _).symm .ingress "web" rules
    stored
  rw [ended] at live
  cases live

end NetPolicy.Daemon
