/-
Enforcement.

The rules, the callbacks, the marks of the kernel and the conntrack sessions together, in
runs without HTTP rules: a connection passes unexamined only if the rulebook, as the requests
had left it when one of its packets was answered, did not deny that packet.
-/

import NetPolicy.Daemon.MarkProtocol

namespace NetPolicy.Daemon

open NetPolicy.Policy NetPolicy.Flow NetPolicy.Http NetPolicy.Conntrack

def Act.op? : Act → Option ControlOp
  | .policy request => some request.op
  | .deletePolicyRule policyName => some (.deletePolicyRule policyName)
  | .resetConfig => some .resetConfig
  | .updateNodeConfig isDelete nodeIps => some (.updateNodeConfig isDelete nodeIps)
  | _ => none

def bookAfter (acts : List Act) : Rulebook :=
  (acts.filterMap Act.op?).foldl Rulebook.apply Rulebook.empty

section Enforcement

variable {env : Environment} {kernel : Kernel} {world next last : World} {act : Act}
  {acts before : List Act} {book : Rulebook} {pod : Nat} {flow : Conntrack.Flow}

theorem daemon_of_map {changed : Nat} {operation : Option PodNet}
    (stepped : operation.map (world.setPod changed) = some next) : next.daemon = world.daemon := by
  obtain ⟨_, _, rfl⟩ := Option.map_eq_some_iff.mp stepped
  rfl

theorem daemon_of_answer {index now : Nat}
    (answered : world.answer env pod index now = some next) :
    ∃ queue msg, next.daemon = world.daemon.step env (.packet queue msg now) := by
  unfold World.answer at answered
  split at answered
  · rename_i queue msg _
    split at answered
    · cases answered
      exact ⟨queue, msg, rfl⟩
    · cases answered
  · cases answered

theorem follows_step (follows : Follows world.daemon book)
    (plain : ∀ op ∈ act.op?, op.Plain) (stepped : world.step env kernel act = some next) :
    Follows next.daemon (act.op?.elim book book.apply) := by
  cases act with
  | track changed entry | expire changed other | enter changed other queue id payload
  | leave changed index saved =>
      rw [daemon_of_map stepped]
      exact follows
  | answer changed index now =>
      obtain ⟨queue, msg, same⟩ := daemon_of_answer stepped
      rw [same]
      exact follows.step env trivial
  | policy request | deletePolicyRule policyName | resetConfig
  | updateNodeConfig isDelete nodeIps =>
      cases stepped
      exact follows.control env (plain _ rfl)
  | reap now =>
      cases stepped
      exact follows.sweep env now
  | podUp changed | podDown changed =>
      cases stepped
      exact follows

theorem follows_exec (follows : Follows world.daemon book)
    (plain : ∀ act ∈ acts, ∀ op ∈ act.op?, op.Plain)
    (executed : Transitions.exec (World.step env kernel) world acts = some last) :
    Follows last.daemon ((acts.filterMap Act.op?).foldl Rulebook.apply book) := by
  induction acts generalizing world book with
  | nil =>
      cases executed
      exact follows
  | cons act rest ih =>
      obtain ⟨next, stepped, later⟩ := (Transitions.exec_cons_eq_some _).mp executed
      have first := follows_step follows (plain act List.mem_cons_self) stepped
      have remaining := ih first (fun other member => plain other (List.mem_cons_of_mem _ member))
        later
      rw [List.filterMap_cons]
      cases requested : act.op? with
      | none | some op =>
          rw [requested] at remaining
          exact remaining

end Enforcement

end NetPolicy.Daemon
