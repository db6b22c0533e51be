/-
Runs of machines that may refuse an action.

A state refuses an action that is not enabled in it.  An invariant that every step keeps
holds after every run, and a run of actions that all lower a measure is no longer than
the measure it starts with.  A property that a step keeps exactly if its action is good is
kept by the runs whose actions are all good.
-/

import Mathlib.Data.List.Basic

namespace Transitions

variable {σ α : Type} (step : σ → α → Option σ)

/-- The state after some actions, if each of them is enabled in its turn. -/
def exec : σ → List α → Option σ
  | state, [] => some state
  | state, action :: rest => (step state action).bind fun next => exec next rest

theorem exec_cons_eq_some {state last : σ} {action : α} {rest : List α} :
    exec step state (action :: rest) = some last ↔
      ∃ next, step state action = some next ∧ exec step next rest = some last :=
  Option.bind_eq_some_iff

/-- Every action is good in the state it is taken in. -/
def Along (good : σ → α → Prop) : σ → List α → Prop
  | _, [] => True
  | state, action :: rest => good state action ∧ ∀ next ∈ step state action, Along good next rest

instance decidableAlong (good : σ → α → Prop) [∀ state action, Decidable (good state action)] :
    ∀ (state : σ) (actions : List α), Decidable (Along step good state actions)
  | _, [] => .isTrue trivial
  | state, action :: rest =>
      have : ∀ next, Decidable (Along step good next rest) :=
        fun next => decidableAlong good next rest
      inferInstanceAs (Decidable (_ ∧ ∀ next ∈ step state action, _))

variable {step}

theorem exec_invariant {invariant : σ → Prop}
    (preserved : ∀ {state action next}, invariant state → step state action = some next →
      invariant next)
    {state last : σ} {actions : List α} (initial : invariant state)
    (executed : exec step state actions = some last) : invariant last := by
  induction actions generalizing state with
  | nil =>
      cases executed
      exact initial
  | cons action rest ih =>
      obtain ⟨next, stepped, later⟩ := (exec_cons_eq_some step).mp executed
      exact ih (preserved initial stepped) later

/-- A property that does not hold at first and holds at last is brought about by a step. -/
theorem exec_turns (property : σ → Prop) {state last : σ} {actions : List α}
    (executed : exec step state actions = some last) (before : ¬property state)
    (after : property last) :
    ∃ earlier action later middle next, actions = earlier ++ action :: later ∧
      exec step state earlier = some middle ∧ step middle action = some next ∧
      ¬property middle ∧ property next := by
  induction actions generalizing state with
  | nil =>
      cases executed
      exact absurd after before
  | cons action rest ih =>
      obtain ⟨next, stepped, later⟩ := (exec_cons_eq_some step).mp executed
      by_cases turned : property next
      · exact ⟨[], action, rest, state, next, rfl, rfl, stepped, before, turned⟩
      · obtain ⟨earlier, other, remaining, middle, following, split, reached, facts⟩ :=
          ih later turned
        refine ⟨action :: earlier, other, remaining, middle, following, ?_, ?_, facts⟩
        · rw [split]
          rfl
        · exact (exec_cons_eq_some step).mpr ⟨next, stepped, reached⟩

theorem exec_invariant_of_forall (invariant : σ → Prop) (kind : α → Prop)
    (preserved : ∀ {state action next}, invariant state → kind action →
      step state action = some next → invariant next)
    {state last : σ} {actions : List α} (initial : invariant state)
    (every : ∀ action ∈ actions, kind action)
    (executed : exec step state actions = some last) : invariant last := by
  induction actions generalizing state with
  | nil =>
      cases executed
      exact initial
  | cons action rest ih =>
      obtain ⟨next, stepped, later⟩ := (exec_cons_eq_some step).mp executed
      exact ih (preserved initial (every action List.mem_cons_self) stepped)
        (fun other member => every other (List.mem_cons_of_mem action member)) later

theorem exec_along_iff {good : σ → α → Prop} {kept : σ → Prop}
    (keeps : ∀ {state action next}, step state action = some next →
      (kept next ↔ kept state ∧ good state action))
    {state last : σ} {actions : List α} (executed : exec step state actions = some last) :
    kept last ↔ kept state ∧ Along step good state actions := by
  induction actions generalizing state with
  | nil =>
      cases executed
      exact (and_iff_left trivial).symm
  | cons action rest ih =>
      obtain ⟨next, stepped, later⟩ := (exec_cons_eq_some step).mp executed
      rw [ih later, keeps stepped, Along, stepped, and_assoc]
      simp only [Option.mem_some_iff, forall_eq']

theorem exec_length_le {invariant : σ → Prop} {kind : α → Prop} {measure : σ → Nat}
    (preserved : ∀ {state action next}, invariant state → step state action = some next →
      invariant next)
    (lowered : ∀ {state action next}, invariant state → kind action →
      step state action = some next → measure next < measure state)
    {state last : σ} {actions : List α} (initial : invariant state)
    (every : ∀ action ∈ actions, kind action)
    (executed : exec step state actions = some last) :
    actions.length + measure last ≤ measure state := by
  induction actions generalizing state with
  | nil =>
      cases executed
      exact Nat.le_of_eq (Nat.zero_add _)
  | cons action rest ih =>
      obtain ⟨next, stepped, later⟩ := (exec_cons_eq_some step).mp executed
      have shorter := ih (preserved initial stepped)
        (fun other member => every other (List.mem_cons_of_mem action member)) later
      have lower := lowered initial (every action List.mem_cons_self) stepped
      rw [List.length_cons]
      omega

end Transitions
