/-
Loops left from inside.

A loop is its body: a turn from a state either goes on from a new state or leaves the loop
with a result.  The loop ends with a result if it is left after finitely many turns.  A body
whose turns only go on downwards in a well-founded relation always ends.  In a body made of
checked operations a panic leaves the loop too.
-/

import NetPolicy.Library.CheckedReads

namespace Loops

open CheckedReads

variable {σ ρ : Type}

inductive Turn (σ ρ : Type) where
  | again (state : σ)
  | exit (result : ρ)
deriving DecidableEq, Repr

inductive Ends (body : σ → Turn σ ρ) : σ → ρ → Prop where
  | exit {state : σ} {result : ρ} (turned : body state = .exit result) : Ends body state result
  | again {state next : σ} {result : ρ} (turned : body state = .again next)
      (later : Ends body next result) : Ends body state result

theorem Ends.unique {body : σ → Turn σ ρ} {state : σ} {first second : ρ}
    (ended : Ends body state first) (other : Ends body state second) : first = second := by
  induction ended with
  | exit turned =>
      cases other with
      | exit otherTurned =>
          rw [turned] at otherTurned
          exact Turn.exit.inj otherTurned
      | again otherTurned later =>
          rw [turned] at otherTurned
          cases otherTurned
  | again turned later ih =>
      cases other with
      | exit otherTurned =>
          rw [turned] at otherTurned
          cases otherTurned
      | again otherTurned otherLater =>
          rw [turned] at otherTurned
          cases otherTurned
          exact ih otherLater

def checkedBody (turn : σ → Checked (Turn σ ρ)) (state : σ) : Turn σ (Checked ρ) :=
  match turn state with
  | .error panic => .exit (.error panic)
  | .ok (.again next) => .again next
  | .ok (.exit result) => .exit (.ok result)

/-- A checked loop that never panics and only goes on downwards is left, and what every
exit has and every turn hands back holds of the result. -/
theorem exists_ends {below : σ → σ → Prop} (wellFounded : WellFounded below)
    {turn : σ → Checked (Turn σ ρ)} (invariant : σ → Prop) (goal : σ → ρ → Prop)
    (safe : ∀ {state}, invariant state → ∀ panic, turn state ≠ .error panic)
    (exits : ∀ {state result}, invariant state → turn state = .ok (.exit result) →
      goal state result)
    (turns : ∀ {state next}, invariant state → turn state = .ok (.again next) →
      invariant next ∧ below next state ∧ ∀ {result}, goal next result → goal state result)
    {state : σ} (initial : invariant state) :
    ∃ result, Ends (checkedBody turn) state (.ok result) ∧ goal state result := by
  induction state using wellFounded.induction with
  | h state ih =>
      cases taken : turn state with
      | error panic => exact absurd taken (safe initial panic)
      | ok decision =>
          cases decision with
          | exit result =>
              have turned : checkedBody turn state = .exit (.ok result) := by
                rw [checkedBody, taken]
              exact ⟨result, .exit turned, exits initial taken⟩
          | again next =>
              have turned : checkedBody turn state = .again next := by
                rw [checkedBody, taken]
              obtain ⟨kept, lower, handsBack⟩ := turns initial taken
              obtain ⟨result, later, reached⟩ := ih next lower kept
              exact ⟨result, .again turned later, handsBack reached⟩

end Loops
