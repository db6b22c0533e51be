/-
Incremental machines over a growing buffer.

A machine looks at its state and the unread bytes and fails, waits for more,
stops, or proceeds after consuming some bytes.  It is incremental when a decision
is not revised by bytes that arrive later, and waiting is the same as starting
from the waiting state on what is left.  For such a machine, driving it over a
concatenation is driving it over the first part and resuming on the second.
-/

import Mathlib.Data.List.Basic

namespace Incremental

inductive Step (σ ω : Type) where
  | fail
  | wait (consumed : Nat) (state : σ)
  | stop (consumed : Nat) (state : σ)
  | proceed (consumed : Nat) (state : σ) (outputs : List ω)

namespace Step

variable {σ ω : Type}

def shift (offset : Nat) : Step σ ω → Step σ ω
  | fail => fail
  | wait consumed state => wait (offset + consumed) state
  | stop consumed state => stop (offset + consumed) state
  | proceed consumed state outputs => proceed (offset + consumed) state outputs

def consumed : Step σ ω → Nat
  | fail => 0
  | wait consumed _ => consumed
  | stop consumed _ => consumed
  | proceed consumed _ _ => consumed

def Waits : Step σ ω → Prop
  | wait _ _ => True
  | _ => False

theorem shift_zero (decision : Step σ ω) : decision.shift 0 = decision := by
  cases decision <;> simp [shift]

end Step

/-- A machine with a weight that every proceeding step decreases, and the laws
that make it incremental. -/
structure Machine (σ β ω : Type) where
  step : σ → List β → Step σ ω
  weight : σ → List β → Nat
  proceed_weight : ∀ {state buffer consumed next outputs},
    step state buffer = .proceed consumed next outputs →
      weight next (buffer.drop consumed) < weight state buffer
  bound : ∀ state buffer, (step state buffer).consumed ≤ buffer.length
  settled : ∀ {state buffer} (more : List β), ¬(step state buffer).Waits →
    step state (buffer ++ more) = step state buffer
  resumed : ∀ {state buffer consumed next} (more : List β),
    step state buffer = .wait consumed next →
      step state (buffer ++ more) = (step next (buffer.drop consumed ++ more)).shift consumed

/-- How a drive ended: what it put out on the way, and, unless it failed, how
much it consumed and the state it ended in. -/
inductive Outcome (σ ω : Type) where
  | failed (outputs : List ω)
  | waiting (consumed : Nat) (state : σ) (outputs : List ω)
  | stopped (consumed : Nat) (state : σ) (outputs : List ω)

namespace Outcome

variable {σ ω : Type}

def consumed : Outcome σ ω → Nat
  | failed _ => 0
  | waiting consumed _ _ => consumed
  | stopped consumed _ _ => consumed

def outputs : Outcome σ ω → List ω
  | failed outputs => outputs
  | waiting _ _ outputs => outputs
  | stopped _ _ outputs => outputs

def after (outcome : Outcome σ ω) (offset : Nat) (earlier : List ω) : Outcome σ ω :=
  match outcome with
  | failed outputs => failed (earlier ++ outputs)
  | waiting consumed state outputs => waiting (offset + consumed) state (earlier ++ outputs)
  | stopped consumed state outputs => stopped (offset + consumed) state (earlier ++ outputs)

theorem consumed_after_le (outcome : Outcome σ ω) (offset : Nat) (earlier : List ω) :
    (outcome.after offset earlier).consumed ≤ offset + outcome.consumed := by
  cases outcome <;> simp [after, consumed]

theorem outputs_after (outcome : Outcome σ ω) (offset : Nat) (earlier : List ω) :
    (outcome.after offset earlier).outputs = earlier ++ outcome.outputs := by
  cases outcome <;> rfl

theorem after_after (outcome : Outcome σ ω) (first second : Nat) (left right : List ω) :
    (outcome.after second right).after first left =
      outcome.after (first + second) (left ++ right) := by
  cases outcome <;> simp [after, Nat.add_assoc]

end Outcome

namespace Machine

variable {σ β ω : Type} (machine : Machine σ β ω)

/-! ### Driving -/

def loop : Nat → σ → List β → Outcome σ ω
  | 0, state, _ => .waiting 0 state []
  | fuel + 1, state, buffer =>
      match machine.step state buffer with
      | .fail => .failed []
      | .wait consumed next => .waiting consumed next []
      | .stop consumed next => .stopped consumed next []
      | .proceed consumed next outputs =>
          (loop fuel next (buffer.drop consumed)).after consumed outputs

/-- The weight is enough fuel, so driving never runs out. -/
def drive (state : σ) (buffer : List β) : Outcome σ ω :=
  machine.loop (machine.weight state buffer + 1) state buffer

theorem loop_eq_of_enough {first second : Nat} {state : σ} {buffer : List β}
    (enough : machine.weight state buffer < first)
    (alsoEnough : machine.weight state buffer < second) :
    machine.loop first state buffer = machine.loop second state buffer := by
  induction first generalizing second state buffer with
  | zero => omega
  | succ first ih =>
      cases second with
      | zero => omega
      | succ second =>
          unfold loop
          cases decision : machine.step state buffer with
          | fail => rfl
          | wait consumed next => rfl
          | stop consumed next => rfl
          | proceed consumed next outputs =>
              have lighter := machine.proceed_weight decision
              have same : machine.loop first next (buffer.drop consumed) =
                  machine.loop second next (buffer.drop consumed) :=
                ih (by omega) (by omega)
              dsimp only
              rw [same]

theorem drive_fail {state : σ} {buffer : List β} (decision : machine.step state buffer = .fail) :
    machine.drive state buffer = .failed [] := by
  unfold drive loop
  rw [decision]

theorem drive_wait {state next : σ} {buffer : List β} {consumed : Nat}
    (decision : machine.step state buffer = .wait consumed next) :
    machine.drive state buffer = .waiting consumed next [] := by
  unfold drive loop
  rw [decision]

theorem drive_stop {state next : σ} {buffer : List β} {consumed : Nat}
    (decision : machine.step state buffer = .stop consumed next) :
    machine.drive state buffer = .stopped consumed next [] := by
  unfold drive loop
  rw [decision]

theorem drive_proceed {state next : σ} {buffer : List β} {consumed : Nat} {outputs : List ω}
    (decision : machine.step state buffer = .proceed consumed next outputs) :
    machine.drive state buffer =
      (machine.drive next (buffer.drop consumed)).after consumed outputs := by
  have lighter := machine.proceed_weight decision
  unfold drive
  rw [loop, decision]
  dsimp only
  rw [machine.loop_eq_of_enough lighter (Nat.lt_succ_self _)]

theorem drive_bound (state : σ) (buffer : List β) :
    (machine.drive state buffer).consumed ≤ buffer.length := by
  induction size : machine.weight state buffer using Nat.strongRecOn
    generalizing state buffer with
  | ind weight ih =>
      have bound := machine.bound state buffer
      cases decision : machine.step state buffer with
      | fail =>
          rw [drive_fail machine decision]
          exact Nat.zero_le _
      | wait consumed next =>
          rw [decision] at bound
          rw [drive_wait machine decision]
          exact bound
      | stop consumed next =>
          rw [decision] at bound
          rw [drive_stop machine decision]
          exact bound
      | proceed consumed next outputs =>
          rw [decision] at bound
          have lighter := machine.proceed_weight decision
          rw [size] at lighter
          have rest := ih _ lighter next (buffer.drop consumed) rfl
          rw [List.length_drop] at rest
          rw [drive_proceed machine decision]
          have total := (machine.drive next (buffer.drop consumed)).consumed_after_le consumed outputs
          change consumed ≤ buffer.length at bound
          omega

theorem drive_outputs {property : ω → Prop}
    (guaranteed : ∀ {state buffer consumed next outputs},
      machine.step state buffer = .proceed consumed next outputs →
        ∀ output ∈ outputs, property output)
    (state : σ) (buffer : List β) :
    ∀ output ∈ (machine.drive state buffer).outputs, property output := by
  induction size : machine.weight state buffer using Nat.strongRecOn
    generalizing state buffer with
  | ind weight ih =>
      intro output member
      cases decision : machine.step state buffer with
      | fail =>
          rw [drive_fail machine decision] at member
          cases member
      | wait consumed next =>
          rw [drive_wait machine decision] at member
          cases member
      | stop consumed next =>
          rw [drive_stop machine decision] at member
          cases member
      | proceed consumed next outputs =>
          rw [drive_proceed machine decision, Outcome.outputs_after] at member
          rcases List.mem_append.mp member with here | later
          · exact guaranteed decision output here
          · have lighter := machine.proceed_weight decision
            rw [size] at lighter
            exact ih _ lighter next (buffer.drop consumed) rfl output later

/-! ### Turns -/

/-- Proceeding steps in a row: what they put out, and the state and the bytes they
leave. -/
inductive Turns : σ → List β → List ω → σ → List β → Prop where
  | rest (state : σ) (buffer : List β) : Turns state buffer [] state buffer
  | turn {state next last : σ} {buffer remaining : List β} {consumed : Nat}
      {outputs later : List ω}
      (decision : machine.step state buffer = .proceed consumed next outputs)
      (onward : Turns next (buffer.drop consumed) later last remaining) :
      Turns state buffer (outputs ++ later) last remaining

theorem turns_of_failed {state : σ} {buffer : List β} {outputs : List ω}
    (failed : machine.drive state buffer = .failed outputs) :
    ∃ last remaining, machine.Turns state buffer outputs last remaining ∧
      machine.step last remaining = .fail := by
  induction size : machine.weight state buffer using Nat.strongRecOn
    generalizing state buffer outputs with
  | ind weight ih =>
      cases decision : machine.step state buffer with
      | fail =>
          rw [drive_fail machine decision] at failed
          cases failed
          exact ⟨state, buffer, .rest state buffer, decision⟩
      | wait consumed next =>
          rw [drive_wait machine decision] at failed
          cases failed
      | stop consumed next =>
          rw [drive_stop machine decision] at failed
          cases failed
      | proceed consumed next here =>
          rw [drive_proceed machine decision] at failed
          have lighter := machine.proceed_weight decision
          rw [size] at lighter
          cases driven : machine.drive next (buffer.drop consumed) with
          | failed later =>
              rw [driven] at failed
              cases failed
              obtain ⟨last, remaining, onward, malformed⟩ := ih _ lighter driven rfl
              exact ⟨last, remaining, .turn decision onward, malformed⟩
          | waiting further later after =>
              rw [driven] at failed
              cases failed
          | stopped further later after =>
              rw [driven] at failed
              cases failed

theorem Turns.unique_of_fail {state last otherLast : σ} {buffer remaining otherRemaining : List β}
    {outputs otherOutputs : List ω} (turns : machine.Turns state buffer outputs last remaining)
    (fails : machine.step last remaining = .fail)
    (others : machine.Turns state buffer otherOutputs otherLast otherRemaining)
    (otherFails : machine.step otherLast otherRemaining = .fail) :
    otherOutputs = outputs ∧ otherLast = last ∧ otherRemaining = remaining := by
  induction turns generalizing otherOutputs with
  | rest state buffer =>
      cases others with
      | rest => exact ⟨rfl, rfl, rfl⟩
      | turn decision onward =>
          rw [fails] at decision
          cases decision
  | turn decision onward ih =>
      cases others with
      | rest =>
          rw [otherFails] at decision
          cases decision
      | turn otherDecision otherOnward =>
          rw [decision] at otherDecision
          cases otherDecision
          obtain ⟨sameOutputs, sameState, sameRest⟩ := ih fails otherOnward
          exact ⟨congrArg _ sameOutputs, sameState, sameRest⟩

/-! ### Appending -/

theorem drive_of_shift {state next : σ} {buffer : List β} {consumed : Nat}
    (shifted : machine.step state buffer =
      (machine.step next (buffer.drop consumed)).shift consumed) :
    machine.drive state buffer =
      (machine.drive next (buffer.drop consumed)).after consumed [] := by
  cases decision : machine.step next (buffer.drop consumed) with
  | fail =>
      rw [decision] at shifted
      rw [drive_fail machine shifted, drive_fail machine decision]
      rfl
  | wait further later =>
      rw [decision] at shifted
      rw [drive_wait machine shifted, drive_wait machine decision]
      rfl
  | stop further later =>
      rw [decision] at shifted
      rw [drive_stop machine shifted, drive_stop machine decision]
      rfl
  | proceed further later outputs =>
      rw [decision] at shifted
      rw [drive_proceed machine shifted, drive_proceed machine decision, Outcome.after_after,
        List.drop_drop, List.nil_append]

def resume (outcome : Outcome σ ω) (buffer more : List β) : Outcome σ ω :=
  match outcome with
  | .waiting consumed state outputs =>
      (machine.drive state (buffer.drop consumed ++ more)).after consumed outputs
  | settled => settled

theorem resume_after (outcome : Outcome σ ω) (buffer more : List β) (consumed : Nat)
    (outputs : List ω) :
    machine.resume (outcome.after consumed outputs) buffer more =
      (machine.resume outcome (buffer.drop consumed) more).after consumed outputs := by
  cases outcome with
  | failed earlier => rfl
  | stopped further state earlier => rfl
  | waiting further state earlier =>
      unfold resume Outcome.after
      dsimp only
      rw [List.drop_drop]
      exact (Outcome.after_after _ consumed further outputs earlier).symm

/-- Driving over a concatenation is driving over the first part and resuming. -/
theorem drive_append (state : σ) (buffer more : List β) :
    machine.drive state (buffer ++ more) =
      machine.resume (machine.drive state buffer) buffer more := by
  -- strong induction on the weight, which every proceeding step decreases
  induction size : machine.weight state buffer using Nat.strongRecOn
    generalizing state buffer with
  | ind weight ih =>
      cases decision : machine.step state buffer with
      | fail =>
          have grown : machine.step state (buffer ++ more) = .fail := by
            rw [machine.settled more (by rw [decision]; exact id), decision]
          rw [drive_fail machine decision, drive_fail machine grown]
          rfl
      | stop consumed next =>
          have grown : machine.step state (buffer ++ more) = .stop consumed next := by
            rw [machine.settled more (by rw [decision]; exact id), decision]
          rw [drive_stop machine decision, drive_stop machine grown]
          rfl
      | proceed consumed next outputs =>
          have grown : machine.step state (buffer ++ more) = .proceed consumed next outputs := by
            rw [machine.settled more (by rw [decision]; exact id), decision]
          have bound : consumed ≤ buffer.length := by
            have within := machine.bound state buffer
            rw [decision] at within
            exact within
          have lighter := machine.proceed_weight decision
          rw [size] at lighter
          rw [drive_proceed machine decision, drive_proceed machine grown, resume_after,
            List.drop_append_of_le_length bound,
            ih (machine.weight next (buffer.drop consumed)) lighter next (buffer.drop consumed) rfl]
      | wait consumed next =>
          have bound : consumed ≤ buffer.length := by
            have within := machine.bound state buffer
            rw [decision] at within
            exact within
          have grown := machine.resumed more decision
          rw [← List.drop_append_of_le_length bound] at grown
          rw [drive_of_shift machine grown, drive_wait machine decision,
            List.drop_append_of_le_length bound]
          rfl

end Machine

end Incremental
