/-
Runs of deterministic machines.

A machine is a step function; a run feeds it a list of events.  A guard is a
condition on the state before a step and on the event.  An invariant that every
guarded step preserves holds after every run whose steps all meet the guard, and
two machines fed the same events stay related when every step keeps the relation.  A
machine that is not shown some of the events stays related when those events keep the
relation by themselves, and it puts out the same when those events put out nothing.
-/

import Mathlib.Data.List.Basic

namespace Runs

variable {σ τ ε ω : Type}

def run (step : σ → ε → σ) (state : σ) (events : List ε) : σ := events.foldl step state

def Meets (step : σ → ε → σ) (guard : σ → ε → Prop) : σ → List ε → Prop
  | _, [] => True
  | state, event :: rest => guard state event ∧ Meets step guard (step state event) rest

instance decidableMeets (step : σ → ε → σ) (guard : σ → ε → Prop)
    [∀ state event, Decidable (guard state event)] :
    ∀ (state : σ) (events : List ε), Decidable (Meets step guard state events)
  | _, [] => .isTrue trivial
  | state, event :: rest =>
      have : Decidable (Meets step guard (step state event) rest) :=
        decidableMeets step guard (step state event) rest
      inferInstanceAs (Decidable (_ ∧ _))

theorem run_nil (step : σ → ε → σ) (state : σ) : run step state [] = state := rfl

theorem run_cons (step : σ → ε → σ) (state : σ) (event : ε) (rest : List ε) :
    run step state (event :: rest) = run step (step state event) rest := rfl

theorem run_append (step : σ → ε → σ) (state : σ) (first second : List ε) :
    run step state (first ++ second) = run step (run step state first) second :=
  List.foldl_append

theorem meets_append (step : σ → ε → σ) (guard : σ → ε → Prop) (state : σ)
    (first second : List ε) :
    Meets step guard state (first ++ second) ↔
      Meets step guard state first ∧ Meets step guard (run step state first) second := by
  induction first generalizing state with
  | nil => simp [Meets, run]
  | cons event rest ih =>
      simp only [List.cons_append, Meets, ih, run_cons, and_assoc]

theorem meets_iff_splits (step : σ → ε → σ) (guard : σ → ε → Prop) (state : σ)
    (events : List ε) :
    Meets step guard state events ↔
      ∀ before event after, events = before ++ event :: after →
        guard (run step state before) event := by
  constructor
  · rintro meets before event after rfl
    exact ((meets_append step guard state before (event :: after)).mp meets).2.1
  · intro every
    induction events generalizing state with
    | nil => trivial
    | cons first rest ih =>
        refine ⟨every [] first rest rfl, ih (step state first) fun before event after split => ?_⟩
        exact every (first :: before) event after (congrArg (first :: ·) split)

theorem meets_iff_of_invariant (step : σ → ε → σ) {guard first second : σ → ε → Prop}
    {invariant : σ → Prop}
    (preserved : ∀ state event, invariant state → guard state event →
      invariant (step state event))
    (same : ∀ state event, invariant state → guard state event →
      (first state event ↔ second state event))
    {state : σ} {events : List ε} (initial : invariant state)
    (meets : Meets step guard state events) :
    Meets step first state events ↔ Meets step second state events := by
  induction events generalizing state with
  | nil => exact Iff.rfl
  | cons event rest ih =>
      exact and_congr (same state event initial meets.1)
        (ih (preserved state event initial meets.1) meets.2)

theorem run_invariant (step : σ → ε → σ) (guard : σ → ε → Prop) (invariant : σ → Prop)
    (preserved : ∀ state event, invariant state → guard state event →
      invariant (step state event))
    {state : σ} {events : List ε} (initial : invariant state)
    (meets : Meets step guard state events) : invariant (run step state events) := by
  induction events generalizing state with
  | nil => exact initial
  | cons event rest ih =>
      exact ih (preserved state event initial meets.1) meets.2

/-- The simulation rule, with a guard on the first machine's steps. -/
theorem run_simulation (step : σ → ε → σ) (other : τ → ε → τ) (guard : σ → ε → Prop)
    (related : σ → τ → Prop)
    (preserved : ∀ state image event, related state image → guard state event →
      related (step state event) (other image event))
    {state : σ} {image : τ} {events : List ε} (initial : related state image)
    (meets : Meets step guard state events) :
    related (run step state events) (run other image events) := by
  induction events generalizing state image with
  | nil => exact initial
  | cons event rest ih =>
      exact ih (preserved state image event initial meets.1) meets.2

theorem run_hiding (step : σ → ε → σ) (other : τ → ε → τ) (visible : ε → Bool)
    (guard : σ → ε → Prop) (related : σ → τ → Prop)
    (shown : ∀ state image event, visible event = true → related state image →
      guard state event → related (step state event) (other image event))
    (hidden : ∀ state image event, visible event = false → related state image →
      guard state event → related (step state event) image)
    {state : σ} {image : τ} {events : List ε} (initial : related state image)
    (meets : Meets step guard state events) :
    related (run step state events) (run other image (events.filter visible)) := by
  induction events generalizing state image with
  | nil => exact initial
  | cons event rest ih =>
      cases seen : visible event with
      | true =>
          rw [List.filter_cons_of_pos seen]
          exact ih (shown state image event seen initial meets.1) meets.2
      | false =>
          rw [List.filter_cons_of_neg (by rw [seen]; exact Bool.false_ne_true)]
          exact ih (hidden state image event seen initial meets.1) meets.2

def outputs (step : σ → ε → σ) (output : σ → ε → List ω) : σ → List ε → List ω
  | _, [] => []
  | state, event :: rest => output state event ++ outputs step output (step state event) rest

theorem outputs_append (step : σ → ε → σ) (output : σ → ε → List ω) (state : σ)
    (first second : List ε) :
    outputs step output state (first ++ second) =
      outputs step output state first ++ outputs step output (run step state first) second := by
  induction first generalizing state with
  | nil => rfl
  | cons event rest ih =>
      rw [List.cons_append, outputs, outputs, ih, run_cons, List.append_assoc]

theorem forall_mem_outputs (step : σ → ε → σ) (output : σ → ε → List ω) {invariant : σ → Prop}
    {good : ω → Prop}
    (preserved : ∀ state event, invariant state → invariant (step state event))
    (emits : ∀ state event, invariant state → ∀ item ∈ output state event, good item)
    {state : σ} (initial : invariant state) (events : List ε) :
    ∀ item ∈ outputs step output state events, good item := by
  induction events generalizing state with
  | nil =>
      intro item member
      cases member
  | cons event rest ih =>
      intro item member
      rcases List.mem_append.mp member with here | later
      · exact emits state event initial item here
      · exact ih (preserved state event initial) item later

theorem forall_mem_outputs_iff (step : σ → ε → σ) (output : σ → ε → List ω) {good : ω → Prop}
    (state : σ) (events : List ε) :
    (∀ item ∈ outputs step output state events, good item) ↔
      Meets step (fun state event => ∀ item ∈ output state event, good item) state events := by
  induction events generalizing state with
  | nil => exact iff_of_true (List.forall_mem_nil _) trivial
  | cons event rest ih => rw [outputs, List.forall_mem_append, ih, Meets]

theorem outputs_simulation (step : σ → ε → σ) (other : τ → ε → τ) (output : σ → ε → List ω)
    (otherOutput : τ → ε → List ω) (related : σ → τ → Prop)
    (shown : ∀ state image event, related state image →
      output state event = otherOutput image event ∧
        related (step state event) (other image event))
    {state : σ} {image : τ} (initial : related state image) (events : List ε) :
    outputs step output state events = outputs other otherOutput image events := by
  induction events generalizing state image with
  | nil => rfl
  | cons event rest ih =>
      obtain ⟨same, next⟩ := shown state image event initial
      rw [outputs, outputs, same, ih next]

theorem outputs_hiding (step : σ → ε → σ) (other : τ → ε → τ) (output : σ → ε → List ω)
    (otherOutput : τ → ε → List ω) (visible : ε → Bool) (related : σ → τ → Prop)
    (shown : ∀ state image event, visible event = true → related state image →
      output state event = otherOutput image event ∧
        related (step state event) (other image event))
    (hidden : ∀ state image event, visible event = false → related state image →
      output state event = [] ∧ related (step state event) image)
    {state : σ} {image : τ} (initial : related state image) (events : List ε) :
    outputs step output state events =
      outputs other otherOutput image (events.filter visible) := by
  induction events generalizing state image with
  | nil => rfl
  | cons event rest ih =>
      cases seen : visible event with
      | true =>
          obtain ⟨same, next⟩ := shown state image event seen initial
          rw [List.filter_cons_of_pos seen, outputs, outputs, same, ih next]
      | false =>
          obtain ⟨silent, next⟩ := hidden state image event seen initial
          rw [List.filter_cons_of_neg (by rw [seen]; exact Bool.false_ne_true), outputs, silent,
            List.nil_append, ih next]

theorem Meets.mono {step : σ → ε → σ} {first second : σ → ε → Prop}
    (weaker : ∀ state event, first state event → second state event) {state : σ}
    {events : List ε} (meets : Meets step first state events) :
    Meets step second state events := by
  induction events generalizing state with
  | nil => trivial
  | cons event rest ih => exact ⟨weaker state event meets.1, ih meets.2⟩

theorem meets_of_forall {step : σ → ε → σ} {guard : ε → Prop} {events : List ε}
    (every : ∀ event ∈ events, guard event) (state : σ) :
    Meets step (fun _ event => guard event) state events := by
  induction events generalizing state with
  | nil => trivial
  | cons event rest ih =>
      exact ⟨every event List.mem_cons_self,
        ih (fun later member => every later (List.mem_cons_of_mem event member)) _⟩

end Runs
