/-
Where a request body ends.

The framing tracks the end of a body without keeping its bytes.  `advance` and
its chunked loop are translated from the codec; the machine below has the same
decisions as one step each, so that driving it is `advance` and the codec's
incremental behaviour follows from the laws of a single decision.
-/

import NetPolicy.Library.Incremental
import NetPolicy.Library.RustText

namespace NetPolicy.Http

open Incremental

inductive BodyFraming where
  | none
  | contentLength (remaining : Nat)
  | chunkedSize
  | chunkedData (remaining : Nat)
  | chunkedTrailer
deriving DecidableEq, Repr

def findCrlf : List UInt8 → Option Nat
  | first :: second :: rest =>
      if first = 13 ∧ second = 10 then some 0
      else (findCrlf (second :: rest)).map (· + 1)
  | _ => none

/-- A chunk-size line: hexadecimal up to the first semicolon. -/
def chunkSize (line : List UInt8) : Option Nat := do
  let hexPart := line.takeWhile (· ≠ 59)
  let text ← RustText.fromUtf8 hexPart
  RustText.usizeFromStrRadix 16 (RustText.trim text)

namespace BodyFraming

def start (contentLength : Option Nat) (chunked : Bool) : BodyFraming :=
  if chunked then .chunkedSize
  else
    match contentLength with
    | some 0 => .none
    | Option.none => .none
    | some length => .contentLength length

/-- The state left behind, the bytes consumed, and whether the body is complete. -/
abbrev Advance := Except Unit (BodyFraming × Nat × Bool)

/-- The chunked loop from position `pos`.  Every turn that does not return
consumes at least two bytes, so the buffer's length bounds the turns. -/
def advanceChunked (buf : List UInt8) : Nat → BodyFraming → Nat → Advance
  | 0, self, pos => .ok (self, pos, false)
  | fuel + 1, .chunkedSize, pos =>
      match findCrlf (buf.drop pos) with
      | Option.none => .ok (.chunkedSize, pos, false)
      | some lineLen =>
          match chunkSize ((buf.drop pos).take lineLen) with
          | Option.none => .error ()
          | some size =>
              advanceChunked buf fuel (if size = 0 then .chunkedTrailer else .chunkedData size)
                (pos + (lineLen + 2))
  | fuel + 1, .chunkedData remaining, pos =>
      let available := buf.length - pos
      let take := min remaining available
      let pos := pos + take
      let remaining := remaining - take
      if remaining > 0 then .ok (.chunkedData remaining, pos, false)
      else
        let tail := buf.drop pos
        if tail.length < 2 then .ok (.chunkedData remaining, pos, false)
        else if tail.take 2 ≠ [13, 10] then .error ()
        else advanceChunked buf fuel .chunkedSize (pos + 2)
  | fuel + 1, .chunkedTrailer, pos =>
      match findCrlf (buf.drop pos) with
      | Option.none => .ok (.chunkedTrailer, pos, false)
      | some 0 => .ok (.chunkedTrailer, pos + 2, true)
      | some lineLen => advanceChunked buf fuel .chunkedTrailer (pos + (lineLen + 2))
  -- `unreachable!`: the loop is entered in a chunked state and stays in one
  | _ + 1, .none, _ => .error ()
  | _ + 1, .contentLength _, _ => .error ()

def advance (self : BodyFraming) (buf : List UInt8) : Advance :=
  match self with
  | .none => .ok (.none, 0, true)
  | .contentLength remaining =>
      let take := min remaining buf.length
      let remaining := remaining - take
      .ok (.contentLength remaining, take, remaining == 0)
  | .chunkedSize => advanceChunked buf (buf.length + 1) self 0
  | .chunkedData _ => advanceChunked buf (buf.length + 1) self 0
  | .chunkedTrailer => advanceChunked buf (buf.length + 1) self 0

end BodyFraming

/-! ### CRLF positions -/

theorem findCrlf_bound {buffer : List UInt8} {position : Nat}
    (found : findCrlf buffer = some position) : position + 2 ≤ buffer.length := by
  induction buffer generalizing position with
  | nil => cases found
  | cons first rest ih =>
      cases rest with
      | nil => cases found
      | cons second tail =>
          unfold findCrlf at found
          split at found
          · cases found
            simp
          · rcases Option.map_eq_some_iff.mp found with ⟨earlier, inRest, rfl⟩
            have bound := ih inRest
            simp only [List.length_cons] at bound ⊢
            omega

theorem findCrlf_append {buffer : List UInt8} {position : Nat}
    (found : findCrlf buffer = some position) (more : List UInt8) :
    findCrlf (buffer ++ more) = some position := by
  induction buffer generalizing position with
  | nil => cases found
  | cons first rest ih =>
      cases rest with
      | nil => cases found
      | cons second tail =>
          unfold findCrlf at found
          simp only [List.cons_append]
          unfold findCrlf
          split at found
          · rename_i crlf
            rw [if_pos crlf]
            exact found
          · rename_i other
            rcases Option.map_eq_some_iff.mp found with ⟨earlier, inRest, rfl⟩
            rw [if_neg other, ← List.cons_append, ih inRest]
            rfl

/-! ### The framing as a machine -/

def framingStep : BodyFraming → List UInt8 → Step BodyFraming Unit
  | .none, _ => .stop 0 .none
  | .contentLength remaining, buffer =>
      if remaining ≤ buffer.length then .stop remaining (.contentLength 0)
      else .wait buffer.length (.contentLength (remaining - buffer.length))
  | .chunkedSize, buffer =>
      match findCrlf buffer with
      | none => .wait 0 .chunkedSize
      | some lineLen =>
          match chunkSize (buffer.take lineLen) with
          | none => .fail
          | some size =>
              .proceed (lineLen + 2) (if size = 0 then .chunkedTrailer else .chunkedData size) []
  | .chunkedData remaining, buffer =>
      if buffer.length < remaining then
        .wait buffer.length (.chunkedData (remaining - buffer.length))
      else if buffer.length < remaining + 2 then .wait remaining (.chunkedData 0)
      else if (buffer.drop remaining).take 2 ≠ [13, 10] then .fail
      else .proceed (remaining + 2) .chunkedSize []
  | .chunkedTrailer, buffer =>
      match findCrlf buffer with
      | none => .wait 0 .chunkedTrailer
      | some 0 => .stop 2 .chunkedTrailer
      | some (lineLen + 1) => .proceed (lineLen + 3) .chunkedTrailer []

theorem framingStep_bound (state : BodyFraming) (buffer : List UInt8) :
    (framingStep state buffer).consumed ≤ buffer.length := by
  cases state with
  | none => exact Nat.zero_le _
  | contentLength remaining =>
      simp only [framingStep]
      split
      · assumption
      · exact Nat.le_refl _
  | chunkedSize =>
      simp only [framingStep]
      split
      · exact Nat.zero_le _
      · rename_i lineLen found
        split
        · exact Nat.zero_le _
        · exact findCrlf_bound found
  | chunkedData remaining =>
      simp only [framingStep]
      split
      · exact Nat.le_refl _
      split
      · simp only [Step.consumed]
        omega
      split
      · exact Nat.zero_le _
      · simp only [Step.consumed]
        omega
  | chunkedTrailer =>
      simp only [framingStep]
      split
      · exact Nat.zero_le _
      · rename_i found
        exact findCrlf_bound found
      · rename_i lineLen found
        exact findCrlf_bound found

def BodyFraming.Chunked : BodyFraming → Prop
  | .none => False
  | .contentLength _ => False
  | .chunkedSize => True
  | .chunkedData _ => True
  | .chunkedTrailer => True

/-- Only chunked states proceed: to a chunked state, over at least one CRLF. -/
theorem framingStep_proceed {state next : BodyFraming} {buffer : List UInt8} {consumed : Nat}
    {outputs : List Unit} (decision : framingStep state buffer = .proceed consumed next outputs) :
    2 ≤ consumed ∧ next.Chunked := by
  cases state with
  | none => cases decision
  | contentLength remaining =>
      simp only [framingStep] at decision
      split at decision <;> cases decision
  | chunkedSize =>
      simp only [framingStep] at decision
      split at decision
      · cases decision
      split at decision <;> cases decision
      refine ⟨by omega, ?_⟩
      split <;> trivial
  | chunkedData remaining =>
      simp only [framingStep] at decision
      split at decision
      · cases decision
      split at decision
      · cases decision
      split at decision <;> cases decision
      exact ⟨by omega, trivial⟩
  | chunkedTrailer =>
      simp only [framingStep] at decision
      split at decision <;> cases decision
      exact ⟨by omega, trivial⟩

theorem framingStep_settled {state : BodyFraming} {buffer : List UInt8} (more : List UInt8)
    (decided : ¬(framingStep state buffer).Waits) :
    framingStep state (buffer ++ more) = framingStep state buffer := by
  cases state with
  | none => rfl
  | contentLength remaining =>
      by_cases enough : remaining ≤ buffer.length
      · have grown : remaining ≤ (buffer ++ more).length := by
          rw [List.length_append]
          omega
        simp only [framingStep, enough, grown, if_true]
      · simp only [framingStep, enough, if_false] at decided
        exact absurd trivial decided
  | chunkedSize =>
      cases found : findCrlf buffer with
      | none =>
          simp only [framingStep, found] at decided
          exact absurd trivial decided
      | some lineLen =>
          have bound := findCrlf_bound found
          simp only [framingStep, found, findCrlf_append found more]
          rw [List.take_append_of_le_length (by omega)]
  | chunkedData remaining =>
      by_cases short : buffer.length < remaining
      · simp only [framingStep, short, if_true] at decided
        exact absurd trivial decided
      by_cases unended : buffer.length < remaining + 2
      · simp only [framingStep, short, unended, if_true, if_false] at decided
        exact absurd trivial decided
      · have grownShort : ¬(buffer ++ more).length < remaining := by
          rw [List.length_append]
          omega
        have grownUnended : ¬(buffer ++ more).length < remaining + 2 := by
          rw [List.length_append]
          omega
        have sameEnd : ((buffer ++ more).drop remaining).take 2 =
            (buffer.drop remaining).take 2 := by
          rw [List.drop_append_of_le_length (by omega), List.take_append_of_le_length]
          rw [List.length_drop]
          omega
        simp only [framingStep, short, unended, grownShort, grownUnended, sameEnd, if_false]
  | chunkedTrailer =>
      cases found : findCrlf buffer with
      | none =>
          simp only [framingStep, found] at decided
          exact absurd trivial decided
      | some lineLen => simp only [framingStep, found, findCrlf_append found more]

theorem framingStep_contentLength_split {remaining taken : Nat} {buffer : List UInt8}
    (within : taken ≤ remaining) (bound : taken ≤ buffer.length) :
    framingStep (.contentLength remaining) buffer =
      (framingStep (.contentLength (remaining - taken)) (buffer.drop taken)).shift taken := by
  have rest : (buffer.drop taken).length = buffer.length - taken := List.length_drop
  simp only [framingStep, rest]
  by_cases enough : remaining ≤ buffer.length
  · have restEnough : remaining - taken ≤ buffer.length - taken := by omega
    have total : taken + (remaining - taken) = remaining := by omega
    simp only [enough, restEnough, if_true, Step.shift, total]
  · have restShort : ¬remaining - taken ≤ buffer.length - taken := by omega
    have total : taken + (buffer.length - taken) = buffer.length := by omega
    have left : remaining - taken - (buffer.length - taken) = remaining - buffer.length := by omega
    simp only [enough, restShort, if_false, Step.shift, total, left]

theorem framingStep_chunkedData_split {remaining taken : Nat} {buffer : List UInt8}
    (within : taken ≤ remaining) (bound : taken ≤ buffer.length) :
    framingStep (.chunkedData remaining) buffer =
      (framingStep (.chunkedData (remaining - taken)) (buffer.drop taken)).shift taken := by
  have rest : (buffer.drop taken).length = buffer.length - taken := List.length_drop
  have total : taken + (remaining - taken) = remaining := by omega
  simp only [framingStep, rest, List.drop_drop, total]
  by_cases short : buffer.length < remaining
  · have restShort : buffer.length - taken < remaining - taken := by omega
    have all : taken + (buffer.length - taken) = buffer.length := by omega
    have left : remaining - taken - (buffer.length - taken) = remaining - buffer.length := by omega
    simp only [short, restShort, if_true, Step.shift, all, left]
  have restNotShort : ¬buffer.length - taken < remaining - taken := by omega
  by_cases unended : buffer.length < remaining + 2
  · have restUnended : buffer.length - taken < remaining - taken + 2 := by omega
    simp only [short, restNotShort, unended, restUnended, if_true, if_false, Step.shift, total]
  · have restEnded : ¬buffer.length - taken < remaining - taken + 2 := by omega
    have ended : taken + (remaining - taken + 2) = remaining + 2 := by omega
    simp only [short, restNotShort, unended, restEnded, if_false]
    split
    · rfl
    · simp only [Step.shift, ended]

theorem framingStep_resumed {state next : BodyFraming} {buffer : List UInt8} {consumed : Nat}
    (more : List UInt8) (decision : framingStep state buffer = .wait consumed next) :
    framingStep state (buffer ++ more) =
      (framingStep next (buffer.drop consumed ++ more)).shift consumed := by
  have bound : consumed ≤ buffer.length := by
    have within := framingStep_bound state buffer
    rw [decision] at within
    exact within
  have grown : consumed ≤ (buffer ++ more).length := by
    rw [List.length_append]
    omega
  rw [← List.drop_append_of_le_length bound]
  cases state with
  | none => cases decision
  | contentLength remaining =>
      simp only [framingStep] at decision
      split at decision
      · cases decision
      · cases decision
        exact framingStep_contentLength_split (by omega) grown
  | chunkedSize =>
      simp only [framingStep] at decision
      split at decision
      · cases decision
        rw [List.drop_zero, Step.shift_zero]
      · split at decision <;> cases decision
  | chunkedData remaining =>
      simp only [framingStep] at decision
      split at decision
      · -- the chunk goes on past the buffer
        cases decision
        exact framingStep_chunkedData_split (by omega) grown
      split at decision
      · -- the chunk is over and its CRLF has not arrived
        cases decision
        have split := framingStep_chunkedData_split (Nat.le_refl consumed) grown
        rw [Nat.sub_self] at split
        exact split
      split at decision <;> cases decision
  | chunkedTrailer =>
      simp only [framingStep] at decision
      split at decision <;> cases decision
      rw [List.drop_zero, Step.shift_zero]

def framingMachine : Machine BodyFraming UInt8 Unit where
  step := framingStep
  weight := fun _ buffer => buffer.length
  proceed_weight := by
    intro state buffer consumed next outputs decision
    have progress := (framingStep_proceed decision).1
    have bound := framingStep_bound state buffer
    rw [decision] at bound
    change consumed ≤ buffer.length at bound
    rw [List.length_drop]
    omega
  bound := framingStep_bound
  settled := framingStep_settled
  resumed := framingStep_resumed

/-! ### Driving the machine is `advance` -/

def advanceOf : Outcome BodyFraming Unit → BodyFraming.Advance
  | .failed _ => .error ()
  | .waiting consumed state _ => .ok (state, consumed, false)
  | .stopped consumed state _ => .ok (state, consumed, true)

theorem advanceChunked_succ (buffer : List UInt8) (fuel : Nat) {state : BodyFraming}
    (chunked : state.Chunked) (position : Nat) :
    BodyFraming.advanceChunked buffer (fuel + 1) state position =
      match framingStep state (buffer.drop position) with
      | .fail => .error ()
      | .wait consumed next => .ok (next, position + consumed, false)
      | .stop consumed next => .ok (next, position + consumed, true)
      | .proceed consumed next _ =>
          BodyFraming.advanceChunked buffer fuel next (position + consumed) := by
  cases state with
  | none => cases chunked
  | contentLength remaining => cases chunked
  | chunkedSize =>
      simp only [BodyFraming.advanceChunked, framingStep]
      cases findCrlf (buffer.drop position) with
      | none => rfl
      | some lineLen =>
          dsimp only
          cases chunkSize ((buffer.drop position).take lineLen) <;> rfl
  | chunkedData remaining =>
      have rest : (buffer.drop position).length = buffer.length - position := List.length_drop
      simp only [BodyFraming.advanceChunked, framingStep, rest, List.length_drop, List.drop_drop]
      by_cases short : buffer.length - position < remaining
      · have take : min remaining (buffer.length - position) = buffer.length - position := by omega
        have left : remaining - (buffer.length - position) > 0 := by omega
        simp only [take, left, short, if_true]
      · have take : min remaining (buffer.length - position) = remaining := by omega
        have left : ¬remaining - remaining > 0 := by omega
        simp only [take, left, short, if_false]
        by_cases unended : buffer.length - position < remaining + 2
        · have tail : buffer.length - (position + remaining) < 2 := by omega
          simp only [unended, tail, if_true, Nat.sub_self]
        · have tail : ¬buffer.length - (position + remaining) < 2 := by omega
          simp only [unended, tail, if_false]
          split
          · rfl
          · rw [Nat.add_assoc]
  | chunkedTrailer =>
      simp only [BodyFraming.advanceChunked, framingStep]
      cases findCrlf (buffer.drop position) with
      | none => rfl
      | some lineLen =>
          cases lineLen <;> rfl

theorem advanceChunked_eq_drive (buffer : List UInt8) {fuel : Nat} {state : BodyFraming}
    (chunked : state.Chunked) {position : Nat}
    (enough : (buffer.drop position).length < fuel) :
    BodyFraming.advanceChunked buffer fuel state position =
      advanceOf ((framingMachine.drive state (buffer.drop position)).after position []) := by
  induction fuel generalizing state position with
  | zero => omega
  | succ fuel ih =>
      rw [advanceChunked_succ buffer fuel chunked]
      cases decision : framingStep state (buffer.drop position) with
      | fail =>
          rw [framingMachine.drive_fail decision]
          rfl
      | wait consumed next =>
          rw [framingMachine.drive_wait decision]
          rfl
      | stop consumed next =>
          rw [framingMachine.drive_stop decision]
          rfl
      | proceed consumed next outputs =>
          have lighter := framingMachine.proceed_weight decision
          change (List.drop consumed (buffer.drop position)).length < _ at lighter
          rw [framingMachine.drive_proceed decision, Outcome.after_after]
          rw [List.drop_drop] at lighter ⊢
          dsimp only
          rw [ih (framingStep_proceed decision).2 (Nat.lt_of_lt_of_le lighter (Nat.le_of_lt_succ enough))]
          -- the machine puts nothing out
          cases framingMachine.drive next (buffer.drop (position + consumed)) <;> rfl

/-- `advance` is the machine driven over the buffer. -/
theorem advance_eq_drive (state : BodyFraming) (buffer : List UInt8) :
    state.advance buffer = advanceOf (framingMachine.drive state buffer) := by
  have loop : ∀ {state : BodyFraming}, state.Chunked →
      BodyFraming.advanceChunked buffer (buffer.length + 1) state 0 =
        advanceOf (framingMachine.drive state buffer) := by
    intro state chunked
    have enough : (buffer.drop 0).length < buffer.length + 1 := Nat.lt_succ_self _
    rw [advanceChunked_eq_drive buffer chunked enough, List.drop_zero]
    cases framingMachine.drive state buffer <;> simp [Outcome.after, advanceOf]
  cases state with
  | none => rfl
  | contentLength remaining =>
      by_cases enough : remaining ≤ buffer.length
      · have take : min remaining buffer.length = remaining := by omega
        have decision : framingMachine.step (.contentLength remaining) buffer =
            .stop remaining (.contentLength 0) := if_pos enough
        rw [framingMachine.drive_stop decision]
        simp only [BodyFraming.advance, take, Nat.sub_self, advanceOf, beq_self_eq_true]
      · have take : min remaining buffer.length = buffer.length := by omega
        have left : (remaining - buffer.length == 0) = false := by
          rw [beq_eq_false_iff_ne]
          omega
        have decision : framingMachine.step (.contentLength remaining) buffer =
            .wait buffer.length (.contentLength (remaining - buffer.length)) := if_neg enough
        rw [framingMachine.drive_wait decision]
        simp only [BodyFraming.advance, take, left, advanceOf]
  | chunkedSize => exact loop trivial
  | chunkedData remaining => exact loop trivial
  | chunkedTrailer => exact loop trivial

/-! ### `advance` is incremental -/

theorem advance_bound {state next : BodyFraming} {buffer : List UInt8} {consumed : Nat}
    {complete : Bool} (ok : state.advance buffer = .ok (next, consumed, complete)) :
    consumed ≤ buffer.length := by
  have bound := framingMachine.drive_bound state buffer
  rw [advance_eq_drive] at ok
  cases driven : framingMachine.drive state buffer with
  | failed outputs =>
      rw [driven] at ok
      cases ok
  | waiting further state outputs =>
      rw [driven] at ok bound
      cases ok
      exact bound
  | stopped further state outputs =>
      rw [driven] at ok bound
      cases ok
      exact bound

theorem advance_error_append {state : BodyFraming} {buffer : List UInt8}
    (malformed : state.advance buffer = .error ()) (more : List UInt8) :
    state.advance (buffer ++ more) = .error () := by
  rw [advance_eq_drive] at malformed ⊢
  rw [framingMachine.drive_append]
  cases driven : framingMachine.drive state buffer with
  | failed outputs => rfl
  | waiting consumed next outputs =>
      rw [driven] at malformed
      cases malformed
  | stopped consumed next outputs =>
      rw [driven] at malformed
      cases malformed

theorem advance_complete_append {state next : BodyFraming} {buffer : List UInt8} {consumed : Nat}
    (complete : state.advance buffer = .ok (next, consumed, true)) (more : List UInt8) :
    state.advance (buffer ++ more) = .ok (next, consumed, true) := by
  rw [advance_eq_drive] at complete ⊢
  rw [framingMachine.drive_append]
  cases driven : framingMachine.drive state buffer with
  | failed outputs =>
      rw [driven] at complete
      cases complete
  | waiting consumed next outputs =>
      rw [driven] at complete
      cases complete
  | stopped consumed next outputs =>
      rw [driven] at complete
      exact complete

theorem advance_incomplete_append {state next : BodyFraming} {buffer : List UInt8}
    {consumed : Nat} (incomplete : state.advance buffer = .ok (next, consumed, false))
    (more : List UInt8) :
    state.advance (buffer ++ more) =
      (next.advance (buffer.drop consumed ++ more)).map
        fun result => (result.1, consumed + result.2.1, result.2.2) := by
  rw [advance_eq_drive] at incomplete ⊢
  rw [advance_eq_drive, framingMachine.drive_append]
  cases driven : framingMachine.drive state buffer with
  | failed outputs =>
      rw [driven] at incomplete
      cases incomplete
  | stopped consumed next outputs =>
      rw [driven] at incomplete
      cases incomplete
  | waiting consumed next outputs =>
      rw [driven] at incomplete
      cases incomplete
      unfold Machine.resume
      dsimp only
      cases framingMachine.drive next (buffer.drop consumed ++ more) <;> rfl

end NetPolicy.Http
