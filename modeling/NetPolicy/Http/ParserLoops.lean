/-
The parser's loops end and stay inside the buffer.

The chunked loop and the loop of `dispatch` are written here turn by turn, with
the slices, differences and drains the code makes, each of which could panic.
They never do, neither loop runs forever, and both leave what the bounded loops
of the model leave.  Of the tokenizer only this is used: a complete block is not
empty and lies within the buffer.
-/

import NetPolicy.Library.Loops
import NetPolicy.Http.Http1Parser

namespace NetPolicy.Http

open CheckedReads Loops Incremental

/-! ### The chunked loop -/

inductive ChunkedExit where
  | returned (result : BodyFraming.Advance)
  | unreachable

namespace BodyFraming

def chunkedTurn (buf : List UInt8) :
    BodyFraming × Nat → Checked (Turn (BodyFraming × Nat) ChunkedExit)
  | (.chunkedSize, pos) => do
      let rest ← sliceFrom buf pos
      match findCrlf rest with
      | Option.none => pure (.exit (.returned (.ok (.chunkedSize, pos, false))))
      | some lineLen => do
          let line ← slice buf pos (pos + lineLen)
          match chunkSize line with
          | Option.none => pure (.exit (.returned (.error ())))
          | some size =>
              pure (.again
                (if size = 0 then .chunkedTrailer else .chunkedData size, pos + (lineLen + 2)))
  | (.chunkedData remaining, pos) => do
      let available ← sub buf.length pos
      let take := min remaining available
      let pos := pos + take
      let remaining ← sub remaining take
      if remaining > 0 then pure (.exit (.returned (.ok (.chunkedData remaining, pos, false))))
      else do
        let tail ← sliceFrom buf pos
        if tail.length < 2 then
          pure (.exit (.returned (.ok (.chunkedData remaining, pos, false))))
        else do
          let ending ← slice tail 0 2
          if ending ≠ [13, 10] then pure (.exit (.returned (.error ())))
          else pure (.again (.chunkedSize, pos + 2))
  | (.chunkedTrailer, pos) => do
      let rest ← sliceFrom buf pos
      match findCrlf rest with
      | Option.none => pure (.exit (.returned (.ok (.chunkedTrailer, pos, false))))
      | some 0 => pure (.exit (.returned (.ok (.chunkedTrailer, pos + 2, true))))
      | some lineLen => pure (.again (.chunkedTrailer, pos + (lineLen + 2)))
  | (.none, _) => pure (.exit .unreachable)
  | (.contentLength _, _) => pure (.exit .unreachable)

def takeContentLength (buf : List UInt8) (remaining : Nat) : Checked ChunkedExit := do
  let take := min remaining buf.length
  let remaining ← sub remaining take
  pure (.returned (.ok (.contentLength remaining, take, remaining == 0)))

/-- `advance` with every operation checked: only the chunked states enter the loop. -/
inductive Advances (buf : List UInt8) : BodyFraming → Checked ChunkedExit → Prop where
  | none : Advances buf .none (.ok (.returned (.ok (.none, 0, true))))
  | contentLength (remaining : Nat) :
      Advances buf (.contentLength remaining) (takeContentLength buf remaining)
  | chunked {self : BodyFraming} {outcome : Checked ChunkedExit} (chunked : self.Chunked)
      (ended : Ends (checkedBody (chunkedTurn buf)) (self, 0) outcome) :
      Advances buf self outcome

end BodyFraming

def turnOf (pos : Nat) : Step BodyFraming Unit → Turn (BodyFraming × Nat) ChunkedExit
  | .fail => .exit (.returned (.error ()))
  | .wait consumed next => .exit (.returned (.ok (next, pos + consumed, false)))
  | .stop consumed next => .exit (.returned (.ok (next, pos + consumed, true)))
  | .proceed consumed next _ => .again (next, pos + consumed)

theorem chunkedTurn_data (buf : List UInt8) (remaining : Nat) {pos : Nat}
    (inside : pos ≤ buf.length) :
    BodyFraming.chunkedTurn buf (.chunkedData remaining, pos) =
      .ok (turnOf pos (framingStep (.chunkedData remaining) (buf.drop pos))) := by
  have takeInside : pos + min remaining (buf.length - pos) ≤ buf.length := by omega
  simp only [BodyFraming.chunkedTurn, framingStep, sub_eq_ok inside,
    sub_eq_ok (Nat.min_le_left remaining (buf.length - pos)), sliceFrom_eq_ok takeInside,
    ok_bind, List.length_drop]
  by_cases short : buf.length - pos < remaining
  · have take : min remaining (buf.length - pos) = buf.length - pos := by omega
    have left : remaining - (buf.length - pos) > 0 := by omega
    rw [take, if_pos left, if_pos short]
    rfl
  · have take : min remaining (buf.length - pos) = remaining := by omega
    have left : ¬remaining - remaining > 0 := by omega
    rw [take, if_neg left, if_neg short, Nat.sub_self, List.drop_drop]
    by_cases unended : buf.length - pos < remaining + 2
    · have tail : buf.length - (pos + remaining) < 2 := by omega
      rw [if_pos tail, if_pos unended]
      rfl
    · have tail : ¬buf.length - (pos + remaining) < 2 := by omega
      have tailLength : 2 ≤ (buf.drop (pos + remaining)).length := by
        rw [List.length_drop]
        omega
      rw [if_neg tail, if_neg unended, slice_eq_ok (Nat.zero_le 2) tailLength, List.drop_zero,
        ok_bind]
      split
      · rfl
      · rw [turnOf, Nat.add_assoc]
        rfl

/-- From a position inside the buffer no operation of a turn panics. -/
theorem chunkedTurn_eq (buf : List UInt8) {self : BodyFraming} (chunked : self.Chunked)
    {pos : Nat} (inside : pos ≤ buf.length) :
    BodyFraming.chunkedTurn buf (self, pos) =
      .ok (turnOf pos (framingStep self (buf.drop pos))) := by
  have restLength : (buf.drop pos).length = buf.length - pos := List.length_drop
  cases self with
  | none => cases chunked
  | contentLength remaining => cases chunked
  | chunkedSize =>
      simp only [BodyFraming.chunkedTurn, framingStep, sliceFrom_eq_ok inside, ok_bind]
      cases found : findCrlf (buf.drop pos) with
      | none => rfl
      | some lineLen =>
          have bound := findCrlf_bound found
          have lineInside : pos + lineLen ≤ buf.length := by omega
          dsimp only
          rw [slice_eq_ok (Nat.le_add_right pos lineLen) lineInside, Nat.add_sub_cancel_left,
            ok_bind]
          cases chunkSize ((buf.drop pos).take lineLen) <;> rfl
  | chunkedData remaining => exact chunkedTurn_data buf remaining inside
  | chunkedTrailer =>
      simp only [BodyFraming.chunkedTurn, framingStep, sliceFrom_eq_ok inside, ok_bind]
      cases findCrlf (buf.drop pos) with
      | none => rfl
      | some lineLen => cases lineLen <;> rfl

section Chunked

variable {buf : List UInt8} {self : BodyFraming} {pos : Nat}

theorem advanceChunked_of_exit {result : ChunkedExit} (chunked : self.Chunked)
    (inside : pos ≤ buf.length)
    (turned : BodyFraming.chunkedTurn buf (self, pos) = .ok (.exit result)) (fuel : Nat) :
    result = .returned (BodyFraming.advanceChunked buf (fuel + 1) self pos) := by
  rw [chunkedTurn_eq buf chunked inside, Except.ok.injEq] at turned
  rw [advanceChunked_succ buf fuel chunked]
  cases decision : framingStep self (buf.drop pos) with
  | proceed consumed next outputs =>
      rw [decision] at turned
      cases turned
  | fail =>
      rw [decision] at turned
      exact (Turn.exit.inj turned).symm
  | wait consumed next =>
      rw [decision] at turned
      exact (Turn.exit.inj turned).symm
  | stop consumed next =>
      rw [decision] at turned
      exact (Turn.exit.inj turned).symm

theorem advanceChunked_of_again {next : BodyFraming} {further : Nat} (chunked : self.Chunked)
    (inside : pos ≤ buf.length)
    (turned : BodyFraming.chunkedTurn buf (self, pos) = .ok (.again (next, further))) :
    next.Chunked ∧ pos < further ∧ further ≤ buf.length ∧
      ∀ fuel, BodyFraming.advanceChunked buf (fuel + 1) self pos =
        BodyFraming.advanceChunked buf fuel next further := by
  rw [chunkedTurn_eq buf chunked inside, Except.ok.injEq] at turned
  cases decision : framingStep self (buf.drop pos) with
  | fail =>
      rw [decision] at turned
      cases turned
  | wait consumed next =>
      rw [decision] at turned
      cases turned
  | stop consumed next =>
      rw [decision] at turned
      cases turned
  | proceed consumed next outputs =>
      rw [decision] at turned
      cases turned
      obtain ⟨progress, stays⟩ := framingStep_proceed decision
      have bound := framingStep_bound self (buf.drop pos)
      rw [decision, List.length_drop] at bound
      change consumed ≤ buf.length - pos at bound
      refine ⟨stays, by omega, by omega, ?_⟩
      intro fuel
      rw [advanceChunked_succ buf fuel chunked, decision]

/-- The chunked loop is left, without a panic and never through `unreachable!`. -/
theorem advanceChunked_ends (buf : List UInt8) (chunked : self.Chunked) :
    Ends (checkedBody (BodyFraming.chunkedTurn buf)) (self, 0)
      (.ok (.returned (BodyFraming.advanceChunked buf (buf.length + 1) self 0))) := by
  let left : BodyFraming × Nat → Nat := fun state => buf.length - state.2
  obtain ⟨result, ended, same⟩ : ∃ result,
      Ends (checkedBody (BodyFraming.chunkedTurn buf)) (self, 0) (.ok result) ∧
        ∀ fuel, left (self, 0) < fuel →
          result = .returned (BodyFraming.advanceChunked buf fuel self 0) := by
    refine exists_ends (measure left).wf
      (fun state => state.1.Chunked ∧ state.2 ≤ buf.length)
      (fun state result => ∀ fuel, left state < fuel →
        result = ChunkedExit.returned (BodyFraming.advanceChunked buf fuel state.1 state.2))
      ?_ ?_ ?_ ⟨chunked, Nat.zero_le buf.length⟩
    · intro state valid panic panicked
      rw [chunkedTurn_eq buf valid.1 valid.2] at panicked
      cases panicked
    · intro state result valid turned fuel enough
      cases fuel with
      | zero => omega
      | succ fuel => exact advanceChunked_of_exit valid.1 valid.2 turned fuel
    · intro state next valid turned
      obtain ⟨stays, forward, inside, same⟩ := advanceChunked_of_again valid.1 valid.2 turned
      have lower : left next < left state := by
        change buf.length - next.2 < buf.length - state.2
        omega
      refine ⟨⟨stays, inside⟩, lower, ?_⟩
      intro result later fuel enough
      cases fuel with
      | zero => omega
      | succ fuel =>
          rw [same fuel]
          exact later fuel (by omega)
  rw [same (buf.length + 1) (Nat.lt_succ_of_le (Nat.sub_le _ _))] at ended
  exact ended

end Chunked

theorem takeContentLength_eq (buf : List UInt8) (remaining : Nat) :
    BodyFraming.takeContentLength buf remaining =
      .ok (.returned ((BodyFraming.contentLength remaining).advance buf)) := by
  unfold BodyFraming.takeContentLength
  dsimp only
  rw [sub_eq_ok (Nat.min_le_left remaining buf.length)]
  rfl

theorem advance_of_chunked (buf : List UInt8) {self : BodyFraming} (chunked : self.Chunked) :
    self.advance buf = BodyFraming.advanceChunked buf (buf.length + 1) self 0 := by
  cases self with
  | none => cases chunked
  | contentLength remaining => cases chunked
  | chunkedSize => rfl
  | chunkedData remaining => rfl
  | chunkedTrailer => rfl

theorem advances_iff (buf : List UInt8) (self : BodyFraming) (outcome : Checked ChunkedExit) :
    BodyFraming.Advances buf self outcome ↔ outcome = .ok (.returned (self.advance buf)) := by
  constructor
  · intro advanced
    cases advanced with
    | none => rfl
    | contentLength remaining => exact takeContentLength_eq buf remaining
    | chunked chunked ended =>
        rw [advance_of_chunked buf chunked]
        exact ended.unique (advanceChunked_ends buf chunked)
  · rintro rfl
    cases self with
    | none => exact .none
    | contentLength remaining =>
        rw [← takeContentLength_eq]
        exact .contentLength remaining
    | chunkedSize => exact .chunked trivial (advanceChunked_ends buf trivial)
    | chunkedData remaining => exact .chunked trivial (advanceChunked_ends buf trivial)
    | chunkedTrailer => exact .chunked trivial (advanceChunked_ends buf trivial)

/-! ### The loop of `dispatch` -/

structure BoundedTokenizer where
  parse : Tokenizer
  complete_bound : ∀ {room buffer consumed request},
    parse room buffer = .complete consumed request → 0 < consumed ∧ consumed ≤ buffer.length

def Httparse.bounded (httparse : Httparse) : BoundedTokenizer where
  parse := httparse.parse
  complete_bound := httparse.complete_bound

namespace Http1Parser

def dispatchTurn (parse : Tokenizer) :
    Http1Parser × Option ParsedHeader →
      Checked (Turn (Http1Parser × Option ParsedHeader) (Http1Parser × ParsedHeader))
  | (parser, result) =>
      match parser.phase with
      | .headers =>
          match tryParseHeaders parse parser.buf with
          | .error () =>
              match result with
              | some header => pure (.exit (parser, header))
              | none => pure (.exit (Http1Parser.new, .blank .error))
          | .ok none => pure (.exit (parser, result.getD (.blank .continue_)))
          | .ok (some parsed) => do
              let framing := BodyFraming.start parsed.contentLength parsed.chunked
              let buf ← sliceFrom parser.buf parsed.consumed
              pure (.again ({ buf := buf, phase := .body framing }, some parsed.toHeader))
      | .body framing =>
          match framing.advance parser.buf with
          | .error () => pure (.exit (Http1Parser.new, .blank .error))
          | .ok (framing, consumed, complete) => do
              let buf ← sliceFrom parser.buf consumed
              if complete then pure (.again ({ buf := buf, phase := .headers }, result))
              else
                pure (.exit ({ buf := buf, phase := .body framing },
                  result.getD (.blank .continue_)))

/-- The buffer's length, and 1 in the body phase. -/
def measure (parser : Http1Parser) : Nat × Nat :=
  (parser.buf.length, phaseRank parser.phase)

def Below (next parser : Http1Parser) : Prop :=
  Prod.Lex (· < ·) (· < ·) next.measure parser.measure

theorem below_wellFounded : WellFounded Below :=
  InvImage.wf measure (Prod.lex Nat.lt_wfRel Nat.lt_wfRel).wf

def turnsLeft (parser : Http1Parser) : Nat :=
  2 * parser.buf.length + phaseRank parser.phase

theorem turnsLeft_le (parser : Http1Parser) : parser.turnsLeft ≤ 2 * parser.buf.length + 1 := by
  unfold turnsLeft
  cases parser.phase with
  | headers => exact Nat.le_succ _
  | body framing => exact Nat.le_refl _

theorem Below.turnsLeft_lt {next parser : Http1Parser} (below : Below next parser) :
    next.turnsLeft < parser.turnsLeft := by
  rcases Prod.lex_def.mp below with shorter | ⟨same, lower⟩
  · change next.buf.length < parser.buf.length at shorter
    have nextBound := turnsLeft_le next
    unfold turnsLeft at nextBound ⊢
    omega
  · change next.buf.length = parser.buf.length at same
    change phaseRank next.phase < phaseRank parser.phase at lower
    unfold turnsLeft
    omega

end Http1Parser

inductive Turned (parse : Tokenizer) (parser : Http1Parser) (result : Option ParsedHeader) :
    Turn (Http1Parser × Option ParsedHeader) (Http1Parser × ParsedHeader) → Prop where
  | exit {left : Http1Parser} {header : ParsedHeader}
      (leaves : ∀ fuel completed, ∃ blocks failed,
        Http1Parser.dispatchLoop parse (fuel + 1) parser result completed =
          ⟨left, header, blocks, failed⟩) :
      Turned parse parser result (.exit (left, header))
  | again {next : Http1Parser} {latest : Option ParsedHeader} (below : next.Below parser)
      (goesOn : ∀ fuel completed, ∃ blocks,
        Http1Parser.dispatchLoop parse (fuel + 1) parser result completed =
          Http1Parser.dispatchLoop parse fuel next latest blocks) :
      Turned parse parser result (.again (next, latest))

variable (tokenizer : BoundedTokenizer)

/-- A block is drained whole, so the headers phase always shortens the buffer. -/
theorem dispatchTurn_headers (buf : List UInt8) (result : Option ParsedHeader) :
    ∃ turn, Http1Parser.dispatchTurn tokenizer.parse (⟨buf, .headers⟩, result) = .ok turn ∧
      Turned tokenizer.parse ⟨buf, .headers⟩ result turn := by
  cases read : tryParseHeaders tokenizer.parse buf with
  | error =>
      cases result with
      | none =>
          refine ⟨.exit (Http1Parser.new, .blank .error), ?_, .exit ?_⟩
          · simp only [Http1Parser.dispatchTurn, read, pure_eq_ok]
          · intro fuel completed
            exact ⟨completed, true, by simp only [Http1Parser.dispatchLoop, read]⟩
      | some header =>
          refine ⟨.exit (⟨buf, .headers⟩, header), ?_, .exit ?_⟩
          · simp only [Http1Parser.dispatchTurn, read, pure_eq_ok]
          · intro fuel completed
            exact ⟨completed, true, by simp only [Http1Parser.dispatchLoop, read]⟩
  | ok parsed =>
      cases parsed with
      | none =>
          refine ⟨.exit (⟨buf, .headers⟩, result.getD (.blank .continue_)), ?_, .exit ?_⟩
          · simp only [Http1Parser.dispatchTurn, read, pure_eq_ok]
          · intro fuel completed
            exact ⟨completed, false, by simp only [Http1Parser.dispatchLoop, read]⟩
      | some parsed =>
          obtain ⟨request, complete⟩ := tryParseHeaders_complete read
          have bound := tokenizer.complete_bound complete
          refine ⟨.again (⟨buf.drop parsed.consumed,
            .body (BodyFraming.start parsed.contentLength parsed.chunked)⟩,
            some parsed.toHeader), ?_, .again ?_ ?_⟩
          · simp only [Http1Parser.dispatchTurn, read, sliceFrom_eq_ok bound.2, ok_bind, pure_eq_ok]
          · refine Prod.Lex.left _ _ ?_
            rw [List.length_drop]
            change buf.length - parsed.consumed < buf.length
            omega
          · intro fuel completed
            exact ⟨completed ++ [parsed.toHeader], by simp only [Http1Parser.dispatchLoop, read]⟩

/-- A finished body may leave the buffer as it is, but it leaves the body phase. -/
theorem dispatchTurn_body (parse : Tokenizer) (buf : List UInt8) (framing : BodyFraming)
    (result : Option ParsedHeader) :
    ∃ turn, Http1Parser.dispatchTurn parse (⟨buf, .body framing⟩, result) = .ok turn ∧
      Turned parse ⟨buf, .body framing⟩ result turn := by
  cases advanced : framing.advance buf with
  | error =>
      refine ⟨.exit (Http1Parser.new, .blank .error), ?_, .exit ?_⟩
      · simp only [Http1Parser.dispatchTurn, advanced, pure_eq_ok]
      · intro fuel completed
        exact ⟨completed, true, by simp only [Http1Parser.dispatchLoop, advanced]⟩
  | ok state =>
      rcases state with ⟨next, consumed, complete⟩
      have bound := advance_bound advanced
      cases complete with
      | false =>
          refine ⟨.exit (⟨buf.drop consumed, .body next⟩, result.getD (.blank .continue_)), ?_,
            .exit ?_⟩
          · simp only [Http1Parser.dispatchTurn, advanced, sliceFrom_eq_ok bound, ok_bind,
              pure_eq_ok, Bool.false_eq_true, if_false]
          · intro fuel completed
            exact ⟨completed, false, by
              simp only [Http1Parser.dispatchLoop, advanced, Bool.false_eq_true, if_false]⟩
      | true =>
          refine ⟨.again (⟨buf.drop consumed, .headers⟩, result), ?_, .again ?_ ?_⟩
          · simp only [Http1Parser.dispatchTurn, advanced, sliceFrom_eq_ok bound, ok_bind,
              pure_eq_ok, if_true]
          · refine Prod.lex_def.mpr ?_
            change (buf.drop consumed).length < buf.length ∨
              (buf.drop consumed).length = buf.length ∧ 0 < 1
            rw [List.length_drop]
            omega
          · intro fuel completed
            exact ⟨completed, by simp only [Http1Parser.dispatchLoop, advanced, if_true]⟩

theorem dispatchTurn_turned (parser : Http1Parser) (result : Option ParsedHeader) :
    ∃ turn, Http1Parser.dispatchTurn tokenizer.parse (parser, result) = .ok turn ∧
      Turned tokenizer.parse parser result turn := by
  rcases parser with ⟨buf, phase⟩
  cases phase with
  | headers => exact dispatchTurn_headers tokenizer buf result
  | body framing => exact dispatchTurn_body tokenizer.parse buf framing result

theorem turned_of_ok {tokenizer : BoundedTokenizer}
    {state : Http1Parser × Option ParsedHeader}
    {turn : Turn (Http1Parser × Option ParsedHeader) (Http1Parser × ParsedHeader)}
    (taken : Http1Parser.dispatchTurn tokenizer.parse state = .ok turn) :
    Turned tokenizer.parse state.1 state.2 turn := by
  obtain ⟨decided, same, turned⟩ := dispatchTurn_turned tokenizer state.1 state.2
  rw [taken] at same
  cases same
  exact turned

theorem dispatchLoop_ends (parser : Http1Parser) (result : Option ParsedHeader) :
    ∃ outcome, Ends (checkedBody (Http1Parser.dispatchTurn tokenizer.parse)) (parser, result)
        (.ok outcome) ∧
      ∀ fuel completed, parser.turnsLeft < fuel → ∃ blocks failed,
        Http1Parser.dispatchLoop tokenizer.parse fuel parser result completed =
          ⟨outcome.1, outcome.2, blocks, failed⟩ := by
  -- the goal holds of whatever fuel suffices, so a turn that goes on hands it back
  refine exists_ends (InvImage.wf Prod.fst Http1Parser.below_wellFounded) (fun _ => True)
    (fun state (outcome : Http1Parser × ParsedHeader) => ∀ fuel completed, state.1.turnsLeft < fuel → ∃ blocks failed,
      Http1Parser.dispatchLoop tokenizer.parse fuel state.1 state.2 completed =
        ⟨outcome.1, outcome.2, blocks, failed⟩) ?_ ?_ ?_ trivial
  · intro state _ panic panicked
    obtain ⟨turn, taken, _⟩ := dispatchTurn_turned tokenizer state.1 state.2
    rw [panicked] at taken
    cases taken
  · intro state outcome _ taken fuel completed enough
    cases fuel with
    | zero => omega
    | succ fuel =>
        cases turned_of_ok taken with
        | exit leaves => exact leaves fuel completed
  · intro state next _ taken
    cases turned_of_ok taken with
    | again below goesOn =>
        refine ⟨trivial, below, ?_⟩
        intro outcome later fuel completed enough
        cases fuel with
        | zero => omega
        | succ fuel =>
            obtain ⟨blocks, same⟩ := goesOn fuel completed
            rw [same]
            exact later fuel blocks
              (Nat.lt_of_lt_of_le below.turnsLeft_lt (Nat.le_of_lt_succ enough))

/-! ### Both loops -/

/-- From any parser, reachable or not, a call ends, nothing panics and `unreachable!`
is not reached; every turn of `dispatch` that goes on moves down. -/
theorem parserLoops_end_in_bounds (parser : Http1Parser) (data : List UInt8) :
    (∀ outcome, Ends (checkedBody (Http1Parser.dispatchTurn tokenizer.parse))
        ({ parser with buf := parser.buf ++ data }, none) outcome ↔
      outcome = .ok ((parser.dispatch tokenizer.parse data).parser,
        (parser.dispatch tokenizer.parse data).header)) ∧
    (∀ (framing : BodyFraming) (buf : List UInt8) (outcome : Checked ChunkedExit),
      BodyFraming.Advances buf framing outcome ↔
        outcome = .ok (.returned (framing.advance buf))) ∧
    (∀ (framing next : BodyFraming) (buf : List UInt8) (consumed : Nat) (complete : Bool),
      framing.advance buf = .ok (next, consumed, complete) → consumed ≤ buf.length) ∧
    ∀ (turning next : Http1Parser) (result latest : Option ParsedHeader),
      Http1Parser.dispatchTurn tokenizer.parse (turning, result) = .ok (.again (next, latest)) →
        Prod.Lex (· < ·) (· < ·) (next.buf.length, phaseRank next.phase)
          (turning.buf.length, phaseRank turning.phase) := by
  refine ⟨?_, ?_, ?_, ?_⟩
  · obtain ⟨left, ended, same⟩ :=
      dispatchLoop_ends tokenizer { parser with buf := parser.buf ++ data } none
    have enough : Http1Parser.turnsLeft { parser with buf := parser.buf ++ data } <
        2 * (parser.buf ++ data).length + 2 :=
      Nat.lt_succ_of_le (Http1Parser.turnsLeft_le _)
    obtain ⟨blocks, failed, dispatched⟩ := same _ [] enough
    have returned : parser.dispatch tokenizer.parse data = ⟨left.1, left.2, blocks, failed⟩ :=
      dispatched
    rw [returned]
    intro outcome
    constructor
    · intro other
      exact other.unique ended
    · rintro rfl
      exact ended
  · intro framing buf outcome
    exact advances_iff buf framing outcome
  · intro framing next buf consumed complete advanced
    exact advance_bound advanced
  · intro turning next result latest taken
    cases turned_of_ok taken with
    | again below goesOn => exact below

end NetPolicy.Http
