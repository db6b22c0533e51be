/-
The parser after a failure.

A call of `dispatch` fails in a header block or in a body.  In a body, and in a header
block that no completed message of the same call stands before, the failure clears the
parser.  A header block that is malformed behind a completed message is passed over in
silence: the call returns the message and the malformed bytes stay in the buffer, where
the next call meets them again.
-/

import NetPolicy.Http.Http1Parser

namespace NetPolicy.Http

open Incremental

section Turns

variable {httparse : Httparse} {phase last : Phase} {buffer remaining : List UInt8}
  {outputs : List ParsedHeader}

theorem dispatchLoop_turns
    (turns : (parserMachine httparse).Turns phase buffer outputs last remaining)
    (completed : List ParsedHeader) {fuel : Nat}
    (enough : 2 * buffer.length + phaseRank phase < fuel) :
    ∃ left, Http1Parser.dispatchLoop httparse fuel ⟨buffer, phase⟩ completed.getLast? completed =
      Http1Parser.dispatchLoop httparse (left + 1) ⟨remaining, last⟩
        (completed ++ outputs).getLast? (completed ++ outputs) := by
  induction turns generalizing completed fuel with
  | rest phase buffer =>
      cases fuel with
      | zero => omega
      | succ fuel => exact ⟨fuel, by rw [List.append_nil]⟩
  | @turn phase next last buffer remaining consumed here later decision onward ih =>
      cases fuel with
      | zero => omega
      | succ fuel =>
          have lighter : 2 * (buffer.drop consumed).length + phaseRank next < fuel := by
            have drops := phaseStep_weight httparse decision
            omega
          obtain ⟨left, loop⟩ := ih (completed ++ here) lighter
          have latestEq : here.getLast?.or completed.getLast? = (completed ++ here).getLast? :=
            List.getLast?_append.symm
          refine ⟨left, ?_⟩
          rw [dispatchLoop_proceed fuel decision, latestEq, ← List.append_assoc]
          exact loop

theorem dispatch_turns {parser : Http1Parser} {data : List UInt8}
    (turns : (parserMachine httparse).Turns parser.phase (parser.buf ++ data) outputs last
      remaining) :
    ∃ left, parser.dispatch httparse data =
      Http1Parser.dispatchLoop httparse (left + 1) ⟨remaining, last⟩ outputs.getLast? outputs := by
  have rank : phaseRank parser.phase ≤ 1 := by
    cases parser.phase with
    | headers => exact Nat.zero_le 1
    | body framing => exact Nat.le_refl 1
  exact dispatchLoop_turns turns [] (by dsimp only; omega)

/-! ### The two exits of a failure -/

theorem dispatch_cleared {parser : Http1Parser} {data : List UInt8}
    (turns : (parserMachine httparse).Turns parser.phase (parser.buf ++ data) outputs last
      remaining)
    (fails : phaseStep httparse last remaining = .fail) (shown : last = .headers → outputs = []) :
    parser.dispatch httparse data = ⟨Http1Parser.new, .blank .error, outputs, true⟩ := by
  obtain ⟨left, loop⟩ := dispatch_turns turns
  rw [loop]
  cases decides_of_step fails with
  | malformedBlock read =>
      rw [shown rfl]
      simp only [Http1Parser.dispatchLoop, read, List.getLast?_nil]
  | malformedBody advanced => simp only [Http1Parser.dispatchLoop, advanced]

/-- A failure behind a completed message: the message is returned and the malformed
bytes are kept. -/
theorem dispatch_keeping {parser : Http1Parser} {data : List UInt8}
    (turns : (parserMachine httparse).Turns parser.phase (parser.buf ++ data) outputs .headers
      remaining)
    (malformed : tryParseHeaders httparse remaining = .error ()) (some : outputs ≠ []) :
    parser.dispatch httparse data =
      ⟨{ buf := remaining, phase := .headers }, latest outputs, outputs, true⟩ := by
  obtain ⟨left, loop⟩ := dispatch_turns turns
  rw [loop]
  obtain ⟨header, found⟩ := Option.ne_none_iff_exists'.mp
    (fun none => some (List.getLast?_eq_none_iff.mp none))
  simp only [Http1Parser.dispatchLoop, malformed, found, latest, Option.getD_some]

/-- Bytes that are malformed as the beginning of a header block spoil every call that is
made on top of them. -/
theorem dispatch_spoiled {kept : List UInt8}
    (malformed : tryParseHeaders httparse kept = .error ()) (next : List UInt8) :
    Http1Parser.dispatch httparse { buf := kept, phase := .headers } next =
      ⟨Http1Parser.new, .blank .error, [], true⟩ := by
  have decided : tryParseHeaders httparse kept ≠ .ok none := by
    rw [malformed]
    exact nofun
  have still : phaseStep httparse .headers (kept ++ next) = .fail := by
    simp only [phaseStep, tryParseHeaders_append httparse decided next, malformed]
  have turns : (parserMachine httparse).Turns
      (⟨kept, .headers⟩ : Http1Parser).phase ((⟨kept, .headers⟩ : Http1Parser).buf ++ next) []
      .headers (kept ++ next) := .rest _ _
  exact dispatch_cleared turns still fun _ => rfl

end Turns

/-! ### Failures and the next call -/

/-- The bytes the parser holds together with those of the call lead through at least one
completed header block to bytes that are malformed as a header block. -/
def HidesGarbage (httparse : Httparse) (parser : Http1Parser) (data : List UInt8) : Prop :=
  ∃ headers remaining,
    (parserMachine httparse).Turns parser.phase (parser.buf ++ data) headers .headers remaining ∧
      headers ≠ [] ∧ tryParseHeaders httparse remaining = .error ()

/-- The bytes are one header block and its whole body. -/
def CompleteRequest (httparse : Httparse) (request : List UInt8) (header : ParsedHeader) : Prop :=
  (parserMachine httparse).Turns .headers request [header] .headers []

section Requests

variable {httparse : Httparse} {request : List UInt8} {header : ParsedHeader}

theorem header_of_turns {phase last : Phase} {buffer remaining : List UInt8}
    {outputs : List ParsedHeader}
    (turns : (parserMachine httparse).Turns phase buffer outputs last remaining)
    (some : outputs ≠ []) :
    ∃ block parsed, tryParseHeaders httparse block = .ok (.some parsed) := by
  induction turns with
  | rest phase buffer => exact absurd rfl some
  | @turn phase next last buffer remaining consumed here later decision onward ih =>
      cases decides_of_step decision with
      | @block _ parsed read => exact ⟨buffer, parsed, read⟩
      | body advanced => exact ih some

theorem tryParseHeaders_nil {block : List UInt8} {parsed : HeaderParseResult}
    (read : tryParseHeaders httparse block = .ok (some parsed)) :
    tryParseHeaders httparse [] = .ok none := by
  by_contra decided
  have same := tryParseHeaders_append httparse decided block
  rw [List.nil_append, read] at same
  have bounds := tryParseHeaders_bound httparse same.symm
  rw [List.length_nil] at bounds
  omega

theorem dispatch_completeRequest (complete : CompleteRequest httparse request header) :
    Http1Parser.new.dispatch httparse request = ⟨Http1Parser.new, header, [header], false⟩ := by
  have turns : (parserMachine httparse).Turns Http1Parser.new.phase
      (Http1Parser.new.buf ++ request) [header] .headers [] := complete
  obtain ⟨left, loop⟩ := dispatch_turns turns
  obtain ⟨block, parsed, read⟩ := header_of_turns complete (List.cons_ne_nil header [])
  rw [loop]
  simp only [Http1Parser.dispatchLoop, tryParseHeaders_nil read]
  rfl

theorem completeRequest_done (complete : CompleteRequest httparse request header) :
    header.parseState = .done := by
  have call := dispatch_completeRequest complete
  have clean : (Http1Parser.new.dispatch httparse request).failed = false := by rw [call]
  have done := (dispatch_header httparse clean).2
  rw [call] at done
  exact done header (List.mem_singleton.mpr rfl)

theorem dispatch_nothing {block : List UInt8} {parsed : HeaderParseResult}
    (read : tryParseHeaders httparse block = .ok (some parsed)) :
    Http1Parser.new.dispatch httparse [] = ⟨Http1Parser.new, .blank .continue_, [], false⟩ := by
  have waits : phaseStep httparse .headers [] = .wait 0 .headers := by
    simp only [phaseStep, tryParseHeaders_nil read]
  have driven : (parserMachine httparse).drive Http1Parser.new.phase
      (Http1Parser.new.buf ++ []) = .waiting 0 .headers [] :=
    (parserMachine httparse).drive_wait waits
  exact dispatch_of_waiting httparse driven

end Requests

theorem turns_of_dispatch_failed {httparse : Httparse} {parser : Http1Parser}
    {data : List UInt8} (failed : (parser.dispatch httparse data).failed = true) :
    ∃ outputs last remaining,
      (parserMachine httparse).Turns parser.phase (parser.buf ++ data) outputs last remaining ∧
        phaseStep httparse last remaining = .fail := by
  cases driven : (parserMachine httparse).drive parser.phase (parser.buf ++ data) with
  | failed outputs =>
      obtain ⟨last, remaining, turns, fails⟩ := (parserMachine httparse).turns_of_failed driven
      exact ⟨outputs, last, remaining, turns, fails⟩
  | waiting consumed phase outputs =>
      rw [dispatch_of_waiting httparse driven] at failed
      cases failed
  | stopped consumed phase outputs =>
      exact absurd driven ((dispatch_endsAs httparse parser data).stopped consumed phase outputs)

theorem HidesGarbage.keeps {httparse : Httparse} {parser : Http1Parser} {data : List UInt8}
    (hides : HidesGarbage httparse parser data) :
    (parser.dispatch httparse data).parser.buf ≠ [] := by
  obtain ⟨headers, remaining, turns, some, malformed⟩ := hides
  obtain ⟨block, parsed, read⟩ := header_of_turns turns some
  rw [dispatch_keeping turns malformed some]
  rintro rfl
  rw [tryParseHeaders_nil read] at malformed
  cases malformed

theorem HidesGarbage.spoils {httparse : Httparse} {parser : Http1Parser} {data : List UInt8}
    (hides : HidesGarbage httparse parser data) (next : List UInt8) :
    (parser.dispatch httparse data).parser.dispatch httparse next =
      ⟨Http1Parser.new, .blank .error, [], true⟩ := by
  obtain ⟨headers, remaining, turns, some, malformed⟩ := hides
  rw [dispatch_keeping turns malformed some]
  exact dispatch_spoiled malformed next

theorem not_hides_of_fail {httparse : Httparse} {parser : Http1Parser} {data : List UInt8}
    (fails : phaseStep httparse parser.phase (parser.buf ++ data) = .fail) :
    ¬HidesGarbage httparse parser data := by
  rintro ⟨headers, remaining, turns, some, malformed⟩
  have malformedStep : phaseStep httparse .headers remaining = .fail := by
    simp only [phaseStep, malformed]
  exact some (Machine.Turns.unique_of_fail (parserMachine httparse) (.rest _ _) fails turns
    malformedStep).1

theorem new_of_not_hides {httparse : Httparse} {parser : Http1Parser} {data : List UInt8}
    (failed : (parser.dispatch httparse data).failed = true)
    (exposed : ¬HidesGarbage httparse parser data) :
    (parser.dispatch httparse data).parser = Http1Parser.new := by
  obtain ⟨outputs, last, remaining, turns, fails⟩ := turns_of_dispatch_failed failed
  have shown : last = .headers → outputs = [] := by
    rintro rfl
    by_contra some
    cases decides_of_step fails with
    | malformedBlock read => exact exposed ⟨outputs, remaining, turns, some, read⟩
  rw [dispatch_cleared turns fails shown]

/-- For every parser state and every call that meets a failure: the parser behaves as a
new one exactly when no completed message hides malformed bytes; exactly then no bytes
are kept, and exactly then the next complete request is returned. -/
theorem resynchronised_iff (httparse : Httparse) (parser : Http1Parser) (data : List UInt8)
    (failed : (parser.dispatch httparse data).failed = true) :
    let after := (parser.dispatch httparse data).parser
    ((∀ next, after.dispatch httparse next = Http1Parser.new.dispatch httparse next) ↔
        ¬HidesGarbage httparse parser data) ∧
      (after.buf = [] ↔ ¬HidesGarbage httparse parser data) ∧
      ∀ request header, CompleteRequest httparse request header →
        ((after.dispatch httparse request).header = header ∧ header.parseState = .done ↔
          ¬HidesGarbage httparse parser data) := by
  intro after
  refine ⟨⟨?_, ?_⟩, ⟨?_, ?_⟩, fun request header complete => ⟨?_, ?_⟩⟩
  · -- a new parser wants more after a call without bytes, a spoiled one answers Error
    intro same hides
    obtain ⟨headers, remaining, turns, some, -⟩ := id hides
    obtain ⟨block, parsed, read⟩ := header_of_turns turns some
    have nothing := same []
    rw [hides.spoils [], dispatch_nothing read] at nothing
    cases nothing
  · intro exposed next
    have renewed : after = Http1Parser.new := new_of_not_hides failed exposed
    rw [renewed]
  · intro empty hides
    exact hides.keeps empty
  · intro exposed
    exact congrArg Http1Parser.buf (new_of_not_hides failed exposed)
  · rintro ⟨same, done⟩ hides
    rw [hides.spoils request] at same
    rw [← same] at done
    cases done
  · intro exposed
    have renewed : after = Http1Parser.new := new_of_not_hides failed exposed
    rw [renewed, dispatch_completeRequest complete]
    exact ⟨rfl, completeRequest_done complete⟩

def putRequest : List UInt8 := asciiBytes "PUT /a HTTP/1.1\r\nContent-Length: 3\r\n\r\nabc"

def putHeader : ParsedHeader :=
  { method := "PUT"
    path := "/a"
    host := ""
    fields := [("Content-Length", "3")]
    parseState := .done }

theorem completeRequest_put : CompleteRequest putTokenizer putRequest putHeader := by
  have block : (parserMachine putTokenizer).step .headers putRequest =
      .proceed 38 (.body (BodyFraming.start (some 3) false)) [putHeader] := by
    have read : tryParseHeaders putTokenizer putRequest = .ok (some
        { method := "PUT"
          path := "/a"
          host := ""
          fields := [("Content-Length", "3")]
          contentLength := some 3
          chunked := false
          consumed := 38 }) := by decide +kernel
    simp only [parserMachine, phaseStep, read]
    rfl
  have body : (parserMachine putTokenizer).step (.body (BodyFraming.start (some 3) false))
      (putRequest.drop 38) = .proceed 3 .headers [] := by
    have read : (BodyFraming.start (some 3) false).advance (putRequest.drop 38) =
        .ok (.contentLength 0, 3, true) := by decide +kernel
    simp only [parserMachine, phaseStep, read]
  have finished : (putRequest.drop 38).drop 3 = [] := by decide +kernel
  have last : (parserMachine putTokenizer).Turns .headers ((putRequest.drop 38).drop 3) []
      .headers [] := by
    rw [finished]
    exact .rest Phase.headers []
  exact .turn block (.turn body last)

/-- A stray byte in front costs nothing but itself. -/
theorem strayByte_resynchronised :
    let after := (Http1Parser.new.dispatch putTokenizer [0]).parser
    (after.dispatch putTokenizer putRequest).header = putHeader := by
  have malformed : tryParseHeaders putTokenizer [0] = .error () := by decide +kernel
  have fails : phaseStep putTokenizer Http1Parser.new.phase (Http1Parser.new.buf ++ [0]) =
      .fail := by
    change phaseStep putTokenizer .headers [0] = .fail
    simp only [phaseStep, malformed]
  have exposed := not_hides_of_fail fails
  exact (((resynchronised_iff putTokenizer Http1Parser.new [0] (by decide +kernel)).2.2 putRequest
    putHeader completeRequest_put).mpr exposed).1

/-- Behind a request the same byte is kept, and the next request is answered Error. -/
theorem strayByte_spoils_next :
    let call := Http1Parser.new.dispatch putTokenizer (putRequest ++ [0])
    call.failed = true ∧ call.header = putHeader ∧ call.parser.buf = [0] ∧
      (call.parser.dispatch putTokenizer putRequest).header.parseState = .error ∧
      (Http1Parser.new.dispatch putTokenizer putRequest).header = putHeader := by
  decide +kernel

end NetPolicy.Http
