/-
The HTTP/1 parser across dispatch calls.

A call appends its bytes to the buffer and alternates between header blocks and
bodies until one of them wants more.  Only the last header block completed by a
call is returned.  The alternation is an incremental machine, so a stream can be
cut anywhere: as long as parsing it whole meets no failure, parsing it in
segments meets none, ends in the same parser and completes the same messages.
-/

import NetPolicy.Http.BodyFraming
import NetPolicy.Http.HeaderParser

namespace NetPolicy.Http

open Incremental

inductive ParseState where
  | continue_
  | done
  | error
deriving DecidableEq, Repr

structure ParsedHeader where
  method : String
  path : String
  host : String
  fields : List (String × String)
  parseState : ParseState
deriving DecidableEq, Repr

def ParsedHeader.blank (state : ParseState) : ParsedHeader :=
  { method := "", path := "", host := "", fields := [], parseState := state }

def HeaderParseResult.toHeader (parsed : HeaderParseResult) : ParsedHeader :=
  { method := parsed.method
    path := parsed.path
    host := parsed.host
    fields := parsed.fields
    parseState := .done }

inductive Phase where
  | headers
  | body (framing : BodyFraming)
deriving DecidableEq, Repr

structure Http1Parser where
  buf : List UInt8
  phase : Phase
deriving DecidableEq, Repr

def Http1Parser.new : Http1Parser := { buf := [], phase := .headers }

/-- What a dispatch call leaves and returns.  `completed` lists every header block
completed during the call, of which only the last is returned; `failed` records
a parse failure, also one that an earlier completed message hides. -/
structure Dispatched where
  parser : Http1Parser
  header : ParsedHeader
  completed : List ParsedHeader
  failed : Bool
deriving DecidableEq, Repr

namespace Http1Parser

/-- The loop of `dispatch`.  A turn shortens the buffer or leaves a finished body,
so twice the buffer's length bounds the turns. -/
def dispatchLoop (parse : Tokenizer) :
    Nat → Http1Parser → Option ParsedHeader → List ParsedHeader → Dispatched
  | 0, parser, _, completed => ⟨parser, .blank .error, completed, true⟩
  | fuel + 1, parser, result, completed =>
      match parser.phase with
      | .headers =>
          match tryParseHeaders parse parser.buf with
          | .error () =>
              match result with
              | some header => ⟨parser, header, completed, true⟩
              | none => ⟨Http1Parser.new, .blank .error, completed, true⟩
          | .ok none => ⟨parser, result.getD (.blank .continue_), completed, false⟩
          | .ok (some parsed) =>
              let framing := BodyFraming.start parsed.contentLength parsed.chunked
              dispatchLoop parse fuel
                { buf := parser.buf.drop parsed.consumed, phase := .body framing }
                (some parsed.toHeader) (completed ++ [parsed.toHeader])
      | .body framing =>
          match framing.advance parser.buf with
          | .error () => ⟨Http1Parser.new, .blank .error, completed, true⟩
          | .ok (framing, consumed, complete) =>
              let buf := parser.buf.drop consumed
              if complete then
                dispatchLoop parse fuel { buf := buf, phase := .headers } result completed
              else
                ⟨{ buf := buf, phase := .body framing }, result.getD (.blank .continue_),
                  completed, false⟩

def dispatch (parse : Tokenizer) (parser : Http1Parser) (data : List UInt8) : Dispatched :=
  let parser := { parser with buf := parser.buf ++ data }
  dispatchLoop parse (2 * parser.buf.length + 2) parser none []

end Http1Parser

/-! ### The alternation as a machine -/

variable (httparse : Httparse)

def phaseStep : Phase → List UInt8 → Step Phase ParsedHeader
  | .headers, buffer =>
      match tryParseHeaders httparse buffer with
      | .error () => .fail
      | .ok none => .wait 0 .headers
      | .ok (some parsed) =>
          .proceed parsed.consumed
            (.body (BodyFraming.start parsed.contentLength parsed.chunked)) [parsed.toHeader]
  | .body framing, buffer =>
      match framing.advance buffer with
      | .error () => .fail
      | .ok (next, consumed, false) => .wait consumed (.body next)
      | .ok (_, consumed, true) => .proceed consumed .headers []

inductive PhaseDecides : Phase → List UInt8 → Step Phase ParsedHeader → Prop where
  | malformedBlock {buffer : List UInt8} (read : tryParseHeaders httparse buffer = .error ()) :
      PhaseDecides .headers buffer .fail
  | partialBlock {buffer : List UInt8} (read : tryParseHeaders httparse buffer = .ok none) :
      PhaseDecides .headers buffer (.wait 0 .headers)
  | block {buffer : List UInt8} {parsed : HeaderParseResult}
      (read : tryParseHeaders httparse buffer = .ok (some parsed)) :
      PhaseDecides .headers buffer
        (.proceed parsed.consumed
          (.body (BodyFraming.start parsed.contentLength parsed.chunked)) [parsed.toHeader])
  | malformedBody {buffer : List UInt8} {framing : BodyFraming}
      (advanced : framing.advance buffer = .error ()) : PhaseDecides (.body framing) buffer .fail
  | partialBody {buffer : List UInt8} {framing next : BodyFraming} {consumed : Nat}
      (advanced : framing.advance buffer = .ok (next, consumed, false)) :
      PhaseDecides (.body framing) buffer (.wait consumed (.body next))
  | body {buffer : List UInt8} {framing next : BodyFraming} {consumed : Nat}
      (advanced : framing.advance buffer = .ok (next, consumed, true)) :
      PhaseDecides (.body framing) buffer (.proceed consumed .headers [])

theorem phaseStep_decides (phase : Phase) (buffer : List UInt8) :
    PhaseDecides httparse phase buffer (phaseStep httparse phase buffer) := by
  cases phase with
  | headers =>
      rw [phaseStep]
      cases read : tryParseHeaders httparse buffer with
      | error => exact .malformedBlock read
      | ok result =>
          cases result with
          | none => exact .partialBlock read
          | some parsed => exact .block read
  | body framing =>
      rw [phaseStep]
      cases advanced : framing.advance buffer with
      | error => exact .malformedBody advanced
      | ok result =>
          rcases result with ⟨next, consumed, complete⟩
          cases complete with
          | true => exact .body advanced
          | false => exact .partialBody advanced

theorem decides_of_step {httparse : Httparse} {phase : Phase} {buffer : List UInt8}
    {decision : Step Phase ParsedHeader} (taken : phaseStep httparse phase buffer = decision) :
    PhaseDecides httparse phase buffer decision :=
  taken ▸ phaseStep_decides httparse phase buffer

def phaseRank : Phase → Nat
  | .headers => 0
  | .body _ => 1

theorem phaseStep_bound (phase : Phase) (buffer : List UInt8) :
    (phaseStep httparse phase buffer).consumed ≤ buffer.length := by
  have decides := phaseStep_decides httparse phase buffer
  generalize phaseStep httparse phase buffer = decision at decides ⊢
  cases decides with
  | malformedBlock read => exact Nat.zero_le _
  | partialBlock read => exact Nat.zero_le _
  | block read => exact (tryParseHeaders_bound httparse read).2
  | malformedBody advanced => exact Nat.zero_le _
  | partialBody advanced => exact advance_bound advanced
  | body advanced => exact advance_bound advanced

theorem phaseStep_weight {phase next : Phase} {buffer : List UInt8} {consumed : Nat}
    {outputs : List ParsedHeader}
    (decision : phaseStep httparse phase buffer = .proceed consumed next outputs) :
    2 * (buffer.drop consumed).length + phaseRank next < 2 * buffer.length + phaseRank phase := by
  rw [List.length_drop]
  cases decides_of_step decision with
  | block read =>
      have bounds := tryParseHeaders_bound httparse read
      simp only [phaseRank]
      omega
  | body advanced =>
      simp only [phaseRank]
      omega

theorem phaseStep_settled {phase : Phase} {buffer : List UInt8} (more : List UInt8)
    (decided : ¬(phaseStep httparse phase buffer).Waits) :
    phaseStep httparse phase (buffer ++ more) = phaseStep httparse phase buffer := by
  have grownBlock (known : tryParseHeaders httparse buffer ≠ .ok none) :
      phaseStep httparse .headers (buffer ++ more) = phaseStep httparse .headers buffer := by
    simp only [phaseStep, tryParseHeaders_append httparse known more]
  cases found : phaseStep httparse phase buffer with
  | wait consumed next =>
      rw [found] at decided
      exact absurd trivial decided
  | fail =>
      rw [← found]
      cases decides_of_step found with
      | malformedBlock read => exact grownBlock (by rw [read]; exact nofun)
      | malformedBody advanced =>
          simp only [phaseStep, advanced, advance_error_append advanced more]
  | stop consumed next => nomatch decides_of_step found
  | proceed consumed next outputs =>
      rw [← found]
      cases decides_of_step found with
      | block read => exact grownBlock (by rw [read]; exact nofun)
      | body advanced => simp only [phaseStep, advanced, advance_complete_append advanced more]

theorem phaseStep_resumed {phase next : Phase} {buffer : List UInt8} {consumed : Nat}
    (more : List UInt8) (decision : phaseStep httparse phase buffer = .wait consumed next) :
    phaseStep httparse phase (buffer ++ more) =
      (phaseStep httparse next (buffer.drop consumed ++ more)).shift consumed := by
  cases decides_of_step decision with
  | partialBlock read => rw [List.drop_zero, Step.shift_zero]
  | @partialBody _ _ next _ advanced =>
      have resumed := advance_incomplete_append advanced more
      simp only [phaseStep, resumed]
      cases next.advance (buffer.drop consumed ++ more) with
      | error => rfl
      | ok result =>
          rcases result with ⟨later, further, complete⟩
          cases complete <;> rfl

def parserMachine : Machine Phase UInt8 ParsedHeader where
  step := phaseStep httparse
  weight := fun phase buffer => 2 * buffer.length + phaseRank phase
  proceed_weight := phaseStep_weight httparse
  bound := phaseStep_bound httparse
  settled := phaseStep_settled httparse
  resumed := phaseStep_resumed httparse

theorem phaseStep_ne_stop {phase next : Phase} {buffer : List UInt8} {consumed : Nat} :
    phaseStep httparse phase buffer ≠ .stop consumed next := by
  intro decision
  nomatch decides_of_step decision

/-! ### A turn of the loop is a decision of the machine -/

section Turns

variable {httparse} {buffer : List UInt8} {result : Option ParsedHeader}
  {completed outputs : List ParsedHeader} {phase next : Phase} {consumed : Nat}

theorem dispatchLoop_fail (fuel : Nat) (decision : phaseStep httparse phase buffer = .fail) :
    (Http1Parser.dispatchLoop httparse (fuel + 1) ⟨buffer, phase⟩ result completed).failed =
      true := by
  cases decides_of_step decision with
  | malformedBlock read =>
      simp only [Http1Parser.dispatchLoop, read]
      cases result <;> rfl
  | malformedBody advanced => simp only [Http1Parser.dispatchLoop, advanced]

theorem dispatchLoop_wait (fuel : Nat)
    (decision : phaseStep httparse phase buffer = .wait consumed next) :
    Http1Parser.dispatchLoop httparse (fuel + 1) ⟨buffer, phase⟩ result completed =
      ⟨{ buf := buffer.drop consumed, phase := next }, result.getD (.blank .continue_),
        completed, false⟩ := by
  cases decides_of_step decision with
  | partialBlock read => simp only [Http1Parser.dispatchLoop, read, List.drop_zero]
  | partialBody advanced =>
      simp only [Http1Parser.dispatchLoop, advanced]
      rfl

theorem dispatchLoop_proceed (fuel : Nat)
    (decision : phaseStep httparse phase buffer = .proceed consumed next outputs) :
    Http1Parser.dispatchLoop httparse (fuel + 1) ⟨buffer, phase⟩ result completed =
      Http1Parser.dispatchLoop httparse fuel { buf := buffer.drop consumed, phase := next }
        (outputs.getLast?.or result) (completed ++ outputs) := by
  cases decides_of_step decision with
  | block read =>
      simp only [Http1Parser.dispatchLoop, read]
      rfl
  | body advanced =>
      simp only [Http1Parser.dispatchLoop, advanced, if_true, List.append_nil]
      rfl

end Turns

/-! ### `dispatch` is the machine driven over the buffer -/

def latest (completed : List ParsedHeader) : ParsedHeader :=
  completed.getLast?.getD (.blank .continue_)

/-- A loop that was entered with enough fuel ends as the machine does. -/
structure EndsAs (dispatched : Dispatched) (buffer : List UInt8) (completed : List ParsedHeader)
    (outcome : Outcome Phase ParsedHeader) : Prop where
  failed : ∀ outputs, outcome = .failed outputs → dispatched.failed = true
  waiting : ∀ consumed phase outputs, outcome = .waiting consumed phase outputs →
    dispatched = ⟨{ buf := buffer.drop consumed, phase := phase }, latest (completed ++ outputs),
      completed ++ outputs, false⟩
  stopped : ∀ consumed phase outputs, outcome ≠ .stopped consumed phase outputs

theorem EndsAs.after {dispatched : Dispatched} {buffer : List UInt8}
    {completed outputs : List ParsedHeader} {outcome : Outcome Phase ParsedHeader} {offset : Nat}
    (ended : EndsAs dispatched (buffer.drop offset) (completed ++ outputs) outcome) :
    EndsAs dispatched buffer completed (outcome.after offset outputs) := by
  cases outcome with
  | failed later =>
      have failure := ended.failed later rfl
      constructor
      · intro all outcome
        exact failure
      · intro consumed phase all outcome
        cases outcome
      · intro consumed phase all outcome
        cases outcome
  | waiting further phase later =>
      have waited := ended.waiting further phase later rfl
      rw [List.drop_drop, List.append_assoc] at waited
      constructor
      · intro all outcome
        cases outcome
      · intro consumed phase all outcome
        cases outcome
        exact waited
      · intro consumed phase all outcome
        cases outcome
  | stopped further phase later => exact absurd rfl (ended.stopped further phase later)

theorem dispatchLoop_endsAs {fuel : Nat} (parser : Http1Parser) (completed : List ParsedHeader)
    (enough : 2 * parser.buf.length + phaseRank parser.phase < fuel) :
    EndsAs (Http1Parser.dispatchLoop httparse fuel parser completed.getLast? completed)
      parser.buf completed ((parserMachine httparse).drive parser.phase parser.buf) := by
  induction fuel generalizing parser completed with
  | zero => omega
  | succ fuel ih =>
      cases decision : (parserMachine httparse).step parser.phase parser.buf with
      | fail =>
          rw [(parserMachine httparse).drive_fail decision]
          constructor
          · intro outputs outcome
            exact dispatchLoop_fail fuel decision
          · intro consumed phase outputs outcome
            cases outcome
          · intro consumed phase outputs outcome
            cases outcome
      | wait consumed phase =>
          rw [(parserMachine httparse).drive_wait decision]
          constructor
          · intro outputs outcome
            cases outcome
          · intro consumed phase outputs outcome
            cases outcome
            rw [dispatchLoop_wait fuel decision, List.append_nil]
            rfl
          · intro consumed phase outputs outcome
            cases outcome
      | stop consumed phase => exact absurd decision (phaseStep_ne_stop httparse)
      | proceed consumed phase outputs =>
          have lighter := phaseStep_weight httparse decision
          have latestEq : outputs.getLast?.or completed.getLast? =
              (completed ++ outputs).getLast? := List.getLast?_append.symm
          have ended : EndsAs (Http1Parser.dispatchLoop httparse fuel
              { buf := parser.buf.drop consumed, phase := phase } (completed ++ outputs).getLast?
              (completed ++ outputs)) (parser.buf.drop consumed) (completed ++ outputs)
              ((parserMachine httparse).drive phase (parser.buf.drop consumed)) :=
            ih { buf := parser.buf.drop consumed, phase := phase } (completed ++ outputs)
              (by dsimp only; omega)
          rw [(parserMachine httparse).drive_proceed decision, dispatchLoop_proceed fuel decision,
            latestEq]
          exact ended.after

theorem dispatch_endsAs (parser : Http1Parser) (data : List UInt8) :
    EndsAs (parser.dispatch httparse data) (parser.buf ++ data) []
      ((parserMachine httparse).drive parser.phase (parser.buf ++ data)) := by
  have rank : phaseRank parser.phase ≤ 1 := by
    cases parser.phase with
    | headers => exact Nat.zero_le 1
    | body framing => exact Nat.le_refl 1
  exact dispatchLoop_endsAs httparse { parser with buf := parser.buf ++ data } []
    (by dsimp only; omega)

theorem dispatch_eq_of_clean {parser : Http1Parser} {data : List UInt8}
    (clean : (parser.dispatch httparse data).failed = false) :
    ∃ consumed phase outputs,
      (parserMachine httparse).drive parser.phase (parser.buf ++ data) =
        .waiting consumed phase outputs := by
  have ended := dispatch_endsAs httparse parser data
  cases driven : (parserMachine httparse).drive parser.phase (parser.buf ++ data) with
  | failed outputs =>
      rw [ended.failed outputs driven] at clean
      cases clean
  | waiting consumed phase outputs => exact ⟨consumed, phase, outputs, rfl⟩
  | stopped consumed phase outputs => exact absurd driven (ended.stopped consumed phase outputs)

theorem dispatch_of_waiting {parser : Http1Parser} {data : List UInt8} {consumed : Nat}
    {phase : Phase} {outputs : List ParsedHeader}
    (driven : (parserMachine httparse).drive parser.phase (parser.buf ++ data) =
      .waiting consumed phase outputs) :
    parser.dispatch httparse data =
      ⟨{ buf := (parser.buf ++ data).drop consumed, phase := phase }, latest outputs, outputs,
        false⟩ :=
  (dispatch_endsAs httparse parser data).waiting consumed phase outputs driven

theorem phaseStep_outputs_done {phase next : Phase} {buffer : List UInt8} {consumed : Nat}
    {outputs : List ParsedHeader}
    (decision : phaseStep httparse phase buffer = .proceed consumed next outputs) :
    ∀ header ∈ outputs, header.parseState = .done := by
  intro header member
  cases decides_of_step decision with
  | block read =>
      rw [List.mem_singleton.mp member]
      rfl
  | body advanced => cases member

theorem dispatch_header {parser : Http1Parser} {data : List UInt8}
    (clean : (parser.dispatch httparse data).failed = false) :
    (parser.dispatch httparse data).header = latest (parser.dispatch httparse data).completed ∧
      ∀ header ∈ (parser.dispatch httparse data).completed, header.parseState = .done := by
  rcases dispatch_eq_of_clean httparse clean with ⟨consumed, phase, outputs, driven⟩
  rw [dispatch_of_waiting httparse driven]
  refine ⟨rfl, ?_⟩
  have every := (parserMachine httparse).drive_outputs (phaseStep_outputs_done httparse)
    parser.phase (parser.buf ++ data)
  rw [driven] at every
  exact every

theorem latest_append {earlier later : List ParsedHeader}
    (done : ∀ header ∈ later, header.parseState = .done) :
    latest (earlier ++ later) =
      if (latest later).parseState = .done then latest later else latest earlier := by
  unfold latest
  cases found : later.getLast? with
  | none =>
      rw [List.getLast?_eq_none_iff] at found
      rw [found, List.append_nil]
      rfl
  | some header =>
      have member := List.mem_of_getLast? found
      rw [List.getLast?_append, found, Option.getD_some, if_pos (done header member)]
      rfl

/-! ### Cutting a stream -/

theorem dispatch_append {parser : Http1Parser} {first second : List UInt8}
    (clean : (parser.dispatch httparse (first ++ second)).failed = false) :
    (parser.dispatch httparse first).failed = false ∧
      ((parser.dispatch httparse first).parser.dispatch httparse second).failed = false ∧
      (parser.dispatch httparse (first ++ second)).parser =
        ((parser.dispatch httparse first).parser.dispatch httparse second).parser ∧
      (parser.dispatch httparse (first ++ second)).completed =
        (parser.dispatch httparse first).completed ++
          ((parser.dispatch httparse first).parser.dispatch httparse second).completed := by
  rcases dispatch_eq_of_clean httparse clean with ⟨consumed, phase, outputs, whole⟩
  rw [dispatch_of_waiting httparse whole]
  rw [← List.append_assoc, Machine.drive_append] at whole
  have bound := (parserMachine httparse).drive_bound parser.phase (parser.buf ++ first)
  cases left : (parserMachine httparse).drive parser.phase (parser.buf ++ first) with
  | failed leftOutputs =>
      rw [left] at whole
      cases whole
  | stopped leftConsumed leftPhase leftOutputs =>
      exact absurd left ((dispatch_endsAs httparse parser first).stopped _ _ _)
  | waiting leftConsumed leftPhase leftOutputs =>
      rw [left] at whole bound
      change leftConsumed ≤ (parser.buf ++ first).length at bound
      rw [dispatch_of_waiting httparse left]
      let between : Http1Parser :=
        { buf := (parser.buf ++ first).drop leftConsumed, phase := leftPhase }
      change ((parserMachine httparse).drive between.phase (between.buf ++ second)).after
        leftConsumed leftOutputs = .waiting consumed phase outputs at whole
      cases right : (parserMachine httparse).drive between.phase (between.buf ++ second) with
      | failed rightOutputs =>
          rw [right] at whole
          cases whole
      | stopped rightConsumed rightPhase rightOutputs =>
          rw [right] at whole
          cases whole
      | waiting rightConsumed rightPhase rightOutputs =>
          rw [right] at whole
          cases whole
          have rest : (parser.buf ++ (first ++ second)).drop (leftConsumed + rightConsumed) =
              (between.buf ++ second).drop rightConsumed := by
            rw [← List.append_assoc, ← List.drop_drop, List.drop_append_of_le_length bound]
          rw [dispatch_of_waiting httparse right, rest]
          exact ⟨rfl, rfl, rfl, rfl⟩

/-- Feed segments one call each: the final parser, the messages completed, and
whether any call failed. -/
def feed (parser : Http1Parser) : List (List UInt8) → Http1Parser × List ParsedHeader × Bool
  | [] => (parser, [], false)
  | segment :: rest =>
      let call := parser.dispatch httparse segment
      let later := feed call.parser rest
      (later.1, call.completed ++ later.2.1, call.failed || later.2.2)

theorem feed_eq_dispatch {parser : Http1Parser} {segment : List UInt8}
    {segments : List (List UInt8)}
    (clean : (parser.dispatch httparse (segment :: segments).flatten).failed = false) :
    feed httparse parser (segment :: segments) =
      ((parser.dispatch httparse (segment :: segments).flatten).parser,
        (parser.dispatch httparse (segment :: segments).flatten).completed, false) := by
  induction segments generalizing parser segment with
  | nil =>
      rw [List.flatten_singleton] at clean ⊢
      simp only [feed, clean, List.append_nil, Bool.false_or]
  | cons next segments ih =>
      rw [List.flatten_cons] at clean ⊢
      obtain ⟨firstClean, restClean, parserEq, completedEq⟩ := dispatch_append httparse clean
      rw [feed, ih restClean, parserEq, completedEq]
      simp only [firstClean, Bool.false_or]

/-- For every parser state and all byte strings: a call that meets no failure can
be cut in two that meet none, end in the same buffer and phase, and between them
return what it returns; so any two segmentations of a clean stream leave the same
parser and complete the same messages. -/
theorem dispatch_incremental (parser : Http1Parser) :
    (∀ first second : List UInt8,
      (parser.dispatch httparse (first ++ second)).failed = false →
        let whole := parser.dispatch httparse (first ++ second)
        let left := parser.dispatch httparse first
        let right := left.parser.dispatch httparse second
        left.failed = false ∧ right.failed = false ∧ right.parser = whole.parser ∧
          whole.header = (if right.header.parseState = .done then right.header else left.header)) ∧
    (∀ left right : List (List UInt8), left ≠ [] → right ≠ [] → left.flatten = right.flatten →
      (parser.dispatch httparse left.flatten).failed = false →
        feed httparse parser left = feed httparse parser right ∧
          (feed httparse parser left).2.2 = false) := by
  constructor
  · intro first second clean
    obtain ⟨firstClean, secondClean, parserEq, completedEq⟩ := dispatch_append httparse clean
    refine ⟨firstClean, secondClean, parserEq.symm, ?_⟩
    obtain ⟨secondHeader, done⟩ := dispatch_header httparse secondClean
    rw [(dispatch_header httparse clean).1, completedEq, latest_append done, secondHeader,
      (dispatch_header httparse firstClean).1]
  · intro left right leftSome rightSome same clean
    obtain ⟨leftHead, leftTail, rfl⟩ := List.exists_cons_of_ne_nil leftSome
    obtain ⟨rightHead, rightTail, rfl⟩ := List.exists_cons_of_ne_nil rightSome
    have rightClean := clean
    rw [same] at rightClean
    rw [feed_eq_dispatch httparse clean, feed_eq_dispatch httparse rightClean, same]
    exact ⟨rfl, rfl⟩

def putTokenizer : Httparse :=
  Httparse.single (asciiBytes "PUT /a HTTP/1.1\r\nContent-Length: 3\r\n\r\n") (by decide)
    { method := some "PUT"
      path := some "/a"
      headers := [("Content-Length", asciiBytes "3")] }

theorem dispatch_incremental_put :
    let first := asciiBytes "PUT /a HTTP/1.1\r\nContent-Le"
    let second := asciiBytes "ngth: 3\r\n\r\nabcPUT /a"
    let left := Http1Parser.new.dispatch putTokenizer first
    let right := left.parser.dispatch putTokenizer second
    right.parser = (Http1Parser.new.dispatch putTokenizer (first ++ second)).parser ∧
      right.parser.buf = asciiBytes "PUT /a" ∧ right.header.path = "/a" := by
  have cut := (dispatch_incremental putTokenizer Http1Parser.new).1
    (asciiBytes "PUT /a HTTP/1.1\r\nContent-Le") (asciiBytes "ngth: 3\r\n\r\nabcPUT /a")
    (by decide +kernel)
  exact ⟨cut.2.2.1, by decide +kernel, by decide +kernel⟩

end NetPolicy.Http
