/-
Pipelined requests in one dispatch call.

A message is a header block that the codec accepts and consumes whole, with the body
its framing fields announce.  Dispatching messages one behind the other completes
exactly their header blocks: a body is skipped by its framing, so its bytes are never
taken for a header block, whatever they look like.
-/

import NetPolicy.Http.ChunkedCoding
import NetPolicy.Http.Http1Parser

namespace NetPolicy.Http

/-- What the tokenizer is relied on for here. -/
structure Tokenizer.Stable (parse : Tokenizer) : Prop where
  complete_bound : ∀ {room : Nat} {buffer : List UInt8} {consumed : Nat} {request : RawRequest},
    parse room buffer = .complete consumed request → 0 < consumed ∧ consumed ≤ buffer.length
  complete_append : ∀ {room : Nat} {buffer : List UInt8} {consumed : Nat} {request : RawRequest}
    (more : List UInt8), parse room buffer = .complete consumed request →
      parse room (buffer ++ more) = .complete consumed request

theorem Httparse.stable (httparse : Httparse) : Tokenizer.Stable httparse where
  complete_bound := httparse.complete_bound
  complete_append := httparse.complete_append

inductive Framed (parsed : HeaderParseResult) : List UInt8 → Prop where
  | absent (uncounted : parsed.contentLength = none) (plain : parsed.chunked = false) :
      Framed parsed []
  | counted {body : List UInt8} (length : parsed.contentLength = some body.length)
      (plain : parsed.chunked = false) : Framed parsed body
  | chunked (body : ChunkedBody) (coded : parsed.chunked = true) : Framed parsed body.bytes

structure Message (parse : Tokenizer) where
  block : List UInt8
  parsed : HeaderParseResult
  body : List UInt8
  accepted : tryParseHeaders parse block = .ok (some parsed)
  whole : parsed.consumed = block.length
  framed : Framed parsed body

def Message.bytes {parse : Tokenizer} (message : Message parse) : List UInt8 :=
  message.block ++ message.body

def Message.header {parse : Tokenizer} (message : Message parse) : ParsedHeader :=
  message.parsed.toHeader

/-! ### One message -/

variable {parse : Tokenizer}

theorem accepted_append (stable : parse.Stable) {buffer : List UInt8}
    {parsed : HeaderParseResult} (accepted : tryParseHeaders parse buffer = .ok (some parsed))
    (more : List UInt8) : tryParseHeaders parse (buffer ++ more) = .ok (some parsed) := by
  obtain ⟨request, status⟩ := tryParseHeaders_complete accepted
  unfold tryParseHeaders at accepted ⊢
  rw [status] at accepted
  rw [stable.complete_append more status]
  exact accepted

theorem Message.length_pos (stable : parse.Stable) (message : Message parse) :
    0 < message.bytes.length := by
  obtain ⟨request, status⟩ := tryParseHeaders_complete message.accepted
  have bounds := stable.complete_bound status
  rw [Message.bytes, List.length_append]
  omega

theorem Framed.advance {parsed : HeaderParseResult} {body : List UInt8}
    (framed : Framed parsed body) :
    ∃ next, (BodyFraming.start parsed.contentLength parsed.chunked).advance body =
      .ok (next, body.length, true) := by
  unfold BodyFraming.start
  cases framed with
  | absent uncounted plain =>
      rw [uncounted, plain]
      exact ⟨.none, rfl⟩
  | counted length plain =>
      rw [length, plain]
      cases body with
      | nil => exact ⟨.none, rfl⟩
      | cons byte rest =>
          refine ⟨.contentLength 0, ?_⟩
          simp [BodyFraming.advance]
  | chunked coding coded =>
      rw [coded]
      exact ⟨.chunkedTrailer, coding.advance_bytes⟩

theorem dispatchLoop_message (stable : parse.Stable) (message : Message parse)
    (rest : List UInt8) (fuel : Nat) (result : Option ParsedHeader)
    (completed : List ParsedHeader) :
    Http1Parser.dispatchLoop parse (fuel + 2) ⟨message.bytes ++ rest, .headers⟩ result completed =
      Http1Parser.dispatchLoop parse fuel ⟨rest, .headers⟩ (some message.header)
        (completed ++ [message.header]) := by
  have read := accepted_append stable message.accepted (message.body ++ rest)
  obtain ⟨next, advanced⟩ := message.framed.advance
  have skipped := advance_complete_append advanced rest
  rw [Message.bytes, List.append_assoc]
  simp only [Http1Parser.dispatchLoop, read, message.whole, List.drop_left, skipped, if_true]
  rfl

/-! ### A list of messages -/

theorem dispatchLoop_messages (stable : parse.Stable) (messages : List (Message parse))
    (fuel : Nat) (result : Option ParsedHeader) (completed : List ParsedHeader) :
    Http1Parser.dispatchLoop parse (fuel + 2 * messages.length)
        ⟨messages.flatMap Message.bytes, .headers⟩ result completed =
      Http1Parser.dispatchLoop parse fuel Http1Parser.new
        ((messages.map Message.header).getLast?.or result)
        (completed ++ messages.map Message.header) := by
  induction messages generalizing result completed with
  | nil =>
      rw [List.map_nil, List.append_nil]
      rfl
  | cons message rest ih =>
      have turns : fuel + 2 * (message :: rest).length = fuel + 2 * rest.length + 2 := by
        rw [List.length_cons]
        omega
      have newest : (rest.map Message.header).getLast?.or (some message.header) =
          ((message :: rest).map Message.header).getLast?.or result := by
        rw [List.map_cons, List.getLast?_cons]
        cases (rest.map Message.header).getLast? <;> rfl
      rw [turns, List.flatMap_cons, dispatchLoop_message stable, ih, newest, List.append_assoc]
      rfl

theorem length_le_bytes (stable : parse.Stable) (messages : List (Message parse)) :
    messages.length ≤ (messages.flatMap Message.bytes).length := by
  induction messages with
  | nil => exact Nat.le_refl 0
  | cons message rest ih =>
      have some := message.length_pos stable
      rw [List.flatMap_cons, List.length_append, List.length_cons]
      omega

/-- An empty buffer completes nothing more, however the tokenizer answers it. -/
theorem dispatchLoop_empty (stable : parse.Stable) (fuel : Nat) (header : ParsedHeader)
    (completed : List ParsedHeader) :
    ∃ failed, Http1Parser.dispatchLoop parse (fuel + 1) Http1Parser.new (some header) completed =
      ⟨Http1Parser.new, header, completed, failed⟩ := by
  simp only [Http1Parser.dispatchLoop, Http1Parser.new]
  cases read : tryParseHeaders parse [] with
  | error => exact ⟨true, rfl⟩
  | ok result =>
      cases result with
      | none => exact ⟨false, rfl⟩
      | some parsed =>
          obtain ⟨request, status⟩ := tryParseHeaders_complete read
          have bounds := stable.complete_bound status
          rw [List.length_nil] at bounds
          omega

theorem dispatch_messages (stable : parse.Stable) (messages : List (Message parse))
    (nonempty : messages ≠ []) :
    ∃ failed, Http1Parser.new.dispatch parse (messages.flatMap Message.bytes) =
      ⟨Http1Parser.new, (messages.getLast nonempty).header, messages.map Message.header,
        failed⟩ := by
  have bound := length_le_bytes stable messages
  have newest : ((messages.map Message.header).getLast?.or none) =
      some (messages.getLast nonempty).header := by
    rw [Option.or_none, List.getLast?_map, List.getLast?_eq_some_getLast nonempty]
    rfl
  obtain ⟨spare, fuel⟩ : ∃ spare, 2 * (messages.flatMap Message.bytes).length + 2 =
      spare + 1 + 2 * messages.length :=
    ⟨2 * (messages.flatMap Message.bytes).length + 1 - 2 * messages.length, by omega⟩
  obtain ⟨failed, ended⟩ :=
    dispatchLoop_empty stable spare (messages.getLast nonempty).header (messages.map Message.header)
  refine ⟨failed, ?_⟩
  change Http1Parser.dispatchLoop parse (2 * (messages.flatMap Message.bytes).length + 2)
    ⟨messages.flatMap Message.bytes, .headers⟩ none [] = _
  rw [fuel, dispatchLoop_messages stable, newest]
  exact ended

/-- Messages in one call: the call returns `Done` with the last of them, completes
exactly their header blocks in order, and leaves the parser as new. -/
theorem dispatch_pipelined (stable : parse.Stable) (messages : List (Message parse))
    (nonempty : messages ≠ []) :
    let call := Http1Parser.new.dispatch parse (messages.flatMap Message.bytes)
    let last := (messages.getLast nonempty).parsed
    call.header.parseState = .done ∧ call.header.method = last.method ∧
      call.header.path = last.path ∧ call.header.host = last.host ∧
      call.header.fields = last.fields ∧ call.completed = messages.map Message.header ∧
      call.parser.buf = [] ∧ call.parser.phase = .headers := by
  intro call last
  obtain ⟨failed, returned⟩ := dispatch_messages stable messages nonempty
  rw [show call = _ from returned]
  exact ⟨rfl, rfl, rfl, rfl, rfl, rfl, rfl, rfl⟩

def uploadBlock : List UInt8 := asciiBytes "PUT /c HTTP/1.1\r\nTransfer-Encoding: chunked\r\n\r\n"

def uploadTokenizer : Httparse :=
  Httparse.single uploadBlock (by decide)
    { method := some "PUT"
      path := some "/c"
      headers := [("Transfer-Encoding", asciiBytes "chunked")] }

def uploadParsed : HeaderParseResult :=
  { method := "PUT"
    path := "/c"
    host := ""
    fields := [("Transfer-Encoding", "chunked")]
    contentLength := none
    chunked := true
    consumed := uploadBlock.length }

def lastLine : SizeLine 0 where
  digits := asciiBytes "0"
  blanks := []
  extension := []
  some := by decide
  spelled := by decide
  fits := by decide
  blank := nofun
  separated := .inl rfl
  free := by decide

/-- One chunk with an extension, whose data is itself the end of a chunked body. -/
def disguised : ChunkedBody where
  chunks := [{ data := asciiBytes "0\r\n\r\n"
               nonempty := by decide
               line := { digits := asciiBytes "05"
                         blanks := [32]
                         extension := asciiBytes ";a=b"
                         some := by decide
                         spelled := by decide
                         fits := by decide
                         blank := List.forall_mem_singleton.mpr rfl
                         separated := .inr rfl
                         free := by decide } }]
  last := lastLine
  trailers := [{ line := asciiBytes "X: y", nonempty := by decide, free := by decide }]

def upload (body : ChunkedBody) : Message uploadTokenizer where
  block := uploadBlock
  parsed := uploadParsed
  body := body.bytes
  accepted := by decide +kernel
  whole := rfl
  framed := .chunked body rfl

theorem dispatch_pipelined_uploads :
    let call := Http1Parser.new.dispatch uploadTokenizer
      ((upload disguised).bytes ++ (upload ⟨[], lastLine, []⟩).bytes)
    call.header.parseState = .done ∧ call.completed = [uploadParsed.toHeader, uploadParsed.toHeader] ∧
      call.parser.buf = [] := by
  have pipelined := dispatch_pipelined uploadTokenizer.stable
    [upload disguised, upload ⟨[], lastLine, []⟩] (List.cons_ne_nil _ _)
  rw [List.flatMap_cons, List.flatMap_cons, List.flatMap_nil, List.append_nil] at pipelined
  obtain ⟨done, method, path, host, fields, completed, buffer, phase⟩ := pipelined
  exact ⟨done, completed, buffer⟩

end NetPolicy.Http
