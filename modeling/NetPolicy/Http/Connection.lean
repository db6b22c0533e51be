/-
A connection: protocol detection in front of a codec.

Until a codec exists every segment is shown to the inspector, which compares that
segment alone with the HTTP/2 preface and otherwise gives it to `llhttp`.  A
segment the inspector wants more after is buffered, and the buffer is dispatched
in front of the segment that decides.  The external parsers are parameters.

The buffer points into the batch that a segment came in.  `StaticConnection` has the
fragments, and reading one after its batch is gone is undefined.  `Connection` has
their bytes: it is the same as long as nothing of an earlier batch is read.
-/

import NetPolicy.Http.Http1Parser

namespace NetPolicy.Http

/-! ### External parsers -/

def crByte : UInt8 := 13
def lfByte : UInt8 := 10

def isLineEnd (byte : UInt8) : Bool := byte == crByte || byte == lfByte

/-- `llhttp_execute` on the bytes given to it so far. -/
structure Llhttp where
  accepts : List UInt8 → Bool

/-- One invocation of the `on_header` callback for a request HEADERS frame. -/
structure HeaderEvent where
  name : String
  value : String
deriving DecidableEq, Repr

/-- `nghttp2_session_mem_recv` on a session that was given some inputs before: the
header callbacks it makes, and whether it returns an error. -/
structure Nghttp2 where
  recv : List (List UInt8) → List UInt8 → List HeaderEvent × Bool

structure Libraries where
  httparse : Httparse
  llhttp : Llhttp
  nghttp2 : Nghttp2

/-! ### Codecs -/

structure Header where
  method : String
  path : String
  host : String
  parseState : ParseState
deriving DecidableEq, Repr

def Header.blank : Header := { method := "", path := "", host := "", parseState := .continue_ }

structure Http1Codec where
  parser : Http1Parser
  header : Header
deriving DecidableEq, Repr

def Http1Codec.new : Http1Codec := { parser := Http1Parser.new, header := Header.blank }

def Http1Codec.dispatch (libraries : Libraries) (codec : Http1Codec) (data : List UInt8) :
    Http1Codec :=
  let call := codec.parser.dispatch libraries.httparse data
  match call.header.parseState with
  | .error => { parser := call.parser, header := { codec.header with parseState := .error } }
  | .continue_ => { parser := call.parser, header := { codec.header with parseState := .continue_ } }
  | .done =>
      { parser := call.parser
        header :=
          { method := call.header.method
            path := call.header.path
            host := call.header.host
            parseState := .done } }

/-- `http2::ConnectionImpl`: the session is what has been received on it. -/
structure Http2Codec where
  received : List (List UInt8)
  header : Header
deriving DecidableEq, Repr

def Http2Codec.new : Http2Codec := { received := [], header := Header.blank }

def Header.isComplete (header : Header) : Bool :=
  !(header.path == "" || header.host == "" || header.method == "")

def Header.onHeader (header : Header) (event : HeaderEvent) : Header :=
  let header :=
    if event.name = ":method" then { header with method := event.value }
    else if event.name = ":path" then { header with path := event.value }
    else if event.name = ":authority" then { header with host := event.value }
    else header
  if header.isComplete then { header with parseState := .done } else header

/-- A session whose first request is complete receives nothing more. -/
def Http2Codec.dispatch (libraries : Libraries) (codec : Http2Codec) (data : List UInt8) :
    Http2Codec :=
  if codec.header.isComplete then codec
  else
    let (events, failed) := libraries.nghttp2.recv codec.received data
    let header := events.foldl Header.onHeader codec.header
    { received := codec.received ++ [data]
      header := if failed then { header with parseState := .error } else header }

inductive Protocol where
  | http10
  | http11
  | http2
  | http3
deriving DecidableEq, Repr

inductive Codec where
  | http1 (codec : Http1Codec)
  | http2 (codec : Http2Codec)
deriving DecidableEq, Repr

def Codec.header : Codec → Header
  | .http1 codec => codec.header
  | .http2 codec => codec.header

def Codec.dispatch (libraries : Libraries) (data : List UInt8) : Codec → Codec
  | .http1 codec => .http1 (codec.dispatch libraries data)
  | .http2 codec => .http2 (codec.dispatch libraries data)

/-- There is no HTTP/3 codec; the inspector never reports that protocol. -/
def createCodec : Protocol → Option Codec
  | .http2 => some (.http2 Http2Codec.new)
  | .http10 => some (.http1 Http1Codec.new)
  | .http11 => some (.http1 Http1Codec.new)
  | .http3 => none

/-! ### The inspector -/

def http2ConnectionPreface : List UInt8 := asciiBytes "PRI * HTTP/2.0\r\n\r\nSM\r\n\r\n"

/-- `llhttp`'s state is what it has been given; `protocol` is only read after a
decision has set it. -/
structure HttpInspector where
  fed : List UInt8
  protocol : Protocol
deriving DecidableEq, Repr

def HttpInspector.new : HttpInspector := { fed := [], protocol := .http10 }

def throughLineEnd (data : List UInt8) : List UInt8 :=
  let line := data.takeWhile fun byte => !isLineEnd byte
  data.take (line.length + 1)

def HttpInspector.parseHttpHeader (llhttp : Llhttp) (inspector : HttpInspector)
    (data : List UInt8) : HttpInspector × ParseState :=
  let len := min data.length http2ConnectionPreface.length
  if http2ConnectionPreface.take len = data.take len then
    if data.length < http2ConnectionPreface.length then (inspector, .continue_)
    else ({ inspector with protocol := .http2 }, .done)
  else if data.head?.any isLineEnd then (inspector, .error)
  else if data.any isLineEnd then
    let fed := inspector.fed ++ throughLineEnd data
    if llhttp.accepts fed then ({ fed := fed, protocol := .http11 }, .done)
    else ({ inspector with fed := fed }, .error)
  else
    let fed := inspector.fed ++ data
    if llhttp.accepts fed then ({ inspector with fed := fed }, .continue_)
    else ({ inspector with fed := fed }, .error)

/-! ### Connections -/

/-- The code keeps where buffered segments stand, as `StaticConnection` does; here `packet` has
the bytes that stood there. -/
structure Connection where
  ruleKey : String
  codec : Option Codec
  inspector : HttpInspector
  header : Header
  packet : List UInt8
deriving DecidableEq, Repr

namespace Connection

def new (ruleKey : String) : Connection :=
  { ruleKey := ruleKey
    codec := none
    inspector := HttpInspector.new
    header := Header.blank
    packet := [] }

def forward (libraries : Libraries) (connection : Connection) (codec : Codec)
    (data : List UInt8) : Connection × Header :=
  let codec := if connection.packet.isEmpty then codec
    else codec.dispatch libraries connection.packet
  let codec := codec.dispatch libraries data
  ({ connection with codec := some codec, packet := [] }, codec.header)

def onData (libraries : Libraries) (connection : Connection) (data : List UInt8) :
    Connection × Header :=
  match connection.codec with
  | some codec => connection.forward libraries codec data
  | none =>
      let (inspector, state) := connection.inspector.parseHttpHeader libraries.llhttp data
      let header := { connection.header with parseState := state }
      let connection := { connection with inspector := inspector, header := header }
      match state with
      | .done =>
          match createCodec inspector.protocol with
          | some codec => connection.forward libraries codec data
          | none => (connection, header)
      | .continue_ => ({ connection with packet := connection.packet ++ data }, header)
      | .error => (connection, header)

theorem onData_ruleKey (libraries : Libraries) (connection : Connection) (data : List UInt8) :
    (connection.onData libraries data).1.ruleKey = connection.ruleKey := by
  unfold onData
  split
  · rfl
  · dsimp only
    split
    · split <;> rfl
    · rfl
    · rfl

end Connection

/-! ### Buffered fragments -/

/-- Bytes of a batch, which `NfqueueRcvData` gives back when it returns. -/
structure Fragment where
  batch : Nat
  bytes : List UInt8
deriving DecidableEq, Repr

abbrev Packet := List Fragment

namespace Packet

def bytes (packet : Packet) : List UInt8 := packet.flatMap Fragment.bytes

def len (packet : Packet) : Nat := packet.bytes.length

/-- No fragment has outlived its batch. -/
def Fresh (packet : Packet) (batch : Nat) : Prop := ∀ fragment ∈ packet, fragment.batch = batch

/-- `get_header(0, len)`: every fragment is read. -/
def getHeader (packet : Packet) (batch : Nat) : Option (List UInt8) :=
  if packet.all fun fragment => fragment.batch == batch then some packet.bytes else none

theorem getHeader_of_fresh {packet : Packet} {batch : Nat} (fresh : packet.Fresh batch) :
    packet.getHeader batch = some packet.bytes :=
  if_pos (List.all_eq_true.mpr fun fragment member => beq_iff_eq.mpr (fresh fragment member))

theorem getHeader_of_stale {packet : Packet} {batch : Nat} (stale : ¬packet.Fresh batch) :
    packet.getHeader batch = none := by
  refine if_neg fun all => stale fun fragment member => ?_
  exact beq_iff_eq.mp (List.all_eq_true.mp all fragment member)

end Packet

structure StaticConnection where
  ruleKey : String
  codec : Option Codec
  inspector : HttpInspector
  header : Header
  packet : Packet
deriving DecidableEq, Repr

structure Received where
  connection : StaticConnection
  header : Header
  dispatched : List (List UInt8)
deriving DecidableEq, Repr

namespace StaticConnection

def new (ruleKey : String) : StaticConnection :=
  { ruleKey := ruleKey
    codec := none
    inspector := HttpInspector.new
    header := Header.blank
    packet := [] }

def forward (libraries : Libraries) (connection : StaticConnection) (codec : Codec)
    (segment : Fragment) : Option Received := do
  let buffered ←
    if 0 < connection.packet.len then (connection.packet.getHeader segment.batch).map ([·])
    else some []
  let dispatched := buffered ++ [segment.bytes]
  let codec := dispatched.foldl (fun codec data => codec.dispatch libraries data) codec
  some
    { connection := { connection with codec := some codec, packet := [] }
      header := codec.header
      dispatched := dispatched }

/-- Nothing is returned when memory is read that has been given back. -/
def onData (libraries : Libraries) (connection : StaticConnection) (segment : Fragment) :
    Option Received :=
  match connection.codec with
  | some codec => connection.forward libraries codec segment
  | none =>
      let (inspector, state) := connection.inspector.parseHttpHeader libraries.llhttp segment.bytes
      let header := { connection.header with parseState := state }
      let connection := { connection with inspector := inspector, header := header }
      match state with
      | .done =>
          match createCodec inspector.protocol with
          | some codec => connection.forward libraries codec segment
          | none => some ⟨connection, header, []⟩
      | .continue_ =>
          some ⟨{ connection with packet := connection.packet ++ [segment] }, header, []⟩
      | .error => some ⟨connection, header, []⟩

def held (connection : StaticConnection) : Connection :=
  { ruleKey := connection.ruleKey
    codec := connection.codec
    inspector := connection.inspector
    header := connection.header
    packet := connection.packet.bytes }

section

variable (libraries : Libraries) {connection : StaticConnection} (codec : Codec)
  {segment : Fragment}

theorem forward_of_stale (some_ : 0 < connection.packet.len)
    (stale : ¬connection.packet.Fresh segment.batch) :
    connection.forward libraries codec segment = none := by
  rw [forward, if_pos some_, Packet.getHeader_of_stale stale]
  rfl

theorem forward_of_fresh (fresh : connection.packet.len = 0 ∨ connection.packet.Fresh segment.batch) :
    ∃ received, connection.forward libraries codec segment = some received ∧
      (received.connection.held, received.header) =
        connection.held.forward libraries codec segment.bytes ∧
      received.dispatched.flatten = connection.held.packet ++ segment.bytes ∧
      received.connection.packet = [] := by
  rw [forward, Connection.forward]
  by_cases empty : connection.packet.len = 0
  · have none : connection.held.packet = [] := List.eq_nil_of_length_eq_zero empty
    rw [if_neg (by omega), none]
    exact ⟨_, rfl, rfl, by simp, rfl⟩
  · have some_ : connection.held.packet.isEmpty = false := by
      rw [List.isEmpty_eq_false_iff, ← List.length_pos_iff]
      exact Nat.pos_of_ne_zero empty
    rw [if_pos (by omega), Packet.getHeader_of_fresh (fresh.resolve_left empty), some_]
    exact ⟨_, rfl, rfl, by simp [held], rfl⟩

end

/-- As long as nothing of an earlier batch is read, a call does to the bytes what it does
when they are kept. -/
theorem onData_held {libraries : Libraries} {connection : StaticConnection} {segment : Fragment}
    {received : Received} (given : connection.onData libraries segment = some received) :
    (received.connection.held, received.header) =
      connection.held.onData libraries segment.bytes := by
  have forwarded : ∀ {connection : StaticConnection} {codec : Codec},
      connection.forward libraries codec segment = some received →
        (received.connection.held, received.header) =
          connection.held.forward libraries codec segment.bytes := by
    intro connection codec forwards
    by_cases fresh : connection.packet.len = 0 ∨ connection.packet.Fresh segment.batch
    · obtain ⟨other, same, held, -⟩ := forward_of_fresh libraries codec fresh
      rw [forwards] at same
      cases same
      exact held
    · rw [not_or] at fresh
      rw [forward_of_stale libraries codec (Nat.pos_of_ne_zero fresh.1) fresh.2] at forwards
      cases forwards
  rcases connection with ⟨ruleKey, codec, inspector, header, packet⟩
  unfold onData at given
  unfold Connection.onData
  cases codec with
  | some codec => exact forwarded given
  | none =>
      dsimp only [held] at given ⊢
      generalize inspector.parseHttpHeader libraries.llhttp segment.bytes = parsed at given ⊢
      rcases parsed with ⟨next, state⟩
      cases state with
      | done =>
          dsimp only at given ⊢
          cases created : createCodec next.protocol with
          | none =>
              rw [created] at given
              cases given
              rfl
          | some codec =>
              rw [created] at given
              exact forwarded given
      | continue_ =>
          cases given
          simp [Packet.bytes]
      | error =>
          cases given
          rfl

end StaticConnection

end NetPolicy.Http
