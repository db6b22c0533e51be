/-
Header fields on an HTTP/2 connection, read byte by byte.

After the preface a connection is a sequence of frames, each with a header of nine bytes.
The block of a HEADERS frame names fields of the static table, or gives the value of a field
whose name is in the table.  A reader of these two forms, without a dynamic table, padding,
priorities and Huffman codes, is a session in the sense of the codec: it reports a field as
soon as its last byte is there, so it does not matter how the bytes are cut.
-/

import Mathlib.Order.Monotone.Basic
import NetPolicy.Http.Connection
import NetPolicy.Library.Runs

namespace NetPolicy.Http

/-! ### The reader -/

def staticTable : List HeaderEvent :=
  [⟨":authority", ""⟩, ⟨":method", "GET"⟩, ⟨":method", "POST"⟩, ⟨":path", "/"⟩,
    ⟨":path", "/index.html"⟩, ⟨":scheme", "http"⟩, ⟨":scheme", "https"⟩]

def staticField? : Nat → Option HeaderEvent
  | 0 => none
  | index + 1 => staticTable[index]?

inductive BlockState where
  | field
  | length (name : String)
  | value (name : String) (missing : Nat) (text : List UInt8)
deriving DecidableEq, Repr

def latin1 (text : List UInt8) : String :=
  String.ofList (text.map fun byte => Char.ofNat byte.toNat)

/-- One byte of a header block: the state after it, and the field that it completes. -/
def BlockState.read (byte : UInt8) : BlockState → Option (BlockState × Option HeaderEvent)
  | .field =>
      if 128 ≤ byte then (staticField? (byte.toNat - 128)).map fun entry => (.field, some entry)
      else if byte < 16 then (staticField? byte.toNat).map fun entry => (.length entry.name, none)
      else none
  | .length name =>
      if byte = 0 then some (.field, some ⟨name, ""⟩)
      else if byte < 127 then some (.value name byte.toNat [], none)
      else none
  | .value name missing text =>
      let text := text ++ [byte]
      if missing ≤ 1 then some (.field, some ⟨name, latin1 text⟩)
      else some (.value name (missing - 1) text, none)

inductive FrameState where
  | preface (read : Nat)
  | header (read : List UInt8)
  | payload (isHeaders : Bool) (missing : Nat) (block : BlockState)
  | failed
deriving DecidableEq, Repr

def FrameState.behind (isHeaders : Bool) (missing : Nat) (block : BlockState) : FrameState :=
  if 1 < missing then .payload isHeaders (missing - 1) block
  else if block = .field then .header []
  else .failed

/-- What comes after the header of a frame: the length, the type and the flags count.  Type 1 is
HEADERS, and the flags 8 and 32 announce padding and a priority. -/
def FrameState.begin : List UInt8 → FrameState
  | first :: second :: third :: type :: flags :: _ =>
      let length := (first.toNat * 256 + second.toNat) * 256 + third.toNat
      if type = 1 ∧ flags &&& 40 ≠ 0 then .failed
      else if length = 0 then .header []
      else .payload (type == 1) length .field
  | _ => .failed

def FrameState.read (byte : UInt8) : FrameState → FrameState × Option HeaderEvent
  | .preface read =>
      if http2ConnectionPreface[read]? = some byte then
        (if read + 1 < http2ConnectionPreface.length then .preface (read + 1) else .header [], none)
      else (.failed, none)
  | .header read =>
      let read := read ++ [byte]
      (if read.length < 9 then .header read else .begin read, none)
  | .payload false missing block => (.behind false missing block, none)
  | .payload true missing block =>
      match block.read byte with
      | some (block, field) => (.behind true missing block, field)
      | none => (.failed, none)
  | .failed => (.failed, none)

def frameStep (state : FrameState) (byte : UInt8) : FrameState := (state.read byte).1

def frameFields (state : FrameState) (byte : UInt8) : List HeaderEvent :=
  (state.read byte).2.toList

def framesAfter (bytes : List UInt8) : FrameState := Runs.run frameStep (.preface 0) bytes

def fieldsIn (bytes : List UInt8) : List HeaderEvent :=
  Runs.outputs frameStep frameFields (.preface 0) bytes

def frameReader : Nghttp2 where
  recv received data :=
    let state := framesAfter received.flatten
    (Runs.outputs frameStep frameFields state data,
      decide (Runs.run frameStep state data = .failed))

/-! ### Cuts do not matter -/

theorem fieldsIn_append (first second : List UInt8) :
    fieldsIn (first ++ second) =
      fieldsIn first ++ Runs.outputs frameStep frameFields (framesAfter first) second :=
  Runs.outputs_append frameStep frameFields (.preface 0) first second

theorem run_failed (bytes : List UInt8) : Runs.run frameStep .failed bytes = .failed := by
  induction bytes with
  | nil => rfl
  | cons byte rest ih => exact ih

theorem framesAfter_of_prefix {bytes stream : List UInt8} (begun : bytes <+: stream)
    (sound : framesAfter stream ≠ .failed) : framesAfter bytes ≠ .failed := by
  obtain ⟨rest, rfl⟩ := begun
  intro failed
  rw [framesAfter, Runs.run_append] at sound
  exact sound ((congrArg (fun state => Runs.run frameStep state rest) failed).trans
    (run_failed rest))

/-- On a connection that can be read, a call reports the fields whose last bytes it brings. -/
theorem recv_frameReader {received : List (List UInt8)} {data stream : List UInt8}
    (begun : received.flatten ++ data <+: stream) (sound : framesAfter stream ≠ .failed) :
    frameReader.recv received data =
      (((fieldsIn stream).take (fieldsIn (received.flatten ++ data)).length).drop
        (fieldsIn received.flatten).length, false) := by
  have going : Runs.run frameStep (framesAfter received.flatten) data ≠ .failed := by
    rw [framesAfter, ← Runs.run_append]
    exact framesAfter_of_prefix begun sound
  obtain ⟨rest, rfl⟩ := begun
  rw [fieldsIn_append (received.flatten ++ data) rest, List.take_left,
    fieldsIn_append received.flatten data, List.drop_left]
  exact congrArg (Prod.mk _) (decide_eq_false going)

theorem length_fieldsIn_take_mono (stream : List UInt8) :
    Monotone fun count => (fieldsIn (stream.take count)).length := by
  intro first second order
  obtain ⟨rest, longer⟩ := List.take_prefix_take_left (l := stream) order
  dsimp only
  rw [← longer, fieldsIn_append, List.length_append]
  exact Nat.le_add_right _ _

end NetPolicy.Http
