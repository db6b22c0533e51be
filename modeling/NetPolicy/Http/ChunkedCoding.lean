/-
The chunked coding of a body, and that the framing reads it to its end.

A body is a list of chunks, each with its size in hexadecimal, an optional extension and
its data, then a last chunk of size zero, trailer lines and an empty line.  The values
here carry their well-formedness; the data of the chunks, the extensions and the trailers
are otherwise arbitrary bytes.
-/

import NetPolicy.Http.BodyFraming

namespace NetPolicy.Http

open Incremental RustText

/-! ### Lines -/

def crlf : List UInt8 := [13, 10]

def CrlfFree (text : List UInt8) : Prop := ¬crlf <:+: text

instance (text : List UInt8) : Decidable (CrlfFree text) := inferInstanceAs (Decidable (¬_))

theorem CrlfFree.tail {byte : UInt8} {text : List UInt8} (free : CrlfFree (byte :: text)) :
    CrlfFree text := fun inside => free (List.infix_cons inside)

theorem CrlfFree.append {front text : List UInt8} (noCr : 13 ∉ front) (free : CrlfFree text) :
    CrlfFree (front ++ text) := by
  induction front with
  | nil => exact free
  | cons byte rest ih =>
      rw [List.mem_cons, not_or] at noCr
      intro inside
      rw [List.cons_append, List.infix_cons_iff] at inside
      rcases inside with starts | later
      · exact noCr.1 (List.cons_prefix_cons.mp starts).1
      · exact ih noCr.2 later

/-- A line without CRLF ends at the CRLF behind it, also if its last byte is a CR. -/
theorem findCrlf_line {line : List UInt8} (free : CrlfFree line) (rest : List UInt8) :
    findCrlf (line ++ crlf ++ rest) = some line.length := by
  induction line with
  | nil => rfl
  | cons first tail ih =>
      have later := ih free.tail
      cases tail with
      | nil =>
          have notEnd : ¬(first = 13 ∧ (13 : UInt8) = 10) := fun both => absurd both.2 (by decide)
          rw [List.cons_append, List.nil_append, crlf, List.cons_append, List.cons_append,
            findCrlf, if_neg notEnd]
          rfl
      | cons second more =>
          have notEnd : ¬(first = 13 ∧ second = 10) := by
            rintro ⟨rfl, rfl⟩
            exact free (List.IsPrefix.isInfix ⟨more, rfl⟩)
          rw [List.cons_append, List.cons_append, List.cons_append, List.cons_append, findCrlf,
            if_neg notEnd]
          rw [List.cons_append, List.cons_append] at later
          rw [later]
          rfl

/-! ### Size lines -/

def hexDigit (byte : UInt8) : Option Nat :=
  let code := byte.toNat
  if 48 ≤ code ∧ code ≤ 57 then some (code - 48)
  else if 97 ≤ code ∧ code ≤ 102 then some (code - 87)
  else if 65 ≤ code ∧ code ≤ 70 then some (code - 55)
  else none

def hexNumber (digits : List UInt8) : Option Nat :=
  digits.foldlM (fun value digit => (hexDigit digit).map (value * 16 + ·)) 0

def isBlank (byte : UInt8) : Bool := byte == 32 || byte == 9

/-- The line of a chunk size: a spelling of the size, blanks, and an extension. -/
structure SizeLine (size : Nat) where
  digits : List UInt8
  blanks : List UInt8
  extension : List UInt8
  some : digits ≠ []
  spelled : hexNumber digits = .some size
  fits : size < 2 ^ 64
  blank : ∀ byte ∈ blanks, isBlank byte = true
  separated : extension = [] ∨ extension.head? = .some 59
  free : CrlfFree extension

def SizeLine.text {size : Nat} (line : SizeLine size) : List UInt8 :=
  line.digits ++ line.blanks ++ line.extension

theorem hexDigit_range {byte : UInt8} {value : Nat} (digit : hexDigit byte = some value) :
    48 ≤ byte.toNat ∧ byte.toNat ≤ 57 ∧ value = byte.toNat - 48 ∨
      97 ≤ byte.toNat ∧ byte.toNat ≤ 102 ∧ value = byte.toNat - 87 ∨
      65 ≤ byte.toNat ∧ byte.toNat ≤ 70 ∧ value = byte.toNat - 55 := by
  unfold hexDigit at digit
  dsimp only at digit
  split at digit
  · cases digit
    omega
  split at digit
  · cases digit
    omega
  split at digit
  · cases digit
    omega
  · cases digit

theorem ascii_of_hexDigit {byte : UInt8} {value : Nat} (digit : hexDigit byte = some value) :
    (Char.ofNat byte.toNat).toNat = byte.toNat := by
  have range := hexDigit_range digit
  exact toNat_ofNat_ascii (by omega)

theorem toDigit_of_hexDigit {byte : UInt8} {value : Nat} (digit : hexDigit byte = some value) :
    toDigit 16 (Char.ofNat byte.toNat) = some value := by
  unfold toDigit
  rw [ascii_of_hexDigit digit]
  dsimp only
  rcases hexDigit_range digit with ⟨low, high, rfl⟩ | ⟨low, high, rfl⟩ | ⟨low, high, rfl⟩
  · rw [if_pos ⟨low, high⟩]
    exact Option.filter_some_pos (decide_eq_true (by omega))
  · have value : byte.toNat - 97 + 10 = byte.toNat - 87 := by omega
    rw [if_neg (by omega), if_pos (by omega), value]
    exact Option.filter_some_pos (decide_eq_true (by omega))
  · have value : byte.toNat - 65 + 10 = byte.toNat - 55 := by omega
    rw [if_neg (by omega), if_neg (by omega), if_pos (by omega), value]
    exact Option.filter_some_pos (decide_eq_true (by omega))

theorem foldlM_toDigit {digits : List UInt8} {start size : Nat}
    (spelled : digits.foldlM (fun value digit => (hexDigit digit).map (value * 16 + ·)) start =
      some size) :
    (digits.map fun byte => Char.ofNat byte.toNat).foldlM
        (fun value digit => (toDigit 16 digit).map (value * 16 + ·)) start = some size ∧
      ∀ byte ∈ digits, ∃ value, hexDigit byte = some value := by
  induction digits generalizing start with
  | nil => exact ⟨spelled, fun byte member => absurd member List.not_mem_nil⟩
  | cons digit rest ih =>
      rw [List.foldlM_cons] at spelled
      cases known : hexDigit digit with
      | none =>
          rw [known] at spelled
          cases spelled
      | some value =>
          rw [known] at spelled
          obtain ⟨later, every⟩ := ih spelled
          refine ⟨?_, List.forall_mem_cons.mpr ⟨⟨value, known⟩, every⟩⟩
          rw [List.map_cons, List.foldlM_cons, toDigit_of_hexDigit known]
          exact later

namespace SizeLine

variable {size : Nat} (line : SizeLine size)

theorem digit_of_mem {byte : UInt8} (member : byte ∈ line.digits) :
    ∃ value, hexDigit byte = .some value := (foldlM_toDigit line.spelled).2 byte member

theorem blank_of_mem {byte : UInt8} (member : byte ∈ line.blanks) : byte = 32 ∨ byte = 9 := by
  have blank := line.blank byte member
  rw [isBlank, Bool.or_eq_true, beq_iff_eq, beq_iff_eq] at blank
  exact blank

theorem front_of_mem {byte : UInt8} (member : byte ∈ line.digits ++ line.blanks) :
    byte.toNat < 0x80 ∧ byte ≠ 59 ∧ byte ≠ 13 := by
  rcases List.mem_append.mp member with inDigits | inBlanks
  · obtain ⟨value, digit⟩ := line.digit_of_mem inDigits
    have range := hexDigit_range digit
    refine ⟨by omega, ?_, ?_⟩
    · rintro rfl
      simp at range
    · rintro rfl
      simp at range
  · rcases line.blank_of_mem inBlanks with rfl | rfl
    · exact ⟨by decide, by decide, by decide⟩
    · exact ⟨by decide, by decide, by decide⟩

theorem text_free : CrlfFree line.text :=
  CrlfFree.append (fun member => (line.front_of_mem member).2.2 rfl) line.free

theorem hexPart : line.text.takeWhile (· ≠ 59) = line.digits ++ line.blanks := by
  have front : ∀ byte ∈ line.digits ++ line.blanks, decide (byte ≠ 59) = true :=
    fun byte member => decide_eq_true (line.front_of_mem member).2.1
  rw [SizeLine.text, List.takeWhile_append_of_pos front]
  rcases line.separated with none | semicolon
  · rw [none, List.takeWhile_nil, List.append_nil]
  · obtain ⟨rest, shape⟩ := List.head?_eq_some_iff.mp semicolon
    rw [shape, List.takeWhile_cons_of_neg (by simp), List.append_nil]

theorem notBlank_of_digit {byte : UInt8} (member : byte ∈ line.digits) :
    isWhitespace (Char.ofNat byte.toNat) = false ∧ Char.ofNat byte.toNat ≠ '+' := by
  obtain ⟨value, digit⟩ := line.digit_of_mem member
  have range := hexDigit_range digit
  have code := ascii_of_hexDigit digit
  constructor
  · rw [Bool.eq_false_iff]
    intro blank
    simp [isWhitespace, code] at blank
    omega
  · intro plus
    rw [plus] at code
    have : ('+' : Char).toNat = 43 := by decide
    omega

theorem trim_front :
    trim ((line.digits ++ line.blanks).map fun byte => Char.ofNat byte.toNat) =
      line.digits.map fun byte => Char.ofNat byte.toNat := by
  rw [List.map_append]
  refine trim_append_blanks ?_ ?_ ?_ ?_
  · intro character first
    rw [List.head?_map, Option.mem_def, Option.map_eq_some_iff] at first
    obtain ⟨byte, member, rfl⟩ := first
    exact (line.notBlank_of_digit (List.mem_of_mem_head? member)).1
  · intro character last
    rw [List.getLast?_map, Option.mem_def, Option.map_eq_some_iff] at last
    obtain ⟨byte, member, rfl⟩ := last
    exact (line.notBlank_of_digit (List.mem_of_mem_getLast? member)).1
  · intro character member
    obtain ⟨byte, inBlanks, rfl⟩ := List.mem_map.mp member
    rcases line.blank_of_mem inBlanks with rfl | rfl <;> decide
  · exact fun none => line.some (List.map_eq_nil_iff.mp none)

theorem chunkSize_text : chunkSize line.text = .some size := by
  have decoded := fromUtf8_ascii fun byte member => (line.front_of_mem member).1
  have number := (foldlM_toDigit line.spelled).1
  unfold chunkSize
  simp only [line.hexPart, decoded, Option.bind_eq_bind, Option.bind_some, line.trim_front]
  obtain ⟨first, rest, shape⟩ := List.exists_cons_of_ne_nil line.some
  have noPlus := (line.notBlank_of_digit (shape ▸ List.mem_cons_self : first ∈ line.digits)).2
  refine usizeFromStrRadix_digits ?_ ?_ number line.fits
  · rw [shape]
    exact List.cons_ne_nil _ _
  · rw [shape]
    exact fun plus => noPlus (Option.some.inj plus)

end SizeLine

/-! ### Chunked bodies -/

structure Chunk where
  data : List UInt8
  nonempty : data ≠ []
  line : SizeLine data.length

def Chunk.bytes (chunk : Chunk) : List UInt8 := chunk.line.text ++ crlf ++ chunk.data ++ crlf

structure Trailer where
  line : List UInt8
  nonempty : line ≠ []
  free : CrlfFree line

def Trailer.bytes (trailer : Trailer) : List UInt8 := trailer.line ++ crlf

structure ChunkedBody where
  chunks : List Chunk
  last : SizeLine 0
  trailers : List Trailer

def ChunkedBody.bytes (body : ChunkedBody) : List UInt8 :=
  body.chunks.flatMap Chunk.bytes ++ body.last.text ++ crlf ++
    body.trailers.flatMap Trailer.bytes ++ crlf

/-! ### The framing over a chunked body -/

theorem step_sizeLine {size : Nat} (line : SizeLine size) (rest : List UInt8) :
    framingMachine.step .chunkedSize (line.text ++ crlf ++ rest) =
      .proceed (line.text.length + 2) (if size = 0 then .chunkedTrailer else .chunkedData size)
        [] := by
  have whole : (line.text ++ crlf ++ rest).take line.text.length = line.text := by
    rw [List.append_assoc, List.take_left]
  simp only [framingMachine, framingStep, findCrlf_line line.text_free rest, whole, line.chunkSize_text]

theorem step_chunkData (data rest : List UInt8) :
    framingMachine.step (.chunkedData data.length) (data ++ crlf ++ rest) =
      .proceed (data.length + 2) .chunkedSize [] := by
  have long : data.length + 2 ≤ (data ++ crlf ++ rest).length := by
    simp only [List.length_append, crlf, List.length_cons, List.length_nil]
    omega
  have ended : ((data ++ crlf ++ rest).drop data.length).take 2 = [13, 10] := by
    rw [List.append_assoc, List.drop_left]
    rfl
  simp only [framingMachine, framingStep, ended]
  rw [if_neg (by omega), if_neg (by omega), if_neg (not_not_intro rfl)]

theorem step_trailer (trailer : Trailer) (rest : List UInt8) :
    framingMachine.step .chunkedTrailer (trailer.bytes ++ rest) =
      .proceed trailer.bytes.length .chunkedTrailer [] := by
  obtain ⟨first, later, shape⟩ := List.exists_cons_of_ne_nil trailer.nonempty
  have size : trailer.line.length = later.length + 1 := by rw [shape, List.length_cons]
  have total : trailer.bytes.length = later.length + 3 := by
    rw [Trailer.bytes, List.length_append, size]
    rfl
  simp only [framingMachine, framingStep, Trailer.bytes, findCrlf_line trailer.free rest, size]
  rw [← total, Trailer.bytes]

theorem drive_trailers (trailers : List Trailer) :
    framingMachine.drive .chunkedTrailer (trailers.flatMap Trailer.bytes ++ crlf) =
      .stopped (trailers.flatMap Trailer.bytes ++ crlf).length .chunkedTrailer [] := by
  induction trailers with
  | nil => exact framingMachine.drive_stop rfl
  | cons trailer rest ih =>
      rw [List.flatMap_cons, List.append_assoc,
        framingMachine.drive_proceed (step_trailer trailer _), List.drop_left, ih, Outcome.after,
        List.nil_append, ← List.length_append]

theorem drive_chunk (chunk : Chunk) (rest : List UInt8) :
    framingMachine.drive .chunkedSize (chunk.bytes ++ rest) =
      (framingMachine.drive .chunkedSize rest).after chunk.bytes.length [] := by
  have counted : ¬chunk.data.length = 0 := fun none =>
    chunk.nonempty (List.length_eq_zero_iff.mp none)
  have sized := step_sizeLine chunk.line (chunk.data ++ crlf ++ rest)
  have afterLine : (chunk.line.text ++ crlf ++ (chunk.data ++ crlf ++ rest)).drop
      (chunk.line.text.length + 2) = chunk.data ++ crlf ++ rest := List.drop_left' (by simp [crlf])
  have afterData : (chunk.data ++ crlf ++ rest).drop (chunk.data.length + 2) = rest :=
    List.drop_left' (by simp [crlf])
  have total : chunk.line.text.length + 2 + (chunk.data.length + 2) = chunk.bytes.length := by
    simp only [Chunk.bytes, List.length_append, crlf, List.length_cons, List.length_nil]
    omega
  have shape : chunk.bytes ++ rest = chunk.line.text ++ crlf ++ (chunk.data ++ crlf ++ rest) := by
    simp only [Chunk.bytes, List.append_assoc]
  rw [if_neg counted] at sized
  rw [shape, framingMachine.drive_proceed sized, afterLine,
    framingMachine.drive_proceed (step_chunkData chunk.data rest), afterData,
    Outcome.after_after, total]
  rfl

theorem drive_chunks (chunks : List Chunk) (rest : List UInt8) :
    framingMachine.drive .chunkedSize (chunks.flatMap Chunk.bytes ++ rest) =
      (framingMachine.drive .chunkedSize rest).after (chunks.flatMap Chunk.bytes).length [] := by
  induction chunks with
  | nil =>
      rw [List.flatMap_nil, List.nil_append]
      cases framingMachine.drive .chunkedSize rest <;> simp [Outcome.after]
  | cons chunk later ih =>
      rw [List.flatMap_cons, List.append_assoc, drive_chunk, ih, Outcome.after_after,
        List.length_append]
      rfl

theorem ChunkedBody.advance_bytes (body : ChunkedBody) :
    BodyFraming.chunkedSize.advance body.bytes =
      .ok (.chunkedTrailer, body.bytes.length, true) := by
  let tail := body.trailers.flatMap Trailer.bytes ++ crlf
  have shape : body.bytes =
      body.chunks.flatMap Chunk.bytes ++ (body.last.text ++ crlf ++ tail) := by
    simp only [ChunkedBody.bytes, tail, List.append_assoc]
  have afterLast : (body.last.text ++ crlf ++ tail).drop (body.last.text.length + 2) = tail :=
    List.drop_left' (by simp [crlf])
  have total : (body.chunks.flatMap Chunk.bytes).length + (body.last.text.length + 2 + tail.length) =
      (body.chunks.flatMap Chunk.bytes ++ (body.last.text ++ crlf ++ tail)).length := by
    simp only [List.length_append, crlf, List.length_cons, List.length_nil]
  rw [advance_eq_drive, shape, drive_chunks,
    framingMachine.drive_proceed (step_sizeLine body.last tail), afterLast, if_pos rfl,
    drive_trailers]
  simp only [Outcome.after, advanceOf]
  rw [total]

/-- A proper beginning of a chunked body waits for more bytes: were it decided, the bytes
behind it would not revise the decision. -/
theorem ChunkedBody.advance_beginning (body : ChunkedBody) {front : List UInt8}
    (begins : front <+: body.bytes) (proper : front ≠ body.bytes) :
    ∃ next consumed, BodyFraming.chunkedSize.advance front = .ok (next, consumed, false) ∧
      consumed ≤ front.length := by
  obtain ⟨more, whole⟩ := begins
  have complete := body.advance_bytes
  rw [← whole] at complete
  cases outcome : BodyFraming.chunkedSize.advance front with
  | error =>
      rw [advance_error_append outcome more] at complete
      cases complete
  | ok reached =>
      obtain ⟨next, consumed, done⟩ := reached
      have bound := advance_bound outcome
      cases done with
      | false => exact ⟨next, consumed, rfl, bound⟩
      | true =>
          rw [advance_complete_append outcome more] at complete
          have all : consumed = (front ++ more).length :=
            congrArg (fun reached => reached.2.1) (Except.ok.inj complete)
          have nothing : more = [] := by
            apply List.length_eq_zero_iff.mp
            rw [List.length_append] at all
            omega
          rw [nothing, List.append_nil] at whole
          exact absurd whole proper

/-- The framing of a chunked message ends exactly behind the coding, whatever follows, and
on every proper beginning it neither fails nor ends. -/
theorem ChunkedBody.framing_decodes (body : ChunkedBody) (contentLength : Option Nat) :
    (∀ rest, ∃ next, (BodyFraming.start contentLength true).advance (body.bytes ++ rest) =
        .ok (next, body.bytes.length, true)) ∧
      ∀ front, front <+: body.bytes → front ≠ body.bytes →
        ∃ next consumed, (BodyFraming.start contentLength true).advance front =
            .ok (next, consumed, false) ∧
          consumed ≤ front.length := by
  constructor
  · intro rest
    exact ⟨.chunkedTrailer, advance_complete_append body.advance_bytes rest⟩
  · intro front begins proper
    exact body.advance_beginning begins proper

end NetPolicy.Http
