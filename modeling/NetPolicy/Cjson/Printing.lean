/-
`cJSON_PrintUnformatted`.

The printer writes into a buffer that grows.  Every function makes sure of the space for what it
writes, some leave the offset behind what they have written and some do not, and the caller
moves it to the next NUL.  No byte is written outside the buffer or read before it is written,
and what is left in the end is the text of the value, unless it is as large as an `int` can be.
-/

import NetPolicy.Cjson.RoundTrip

namespace NetPolicy.Cjson

open BinaryFormats DecimalNotation

/-! ### The buffer -/

/-- The bytes of the buffer; nothing has been written yet where there is none. -/
structure PrintBuffer where
  buffer : List (Option UInt8)
  offset : Nat
deriving DecidableEq, Repr

inductive Failure where
  /-- A function returns `false`. -/
  | refused
  /-- An access outside the buffer, or to a byte that was never written. -/
  | fault
deriving DecidableEq, Repr

def largestInt : Nat := 2147483647

namespace PrintBuffer

def reallocate (newsize : Nat) (p : PrintBuffer) : PrintBuffer :=
  { p with buffer := p.buffer.take newsize ++ List.replicate (newsize - p.buffer.length) none }

def ensure (needed : Nat) (p : PrintBuffer) : Except Failure PrintBuffer :=
  if 0 < p.buffer.length ∧ p.buffer.length ≤ p.offset then .error .refused
  else if largestInt < needed then .error .refused
  else
    let needed := needed + (p.offset + 1)
    if needed ≤ p.buffer.length then .ok p
    else if largestInt / 2 < needed then
      if needed ≤ largestInt then .ok (p.reallocate largestInt) else .error .refused
    else .ok (p.reallocate (needed * 2))

def writeAt (index : Nat) (bytes : List UInt8) (p : PrintBuffer) : Except Failure PrintBuffer :=
  if index + bytes.length ≤ p.buffer.length then
    .ok { p with buffer :=
      p.buffer.take index ++ (bytes.map some ++ p.buffer.drop (index + bytes.length)) }
  else .error .fault

def write (bytes : List UInt8) (p : PrintBuffer) : Except Failure PrintBuffer :=
  p.writeAt p.offset bytes

def advance (count : Nat) (p : PrintBuffer) : PrintBuffer := { p with offset := p.offset + count }

end PrintBuffer

def strlen : List (Option UInt8) → Except Failure Nat
  | [] => .error .fault
  | none :: _ => .error .fault
  | some byte :: rest => if byte = 0 then .ok 0 else (strlen rest).map (· + 1)

def updateOffset (p : PrintBuffer) : Except Failure PrintBuffer :=
  (strlen (p.buffer.drop p.offset)).map p.advance

def readString : List (Option UInt8) → Except Failure (List UInt8)
  | [] => .error .fault
  | none :: _ => .error .fault
  | some byte :: rest => if byte = 0 then .ok [] else (readString rest).map (byte :: ·)

def readBytes : Nat → List (Option UInt8) → Except Failure (List UInt8)
  | 0, _ => .ok []
  | _ + 1, [] => .error .fault
  | _ + 1, none :: _ => .error .fault
  | count + 1, some byte :: rest => (readBytes count rest).map (byte :: ·)

/-! ### Printing -/

def sprintf (text : List UInt8) (buffer : PrintBuffer) : Except Failure (PrintBuffer × Nat) := do
  let buffer ← buffer.write (text ++ [0])
  .ok (buffer, text.length)

def numberBuffer : PrintBuffer := ⟨List.replicate 26 none, 0⟩

def formatNumber : Double → Except Failure (PrintBuffer × Nat)
  | .finite negative magnitude => do
      let (buffer, length) ← sprintf (signText negative ++ magnitudeText 14 magnitude) numberBuffer
      let short ← readString buffer.buffer
      match strtod binary64 short with
      | some (test, _) =>
          if Double.same test (.finite negative magnitude) then .ok (buffer, length)
          else sprintf (signText negative ++ magnitudeText 16 magnitude) buffer
      | none => sprintf (signText negative ++ magnitudeText 16 magnitude) buffer
  | _ => sprintf (bytesOf ['n', 'u', 'l', 'l']) numberBuffer

/-- The length is checked after the number has been formatted. -/
def printNumber (valuedouble : Double) (p : PrintBuffer) : Except Failure PrintBuffer := do
  let (buffer, length) ← formatNumber valuedouble
  if buffer.buffer.length - 1 < length then .error .refused
  else
    let p ← p.ensure (length + 1)
    let text ← readBytes length buffer.buffer
    let p ← p.write (text ++ [0])
    .ok (p.advance length)

def escapeCharacters (byte : UInt8) : Nat :=
  if byte = '"'.toUInt8 ∨ byte = '\\'.toUInt8 ∨ byte = 8 ∨ byte = 12 ∨ byte = 10 ∨ byte = 13 ∨
      byte = 9 then 1
  else if byte < 32 then 5
  else 0

/-- The loop that copies with escapes.  The five characters behind the backslash of a control
character come from `sprintf`, with a NUL that the next write replaces. -/
def printCharacters : List UInt8 → Nat → PrintBuffer → Except Failure PrintBuffer
  | [], _, p => .ok p
  | byte :: rest, index, p => do
      let ending := if escapeCharacters byte = 5 then [0] else []
      let p ← p.writeAt index (escape byte ++ ending)
      printCharacters rest (index + (escape byte).length) p

/-- The closing quote goes to the place that the count of the escapes gives. -/
def printStringPtr (input : CString) (p : PrintBuffer) : Except Failure PrintBuffer := do
  let escapes := (input.bytes.map escapeCharacters).sum
  let outputLength := input.bytes.length + escapes
  let p ← p.ensure (outputLength + 3)
  if escapes = 0 then p.write ('"'.toUInt8 :: (input.bytes ++ ['"'.toUInt8, 0]))
  else
    let p ← p.write ['"'.toUInt8]
    let p ← printCharacters input.bytes (p.offset + 1) p
    p.writeAt (p.offset + (outputLength + 1)) ['"'.toUInt8, 0]

def printLiteral (text : List Char) (p : PrintBuffer) : Except Failure PrintBuffer := do
  let p ← p.ensure (text.length + 1)
  p.write (bytesOf text ++ [0])

mutual

def printValue : Item → PrintBuffer → Except Failure PrintBuffer
  | .null, p => printLiteral ['n', 'u', 'l', 'l'] p
  | .false, p => printLiteral ['f', 'a', 'l', 's', 'e'] p
  | .true, p => printLiteral ['t', 'r', 'u', 'e'] p
  | .number valuedouble, p => printNumber valuedouble p
  | .string valuestring, p => printStringPtr valuestring p
  | .array child, p => do
      let p ← p.ensure 1
      let p ← p.write ['['.toUInt8]
      let p ← printElements child (p.advance 1)
      let p ← p.ensure 2
      p.write [']'.toUInt8, 0]
  | .object child, p => do
      let p ← p.ensure 2
      let p ← p.write ['\x7b'.toUInt8]
      let p ← printMembers child (p.advance 1)
      let p ← p.ensure 2
      p.write ['\x7d'.toUInt8, 0]

def printElements : List Item → PrintBuffer → Except Failure PrintBuffer
  | [], p => .ok p
  | item :: rest, p => do
      let p ← printValue item p
      let p ← updateOffset p
      if rest.isEmpty then printElements rest p
      else
        let p ← p.ensure 2
        let p ← p.write [','.toUInt8, 0]
        printElements rest (p.advance 1)

def printMembers : List (CString × Item) → PrintBuffer → Except Failure PrintBuffer
  | [], p => .ok p
  | (name, item) :: rest, p => do
      let p ← printStringPtr name p
      let p ← updateOffset p
      let p ← p.ensure 1
      let p ← p.write [':'.toUInt8]
      let p ← printValue item (p.advance 1)
      let p ← updateOffset p
      let comma := if rest.isEmpty then [] else [','.toUInt8]
      let p ← p.ensure (comma.length + 1)
      let p ← p.write (comma ++ [0])
      printMembers rest (p.advance comma.length)

end

/-- What a reader of the returned pointer sees. -/
def printUnformatted (item : Item) : Except Failure (List UInt8) := do
  let p ← printValue item ⟨List.replicate 256 none, 0⟩
  let p ← updateOffset p
  readString (p.reallocate (p.offset + 1)).buffer

/-! ### What a step leaves -/

/-- The buffer starts with what was written, and the offset is behind it. -/
structure Stands (p : PrintBuffer) (written : List UInt8) : Prop where
  offset : p.offset = written.length
  content : ∃ rest, rest ≠ [] ∧ p.buffer = written.map some ++ rest
  bounded : p.buffer.length ≤ largestInt

/-- A text with its NUL is behind what was written before, and the offset somewhere in the
text. -/
structure Printed (p : PrintBuffer) (written text : List UInt8) : Prop where
  place : ∃ done rest, text = done ++ rest ∧ 0 ∉ rest ∧ p.offset = (written ++ done).length
  content : ∃ rest, p.buffer = (written ++ text).map some ++ some 0 :: rest
  bounded : p.buffer.length ≤ largestInt

/-- The buffer has its size and its offset and starts with the bytes. -/
structure Filled (before after : PrintBuffer) (bytes : List UInt8) : Prop where
  offset : after.offset = before.offset
  size : after.buffer.length = before.buffer.length
  content : ∃ rest, after.buffer = bytes.map some ++ rest

/-- A step that needs so many bytes: it is refused exactly if they are too many. -/
def Attains (size : Nat) (after : PrintBuffer → Prop) (result : Except Failure PrintBuffer) :
    Prop :=
  size ≤ largestInt ∧ (∃ p, result = .ok p ∧ after p) ∨
    largestInt < size ∧ result = .error .refused

theorem Attains.bind {size total : Nat} {after last : PrintBuffer → Prop}
    {result : Except Failure PrintBuffer} {next : PrintBuffer → Except Failure PrintBuffer}
    (attains : Attains size after result) (le : size ≤ total)
    (later : ∀ p, size ≤ largestInt → after p → Attains total last (next p)) :
    Attains total last (result >>= next) := by
  rcases attains with ⟨fits, p, rfl, holds⟩ | ⟨large, rfl⟩
  · exact later p fits holds
  · exact .inr ⟨by omega, rfl⟩

theorem Attains.of_ok {size : Nat} {after : PrintBuffer → Prop} {p : PrintBuffer}
    {result : Except Failure PrintBuffer} (fits : size ≤ largestInt) (done : result = .ok p)
    (holds : after p) : Attains size after result :=
  .inl ⟨fits, p, done, holds⟩

section

variable {p : PrintBuffer} {written : List UInt8}

theorem Stands.length_lt (stands : Stands p written) : written.length < p.buffer.length := by
  obtain ⟨rest, nonempty, content⟩ := stands.content
  have positive := List.length_pos_iff.mpr nonempty
  rw [content, List.length_append, List.length_map]
  omega

theorem Stands.reallocate (stands : Stands p written) (newsize : Nat) (grows : p.buffer.length ≤ newsize)
    (bounded : newsize ≤ largestInt) :
    Stands (p.reallocate newsize) written ∧ (p.reallocate newsize).buffer.length = newsize := by
  obtain ⟨rest, nonempty, content⟩ := stands.content
  have length : (p.reallocate newsize).buffer.length = newsize := by
    simp only [PrintBuffer.reallocate, List.length_append, List.length_take, List.length_replicate]
    omega
  refine ⟨⟨stands.offset, ⟨rest ++ List.replicate (newsize - p.buffer.length) none, ?_, ?_⟩, ?_⟩, length⟩
  · simp [nonempty]
  · rw [PrintBuffer.reallocate, List.take_of_length_le grows, ← List.append_assoc, ← content]
  · omega

/-- `ensure` gives room for the bytes asked for and one more. -/
theorem ensure_attains (stands : Stands p written) (needed : Nat) :
    Attains (written.length + needed + 1)
      (fun after => Stands after written ∧ written.length + needed + 1 ≤ after.buffer.length)
      (p.ensure needed) := by
  have inside := stands.length_lt
  have bounded := stands.bounded
  have offset := stands.offset
  unfold PrintBuffer.ensure
  rw [if_neg (by omega)]
  split
  · exact .inr ⟨by omega, rfl⟩
  · dsimp only
    split
    · exact .inl ⟨by omega, p, rfl, stands, by omega⟩
    · split
      · split
        · obtain ⟨kept, length⟩ := stands.reallocate largestInt bounded le_rfl
          exact .inl ⟨by omega, _, rfl, kept, by omega⟩
        · exact .inr ⟨by omega, rfl⟩
      · obtain ⟨kept, length⟩ :=
          stands.reallocate ((needed + (p.offset + 1)) * 2) (by omega) (by omega)
        exact .inl ⟨by omega, _, rfl, kept, by omega⟩

theorem Filled.writeAt {before : PrintBuffer} {front bytes : List UInt8}
    (filled : Filled before p front) (room : (front ++ bytes).length ≤ before.buffer.length) :
    ∃ after, p.writeAt front.length bytes = .ok after ∧ Filled before after (front ++ bytes) := by
  obtain ⟨rest, content⟩ := filled.content
  rw [List.length_append, ← filled.size] at room
  refine ⟨_, if_pos room, filled.offset, ?_, ⟨rest.drop bytes.length, ?_⟩⟩
  · rw [← filled.size]
    simp only [List.length_append, List.length_take, List.length_map, List.length_drop]
    omega
  · simp [content, List.drop_append]

theorem Filled.of_append {before : PrintBuffer} {front back : List UInt8}
    (filled : Filled before p (front ++ back)) : Filled before p front := by
  obtain ⟨rest, content⟩ := filled.content
  refine ⟨filled.offset, filled.size, back.map some ++ rest, ?_⟩
  rw [content, List.map_append, List.append_assoc]

theorem Stands.filled (stands : Stands p written) : Filled p p written := by
  obtain ⟨rest, _, content⟩ := stands.content
  exact ⟨rfl, rfl, rest, content⟩

theorem Stands.write (stands : Stands p written) {bytes : List UInt8}
    (room : (written ++ bytes).length ≤ p.buffer.length) :
    ∃ after, p.write bytes = .ok after ∧ Filled p after (written ++ bytes) := by
  rw [PrintBuffer.write, stands.offset]
  exact stands.filled.writeAt room

theorem Stands.write_advance (stands : Stands p written) {bytes : List UInt8}
    (room : (written ++ bytes).length < p.buffer.length) :
    ∃ after, p.write bytes = .ok after ∧ Stands (after.advance bytes.length) (written ++ bytes) := by
  obtain ⟨after, done, filled⟩ := stands.write room.le
  obtain ⟨rest, content⟩ := filled.content
  refine ⟨after, done, ⟨?_, ⟨rest, ?_, content⟩, ?_⟩⟩
  · rw [PrintBuffer.advance, filled.offset, stands.offset, List.length_append]
  · rintro rfl
    rw [← filled.size, content, List.append_nil, List.length_map] at room
    exact lt_irrefl _ room
  · exact filled.size.le.trans stands.bounded

theorem Stands.printed (stands : Stands p written) {text : List UInt8} (noNul : 0 ∉ text)
    {after : PrintBuffer} (filled : Filled p after (written ++ text ++ [0])) :
    Printed after written text ∧ Printed (after.advance text.length) written text ∧
      Stands (after.advance text.length) (written ++ text) := by
  obtain ⟨rest, content⟩ := filled.content
  rw [List.map_append, List.append_assoc] at content
  have bounded := filled.size.le.trans stands.bounded
  have start : after.offset = (written ++ []).length := by
    rw [filled.offset, stands.offset, List.append_nil]
  have passed : after.offset + text.length = (written ++ text).length := by
    rw [start, List.append_nil, List.length_append]
  exact ⟨⟨⟨[], text, rfl, noNul, start⟩, ⟨rest, content⟩, bounded⟩,
    ⟨⟨text, [], (List.append_nil text).symm, List.not_mem_nil, passed⟩, ⟨rest, content⟩, bounded⟩,
    ⟨passed, ⟨some 0 :: rest, List.cons_ne_nil _ _, content⟩, bounded⟩⟩

theorem Stands.write_text (stands : Stands p written) {text : List UInt8} (noNul : 0 ∉ text)
    (room : written.length + text.length + 1 ≤ p.buffer.length) :
    ∃ after, p.write (text ++ [0]) = .ok after ∧ Printed after written text ∧
      Printed (after.advance text.length) written text ∧
      Stands (after.advance text.length) (written ++ text) := by
  obtain ⟨after, done, filled⟩ := stands.write (show (written ++ (text ++ [0])).length ≤ _ by
    simp only [List.length_append, List.length_singleton]
    omega)
  rw [← List.append_assoc] at filled
  exact ⟨after, done, stands.printed noNul filled⟩

theorem strlen_text {text : List UInt8} (noNul : 0 ∉ text) (rest : List (Option UInt8)) :
    strlen (text.map some ++ some 0 :: rest) = .ok text.length := by
  induction text with
  | nil => rfl
  | cons byte text ih =>
      rw [List.mem_cons, not_or] at noNul
      rw [List.map_cons, List.cons_append, strlen, if_neg (Ne.symm noNul.1), ih noNul.2]
      rfl

theorem Printed.updateOffset {text : List UInt8} (printed : Printed p written text) :
    ∃ after, Cjson.updateOffset p = .ok after ∧ after.buffer = p.buffer ∧
      Stands after (written ++ text) := by
  obtain ⟨done, rest, rfl, noNul, offset⟩ := printed.place
  obtain ⟨more, content⟩ := printed.content
  have behind : p.buffer.drop p.offset = rest.map some ++ some 0 :: more := by
    rw [content, offset, ← List.append_assoc, List.map_append, List.append_assoc,
      ← List.length_map some, List.drop_left]
  refine ⟨p.advance rest.length, ?_, rfl, ⟨?_, ⟨some 0 :: more, List.cons_ne_nil _ _, content⟩,
    printed.bounded⟩⟩
  · rw [Cjson.updateOffset, behind, strlen_text noNul]
    rfl
  · simp only [PrintBuffer.advance, offset, List.length_append, Nat.add_assoc]

variable {bytes : List UInt8} {total : Nat} {last : PrintBuffer → Prop}
  {next : PrintBuffer → Except Failure PrintBuffer}

theorem Stands.pass (stands : Stands p written) {needed : Nat} (enough : bytes.length ≤ needed)
    (le : written.length + needed + 1 ≤ total)
    (later : ∀ after, Stands (after.advance bytes.length) (written ++ bytes) →
      Attains total last (next after)) :
    Attains total last (do
      let p ← p.ensure needed
      let p ← p.write bytes
      next p) := by
  refine (ensure_attains stands needed).bind le fun after _ ensured => ?_
  obtain ⟨kept, room⟩ := ensured
  obtain ⟨passed, done, reached⟩ := kept.write_advance
    (show (written ++ bytes).length < after.buffer.length by rw [List.length_append]; omega)
  rw [done]
  exact later _ reached

theorem Stands.emit (stands : Stands p written) (noNul : 0 ∉ bytes)
    (le : written.length + bytes.length + 2 ≤ total)
    (later : ∀ after, written.length + bytes.length + 2 ≤ largestInt →
      Stands (after.advance bytes.length) (written ++ bytes) → Attains total last (next after)) :
    Attains total last (do
      let p ← p.ensure (bytes.length + 1)
      let p ← p.write (bytes ++ [0])
      next p) := by
  refine (ensure_attains stands (bytes.length + 1)).bind (by omega) fun after fits ensured => ?_
  obtain ⟨kept, room⟩ := ensured
  obtain ⟨passed, done, _, _, reached⟩ := kept.write_text noNul (by omega)
  rw [done]
  exact later _ (by omega) reached

theorem Attains.updateOffset {size : Nat} {text : List UInt8}
    {result : Except Failure PrintBuffer}
    (attains : Attains size (fun after => Printed after written text) result) (le : size ≤ total)
    (later : ∀ after, size ≤ largestInt → Stands after (written ++ text) →
      Attains total last (next after)) :
    Attains total last (do
      let p ← result
      let p ← Cjson.updateOffset p
      next p) := by
  refine attains.bind le fun after fits printed => ?_
  obtain ⟨moved, updated, _, reached⟩ := printed.updateOffset
  rw [updated]
  exact later moved fits reached

end

/-! ### What every function prints -/

/-- Wherever printing stands, the text is printed there. -/
def Prints (print : PrintBuffer → Except Failure PrintBuffer) (text : List UInt8) : Prop :=
  ∀ p written, Stands p written →
    Attains (written.length + text.length + 2) (fun after => Printed after written text) (print p)

theorem prints_literal (text : List Char) (noNul : 0 ∉ bytesOf text) :
    Prints (printLiteral text) (bytesOf text) := by
  have length : text.length = (bytesOf text).length := (List.length_map _).symm
  intro p written stands
  rw [printLiteral, length]
  refine (ensure_attains stands _).bind le_rfl fun after fits ensured => ?_
  obtain ⟨kept, room⟩ := ensured
  obtain ⟨last, done, printed, _⟩ := kept.write_text noNul (by omega)
  exact .of_ok fits done printed

theorem zero_not_mem_of_numeric {text : List UInt8} (numeric : ∀ byte ∈ text, isNumeric byte = true) :
    0 ∉ text := by
  intro zero
  exact absurd (numeric 0 zero) (by decide)

theorem zero_not_mem_numberText (valuedouble : Double) : 0 ∉ numberText valuedouble := by
  cases valuedouble with
  | finite negative magnitude => exact zero_not_mem_of_numeric (finiteText_numeric negative magnitude)
  | infinite negative => exact (by decide : 0 ∉ bytesOf ['n', 'u', 'l', 'l'])
  | nan => exact (by decide : 0 ∉ bytesOf ['n', 'u', 'l', 'l'])

theorem readString_text {text : List UInt8} (noNul : 0 ∉ text) (rest : List (Option UInt8)) :
    readString (text.map some ++ some 0 :: rest) = .ok text := by
  induction text with
  | nil => rfl
  | cons byte text ih =>
      rw [List.mem_cons, not_or] at noNul
      rw [List.map_cons, List.cons_append, readString, if_neg (Ne.symm noNul.1), ih noNul.2]
      rfl

theorem readBytes_text (text : List UInt8) (rest : List (Option UInt8)) :
    readBytes text.length (text.map some ++ rest) = .ok text := by
  induction text with
  | nil => rfl
  | cons byte text ih =>
      rw [List.length_cons, List.map_cons, List.cons_append, readBytes, ih]
      rfl

def Formatted (buffer : PrintBuffer) (text : List UInt8) : Prop :=
  Filled numberBuffer buffer (text ++ [0])

theorem sprintf_formatted {buffer : PrintBuffer} (fresh : Filled numberBuffer buffer [])
    {text : List UInt8} (short : text.length ≤ 24) :
    ∃ after, sprintf text buffer = .ok (after, text.length) ∧ Formatted after text := by
  obtain ⟨after, done, formatted⟩ := fresh.writeAt (show ([] ++ (text ++ [0])).length ≤ 26 by
    simp only [List.nil_append, List.length_append, List.length_singleton]
    omega)
  refine ⟨after, ?_, formatted⟩
  rw [sprintf, PrintBuffer.write, fresh.offset]
  exact congrArg (· >>= _) done

theorem Formatted.readString {buffer : PrintBuffer} {text : List UInt8}
    (formatted : Formatted buffer text) (noNul : 0 ∉ text) :
    Cjson.readString buffer.buffer = .ok text := by
  obtain ⟨rest, content⟩ := formatted.content
  rw [content, List.map_append, List.append_assoc]
  exact readString_text noNul rest

theorem filled_numberBuffer : Filled numberBuffer numberBuffer [] := ⟨rfl, rfl, _, rfl⟩

/-- Neither of the two texts that a number is tried as leaves `number_buffer`. -/
theorem formatNumber_eq (valuedouble : Double) :
    ∃ buffer, formatNumber valuedouble = .ok (buffer, (numberText valuedouble).length) ∧
      Formatted buffer (numberText valuedouble) := by
  cases valuedouble with
  | finite negative magnitude =>
      obtain ⟨tried, first, formatted⟩ := sprintf_formatted filled_numberBuffer
        (length_signedText_le negative (show 14 ≤ 16 by omega) magnitude)
      have rewritable : Filled numberBuffer tried [] := ⟨formatted.offset, formatted.size, _, rfl⟩
      obtain ⟨again, second, formattedAgain⟩ := sprintf_formatted rewritable
        (length_signedText_le negative (le_refl 16) magnitude)
      have read := formatted.readString
        (zero_not_mem_of_numeric (signedText_numeric negative 14 magnitude))
      rw [formatNumber, first]
      change ∃ buffer, (Cjson.readString tried.buffer >>= _) = _ ∧ _
      rw [read, numberText, finiteText]
      dsimp only [bind, Except.bind]
      cases strtod binary64 (signText negative ++ magnitudeText 14 magnitude) with
      | none => exact ⟨again, second, formattedAgain⟩
      | some result =>
          dsimp only
          split
          · exact ⟨tried, rfl, formatted⟩
          · exact ⟨again, second, formattedAgain⟩
  | infinite negative => exact sprintf_formatted filled_numberBuffer (by decide)
  | nan => exact sprintf_formatted filled_numberBuffer (by decide)

theorem prints_number (valuedouble : Double) :
    Prints (printNumber valuedouble) (numberText valuedouble) := by
  obtain ⟨buffer, formatted, filled⟩ := formatNumber_eq valuedouble
  obtain ⟨rest, content⟩ := filled.content
  have short : ¬buffer.buffer.length - 1 < (numberText valuedouble).length := by
    rw [content]
    simp
  have read : readBytes (numberText valuedouble).length buffer.buffer = .ok (numberText valuedouble) := by
    rw [content, List.map_append, List.append_assoc]
    exact readBytes_text _ _
  intro p written stands
  rw [printNumber, formatted]
  change Attains _ _ (if _ then _ else _)
  rw [if_neg short, read]
  refine (ensure_attains stands _).bind le_rfl fun after fits ensured => ?_
  obtain ⟨kept, room⟩ := ensured
  obtain ⟨last, done, _, printed, _⟩ :=
    kept.write_text (zero_not_mem_numberText valuedouble) (by omega)
  change Attains _ _ (after.write (numberText valuedouble ++ [0]) >>= _)
  rw [done]
  exact .of_ok fits rfl printed

theorem escape_spec (byte : UInt8) :
    (escape byte).length = escapeCharacters byte + 1 ∧
      (escapeCharacters byte = 0 → escape byte = [byte]) := by
  by_cases special : byte = '"'.toUInt8 ∨ byte = '\\'.toUInt8 ∨ byte = 8 ∨ byte = 12 ∨ byte = 10 ∨
      byte = 13 ∨ byte = 9
  · rcases special with rfl | rfl | rfl | rfl | rfl | rfl | rfl <;> decide
  · simp only [escapeCharacters, if_neg special]
    simp only [not_or] at special
    obtain ⟨notQuote, notSlash, notB, notF, notN, notR, notT⟩ := special
    by_cases control : byte < 32
    · have hidden : ¬(byte > 31 ∧ byte ≠ '"'.toUInt8 ∧ byte ≠ '\\'.toUInt8) := by
        rintro ⟨above, _⟩
        rw [gt_iff_lt, UInt8.lt_iff_toNat_lt] at above
        rw [UInt8.lt_iff_toNat_lt] at control
        exact absurd (Nat.lt_of_lt_of_le above (Nat.le_of_lt_succ control)) (lt_irrefl _)
      rw [if_pos control, escape, if_neg hidden, if_neg notSlash, if_neg notQuote, if_neg notB,
        if_neg notF, if_neg notN, if_neg notR, if_neg notT]
      exact ⟨rfl, fun none => absurd none (by omega)⟩
    · have visible : byte > 31 := by
        rw [UInt8.lt_iff_toNat_lt] at control
        rw [gt_iff_lt, UInt8.lt_iff_toNat_lt]
        exact Nat.lt_of_succ_le (not_lt.mp control)
      rw [if_neg control, escape, if_pos ⟨visible, notQuote, notSlash⟩]
      exact ⟨rfl, fun _ => rfl⟩

theorem length_flatMap_escape (string : List UInt8) :
    (string.flatMap escape).length = string.length + (string.map escapeCharacters).sum := by
  induction string with
  | nil => rfl
  | cons byte string ih =>
      rw [List.flatMap_cons, List.length_append, (escape_spec byte).1, ih, List.length_cons,
        List.map_cons, List.sum_cons]
      omega

theorem flatMap_escape_of_none {string : List UInt8}
    (none : (string.map escapeCharacters).sum = 0) : string.flatMap escape = string := by
  induction string with
  | nil => rfl
  | cons byte string ih =>
      rw [List.map_cons, List.sum_cons] at none
      rw [List.flatMap_cons, (escape_spec byte).2 (by omega), ih (by omega)]
      rfl

theorem hexDigit_ne_zero {value : Nat} (small : value < 16) : hexDigit value ≠ 0 := by
  revert value
  decide

theorem zero_not_mem_escape {byte : UInt8} (notNul : byte ≠ 0) : 0 ∉ escape byte := by
  have escaped := escaped_escape byte
  generalize escape byte = text at escaped
  intro zero
  cases escaped with
  | plain => exact notNul (List.mem_singleton.mp zero).symm
  | letter letter named =>
      simp only [List.mem_cons, List.not_mem_nil, or_false] at zero
      rcases zero with zero | rfl
      · exact absurd zero (by decide)
      · have unnamed : simpleEscape 0 = none := by decide
        rw [unnamed] at named
        cases named
  | code control =>
      have high := hexDigit_ne_zero (show byte.toNat / 16 < 16 by omega)
      have low := hexDigit_ne_zero (show byte.toNat % 16 < 16 by omega)
      simp only [List.mem_cons, List.not_mem_nil, or_false] at zero
      rcases zero with zero | zero | zero | zero | zero | zero
      · exact absurd zero (by decide)
      · exact absurd zero (by decide)
      · exact absurd zero (by decide)
      · exact absurd zero (by decide)
      · exact high zero.symm
      · exact low zero.symm

theorem zero_not_mem_stringText (string : CString) : 0 ∉ stringText string := by
  intro zero
  rcases List.mem_cons.mp zero with zero | zero
  · exact absurd zero (by decide)
  · rcases List.mem_append.mp zero with zero | zero
    · obtain ⟨byte, mem, zero⟩ := List.mem_flatMap.mp zero
      exact zero_not_mem_escape (ne_of_mem_of_not_mem mem string.noNul) zero
    · exact absurd (List.mem_singleton.mp zero) (by decide)

/-- The NUL behind an escape is inside the buffer, as the closing quote is still to come. -/
theorem Filled.printCharacters {before p : PrintBuffer} {front : List UInt8}
    (filled : Filled before p front) {string : List UInt8}
    (room : (front ++ string.flatMap escape).length < before.buffer.length) :
    ∃ after, Cjson.printCharacters string front.length p = .ok after ∧
      Filled before after (front ++ string.flatMap escape) := by
  induction string generalizing p front with
  | nil =>
      refine ⟨p, rfl, ?_⟩
      rw [List.flatMap_nil, List.append_nil]
      exact filled
  | cons byte string ih =>
      rw [List.flatMap_cons, ← List.append_assoc] at room ⊢
      have nul : (if escapeCharacters byte = 5 then [0] else [] : List UInt8).length ≤ 1 := by
        split <;> simp
      obtain ⟨next, done, escaped⟩ := filled.writeAt
        (show (front ++ (escape byte ++ if escapeCharacters byte = 5 then [0] else [])).length ≤ _ by
          simp only [List.length_append] at room ⊢
          omega)
      rw [← List.append_assoc] at escaped
      obtain ⟨after, rest, copied⟩ := ih escaped.of_append room
      refine ⟨after, ?_, copied⟩
      rw [List.length_append] at rest
      rw [Cjson.printCharacters, done]
      exact rest

theorem prints_string (string : CString) : Prints (printStringPtr string) (stringText string) := by
  have length := length_flatMap_escape string.bytes
  have textLength : (stringText string).length = (string.bytes.flatMap escape).length + 2 := by
    rw [stringText, List.length_cons, List.length_append, List.length_singleton]
  have noNul := zero_not_mem_stringText string
  intro p written stands
  have ensured := ensure_attains stands
    (string.bytes.length + (string.bytes.map escapeCharacters).sum + 3)
  rw [printStringPtr]
  refine ensured.bind (by omega) fun start fits ensured => ?_
  obtain ⟨kept, room⟩ := ensured
  split
  · rename_i none
    have same : '"'.toUInt8 :: (string.bytes ++ ['"'.toUInt8, 0]) = stringText string ++ [0] := by
      rw [stringText, flatMap_escape_of_none none]
      simp
    obtain ⟨last, done, printed, _⟩ := kept.write_text noNul (by omega)
    rw [same]
    exact .of_ok (by omega) done printed
  · obtain ⟨opened, first, quoted⟩ := kept.write (show (written ++ ['"'.toUInt8]).length ≤ _ by
      rw [List.length_append, List.length_singleton]
      omega)
    obtain ⟨copied, second, filled⟩ := quoted.printCharacters
      (show (written ++ ['"'.toUInt8] ++ string.bytes.flatMap escape).length < _ by
        simp only [List.length_append, List.length_singleton]
        omega)
    obtain ⟨last, third, closed⟩ := filled.writeAt
      (show (written ++ ['"'.toUInt8] ++ string.bytes.flatMap escape ++ ['"'.toUInt8, 0]).length ≤ _ by
        simp only [List.length_append, List.length_cons, List.length_nil]
        omega)
    have text : written ++ ['"'.toUInt8] ++ string.bytes.flatMap escape ++ ['"'.toUInt8, 0] =
        written ++ stringText string ++ [0] := by simp [stringText]
    have inside : opened.offset + 1 = (written ++ ['"'.toUInt8]).length := by
      rw [quoted.offset, kept.offset, List.length_append, List.length_singleton]
    have behind : copied.offset +
        (string.bytes.length + (string.bytes.map escapeCharacters).sum + 1) =
        (written ++ ['"'.toUInt8] ++ string.bytes.flatMap escape).length := by
      rw [filled.offset, kept.offset]
      simp only [List.length_append, List.length_singleton]
      omega
    rw [text] at closed
    rw [first]
    change Attains _ _ (Cjson.printCharacters string.bytes (opened.offset + 1) opened >>= _)
    rw [inside, second]
    refine .of_ok (by omega) ?_ (kept.printed noNul closed).1
    change copied.writeAt (copied.offset + _) _ = _
    rw [behind]
    exact third

theorem printElements_attains {child : List Item} (nonempty : child ≠ [])
    (prints : ∀ item ∈ child, Prints (printValue item) item.text) {p : PrintBuffer}
    {written : List UInt8} (stands : Stands p written) :
    Attains (written.length + (commaSeparated (child.map Item.text)).length + 2)
      (fun after => Stands after (written ++ commaSeparated (child.map Item.text)))
      (printElements child p) := by
  induction child generalizing p written with
  | nil => exact absurd rfl nonempty
  | cons item rest ih =>
      obtain ⟨first, later⟩ := List.forall_mem_cons.mp prints
      rw [printElements]
      cases rest with
      | nil =>
          exact (first p written stands).updateOffset le_rfl fun after fits reached =>
            .of_ok fits rfl reached
      | cons next rest =>
          have shape : commaSeparated ((item :: next :: rest).map Item.text) =
              item.text ++ ([','.toUInt8] ++ commaSeparated ((next :: rest).map Item.text)) := rfl
          rw [shape, List.length_append, List.length_append, List.length_singleton]
          refine (first p written stands).updateOffset (by omega) fun after _ reached => ?_
          refine reached.emit (show 0 ∉ [','.toUInt8] by decide) ?_ fun passed _ behind => ?_
          · rw [List.length_append, List.length_singleton]
            omega
          · have tail := ih (List.cons_ne_nil _ _) later behind
            simpa only [List.length_append, List.length_singleton, List.append_assoc,
              Nat.add_assoc] using tail

theorem memberText_eq (name : CString) (item : Item) :
    memberText (name, item) = stringText name ++ ([':'.toUInt8] ++ item.text) := rfl

theorem Stands.member {p : PrintBuffer} {written : List UInt8} (stands : Stands p written)
    (name : CString) {item : Item} (prints : Prints (printValue item) item.text) {total : Nat}
    {last : PrintBuffer → Prop} {next : PrintBuffer → Except Failure PrintBuffer}
    (le : written.length + (memberText (name, item)).length + 2 ≤ total)
    (later : ∀ after, Stands after (written ++ memberText (name, item)) →
      Attains total last (next after)) :
    Attains total last (do
      let p ← printStringPtr name p
      let p ← updateOffset p
      let p ← p.ensure 1
      let p ← p.write [':'.toUInt8]
      let p ← printValue item (p.advance 1)
      let p ← updateOffset p
      next p) := by
  rw [memberText_eq] at le later
  simp only [List.length_append, List.length_singleton] at le
  refine (prints_string name p written stands).updateOffset (by omega) fun named _ reached => ?_
  refine reached.pass (show [':'.toUInt8].length ≤ 1 from le_rfl) ?_ fun colon behind => ?_
  · rw [List.length_append]
    omega
  · refine (prints _ _ behind).updateOffset ?_ fun value _ reached => ?_
    · simp only [List.length_append, List.length_singleton]
      omega
    · rw [List.append_assoc, List.append_assoc] at reached
      exact later value reached

theorem printMembers_attains {child : List (CString × Item)} (nonempty : child ≠ [])
    (prints : ∀ member ∈ child, Prints (printValue member.2) member.2.text) {p : PrintBuffer}
    {written : List UInt8} (stands : Stands p written) :
    Attains (written.length + (commaSeparated (child.map memberText)).length + 2)
      (fun after => Stands after (written ++ commaSeparated (child.map memberText)))
      (printMembers child p) := by
  induction child generalizing p written with
  | nil => exact absurd rfl nonempty
  | cons member rest ih =>
      obtain ⟨name, item⟩ := member
      obtain ⟨first, later⟩ := List.forall_mem_cons.mp prints
      dsimp only at first
      rw [printMembers]
      cases rest with
      | nil =>
          simp only [List.isEmpty_nil, if_true]
          refine stands.member name first le_rfl fun after reached => ?_
          refine reached.emit List.not_mem_nil ?_ fun ended fits behind => ?_
          · rw [List.length_append]
            exact le_rfl
          · rw [List.length_append] at fits
            rw [List.append_nil] at behind
            exact .of_ok fits rfl behind
      | cons next rest =>
          simp only [List.isEmpty_cons, Bool.false_eq_true, if_false]
          have shape : commaSeparated (((name, item) :: next :: rest).map memberText) =
              memberText (name, item) ++
                ([','.toUInt8] ++ commaSeparated ((next :: rest).map memberText)) := rfl
          rw [shape, List.length_append, List.length_append, List.length_singleton]
          refine stands.member name first (by omega) fun after reached => ?_
          refine reached.emit (show 0 ∉ [','.toUInt8] by decide) ?_ fun passed _ behind => ?_
          · rw [List.length_append, List.length_singleton]
            omega
          · have tail := ih (List.cons_ne_nil _ _) later behind
            simpa only [List.length_append, List.length_singleton, List.append_assoc,
              Nat.add_assoc] using tail

theorem Printed.of_front {p : PrintBuffer} {written front text : List UInt8}
    (printed : Printed p (written ++ front) text) : Printed p written (front ++ text) := by
  obtain ⟨done, rest, same, noNul, offset⟩ := printed.place
  obtain ⟨more, content⟩ := printed.content
  refine ⟨⟨front ++ done, rest, ?_, noNul, ?_⟩, ⟨more, ?_⟩, printed.bounded⟩
  · rw [same, List.append_assoc]
  · rw [offset, List.append_assoc]
  · rw [content, List.append_assoc]

theorem Stands.close {p : PrintBuffer} {written front : List UInt8}
    (stands : Stands p (written ++ front)) {bracket : UInt8} (noNul : 0 ∉ [bracket]) :
    Attains (written.length + front.length + 3)
      (fun after => Printed after written (front ++ [bracket])) (do
      let p ← p.ensure 2
      p.write [bracket, 0]) := by
  have ensured := ensure_attains stands 2
  rw [List.length_append] at ensured
  refine ensured.bind le_rfl fun after fits kept => ?_
  obtain ⟨kept, room⟩ := kept
  obtain ⟨last, done, printed, _⟩ := kept.write_text noNul (by
    rw [List.length_append, List.length_singleton]
    omega)
  exact .of_ok fits done printed.of_front

theorem prints_bracketed {loop : PrintBuffer → Except Failure PrintBuffer} {body : List UInt8}
    {opening closing : UInt8} {needed : Nat} (some : 1 ≤ needed) (few : needed ≤ 2)
    (noNul : 0 ∉ [closing])
    (prints : (body = [] ∧ ∀ p, loop p = .ok p) ∨
      ∀ p written, Stands p written →
        Attains (written.length + body.length + 2) (fun after => Stands after (written ++ body))
          (loop p)) :
    Prints (fun p => do
      let p ← p.ensure needed
      let p ← p.write [opening]
      let p ← loop (p.advance 1)
      let p ← p.ensure 2
      p.write [closing, 0]) (opening :: (body ++ [closing])) := by
  intro p written stands
  have shape : opening :: (body ++ [closing]) = ([opening] ++ body) ++ [closing] := rfl
  have size : written.length + (opening :: (body ++ [closing])).length + 2 =
      written.length + ([opening] ++ body).length + 3 := by
    rw [shape, List.length_append, List.length_singleton]
    omega
  rw [size, shape]
  refine stands.pass (show [opening].length ≤ needed from some) ?_ fun opened behind => ?_
  · rw [List.length_append, List.length_singleton]
    omega
  · rcases prints with ⟨rfl, nothing⟩ | prints
    · rw [List.append_nil, nothing]
      exact behind.close noNul
    · have attains := prints _ _ behind
      rw [List.length_append] at attains ⊢
      refine attains.bind (by omega) fun after _ reached => ?_
      rw [List.append_assoc] at reached
      have closed := reached.close noNul
      rw [List.length_append] at closed
      exact closed

theorem prints_array {child : List Item}
    (prints : ∀ item ∈ child, Prints (printValue item) item.text) :
    Prints (printValue (.array child)) (Item.array child).text := by
  rw [Item.text, elementTexts_eq]
  refine prints_bracketed le_rfl (by omega) (by decide) ?_
  by_cases empty : child = []
  · subst empty
    exact .inl ⟨rfl, fun _ => rfl⟩
  · exact .inr fun _ _ stands => printElements_attains empty prints stands

theorem prints_object {child : List (CString × Item)}
    (prints : ∀ member ∈ child, Prints (printValue member.2) member.2.text) :
    Prints (printValue (.object child)) (Item.object child).text := by
  rw [Item.text, memberTexts_eq]
  refine prints_bracketed (by omega) le_rfl (by decide) ?_
  by_cases empty : child = []
  · subst empty
    exact .inl ⟨rfl, fun _ => rfl⟩
  · exact .inr fun _ _ stands => printMembers_attains empty prints stands

theorem prints_value (item : Item) : Prints (printValue item) item.text := by
  induction item using Item.induct with
  | null => exact prints_literal _ (by decide)
  | false => exact prints_literal _ (by decide)
  | true => exact prints_literal _ (by decide)
  | number valuedouble => exact prints_number valuedouble
  | string valuestring => exact prints_string valuestring
  | array child elements => exact prints_array elements
  | object child members => exact prints_object members

/-! ### The printed text -/

theorem zero_not_mem_commaSeparated {texts : List (List UInt8)} (noNul : ∀ text ∈ texts, 0 ∉ text) :
    0 ∉ commaSeparated texts := by
  induction texts with
  | nil => exact List.not_mem_nil
  | cons text texts ih =>
      obtain ⟨first, later⟩ := List.forall_mem_cons.mp noNul
      cases texts with
      | nil => exact first
      | cons next texts =>
          rw [commaSeparated, List.mem_append, List.mem_cons, not_or, not_or]
          exact ⟨first, by decide, ih later⟩

theorem zero_not_mem_bracketed {opening closing : UInt8} {texts : List (List UInt8)}
    (noNul : ∀ text ∈ texts, 0 ∉ text) (brackets : 0 ≠ opening ∧ 0 ≠ closing) :
    0 ∉ opening :: (commaSeparated texts ++ [closing]) := by
  rw [List.mem_cons, List.mem_append, List.mem_singleton, not_or, not_or]
  exact ⟨brackets.1, zero_not_mem_commaSeparated noNul, brackets.2⟩

theorem zero_not_mem_text (item : Item) : 0 ∉ item.text := by
  induction item using Item.induct with
  | null => decide
  | false => decide
  | true => decide
  | number valuedouble => exact zero_not_mem_numberText valuedouble
  | string valuestring => exact zero_not_mem_stringText valuestring
  | array child elements =>
      rw [Item.text, elementTexts_eq]
      exact zero_not_mem_bracketed (List.forall_mem_map.mpr elements) (by decide)
  | object child members =>
      rw [Item.text, memberTexts_eq]
      refine zero_not_mem_bracketed (List.forall_mem_map.mpr fun member mem => ?_) (by decide)
      rw [memberText, List.mem_append, List.mem_cons, not_or, not_or]
      exact ⟨zero_not_mem_stringText member.1, by decide, members member mem⟩

theorem stands_start : Stands ⟨List.replicate 256 none, 0⟩ [] :=
  ⟨rfl, ⟨List.replicate 256 none, by decide, rfl⟩, by rw [List.length_replicate]; decide⟩

theorem printUnformatted_eq (item : Item) :
    printUnformatted item =
      if item.text.length + 2 ≤ largestInt then .ok item.text else .error .refused := by
  rcases prints_value item _ _ stands_start with ⟨fits, p, printed, done⟩ | ⟨large, refused⟩
  · rw [List.length_nil, Nat.zero_add] at fits
    obtain ⟨moved, updated, kept, reached⟩ := done.updateOffset
    obtain ⟨more, content⟩ := done.content
    have shrunk : (moved.reallocate (moved.offset + 1)).buffer = item.text.map some ++ [some 0] := by
      rw [PrintBuffer.reallocate, kept, content, reached.offset, List.nil_append]
      simp [List.take_append]
    rw [if_pos fits, printUnformatted, printed]
    change (Cjson.updateOffset p >>= fun p => readString (p.reallocate (p.offset + 1)).buffer) = _
    rw [updated]
    change readString (moved.reallocate (moved.offset + 1)).buffer = _
    rw [shrunk]
    exact readString_text (zero_not_mem_text item) []
  · rw [List.length_nil, Nat.zero_add] at large
    rw [if_neg (by omega), printUnformatted, refused]
    rfl

/-! ### Parsing what was printed -/

def Item.printed (item : Item) : CString := ⟨item.text, zero_not_mem_text item⟩

theorem parse_printed (item : Item) :
    parse item.printed = if item.depth ≤ nestingLimit then some item.asPrinted else none := by
  obtain ⟨byte, rest, starts, opens⟩ := text_starts item
  have noBom : skipUtf8Bom (item.text ++ [0]) = item.text ++ [0] := by
    rw [skipUtf8Bom, if_neg]
    rintro ⟨_, bom⟩
    rw [starts, List.cons_append, List.isPrefixOf_cons_cons, Bool.and_eq_true, beq_iff_eq] at bom
    rw [← bom.1] at opens
    exact absurd opens (by decide)
  have visible : skipWhitespace (item.text ++ [0]) = item.text ++ [0] := by
    rw [starts, List.cons_append]
    exact skipWhitespace_of_lt (opensValue_visible opens) _
  rw [parse, Item.printed, noBom, visible, readsBack item _ _ (stops_cons rfl [])]
  split <;> rfl

def reparse (item : Item) : Except Failure (Option Item) :=
  (printUnformatted item).map fun text => parse (CString.ofBuffer text)

theorem reparse_eq (item : Item) :
    reparse item =
      if item.text.length + 2 ≤ largestInt then
        .ok (if item.depth ≤ nestingLimit then some item.asPrinted else none)
      else .error .refused := by
  rw [reparse, printUnformatted_eq]
  split
  · rw [← parse_printed item]
    exact congrArg (fun text => Except.ok (parse text)) (ofBuffer_bytes item.printed)
  · rfl

end NetPolicy.Cjson
