/-
Strings in a text.

`parse_string` measures a string before it decodes it, and the two need not agree where the
characters begin: behind `\u` with anything but four digits the decoding goes on six characters
later, whatever the measuring took for an escape.  What is written fits the measured output
buffer all the same.  A printed string reads as the string.
-/

import NetPolicy.Cjson.Parsing

namespace NetPolicy.Cjson

open BinaryFormats DecimalNotation

/-! ### The output buffer -/

def inEscape (inside : Bool) (byte : UInt8) : Bool := !inside && byte == '\\'.toUInt8

/-- The escapes that the measuring finds in a text, from within an escape or not. -/
def skips : Bool → List UInt8 → Nat
  | _, [] => 0
  | inside, byte :: rest => (inEscape inside byte).toNat + skips (inEscape inside byte) rest

def Closes : Bool → List UInt8 → Prop
  | inside, [] => inside = false
  | inside, byte :: rest => Closes (inEscape inside byte) rest

theorem inEscape_of_ne {byte : UInt8} (plain : byte ≠ '\\'.toUInt8) (inside : Bool) :
    inEscape inside byte = false := by
  simp [inEscape, plain]

theorem toNat_inEscape_add_le (inside : Bool) (byte : UInt8) :
    (inEscape inside byte).toNat + inside.toNat ≤ 1 := by
  cases inside
  · exact Bool.toNat_le _
  · rfl

theorem measure_skips {buffer : List UInt8} {literal : Literal}
    (measured : measure buffer = some literal) :
    literal.skipped = skips false literal.inner ∧ Closes false literal.inner := by
  fun_induction measure buffer generalizing literal with
  | case1 => cases measured
  | case2 rest =>
      cases measured
      exact ⟨rfl, rfl⟩
  | case3 => cases measured
  | case4 notQuote next rest ih =>
      obtain ⟨later, laterMeasured, rfl⟩ := Option.map_eq_some_iff.mp measured
      obtain ⟨count, closes⟩ := ih laterMeasured
      constructor
      · change later.skipped + 1 = 1 + (0 + skips false later.inner)
        omega
      · exact closes
  | case5 byte rest notQuote notSlash ih =>
      obtain ⟨later, laterMeasured, rfl⟩ := Option.map_eq_some_iff.mp measured
      obtain ⟨count, closes⟩ := ih laterMeasured
      have plain := inEscape_of_ne notSlash false
      constructor
      · change later.skipped + 0 = (inEscape false byte).toNat + skips (inEscape false byte) later.inner
        rw [plain, count, Bool.toNat_false, zero_add, add_zero]
      · change Closes (inEscape false byte) later.inner
        rw [plain]
        exact closes

/-- In any window at most every other character begins an escape. -/
theorem skips_drop (count : Nat) {inside : Bool} {text : List UInt8} (closes : Closes inside text) :
    ∃ later, Closes later (text.drop count) ∧
      2 * skips inside text + inside.toNat ≤
        2 * skips later (text.drop count) + count + later.toNat := by
  induction count generalizing inside text with
  | zero => exact ⟨inside, closes, by rw [List.drop_zero]; omega⟩
  | succ count ih =>
      cases text with
      | nil =>
          obtain rfl : inside = false := closes
          exact ⟨false, rfl, by rw [List.drop_nil]; omega⟩
      | cons byte rest =>
          have closesRest : Closes (inEscape inside byte) rest := closes
          obtain ⟨later, laterCloses, bound⟩ := ih closesRest
          refine ⟨later, laterCloses, ?_⟩
          have turn := toNat_inEscape_add_le inside byte
          rw [List.drop_succ_cons, skips]
          omega

theorem length_utf8Encode {codepoint : Nat} {bytes : List UInt8}
    (encoded : utf8Encode codepoint = some bytes) :
    bytes.length ≤ 4 ∧ (codepoint < 0x10000 → bytes.length ≤ 3) := by
  unfold utf8Encode at encoded
  split at encoded
  · cases encoded
    simp
  · split at encoded
    · cases encoded
      simp
    · split at encoded
      · cases encoded
        simp
      · split at encoded
        · cases encoded
          simp only [List.length_cons, List.length_nil]
          omega
        · cases encoded

theorem hexValue_lt {byte : UInt8} {value : Nat} (read : hexValue byte = some value) :
    value < 16 := by
  simp only [hexValue, UInt8.le_iff_toNat_le] at read
  have digits : '9'.toUInt8.toNat = 57 ∧ 'F'.toUInt8.toNat = 70 ∧ 'f'.toUInt8.toNat = 102 := by
    decide
  have letters : '0'.toNat = 48 ∧ 'A'.toNat = 65 ∧ 'a'.toNat = 97 := by decide
  split at read
  · cases read
    omega
  · split at read
    · cases read
      omega
    · split at read
      · cases read
        omega
      · cases read

theorem parseHex4_lt (a b c d : UInt8) : parseHex4 a b c d < 0x10000 := by
  unfold parseHex4
  split
  · rename_i first second third fourth
    have := hexValue_lt first
    have := hexValue_lt second
    have := hexValue_lt third
    have := hexValue_lt fourth
    omega
  · omega

theorem utf16_bounds {input bytes : List UInt8} {read : Nat}
    (literal : utf16LiteralToUtf8 input = some (bytes, read)) :
    read = 6 ∧ bytes.length ≤ 3 ∧ 6 ≤ input.length ∨
      read = 12 ∧ bytes.length ≤ 4 ∧ 12 ≤ input.length := by
  unfold utf16LiteralToUtf8 at literal
  split at literal
  · rename_i slash letter a b c d later
    simp only [] at literal
    split at literal
    · cases literal
    · split at literal
      · split at literal
        · split at literal
          · cases literal
          · split at literal
            · cases literal
            · obtain ⟨encoded, isEncoded, same⟩ := Option.map_eq_some_iff.mp literal
              cases same
              exact .inr ⟨rfl, (length_utf8Encode isEncoded).1, by simp⟩
        · cases literal
      · obtain ⟨encoded, isEncoded, same⟩ := Option.map_eq_some_iff.mp literal
        cases same
        exact .inl ⟨rfl, (length_utf8Encode isEncoded).2 (parseHex4_lt a b c d), by simp⟩
  · cases literal

/-- What a turn writes is made up by what it reads, in any state of the measuring. -/
theorem decodeStep_bounds {byte : UInt8} {rest written : List UInt8} {read : Nat} {inside : Bool}
    (closes : Closes inside (byte :: rest))
    (step : decodeStep byte rest = some (written, read)) :
    ∃ later, Closes later ((byte :: rest).drop read) ∧
      written.length + skips inside (byte :: rest) + ((byte :: rest).drop read).length ≤
        (byte :: rest).length + skips later ((byte :: rest).drop read) := by
  unfold decodeStep at step
  split at step
  · rename_i plain
    cases step
    refine ⟨inEscape inside byte, closes, ?_⟩
    rw [skips, inEscape_of_ne plain]
    simp only [List.drop_succ_cons, List.drop_zero, List.length_cons, List.length_nil,
      Bool.toNat_false]
    omega
  · rename_i slash
    split at step
    · rename_i character simple
      cases step
      cases rest with
      | nil =>
          -- the escaped character is the closing quote
          have outside : inEscape inside byte = false := closes
          refine ⟨false, rfl, ?_⟩
          rw [skips, outside]
          rfl
      | cons next rest =>
          have turn := toNat_inEscape_add_le (inEscape inside byte) next
          refine ⟨inEscape (inEscape inside byte) next, closes, ?_⟩
          rw [skips, skips]
          simp only [List.drop_succ_cons, List.drop_zero, List.length_cons, List.length_nil]
          omega
    · split at step
      · rename_i letter
        obtain ⟨rfl, short, long⟩ | ⟨rfl, short, long⟩ := utf16_bounds step
        · obtain ⟨later, laterCloses, bound⟩ := skips_drop 6 closes
          refine ⟨later, laterCloses, ?_⟩
          have := Bool.toNat_le later
          rw [List.length_drop]
          omega
        · obtain ⟨later, laterCloses, bound⟩ := skips_drop 12 closes
          refine ⟨later, laterCloses, ?_⟩
          have := Bool.toNat_le later
          rw [List.length_drop]
          omega
      · cases step

theorem skips_le_length (inside : Bool) (text : List UInt8) : skips inside text ≤ text.length := by
  induction text generalizing inside with
  | nil => exact Nat.zero_le _
  | cons byte rest ih =>
      have turn := Bool.toNat_le (inEscape inside byte)
      have later := ih (inEscape inside byte)
      rw [skips, List.length_cons]
      omega

theorem length_decode_le (turns : Nat) {inside : Bool} {text : List UInt8}
    (closes : Closes inside text) :
    (decode turns text).1.length + skips inside text ≤ text.length := by
  induction turns generalizing inside text with
  | zero =>
      cases text with
      | nil => rfl
      | cons byte rest =>
          rw [decode, List.length_nil, Nat.zero_add]
          exact skips_le_length inside _
  | succ turns ih =>
      cases text with
      | nil => rfl
      | cons byte rest =>
          cases step : decodeStep byte rest with
          | none =>
              simp only [decode, step, List.length_nil, Nat.zero_add]
              exact skips_le_length inside _
          | some turn =>
              obtain ⟨written, read⟩ := turn
              obtain ⟨later, laterCloses, bound⟩ := decodeStep_bounds closes step
              have rest := ih laterCloses
              simp only [decode, step, List.length_append]
              omega

theorem output_fits {buffer : List UInt8} {literal : Literal}
    (measured : measure buffer = some literal) (turns : Nat) :
    (decode turns literal.inner).1.length + 1 ≤ literal.allocated := by
  obtain ⟨skipped, closes⟩ := measure_skips measured
  have written := length_decode_le turns closes
  rw [Literal.allocated, skipped]
  omega

/-- Four backslashes where the digits of `\u` should be: two escapes to the measuring, none to
the decoding. -/
def misread : List UInt8 := bytesOf ['\\', 'u', '\\', '\\', '\\', '\\', 'x', '"']

theorem output_fits_misread :
    measure misread = some ⟨misread.take 7, 3, []⟩ ∧
      (decode 7 (misread.take 7)).1 = [0, 'x'.toUInt8] ∧
      (decode 7 (misread.take 7)).1.length + 1 ≤ Literal.allocated ⟨misread.take 7, 3, []⟩ := by
  have measured : measure misread = some ⟨misread.take 7, 3, []⟩ := by decide
  exact ⟨measured, by decide, output_fits measured 7⟩

/-! ### Printed strings -/

inductive Escaped (byte : UInt8) : List UInt8 → Prop
  | plain (notQuote : byte ≠ '"'.toUInt8) (notSlash : byte ≠ '\\'.toUInt8) : Escaped byte [byte]
  | letter (letter : UInt8) (named : simpleEscape letter = some byte) :
      Escaped byte ['\\'.toUInt8, letter]
  | code (control : byte.toNat < 32) :
      Escaped byte ['\\'.toUInt8, 'u'.toUInt8, '0'.toUInt8, '0'.toUInt8,
        hexDigit (byte.toNat / 16), hexDigit (byte.toNat % 16)]

theorem escaped_escape (byte : UInt8) : Escaped byte (escape byte) := by
  unfold escape
  split
  · rename_i plain
    exact .plain plain.2.1 plain.2.2
  · rename_i special
    split
    · exact .letter _ (by subst byte; decide)
    · rename_i notSlash
      split
      · exact .letter _ (by subst byte; decide)
      · rename_i notQuote
        have control : byte.toNat < 32 := by
          by_contra large
          refine special ⟨?_, notQuote, notSlash⟩
          rw [gt_iff_lt, UInt8.lt_iff_toNat_lt]
          exact Nat.lt_of_succ_le (not_lt.mp large)
        repeat' split
        · exact .letter _ (by subst byte; decide)
        · exact .letter _ (by subst byte; decide)
        · exact .letter _ (by subst byte; decide)
        · exact .letter _ (by subst byte; decide)
        · exact .letter _ (by subst byte; decide)
        · exact .code control

theorem Escaped.length_pos {byte : UInt8} {text : List UInt8} (escaped : Escaped byte text) :
    0 < text.length := by
  cases escaped <;> exact Nat.succ_pos _

theorem measure_quote (rest : List UInt8) :
    measure ('"'.toUInt8 :: rest) = some ⟨[], 0, rest⟩ := by
  rw [measure.eq_def]
  exact if_pos rfl

theorem measure_plain {byte : UInt8} (notQuote : byte ≠ '"'.toUInt8)
    (notSlash : byte ≠ '\\'.toUInt8) (rest : List UInt8) :
    measure (byte :: rest) = (measure rest).map fun literal => literal.after [byte] 0 := by
  rw [measure.eq_def]
  exact (if_neg notQuote).trans (if_neg notSlash)

theorem measure_pair (next : UInt8) (rest : List UInt8) :
    measure ('\\'.toUInt8 :: next :: rest) =
      (measure rest).map fun literal => literal.after ['\\'.toUInt8, next] 1 := by
  rw [measure.eq_def]
  exact (if_neg (by decide)).trans (if_pos rfl)

theorem hexDigit_plain {value : Nat} (small : value < 16) :
    hexDigit value ≠ '"'.toUInt8 ∧ hexDigit value ≠ '\\'.toUInt8 := by
  revert value
  decide

theorem measure_escaped {byte : UInt8} {text more : List UInt8} {literal : Literal}
    (escaped : Escaped byte text) (measured : measure more = some literal) :
    ∃ skipped, measure (text ++ more) = some ⟨text ++ literal.inner, skipped, literal.rest⟩ := by
  cases escaped with
  | plain notQuote notSlash =>
      exact ⟨_, by rw [List.singleton_append, measure_plain notQuote notSlash, measured]; rfl⟩
  | letter letter named =>
      exact ⟨_, by rw [List.cons_append, List.singleton_append, measure_pair, measured]; rfl⟩
  | code control =>
      have high := hexDigit_plain (show byte.toNat / 16 < 16 by omega)
      have low := hexDigit_plain (show byte.toNat % 16 < 16 by omega)
      refine ⟨literal.skipped + 1, ?_⟩
      simp only [List.cons_append, List.nil_append]
      rw [measure_pair, measure_plain (by decide) (by decide), measure_plain (by decide) (by decide),
        measure_plain high.1 high.2, measure_plain low.1 low.2, measured]
      rfl

theorem measure_string (string : List UInt8) (rest : List UInt8) :
    ∃ skipped, measure (string.flatMap escape ++ '"'.toUInt8 :: rest) =
      some ⟨string.flatMap escape, skipped, rest⟩ := by
  induction string with
  | nil => exact ⟨0, measure_quote rest⟩
  | cons byte string ih =>
      obtain ⟨skipped, measured⟩ := ih
      rw [List.flatMap_cons, List.append_assoc]
      exact measure_escaped (escaped_escape byte) measured

theorem parseHex4_code {code : Nat} (control : code < 32) :
    parseHex4 '0'.toUInt8 '0'.toUInt8 (hexDigit (code / 16)) (hexDigit (code % 16)) = code ∧
      utf8Encode code = some [UInt8.ofNat code] := by
  revert code
  decide

theorem decodeStep_escape {byte : UInt8} {text : List UInt8} (escaped : Escaped byte text)
    (more : List UInt8) :
    ∃ head tail, text ++ more = head :: tail ∧
      decodeStep head tail = some ([byte], text.length) := by
  cases escaped with
  | plain notQuote notSlash => exact ⟨byte, more, rfl, if_pos notSlash⟩
  | letter letter named =>
      refine ⟨'\\'.toUInt8, letter :: more, rfl, ?_⟩
      rw [decodeStep, if_neg (by decide), List.headD_cons, named]
      rfl
  | code control =>
      refine ⟨'\\'.toUInt8, 'u'.toUInt8 :: '0'.toUInt8 :: '0'.toUInt8 ::
        hexDigit (byte.toNat / 16) :: hexDigit (byte.toNat % 16) :: more, rfl, ?_⟩
      obtain ⟨read, encoded⟩ := parseHex4_code control
      rw [UInt8.ofNat_toNat] at encoded
      have unnamed : simpleEscape 'u'.toUInt8 = none := by decide
      have notLow : ¬(0xDC00 ≤ byte.toNat ∧ byte.toNat ≤ 0xDFFF) := by omega
      have notHigh : ¬(0xD800 ≤ byte.toNat ∧ byte.toNat ≤ 0xDBFF) := by omega
      rw [decodeStep, if_neg (by decide), List.headD_cons, unnamed]
      simp only [if_true, utf16LiteralToUtf8, read, if_neg notLow, if_neg notHigh, encoded]
      rfl

theorem decode_string {turns : Nat} {string : List UInt8} (enough : string.length ≤ turns) :
    decode turns (string.flatMap escape) = (string, true) := by
  induction string generalizing turns with
  | nil => cases turns <;> rfl
  | cons byte string ih =>
      rw [List.length_cons] at enough
      obtain ⟨turns, rfl⟩ := Nat.exists_eq_succ_of_ne_zero (show turns ≠ 0 by omega)
      obtain ⟨head, tail, text, step⟩ :=
        decodeStep_escape (escaped_escape byte) (string.flatMap escape)
      rw [List.flatMap_cons, text, decode, step, ← text]
      simp only [List.drop_left]
      rw [ih (by omega)]
      rfl

theorem length_le_flatMap_escape (string : List UInt8) :
    string.length ≤ (string.flatMap escape).length := by
  induction string with
  | nil => rfl
  | cons byte string ih =>
      have one := (escaped_escape byte).length_pos
      rw [List.flatMap_cons, List.length_append, List.length_cons]
      omega

theorem ofBuffer_bytes (string : CString) : CString.ofBuffer string.bytes = string := by
  obtain ⟨bytes, noNul⟩ := string
  have all : bytes.takeWhile (· ≠ 0) = bytes := by
    refine List.takeWhile_eq_self_iff.mpr fun byte mem => ?_
    simpa using ne_of_mem_of_not_mem mem noNul
  simp only [CString.ofBuffer, all]

theorem parseString_stringText (string : CString) (rest : List UInt8) :
    parseString (stringText string ++ rest) = some (string, rest) := by
  obtain ⟨skipped, measured⟩ := measure_string string.bytes rest
  rw [stringText, List.cons_append, List.append_assoc, List.singleton_append, parseString,
    if_pos rfl, measured]
  simp only [decode_string (length_le_flatMap_escape string.bytes), if_true, ofBuffer_bytes]

end NetPolicy.Cjson
