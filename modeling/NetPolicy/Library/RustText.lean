/-
The text operations of the Rust standard library that byte-level parsers use:
UTF-8 decoding, trimming, unsigned numbers in a radix, ASCII case folding.
-/

import Mathlib.Algebra.Group.Nat.Defs
import Mathlib.Data.List.Basic

namespace RustText

/-! ### UTF-8 -/

/-- A character of which some bytes have been read: its value so far, how many
bytes follow the next one, and the range of the next one. -/
structure Pending where
  value : Nat
  later : Nat
  low : Nat
  high : Nat

inductive Lead where
  | complete (character : Option Char)
  | pending (pending : Pending)

/-- What a first byte announces.  The narrowed ranges exclude overlong forms,
surrogates and values beyond the last code point. -/
def lead (byte : Nat) : Lead :=
  if byte < 0x80 then .complete (some (Char.ofNat byte))
  else if byte < 0xC2 then .complete none
  else if byte < 0xE0 then .pending ⟨byte % 32, 0, 0x80, 0xBF⟩
  else if byte = 0xE0 then .pending ⟨byte % 16, 1, 0xA0, 0xBF⟩
  else if byte = 0xED then .pending ⟨byte % 16, 1, 0x80, 0x9F⟩
  else if byte < 0xF0 then .pending ⟨byte % 16, 1, 0x80, 0xBF⟩
  else if byte = 0xF0 then .pending ⟨byte % 8, 2, 0x90, 0xBF⟩
  else if byte < 0xF4 then .pending ⟨byte % 8, 2, 0x80, 0xBF⟩
  else if byte = 0xF4 then .pending ⟨byte % 8, 2, 0x80, 0x8F⟩
  else .complete none

/-- The characters of a byte string, with one hole for every maximal ill-formed
part.  A byte that does not continue a character starts the next one. -/
def scanUtf8 : Option Pending → List UInt8 → List (Option Char)
  | none, [] => []
  | some _, [] => [none]
  | none, byte :: rest =>
      match lead byte.toNat with
      | .complete character => character :: scanUtf8 none rest
      | .pending pending => scanUtf8 (some pending) rest
  | some pending, byte :: rest =>
      if pending.low ≤ byte.toNat ∧ byte.toNat ≤ pending.high then
        let value := pending.value * 64 + byte.toNat % 64
        match pending.later with
        | 0 => some (Char.ofNat value) :: scanUtf8 none rest
        | later + 1 => scanUtf8 (some ⟨value, later, 0x80, 0xBF⟩) rest
      else
        none :: match lead byte.toNat with
          | .complete character => character :: scanUtf8 none rest
          | .pending pending => scanUtf8 (some pending) rest

def fromUtf8 (bytes : List UInt8) : Option (List Char) :=
  (scanUtf8 none bytes).mapM id

def fromUtf8Lossy (bytes : List UInt8) : List Char :=
  (scanUtf8 none bytes).map fun character => character.getD (Char.ofNat 0xFFFD)

theorem toNat_ofNat_ascii {code : Nat} (ascii : code < 0x80) : (Char.ofNat code).toNat = code := by
  have valid : code.isValidChar := Or.inl (by omega)
  rw [Char.ofNat, dif_pos valid]
  rfl

theorem scanUtf8_ascii {bytes : List UInt8} (ascii : ∀ byte ∈ bytes, byte.toNat < 0x80) :
    scanUtf8 none bytes = bytes.map fun byte => some (Char.ofNat byte.toNat) := by
  induction bytes with
  | nil => rfl
  | cons byte rest ih =>
      have first : lead byte.toNat = .complete (some (Char.ofNat byte.toNat)) :=
        if_pos (ascii byte List.mem_cons_self)
      rw [scanUtf8, first, List.map_cons, ← ih fun other member =>
        ascii other (List.mem_cons_of_mem byte member)]

theorem mapM_id_some (text : List Char) : (text.map some).mapM id = some text := by
  induction text with
  | nil => rfl
  | cons character rest ih =>
      rw [List.map_cons, List.mapM_cons, ih]
      rfl

theorem fromUtf8_ascii {bytes : List UInt8} (ascii : ∀ byte ∈ bytes, byte.toNat < 0x80) :
    fromUtf8 bytes = some (bytes.map fun byte => Char.ofNat byte.toNat) := by
  rw [fromUtf8, scanUtf8_ascii ascii, ← mapM_id_some, List.map_map]
  rfl

/-! ### Encoding -/

def toUtf8 (text : List Char) : List UInt8 := text.flatMap String.utf8EncodeChar

theorem scanUtf8_first {byte : UInt8} {pending : Pending}
    (first : lead byte.toNat = .pending pending) (rest : List UInt8) :
    scanUtf8 none (byte :: rest) = scanUtf8 (some pending) rest := by
  rw [scanUtf8, first]

theorem scanUtf8_middle {byte : UInt8} {pending : Pending} {later : Nat}
    (expected : pending.later = later + 1)
    (within : pending.low ≤ byte.toNat ∧ byte.toNat ≤ pending.high) (rest : List UInt8) :
    scanUtf8 (some pending) (byte :: rest) =
      scanUtf8 (some ⟨pending.value * 64 + byte.toNat % 64, later, 0x80, 0xBF⟩) rest := by
  rw [scanUtf8, if_pos within]
  simp only [expected]

theorem scanUtf8_last {byte : UInt8} {pending : Pending} (expected : pending.later = 0)
    (within : pending.low ≤ byte.toNat ∧ byte.toNat ≤ pending.high) (rest : List UInt8) :
    scanUtf8 (some pending) (byte :: rest) =
      some (Char.ofNat (pending.value * 64 + byte.toNat % 64)) :: scanUtf8 none rest := by
  rw [scanUtf8, if_pos within]
  simp only [expected]

theorem lead_three {byte : Nat} (low : 0xE0 ≤ byte) (high : byte < 0xF0) :
    lead byte = .pending ⟨byte % 16, 1, if byte = 0xE0 then 0xA0 else 0x80,
      if byte = 0xED then 0x9F else 0xBF⟩ := by
  unfold lead
  rw [if_neg (by omega), if_neg (by omega), if_neg (by omega)]
  by_cases overlong : byte = 0xE0
  · subst overlong
    rfl
  by_cases surrogate : byte = 0xED
  · subst surrogate
    rfl
  · rw [if_neg overlong, if_neg surrogate, if_pos high, if_neg overlong, if_neg surrogate]

theorem lead_four {byte : Nat} (low : 0xF0 ≤ byte) (high : byte ≤ 0xF4) :
    lead byte = .pending ⟨byte % 8, 2, if byte = 0xF0 then 0x90 else 0x80,
      if byte = 0xF4 then 0x8F else 0xBF⟩ := by
  unfold lead
  rw [if_neg (by omega), if_neg (by omega), if_neg (by omega), if_neg (by omega),
    if_neg (by omega), if_neg (by omega)]
  by_cases overlong : byte = 0xF0
  · subst overlong
    rfl
  by_cases last : byte = 0xF4
  · subst last
    rfl
  · rw [if_neg overlong, if_pos (by omega), if_neg overlong, if_neg last]

section Sequences

variable {code first second third fourth : Nat} (rest : List UInt8)

theorem toNat_ofNat_byte (byte : code < 256) : (UInt8.ofNat code).toNat = code := by
  simp [UInt8.toNat_ofNat', Nat.mod_eq_of_lt byte]

theorem scanUtf8_two (long : 127 < code) (short : code ≤ 2047)
    (atFirst : code / 64 % 32 + 192 = first) (atSecond : code % 64 + 128 = second) :
    scanUtf8 none (UInt8.ofNat first :: UInt8.ofNat second :: rest) =
      some (Char.ofNat code) :: scanUtf8 none rest := by
  have announced : lead (UInt8.ofNat first).toNat = .pending ⟨first % 32, 0, 0x80, 0xBF⟩ := by
    rw [toNat_ofNat_byte (by omega), lead, if_neg (by omega), if_neg (by omega),
      if_pos (by omega)]
  have read : (UInt8.ofNat second).toNat = second := toNat_ofNat_byte (by omega)
  have total : first % 32 * 64 + second % 64 = code := by omega
  rw [scanUtf8_first announced, scanUtf8_last rfl (by dsimp only; omega), read, total]

theorem scanUtf8_three (valid : code.isValidChar) (long : 2047 < code) (short : code ≤ 65535)
    (atFirst : code / 4096 % 16 + 224 = first) (atSecond : code / 64 % 64 + 128 = second)
    (atThird : code % 64 + 128 = third) :
    scanUtf8 none (UInt8.ofNat first :: UInt8.ofNat second :: UInt8.ofNat third :: rest) =
      some (Char.ofNat code) :: scanUtf8 none rest := by
  have announced : lead (UInt8.ofNat first).toNat = _ :=
    (congrArg lead (toNat_ofNat_byte (by omega))).trans (lead_three (by omega) (by omega))
  have readSecond : (UInt8.ofNat second).toNat = second := toNat_ofNat_byte (by omega)
  have readThird : (UInt8.ofNat third).toNat = third := toNat_ofNat_byte (by omega)
  have total : (first % 16 * 64 + second % 64) * 64 + third % 64 = code := by omega
  rw [scanUtf8_first announced, scanUtf8_middle rfl, scanUtf8_last rfl (by dsimp only; omega),
    readSecond, readThird, total]
  -- the narrowed ranges leave out what is no character or has a shorter encoding
  rw [readSecond]
  dsimp only
  unfold Nat.isValidChar at valid
  split <;> split <;> omega

theorem scanUtf8_four (valid : code.isValidChar) (long : 65535 < code)
    (atFirst : code / 262144 % 8 + 240 = first) (atSecond : code / 4096 % 64 + 128 = second)
    (atThird : code / 64 % 64 + 128 = third) (atFourth : code % 64 + 128 = fourth) :
    scanUtf8 none (UInt8.ofNat first :: UInt8.ofNat second :: UInt8.ofNat third ::
        UInt8.ofNat fourth :: rest) =
      some (Char.ofNat code) :: scanUtf8 none rest := by
  unfold Nat.isValidChar at valid
  have announced : lead (UInt8.ofNat first).toNat = _ :=
    (congrArg lead (toNat_ofNat_byte (by omega))).trans (lead_four (by omega) (by omega))
  have readSecond : (UInt8.ofNat second).toNat = second := toNat_ofNat_byte (by omega)
  have readThird : (UInt8.ofNat third).toNat = third := toNat_ofNat_byte (by omega)
  have readFourth : (UInt8.ofNat fourth).toNat = fourth := toNat_ofNat_byte (by omega)
  have total : ((first % 8 * 64 + second % 64) * 64 + third % 64) * 64 + fourth % 64 = code := by
    omega
  rw [scanUtf8_first announced, scanUtf8_middle rfl, scanUtf8_middle rfl (by dsimp only; omega),
    scanUtf8_last rfl (by dsimp only; omega), readSecond, readThird, readFourth, total]
  rw [readSecond]
  dsimp only
  split <;> split <;> omega

end Sequences

theorem scanUtf8_encoded (character : Char) (rest : List UInt8) :
    scanUtf8 none (String.utf8EncodeChar character ++ rest) =
      some character :: scanUtf8 none rest := by
  have valid : character.val.toNat.isValidChar := character.valid
  have same : Char.ofNat character.val.toNat = character := Char.ofNat_toNat character
  simp only [String.utf8EncodeChar]
  generalize character.val.toNat = code at valid same ⊢
  subst same
  split
  · have ascii : lead (UInt8.ofNat code).toNat = .complete (some (Char.ofNat code)) := by
      rw [toNat_ofNat_byte (by omega)]
      exact if_pos (by omega)
    rw [List.cons_append, List.nil_append, scanUtf8, ascii]
  split
  · exact scanUtf8_two rest (by omega) (by omega) rfl rfl
  split
  · exact scanUtf8_three rest valid (by omega) (by omega) rfl rfl rfl
  · exact scanUtf8_four rest valid (by omega) rfl rfl rfl rfl

theorem scanUtf8_toUtf8 (text : List Char) : scanUtf8 none (toUtf8 text) = text.map some := by
  induction text with
  | nil => rfl
  | cons character rest ih =>
      rw [toUtf8, List.flatMap_cons, scanUtf8_encoded, List.map_cons]
      exact congrArg _ ih

theorem fromUtf8_toUtf8 (text : List Char) : fromUtf8 (toUtf8 text) = some text := by
  rw [fromUtf8, scanUtf8_toUtf8]
  exact mapM_id_some text

theorem fromUtf8Lossy_toUtf8 (text : List Char) : fromUtf8Lossy (toUtf8 text) = text := by
  rw [fromUtf8Lossy, scanUtf8_toUtf8, List.map_map]
  exact List.map_id text

theorem eq_nul_of_zero_mem {character : Char} (zero : 0 ∈ String.utf8EncodeChar character) :
    character = '\x00' := by
  have same : Char.ofNat character.val.toNat = character := Char.ofNat_toNat character
  have valid : character.val.toNat.isValidChar := character.valid
  simp only [String.utf8EncodeChar] at zero
  generalize character.val.toNat = code at same valid zero
  subst same
  have isZero {value : Nat} (small : value < 256) (byte : 0 = UInt8.ofNat value) : value = 0 := by
    rw [← toNat_ofNat_byte small, ← byte]
    rfl
  split at zero
  · rw [List.mem_singleton] at zero
    rw [isZero (by omega) zero]
  -- every byte of a longer encoding has its top bit set
  · exfalso
    unfold Nat.isValidChar at valid
    split at zero <;> [skip; split at zero] <;>
    simp only [List.mem_cons, List.not_mem_nil, or_false] at zero
    · rcases zero with byte | byte <;> have := isZero (by omega) byte <;> omega
    · rcases zero with byte | byte | byte <;> have := isZero (by omega) byte <;> omega
    · rcases zero with byte | byte | byte | byte <;> have := isZero (by omega) byte <;> omega

theorem zero_not_mem_toUtf8 {text : List Char} (noNul : '\x00' ∉ text) : 0 ∉ toUtf8 text := by
  intro zero
  obtain ⟨character, member, encoded⟩ := List.mem_flatMap.mp zero
  rw [eq_nul_of_zero_mem encoded] at member
  exact noNul member

theorem length_toUtf8 (text : String) : (toUtf8 text.toList).length = text.utf8ByteSize := by
  rw [String.utf8ByteSize, ← text.ofList_toList, String.toByteArray_ofList, List.utf8Encode]
  simp [toUtf8]

/-! ### Trimming, numbers, case -/

/-- `char::is_whitespace`: the White_Space property. -/
def isWhitespace (character : Char) : Bool :=
  let code := character.toNat
  (0x09 ≤ code && code ≤ 0x0D) || code == 0x20 || code == 0x85 || code == 0xA0 ||
    code == 0x1680 || (0x2000 ≤ code && code ≤ 0x200A) || code == 0x2028 || code == 0x2029 ||
    code == 0x202F || code == 0x205F || code == 0x3000

def trim (text : List Char) : List Char :=
  (((text.dropWhile isWhitespace).reverse).dropWhile isWhitespace).reverse

theorem trim_append_blanks {text blanks : List Char}
    (first : ∀ character ∈ text.head?, isWhitespace character = false)
    (last : ∀ character ∈ text.getLast?, isWhitespace character = false)
    (blank : ∀ character ∈ blanks, isWhitespace character = true) (some : text ≠ []) :
    trim (text ++ blanks) = text := by
  obtain ⟨head, tail, rfl⟩ := List.exists_cons_of_ne_nil some
  have front : ((head :: tail) ++ blanks).dropWhile isWhitespace = (head :: tail) ++ blanks := by
    rw [List.cons_append, List.dropWhile_cons_of_neg]
    rw [first head rfl]
    exact Bool.false_ne_true
  have back : (blanks.reverse ++ (head :: tail).reverse).dropWhile isWhitespace =
      (head :: tail).reverse := by
    rw [List.dropWhile_append_of_pos fun character member =>
      blank character (List.mem_reverse.mp member)]
    have ends := last
    rw [← List.head?_reverse] at ends
    cases turned : (head :: tail).reverse with
    | nil => rfl
    | cons end_ rest =>
        rw [turned] at ends
        rw [List.dropWhile_cons_of_neg]
        rw [ends end_ rfl]
        exact Bool.false_ne_true
  rw [trim, front, List.reverse_append, back, List.reverse_reverse]

def toDigit (radix : Nat) (character : Char) : Option Nat :=
  let code := character.toNat
  let value :=
    if 48 ≤ code ∧ code ≤ 57 then some (code - 48)
    else if 97 ≤ code ∧ code ≤ 122 then some (code - 97 + 10)
    else if 65 ≤ code ∧ code ≤ 90 then some (code - 65 + 10)
    else none
  value.filter (· < radix)

/-- At least one digit, and no more than 64 bits. -/
def unsignedNumber (radix : Nat) (digits : List Char) : Option Nat :=
  if digits.isEmpty then none
  else
    (digits.foldlM (fun value digit => (toDigit radix digit).map (value * radix + ·)) 0).filter
      (· < 2 ^ 64)

/-- `usize::from_str_radix`: a plus sign may stand before the digits. -/
def usizeFromStrRadix (radix : Nat) : List Char → Option Nat
  | '+' :: digits => unsignedNumber radix digits
  | digits => unsignedNumber radix digits

theorem usizeFromStrRadix_unsigned (radix : Nat) {text : List Char}
    (unsigned : text.head? ≠ some '+') :
    usizeFromStrRadix radix text = unsignedNumber radix text := by
  unfold usizeFromStrRadix
  split
  · exact absurd rfl unsigned
  · rfl

theorem usizeFromStrRadix_digits {radix value : Nat} {text : List Char} (some : text ≠ [])
    (unsigned : text.head? ≠ Option.some '+')
    (number : text.foldlM (fun value digit => (toDigit radix digit).map (value * radix + ·)) 0 =
      Option.some value) (fits : value < 2 ^ 64) :
    usizeFromStrRadix radix text = Option.some value := by
  have nonempty : ¬ text.isEmpty = true := fun empty => some (List.isEmpty_iff.mp empty)
  rw [usizeFromStrRadix_unsigned radix unsigned, unsignedNumber, if_neg nonempty, number]
  exact Option.filter_some_pos (decide_eq_true fits)

def eqIgnoreAsciiCase (left right : List Char) : Bool :=
  left.map Char.toLower == right.map Char.toLower

/-! ### Letter case -/

def toAsciiLowercase (byte : UInt8) : UInt8 :=
  if 65 ≤ byte.toNat ∧ byte.toNat ≤ 90 then UInt8.ofNat (byte.toNat + 32) else byte

theorem toNat_toLower (character : Char) :
    character.toLower.toNat =
      if 65 ≤ character.toNat ∧ character.toNat ≤ 90 then character.toNat + 32
      else character.toNat := by
  unfold Char.toLower
  split
  · rename_i upper
    have low : 65 ≤ character.toNat := upper.1
    have high : character.toNat ≤ 90 := upper.2
    rw [if_pos ⟨low, high⟩]
    change (character.val.toNat + 32) % 2 ^ 32 = character.val.toNat + 32
    change character.val.toNat ≤ 90 at high
    omega
  · rename_i other
    rw [if_neg]
    exact other

theorem isWhitespace_toLower (character : Char) :
    isWhitespace character.toLower = isWhitespace character := by
  unfold isWhitespace
  rw [toNat_toLower]
  split
  · rw [Bool.eq_iff_iff]
    simp only [Bool.or_eq_true, Bool.and_eq_true, decide_eq_true_eq, beq_iff_eq]
    omega
  · rfl

theorem toDigit_toLower (radix : Nat) (character : Char) :
    toDigit radix character.toLower = toDigit radix character := by
  unfold toDigit
  rw [toNat_toLower]
  split
  · rename_i upper
    dsimp only
    rw [if_neg (by omega), if_pos (by omega), if_neg (by omega), if_neg (by omega),
      if_pos (by omega)]
    congr 2
  · rfl

theorem trim_toLower (text : List Char) :
    trim (text.map Char.toLower) = (trim text).map Char.toLower := by
  have blanks : isWhitespace ∘ Char.toLower = isWhitespace := funext isWhitespace_toLower
  simp only [trim, List.dropWhile_map, blanks, ← List.map_reverse]

theorem toLower_eq_plus (character : Char) : character.toLower = '+' ↔ character = '+' := by
  constructor
  · intro plus
    have code := congrArg Char.toNat plus
    rw [toNat_toLower] at code
    change _ = 43 at code
    apply Char.ext
    apply UInt32.toNat_inj.mp
    change character.toNat = 43
    split at code <;> omega
  · intro plus
    rw [plus]
    rfl

theorem unsignedNumber_toLower (radix : Nat) (digits : List Char) :
    unsignedNumber radix (digits.map Char.toLower) = unsignedNumber radix digits := by
  unfold unsignedNumber
  rw [List.isEmpty_map, List.foldlM_map]
  simp only [toDigit_toLower]

theorem usizeFromStrRadix_toLower (radix : Nat) (text : List Char) :
    usizeFromStrRadix radix (text.map Char.toLower) = usizeFromStrRadix radix text := by
  cases text with
  | nil => rfl
  | cons first rest =>
      by_cases plus : first = '+'
      · subst plus
        exact unsignedNumber_toLower radix rest
      · have unsigned : (first :: rest).head? ≠ some '+' := fun same => plus (Option.some.inj same)
        have lowUnsigned : ((first :: rest).map Char.toLower).head? ≠ some '+' := fun same =>
          plus ((toLower_eq_plus first).mp (Option.some.inj same))
        rw [usizeFromStrRadix_unsigned radix unsigned, usizeFromStrRadix_unsigned radix lowUnsigned,
          unsignedNumber_toLower]

def Pending.High (pending : Option Pending) : Prop :=
  ∀ read ∈ pending, 0x80 ≤ read.low

theorem lead_high {byte : Nat} {pending : Pending} (announced : lead byte = .pending pending) :
    Pending.High (some pending) := by
  intro read same
  cases same
  unfold lead at announced
  repeat' split at announced
  all_goals
    cases announced
    try exact Nat.le_of_ble_eq_true rfl

theorem lead_ascii {byte : UInt8} (ascii : byte.toNat < 0x80) :
    lead byte.toNat = .complete (some (Char.ofNat byte.toNat)) :=
  if_pos ascii

theorem scanUtf8_start (byte : UInt8) :
    ∃ front next, Pending.High next ∧
      ∀ rest, scanUtf8 none (byte :: rest) = front ++ scanUtf8 next rest := by
  cases announced : lead byte.toNat with
  | complete character =>
      refine ⟨[character], none, nofun, fun rest => ?_⟩
      rw [scanUtf8, announced]
      rfl
  | pending read =>
      exact ⟨[], some read, lead_high announced, fun rest => scanUtf8_first announced rest⟩

theorem scanUtf8_cons (byte : UInt8) (pending : Option Pending) :
    ∃ front next, Pending.High next ∧
      ∀ rest, scanUtf8 pending (byte :: rest) = front ++ scanUtf8 next rest := by
  cases pending with
  | none => exact scanUtf8_start byte
  | some read =>
      by_cases within : read.low ≤ byte.toNat ∧ byte.toNat ≤ read.high
      · cases expected : read.later with
        | zero =>
            exact ⟨[some (Char.ofNat (read.value * 64 + byte.toNat % 64))], none, nofun,
              fun rest => scanUtf8_last expected within rest⟩
        | succ later =>
            refine ⟨[], some ⟨read.value * 64 + byte.toNat % 64, later, 0x80, 0xBF⟩, ?_,
              fun rest => scanUtf8_middle expected within rest⟩
            intro same equal
            cases equal
            exact Nat.le_refl 0x80
      · obtain ⟨front, next, high, scanned⟩ := scanUtf8_start byte
        refine ⟨none :: front, next, high, fun rest => ?_⟩
        rw [scanUtf8, if_neg within, List.cons_append, ← scanned rest, scanUtf8]

def lowered (text : List (Option Char)) : List (Option Char) := text.map (·.map Char.toLower)

theorem lowered_append (left right : List (Option Char)) :
    lowered (left ++ right) = lowered left ++ lowered right :=
  List.map_append

theorem toAsciiLowercase_char {byte : UInt8} (ascii : byte.toNat < 0x80) :
    (toAsciiLowercase byte).toNat < 0x80 ∧
      (Char.ofNat (toAsciiLowercase byte).toNat).toLower = (Char.ofNat byte.toNat).toLower := by
  have every : ∀ code : Fin 128, (toAsciiLowercase (UInt8.ofNat code)).toNat < 0x80 ∧
      (Char.ofNat (toAsciiLowercase (UInt8.ofNat code)).toNat).toLower =
        (Char.ofNat (UInt8.ofNat code).toNat).toLower := by
    decide +kernel
  have same := every ⟨byte.toNat, ascii⟩
  rw [UInt8.ofNat_toNat] at same
  exact same

theorem toAsciiLowercase_high {byte : UInt8} (high : ¬byte.toNat < 0x80) :
    toAsciiLowercase byte = byte :=
  if_neg (by omega)

/-- The induction is on the bytes; a byte below 128 starts a character in every state, and
the others are not changed. -/
theorem lowered_scanUtf8 (bytes : List UInt8) {pending : Option Pending}
    (high : Pending.High pending) :
    lowered (scanUtf8 pending (bytes.map toAsciiLowercase)) = lowered (scanUtf8 pending bytes) := by
  induction bytes generalizing pending with
  | nil => rfl
  | cons byte rest ih =>
      rw [List.map_cons]
      by_cases ascii : byte.toNat < 0x80
      · obtain ⟨lowAscii, sameChar⟩ := toAsciiLowercase_char ascii
        have later : lowered (scanUtf8 none (rest.map toAsciiLowercase)) =
            lowered (scanUtf8 none rest) := ih nofun
        cases pending with
        | none =>
            rw [scanUtf8, scanUtf8, lead_ascii ascii, lead_ascii lowAscii]
            simp only [lowered, List.map_cons, Option.map_some, sameChar] at later ⊢
            rw [later]
        | some read =>
            have low := high read rfl
            rw [scanUtf8, scanUtf8, if_neg (by omega), if_neg (by omega), lead_ascii ascii,
              lead_ascii lowAscii]
            simp only [lowered, List.map_cons, Option.map_some, Option.map_none, sameChar] at later ⊢
            rw [later]
      · obtain ⟨front, next, nextHigh, scanned⟩ := scanUtf8_cons byte pending
        rw [toAsciiLowercase_high ascii, scanned, scanned, lowered_append, lowered_append,
          ih nextHigh]

theorem fromUtf8Lossy_recased {left right : List UInt8}
    (recased : left.map toAsciiLowercase = right.map toAsciiLowercase) :
    (fromUtf8Lossy left).map Char.toLower = (fromUtf8Lossy right).map Char.toLower := by
  have decoded : ∀ bytes, (fromUtf8Lossy bytes).map Char.toLower =
      (lowered (scanUtf8 none bytes)).map fun character =>
        character.getD (Char.ofNat 0xFFFD).toLower := by
    intro bytes
    rw [fromUtf8Lossy, lowered, List.map_map, List.map_map]
    apply List.map_congr_left
    intro character member
    cases character with
    | none => rfl
    | some character => rfl
  have nothingRead : Pending.High none := nofun
  rw [decoded, decoded, ← lowered_scanUtf8 left nothingRead, recased,
    lowered_scanUtf8 right nothingRead]

example : fromUtf8Lossy [0x61, 0xE2, 0x82, 0x41] = ['a', Char.ofNat 0xFFFD, 'A'] := by decide
example : usizeFromStrRadix 16 "1aF".toList = some 431 := by decide

end RustText
