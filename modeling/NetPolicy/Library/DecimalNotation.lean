/-
Decimal notation of binary numbers.

A number is written the general way of the C library: its significant digits without the zeros
at their end, with a point where the exponent is moderate and with an exponent otherwise.  The
reader takes the longest text that is a number and rounds it.  Reading what was written gives
the number back if the digits are finer than its precision.
-/

import NetPolicy.Library.BinaryFormats
import Mathlib.Data.List.DropRight
import Mathlib.Data.Nat.Log
import Mathlib.Tactic.IntervalCases

namespace DecimalNotation

open BinaryFormats

/-! ### Digits -/

def digit (value : ℕ) : UInt8 := UInt8.ofNat ('0'.toNat + value)

def isDigit (byte : UInt8) : Bool := '0'.toUInt8 ≤ byte && byte ≤ '9'.toUInt8

def digitValue (byte : UInt8) : ℕ := byte.toNat - '0'.toNat

def valueOf (text : List UInt8) : ℕ :=
  text.foldl (fun value byte => 10 * value + digitValue byte) 0

theorem isDigit_digit {value : ℕ} (small : value < 10) : isDigit (digit value) = true := by
  interval_cases value <;> rfl

theorem digitValue_digit {value : ℕ} (small : value < 10) : digitValue (digit value) = value := by
  interval_cases value <;> rfl

theorem valueOf_concat (text : List UInt8) (byte : UInt8) :
    valueOf (text ++ [byte]) = 10 * valueOf text + digitValue byte := by
  rw [valueOf, List.foldl_append]
  rfl

def fixed : ℕ → ℕ → List UInt8
  | 0, _ => []
  | count + 1, value => fixed count (value / 10) ++ [digit (value % 10)]

@[simp] theorem length_fixed (count value : ℕ) : (fixed count value).length = count := by
  induction count generalizing value with
  | zero => rfl
  | succ count ih => rw [fixed, List.length_append, ih, List.length_singleton]

theorem isDigit_of_mem_fixed {count value : ℕ} {byte : UInt8} (mem : byte ∈ fixed count value) :
    isDigit byte = true := by
  induction count generalizing value with
  | zero => cases mem
  | succ count ih =>
      rw [fixed, List.mem_append, List.mem_singleton] at mem
      rcases mem with earlier | rfl
      · exact ih earlier
      · exact isDigit_digit (Nat.mod_lt _ (by omega))

theorem valueOf_fixed {count value : ℕ} (small : value < 10 ^ count) :
    valueOf (fixed count value) = value := by
  induction count generalizing value with
  | zero =>
      have zero : value = 0 := by simpa using small
      subst zero
      rfl
  | succ count ih =>
      have quotient : value / 10 < 10 ^ count := by
        rw [pow_succ] at small
        omega
      rw [fixed, valueOf_concat, ih quotient, digitValue_digit (Nat.mod_lt _ (by omega))]
      omega

theorem valueOf_zeros (count : ℕ) (text : List UInt8) :
    valueOf (List.replicate count '0'.toUInt8 ++ text) = valueOf text := by
  induction count with
  | zero => rfl
  | succ count ih =>
      rw [List.replicate_succ, List.cons_append, ← ih]
      rfl

def stripZeros (text : List UInt8) : List UInt8 := text.rdropWhile (· == '0'.toUInt8)

theorem valueOf_append_stripZeros (whole fraction : List UInt8) :
    (valueOf (whole ++ stripZeros fraction) : ℚ) * 10 ^ (-(stripZeros fraction).length : ℤ) =
      valueOf (whole ++ fraction) * 10 ^ (-fraction.length : ℤ) := by
  induction fraction using List.reverseRecOn with
  | nil => rfl
  | append_singleton fraction byte ih =>
      by_cases zero : byte = '0'.toUInt8
      · subst zero
        have last : digitValue '0'.toUInt8 = 0 := rfl
        rw [stripZeros, List.rdropWhile_concat_pos _ _ _ (by rfl), ← stripZeros, ih,
          ← List.append_assoc, valueOf_concat, last, List.length_append, List.length_singleton]
        push_cast
        rw [neg_add, zpow_add₀ (by norm_num)]
        field_simp
        ring
      · rw [stripZeros, List.rdropWhile_concat_neg _ _ _ (by simpa using zero)]

/-! ### Writing -/

def withPoint (whole fraction : List UInt8) : List UInt8 :=
  if fraction = [] then whole else whole ++ '.'.toUInt8 :: fraction

/-- At least two digits and a sign. -/
def exponentText (exponent : ℤ) : List UInt8 :=
  'e'.toUInt8 :: (if exponent < 0 then '-' else '+').toUInt8 ::
    fixed (max 2 (Nat.log 10 exponent.natAbs + 1)) exponent.natAbs

def general {after : ℕ} (number : Digits after) : List UInt8 :=
  let text := fixed (after + 1) number.digits
  if number.exponent < -4 ∨ (after : ℤ) < number.exponent then
    withPoint (text.take 1) (stripZeros (text.drop 1)) ++ exponentText number.exponent
  else if number.exponent < 0 then
    withPoint ['0'.toUInt8]
      (stripZeros (List.replicate (-number.exponent - 1).toNat '0'.toUInt8 ++ text))
  else
    withPoint (text.take (number.exponent + 1).toNat)
      (stripZeros (text.drop (number.exponent + 1).toNat))

def signText (negative : Bool) : List UInt8 := if negative then ['-'.toUInt8] else []

def magnitudeText {format : Format} (after : ℕ) (magnitude : Magnitude format) : List UInt8 :=
  if positive : 0 < magnitude.value then general (significant after magnitude.value positive)
  else ['0'.toUInt8]

/-! ### Reading -/

def readSign : List UInt8 → Bool × List UInt8
  | [] => (false, [])
  | byte :: rest =>
      if byte = '-'.toUInt8 then (true, rest)
      else if byte = '+'.toUInt8 then (false, rest)
      else (false, byte :: rest)

def readFraction : List UInt8 → List UInt8 × List UInt8
  | [] => ([], [])
  | byte :: rest =>
      if byte = '.'.toUInt8 then (rest.takeWhile isDigit, rest.dropWhile isDigit)
      else ([], byte :: rest)

/-- A letter that no digits follow is not part of the number. -/
def readExponent : List UInt8 → ℤ × List UInt8
  | [] => (0, [])
  | byte :: rest =>
      if byte = 'e'.toUInt8 ∨ byte = 'E'.toUInt8 then
        let (negative, digits) := readSign rest
        let magnitude : ℤ := valueOf (digits.takeWhile isDigit)
        if digits.takeWhile isDigit = [] then (0, byte :: rest)
        else (if negative then -magnitude else magnitude, digits.dropWhile isDigit)
      else (0, byte :: rest)

/-- The sign and the value of the number that a text starts with, and what follows it. -/
def readDecimal (text : List UInt8) : Option (Bool × ℚ × List UInt8) :=
  let (negative, rest) := readSign text
  let whole := rest.takeWhile isDigit
  let (fraction, rest) := readFraction (rest.dropWhile isDigit)
  if whole = [] ∧ fraction = [] then none
  else
    let (exponent, rest) := readExponent rest
    some (negative, valueOf (whole ++ fraction) * 10 ^ (exponent - fraction.length), rest)

def strtod (format : Format) (text : List UInt8) : Option (Number format × List UInt8) :=
  (readDecimal text).map fun read => (roundTo format read.1 read.2.1, read.2.2)

/-! ### Reading what was written -/

theorem span_digits {whole rest : List UInt8} (digits : ∀ byte ∈ whole, isDigit byte = true)
    (ends : ∀ byte ∈ rest.head?, isDigit byte = false) :
    (whole ++ rest).takeWhile isDigit = whole ∧ (whole ++ rest).dropWhile isDigit = rest := by
  rw [List.takeWhile_append_of_pos digits, List.dropWhile_append_of_pos digits]
  cases rest with
  | nil => simp
  | cons byte rest =>
      have stop : isDigit byte = false := ends byte rfl
      simp [stop]

theorem readSign_digit {byte : UInt8} (isDigit_byte : isDigit byte = true) (rest : List UInt8) :
    readSign (byte :: rest) = (false, byte :: rest) := by
  have notMinus : byte ≠ '-'.toUInt8 := by
    rintro rfl
    exact absurd isDigit_byte (by decide)
  have notPlus : byte ≠ '+'.toUInt8 := by
    rintro rfl
    exact absurd isDigit_byte (by decide)
  rw [readSign, if_neg notMinus, if_neg notPlus]

theorem readSign_signText (negative : Bool) {text : List UInt8}
    (starts : ∃ byte rest, text = byte :: rest ∧ isDigit byte = true) :
    readSign (signText negative ++ text) = (negative, text) := by
  cases negative with
  | false =>
      obtain ⟨byte, rest, rfl, isDigit_byte⟩ := starts
      exact readSign_digit isDigit_byte rest
  | true => rfl

theorem readExponent_digits {digits : List UInt8} (nonempty : digits ≠ [])
    (isDigits : ∀ byte ∈ digits, isDigit byte = true) (negative : Bool) :
    readExponent ('e'.toUInt8 :: (if negative then '-' else '+').toUInt8 :: digits) =
      (if negative then -(valueOf digits : ℤ) else valueOf digits, []) := by
  have taken : digits.takeWhile isDigit = digits := List.takeWhile_eq_self_iff.mpr isDigits
  have dropped : digits.dropWhile isDigit = [] := List.dropWhile_eq_nil_iff.mpr isDigits
  have sign : readSign ((if negative then '-' else '+').toUInt8 :: digits) = (negative, digits) := by
    cases negative <;> rfl
  simp only [readExponent, true_or, if_true, sign, taken, dropped, if_neg nonempty]

theorem readExponent_exponentText (exponent : ℤ) :
    readExponent (exponentText exponent) = (exponent, []) := by
  have small : exponent.natAbs < 10 ^ max 2 (Nat.log 10 exponent.natAbs + 1) :=
    (Nat.lt_pow_succ_log_self (by omega) _).trans_le
      (Nat.pow_le_pow_right (by omega) (le_max_right _ _))
  have nonempty : fixed (max 2 (Nat.log 10 exponent.natAbs + 1)) exponent.natAbs ≠ [] := by
    rw [← List.length_pos_iff, length_fixed]
    omega
  have read := readExponent_digits nonempty (fun _ mem => isDigit_of_mem_fixed mem)
    (decide (exponent < 0))
  rw [valueOf_fixed small] at read
  simp only [decide_eq_true_eq] at read
  rw [exponentText, read]
  congr 1
  split <;> omega

inductive Ending : ℤ → List UInt8 → Prop
  | none : Ending 0 []
  | exponent (exponent : ℤ) : Ending exponent (exponentText exponent)

theorem Ending.head {exponent : ℤ} {text : List UInt8} (ending : Ending exponent text) :
    ∀ byte ∈ text.head?, isDigit byte = false ∧ byte ≠ '.'.toUInt8 := by
  cases ending with
  | none => simp
  | exponent =>
      intro byte first
      obtain rfl : 'e'.toUInt8 = byte := by simpa [exponentText] using first
      decide

theorem Ending.read {exponent : ℤ} {text : List UInt8} (ending : Ending exponent text) :
    readExponent text = (exponent, []) := by
  cases ending with
  | none => rfl
  | exponent => exact readExponent_exponentText exponent

theorem readFraction_of_ending {exponent : ℤ} {text : List UInt8} (ending : Ending exponent text) :
    readFraction text = ([], text) := by
  cases ending with
  | none => rfl
  | exponent => rfl

theorem isDigit_of_mem_stripZeros {fraction : List UInt8}
    (digits : ∀ byte ∈ fraction, isDigit byte = true) :
    ∀ byte ∈ stripZeros fraction, isDigit byte = true :=
  fun byte mem => digits byte ((List.rdropWhile_prefix _ fraction).subset mem)

theorem split_withPoint {whole fraction ending : List UInt8} {exponent : ℤ}
    (wholeDigits : ∀ byte ∈ whole, isDigit byte = true)
    (fractionDigits : ∀ byte ∈ fraction, isDigit byte = true) (ends : Ending exponent ending) :
    (withPoint whole fraction ++ ending).takeWhile isDigit = whole ∧
      readFraction ((withPoint whole fraction ++ ending).dropWhile isDigit) = (fraction, ending) := by
  by_cases empty : fraction = []
  · subst empty
    obtain ⟨taken, dropped⟩ := span_digits wholeDigits fun byte first => (ends.head byte first).1
    rw [withPoint, if_pos rfl, dropped]
    exact ⟨taken, readFraction_of_ending ends⟩
  · have point : ∀ byte ∈ ('.'.toUInt8 :: (fraction ++ ending)).head?, isDigit byte = false := by
      rintro byte ⟨⟩
      rfl
    obtain ⟨taken, dropped⟩ := span_digits wholeDigits point
    obtain ⟨fractionTaken, fractionDropped⟩ :=
      span_digits fractionDigits fun byte first => (ends.head byte first).1
    rw [withPoint, if_neg empty, List.append_assoc, List.cons_append, dropped, readFraction,
      if_pos rfl, fractionTaken, fractionDropped]
    exact ⟨taken, rfl⟩

theorem withPoint_starts {whole : List UInt8} (nonempty : whole ≠ [])
    (wholeDigits : ∀ byte ∈ whole, isDigit byte = true) (fraction : List UInt8) :
    ∃ byte rest, withPoint whole fraction = byte :: rest ∧ isDigit byte = true := by
  obtain ⟨byte, rest, rfl⟩ := List.exists_cons_of_ne_nil nonempty
  have isDigit_byte := wholeDigits byte List.mem_cons_self
  by_cases empty : fraction = []
  · exact ⟨byte, rest, if_pos empty, isDigit_byte⟩
  · exact ⟨byte, rest ++ '.'.toUInt8 :: fraction, if_neg empty, isDigit_byte⟩

theorem readDecimal_withPoint (negative : Bool) {whole fraction ending : List UInt8}
    {exponent : ℤ} (nonempty : whole ≠ []) (wholeDigits : ∀ byte ∈ whole, isDigit byte = true)
    (fractionDigits : ∀ byte ∈ fraction, isDigit byte = true) (ends : Ending exponent ending) :
    readDecimal (signText negative ++ (withPoint whole (stripZeros fraction) ++ ending)) =
      some (negative, (valueOf (whole ++ fraction) : ℚ) * 10 ^ (exponent - fraction.length), []) := by
  obtain ⟨taken, split⟩ :=
    split_withPoint wholeDigits (isDigit_of_mem_stripZeros fractionDigits) ends
  have sign : readSign (signText negative ++ (withPoint whole (stripZeros fraction) ++ ending)) =
      (negative, withPoint whole (stripZeros fraction) ++ ending) := by
    apply readSign_signText
    obtain ⟨byte, rest, starts, isDigit_byte⟩ :=
      withPoint_starts nonempty wholeDigits (stripZeros fraction)
    exact ⟨byte, rest ++ ending, congrArg (· ++ ending) starts, isDigit_byte⟩
  have value : (valueOf (whole ++ stripZeros fraction) : ℚ) *
        10 ^ (exponent - (stripZeros fraction).length) =
      valueOf (whole ++ fraction) * 10 ^ (exponent - fraction.length) := by
    rw [sub_eq_add_neg, sub_eq_add_neg, zpow_add₀ (by norm_num), zpow_add₀ (by norm_num),
      mul_left_comm, valueOf_append_stripZeros, mul_left_comm]
  simp only [readDecimal, sign, taken, split, nonempty, false_and, if_false, ends.read, value]

/-- The parts of a text: digits, a fraction that may lose the zeros at its end, and an ending. -/
structure Parts {after : ℕ} (number : Digits after) where
  whole : List UInt8
  fraction : List UInt8
  ending : List UInt8
  exponent : ℤ
  nonempty : whole ≠ []
  wholeDigits : ∀ byte ∈ whole, isDigit byte = true
  fractionDigits : ∀ byte ∈ fraction, isDigit byte = true
  ends : Ending exponent ending
  digits : valueOf (whole ++ fraction) = number.digits
  scale : exponent - fraction.length = number.exponent - after
  text : general number = withPoint whole (stripZeros fraction) ++ ending
  short : number.exponent.natAbs < 1000 →
    whole.length + fraction.length + ending.length ≤ after + 6

theorem length_exponentText {exponent : ℤ} (small : exponent.natAbs < 1000) :
    (exponentText exponent).length ≤ 5 := by
  have log : Nat.log 10 exponent.natAbs < 3 := Nat.log_lt_of_lt_pow' (by omega) (by omega)
  simp only [exponentText, List.length_cons, length_fixed]
  omega

theorem fixed_digits {after : ℕ} (number : Digits after) :
    valueOf (fixed (after + 1) number.digits) = number.digits :=
  valueOf_fixed number.bounded

theorem exists_parts {after : ℕ} (number : Digits after) : Nonempty (Parts number) := by
  have length := length_fixed (after + 1) number.digits
  have isDigits : ∀ byte ∈ fixed (after + 1) number.digits, isDigit byte = true :=
    fun _ mem => isDigit_of_mem_fixed mem
  have value := fixed_digits number
  by_cases extreme : number.exponent < -4 ∨ (after : ℤ) < number.exponent
  · refine ⟨{
      whole := (fixed (after + 1) number.digits).take 1
      fraction := (fixed (after + 1) number.digits).drop 1
      ending := exponentText number.exponent
      exponent := number.exponent
      nonempty := ?_
      wholeDigits := fun byte mem => isDigits byte (List.mem_of_mem_take mem)
      fractionDigits := fun byte mem => isDigits byte (List.mem_of_mem_drop mem)
      ends := .exponent _
      digits := by rw [List.take_append_drop, value]
      scale := by rw [List.length_drop, length]; omega
      text := by rw [general, if_pos extreme]
      short := ?_ }⟩
    · rw [← List.length_pos_iff, List.length_take, length]
      omega
    · intro small
      have ending := length_exponentText small
      rw [List.length_take, List.length_drop, length]
      omega
  · by_cases negative : number.exponent < 0
    · refine ⟨{
        whole := ['0'.toUInt8]
        fraction := List.replicate (-number.exponent - 1).toNat '0'.toUInt8 ++
          fixed (after + 1) number.digits
        ending := []
        exponent := 0
        nonempty := List.cons_ne_nil _ _
        wholeDigits := ?_
        fractionDigits := ?_
        ends := .none
        digits := ?_
        scale := ?_
        text := by rw [general, if_neg extreme, if_pos negative, List.append_nil]
        short := ?_ }⟩
      · rintro byte (_ | ⟨_, ⟨⟩⟩)
        rfl
      · intro byte mem
        rcases List.mem_append.mp mem with zero | later
        · rw [List.eq_of_mem_replicate zero]
          rfl
        · exact isDigits byte later
      · rw [← List.append_assoc, List.singleton_append, ← List.replicate_succ, valueOf_zeros, value]
      · rw [List.length_append, List.length_replicate, length]
        omega
      · intro small
        rw [List.length_append, List.length_replicate, length]
        simp only [List.length_cons, List.length_nil]
        omega
    · refine ⟨{
        whole := (fixed (after + 1) number.digits).take (number.exponent + 1).toNat
        fraction := (fixed (after + 1) number.digits).drop (number.exponent + 1).toNat
        ending := []
        exponent := 0
        nonempty := ?_
        wholeDigits := fun byte mem => isDigits byte (List.mem_of_mem_take mem)
        fractionDigits := fun byte mem => isDigits byte (List.mem_of_mem_drop mem)
        ends := .none
        digits := by rw [List.take_append_drop, value]
        scale := by rw [List.length_drop, length]; omega
        text := by rw [general, if_neg extreme, if_neg negative, List.append_nil]
        short := ?_ }⟩
      · rw [← List.length_pos_iff, List.length_take, length]
        omega
      · intro small
        rw [List.length_take, List.length_drop, length, List.length_nil]
        omega

theorem readDecimal_general {after : ℕ} (number : Digits after) (negative : Bool) :
    readDecimal (signText negative ++ general number) = some (negative, number.value, []) := by
  obtain ⟨parts⟩ := exists_parts number
  rw [parts.text, readDecimal_withPoint negative parts.nonempty parts.wholeDigits
    parts.fractionDigits parts.ends, parts.digits, parts.scale]
  rfl

def writtenValue {format : Format} (after : ℕ) (magnitude : Magnitude format) : ℚ :=
  if positive : 0 < magnitude.value then (significant after magnitude.value positive).value else 0

variable {format : Format}

theorem readDecimal_magnitudeText (after : ℕ) (negative : Bool) (magnitude : Magnitude format) :
    readDecimal (signText negative ++ magnitudeText after magnitude) =
      some (negative, writtenValue after magnitude, []) := by
  rw [magnitudeText, writtenValue]
  split
  · exact readDecimal_general _ negative
  · have read := readDecimal_withPoint negative (List.cons_ne_nil '0'.toUInt8 [])
      (by rintro byte (_ | ⟨_, ⟨⟩⟩); rfl) (List.forall_mem_nil _) Ending.none
    have zero : valueOf (['0'.toUInt8] ++ []) = 0 := rfl
    rw [zero, Nat.cast_zero, zero_mul] at read
    rw [List.append_nil] at read
    exact read

theorem strtod_magnitudeText (after : ℕ) (negative : Bool) (magnitude : Magnitude format) :
    strtod format (signText negative ++ magnitudeText after magnitude) =
      some (roundTo format negative (writtenValue after magnitude), []) := by
  rw [strtod, readDecimal_magnitudeText]
  rfl

theorem roundTo_writtenValue {after : ℕ} (fine : 2 ^ format.precision < 10 ^ after)
    (magnitude : Magnitude format) (negative : Bool) :
    roundTo format negative (writtenValue after magnitude) = .finite negative magnitude := by
  rw [writtenValue]
  split
  · exact roundTo_significant fine magnitude _ negative
  · rename_i notPositive
    have nonnegative : 0 ≤ magnitude.value := by
      rw [Magnitude.value]
      positivity
    have zero : magnitude.value = 0 := le_antisymm (not_lt.mp notPositive) nonnegative
    rw [← zero]
    exact roundTo_value magnitude negative

/-! ### Characters and length -/

def isNumeric (byte : UInt8) : Bool :=
  isDigit byte || byte == '+'.toUInt8 || byte == '-'.toUInt8 || byte == 'e'.toUInt8 ||
    byte == 'E'.toUInt8 || byte == '.'.toUInt8

theorem isNumeric_of_isDigit {byte : UInt8} (digit : isDigit byte = true) :
    isNumeric byte = true := by
  simp [isNumeric, digit]

theorem Ending.numeric {exponent : ℤ} {text : List UInt8} (ending : Ending exponent text) :
    ∀ byte ∈ text, isNumeric byte = true := by
  cases ending with
  | none => exact List.forall_mem_nil _
  | exponent =>
      intro byte mem
      rcases List.mem_cons.mp mem with rfl | mem
      · rfl
      · rcases List.mem_cons.mp mem with rfl | mem
        · split <;> rfl
        · exact isNumeric_of_isDigit (isDigit_of_mem_fixed mem)

theorem withPoint_numeric {whole fraction : List UInt8}
    (wholeDigits : ∀ byte ∈ whole, isDigit byte = true)
    (fractionDigits : ∀ byte ∈ fraction, isDigit byte = true) :
    ∀ byte ∈ withPoint whole fraction, isNumeric byte = true := by
  intro byte mem
  rw [withPoint] at mem
  split at mem
  · exact isNumeric_of_isDigit (wholeDigits byte mem)
  · rcases List.mem_append.mp mem with mem | mem
    · exact isNumeric_of_isDigit (wholeDigits byte mem)
    · rcases List.mem_cons.mp mem with rfl | mem
      · rfl
      · exact isNumeric_of_isDigit (fractionDigits byte mem)

theorem magnitudeText_numeric (after : ℕ) (magnitude : Magnitude format) :
    ∀ byte ∈ magnitudeText after magnitude, isNumeric byte = true := by
  rw [magnitudeText]
  split
  · obtain ⟨parts⟩ := exists_parts (significant after magnitude.value ‹_›)
    rw [parts.text]
    intro byte mem
    rcases List.mem_append.mp mem with mem | mem
    · exact withPoint_numeric parts.wholeDigits (isDigit_of_mem_stripZeros parts.fractionDigits)
        byte mem
    · exact parts.ends.numeric byte mem
  · rintro byte (_ | ⟨_, ⟨⟩⟩)
    rfl

theorem magnitudeText_starts (after : ℕ) (magnitude : Magnitude format) :
    ∃ byte rest, magnitudeText after magnitude = byte :: rest ∧ isDigit byte = true := by
  rw [magnitudeText]
  split
  · obtain ⟨parts⟩ := exists_parts (significant after magnitude.value ‹_›)
    obtain ⟨byte, rest, starts, digit⟩ :=
      withPoint_starts parts.nonempty parts.wholeDigits (stripZeros parts.fraction)
    exact ⟨byte, rest ++ parts.ending, by rw [parts.text, starts]; rfl, digit⟩
  · exact ⟨_, [], rfl, rfl⟩

theorem length_withPoint_le (whole fraction : List UInt8) :
    (withPoint whole (stripZeros fraction)).length ≤ whole.length + fraction.length + 1 := by
  have shorter : (stripZeros fraction).length ≤ fraction.length :=
    (List.rdropWhile_prefix _ fraction).length_le
  rw [withPoint]
  split
  · omega
  · rw [List.length_append, List.length_cons]
    omega

theorem significant_exponent {low high : ℕ} (least : 2 ^ format.least ≤ 10 ^ low)
    (most : 2 ^ format.bits ≤ 10 ^ high * 2 ^ format.least) (after : ℕ)
    (magnitude : Magnitude format) (positive : 0 < magnitude.value) :
    -(low : ℤ) ≤ (significant after magnitude.value positive).exponent ∧
      (significant after magnitude.value positive).exponent ≤ high := by
  have scale : (0 : ℚ) < 2 ^ format.least := by positivity
  have leastLog : -(low : ℤ) ≤ Int.log 10 magnitude.value := by
    rw [← Int.zpow_le_iff_le_log (by norm_num) positive, zpow_neg, zpow_natCast]
    have nonzero : 0 < magnitude.units := by
      by_contra zero
      rw [Magnitude.value, Nat.eq_zero_of_not_pos zero] at positive
      simp at positive
    have one : (1 : ℚ) ≤ magnitude.units := by exact_mod_cast nonzero
    have leastRational : (2 : ℚ) ^ format.least ≤ 10 ^ low := by exact_mod_cast least
    rw [Magnitude.value, le_div_iff₀ scale]
    calc ((10 : ℚ) ^ low)⁻¹ * 2 ^ format.least ≤ (10 ^ low)⁻¹ * 10 ^ low :=
          mul_le_mul_of_nonneg_left leastRational (by positivity)
      _ = 1 := inv_mul_cancel₀ (by positivity)
      _ ≤ magnitude.units := one
  have mostLog : Int.log 10 magnitude.value < high := by
    rw [← Int.lt_zpow_iff_log_lt (by norm_num) positive, zpow_natCast, Magnitude.value,
      div_lt_iff₀ scale]
    exact_mod_cast magnitude.bounded.trans_le most
  rw [significant]
  split
  · exact ⟨leastLog, mostLog.le⟩
  · constructor
    · exact leastLog.trans (by dsimp only; omega)
    · dsimp only
      omega

theorem length_magnitudeText_le {low high : ℕ} (least : 2 ^ format.least ≤ 10 ^ low)
    (most : 2 ^ format.bits ≤ 10 ^ high * 2 ^ format.least) (lowSmall : low < 1000)
    (highSmall : high < 1000) (after : ℕ) (magnitude : Magnitude format) :
    (magnitudeText after magnitude).length ≤ after + 7 := by
  rw [magnitudeText]
  split
  · rename_i positive
    obtain ⟨above, below⟩ := significant_exponent least most after magnitude positive
    obtain ⟨parts⟩ := exists_parts (significant after magnitude.value positive)
    have short := parts.short (by omega)
    have point := length_withPoint_le parts.whole parts.fraction
    rw [parts.text, List.length_append]
    omega
  · rw [List.length_singleton]
    omega

end DecimalNotation
