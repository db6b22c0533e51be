/-
Binary floating point formats and decimal digits.

A magnitude of a format is a whole number of units, and its last bit may be worth several: as
many as keep the magnitude within the precision.  A number is rounded to the nearest magnitude,
of two to the one with the even last bit.  Decimal digits that are finer than the precision
round back to the magnitude they were taken from.
-/

import Mathlib.Algebra.Order.Field.Power
import Mathlib.Algebra.Order.Round
import Mathlib.Data.Int.Log
import Mathlib.Data.Nat.Log
import Mathlib.Data.Rat.Floor
import Mathlib.Tactic.FieldSimp
import Mathlib.Tactic.Linarith
import Mathlib.Tactic.NormNum
import Mathlib.Tactic.Positivity
import Mathlib.Tactic.Ring

namespace BinaryFormats

/-! ### Rounding to integers -/

/-- The nearest integer, of two the even one. -/
def roundEven (value : ℚ) : ℤ :=
  let below := ⌊value⌋
  if value - below < 1 / 2 then below
  else if 1 / 2 < value - below then below + 1
  else if below % 2 = 0 then below
  else below + 1

theorem abs_roundEven_sub_le (value : ℚ) : |(roundEven value : ℚ) - value| ≤ 1 / 2 := by
  have low := Int.floor_le value
  have high := Int.lt_floor_add_one value
  unfold roundEven
  dsimp only
  split
  · rw [abs_le]
    constructor <;> linarith
  · split
    · push_cast
      rw [abs_le]
      constructor <;> linarith
    · split
      · rw [abs_le]
        constructor <;> linarith
      · push_cast
        rw [abs_le]
        constructor <;> linarith

theorem roundEven_of_close {value : ℚ} {whole : ℤ} (close : |value - whole| < 1 / 2) :
    roundEven value = whole := by
  have near := abs_roundEven_sub_le value
  have apart : |((roundEven value - whole : ℤ) : ℚ)| < 1 := by
    push_cast
    calc |(roundEven value : ℚ) - whole|
        = |((roundEven value : ℚ) - value) + (value - whole)| := by congr 1; ring
      _ ≤ |(roundEven value : ℚ) - value| + |value - whole| := abs_add_le _ _
      _ < 1 := by linarith
  have zero : roundEven value - whole = 0 := by
    rw [← Int.abs_lt_one_iff]
    exact_mod_cast apart
  omega

theorem le_roundEven {value : ℚ} {whole : ℤ} (above : (whole : ℚ) ≤ value) :
    whole ≤ roundEven value := by
  have near := (abs_le.mp (abs_roundEven_sub_le value)).1
  have strict : ((whole - 1 : ℤ) : ℚ) < roundEven value := by
    push_cast
    linarith
  have whole_lt : whole - 1 < roundEven value := by exact_mod_cast strict
  omega

theorem roundEven_le {value : ℚ} {whole : ℤ} (below : value ≤ whole) :
    roundEven value ≤ whole := by
  have near := (abs_le.mp (abs_roundEven_sub_le value)).2
  have strict : (roundEven value : ℚ) < ((whole + 1 : ℤ) : ℚ) := by
    push_cast
    linarith
  have lt_whole : roundEven value < whole + 1 := by exact_mod_cast strict
  omega

theorem roundEven_div (whole : ℕ) {unit : ℕ} (positive : 0 < unit) :
    roundEven ((whole : ℚ) / unit) =
      if 2 * (whole % unit) < unit ∨ 2 * (whole % unit) = unit ∧ whole / unit % 2 = 0 then
        (whole / unit : ℤ)
      else whole / unit + 1 := by
  have unitPositive : (0 : ℚ) < unit := by exact_mod_cast positive
  have division : (whole : ℚ) = unit * (whole / unit : ℕ) + (whole % unit : ℕ) := by
    exact_mod_cast (Nat.div_add_mod whole unit).symm
  have fraction : (whole : ℚ) / unit - ((whole / unit : ℤ) : ℚ) = (whole % unit : ℕ) / unit := by
    rw [← Int.natCast_div, Int.cast_natCast, sub_eq_iff_eq_add, div_add' _ _ _ unitPositive.ne',
      div_left_inj' unitPositive.ne']
    linarith
  have below : ((whole % unit : ℕ) : ℚ) / unit < 1 / 2 ↔ 2 * (whole % unit) < unit := by
    rw [div_lt_div_iff₀ unitPositive (by norm_num), one_mul, mul_comm]
    exact_mod_cast Iff.rfl
  have above : 1 / 2 < ((whole % unit : ℕ) : ℚ) / unit ↔ unit < 2 * (whole % unit) := by
    rw [div_lt_div_iff₀ (by norm_num) unitPositive, one_mul, mul_comm]
    exact_mod_cast Iff.rfl
  have even : (whole / unit : ℤ) % 2 = 0 ↔ whole / unit % 2 = 0 := by omega
  simp only [roundEven, Rat.floor_natCast_div_natCast, fraction, below, above, even]
  split_ifs <;> omega

/-! ### Magnitudes -/

/-- Magnitudes have `precision` bits and are less than two to the power `bits`, in units of two
to the power `-least`. -/
structure Format where
  precision : ℕ
  least : ℕ
  bits : ℕ
  precise : 0 < precision

namespace Format

variable (format : Format)

/-- What the last bit of a magnitude is worth. -/
def step (units : ℕ) : ℕ := 2 ^ (units.log2 + 1 - format.precision)

def Representable (units : ℕ) : Prop := format.step units ∣ units

instance (units : ℕ) : Decidable (format.Representable units) :=
  inferInstanceAs (Decidable (_ ∣ _))

def nearest (value : ℚ) : ℕ :=
  (roundEven (value / format.step ⌊value⌋₊)).toNat * format.step ⌊value⌋₊

variable {format} {units : ℕ} {value : ℚ}

theorem step_pos (units : ℕ) : 0 < format.step units := Nat.two_pow_pos _

theorem step_dvd_step {left right : ℕ} (le : left.log2 ≤ right.log2) :
    format.step left ∣ format.step right :=
  Nat.pow_dvd_pow 2 (by omega)

theorem log2_eq {exponent : ℕ} (least : 2 ^ exponent ≤ units) (most : units < 2 ^ (exponent + 1)) :
    units.log2 = exponent := by
  have positive : units ≠ 0 := by
    have := Nat.two_pow_pos exponent
    omega
  exact (Nat.log2_eq_iff positive).mpr ⟨least, most⟩

theorem nearest_le (nonnegative : 0 ≤ value) :
    format.nearest value ≤ 2 ^ (⌊value⌋₊.log2 + 1) := by
  have stepPositive : (0 : ℚ) < format.step ⌊value⌋₊ := by exact_mod_cast step_pos _
  have small : value < 2 ^ (⌊value⌋₊.log2 + 1) := by
    have floor : ⌊value⌋₊ < 2 ^ (⌊value⌋₊.log2 + 1) := Nat.lt_log2_self
    exact_mod_cast (Nat.floor_lt nonnegative).mp floor
  have divides : format.step ⌊value⌋₊ ∣ 2 ^ (⌊value⌋₊.log2 + 1) := Nat.pow_dvd_pow 2 (by omega)
  obtain ⟨count, bound⟩ := divides
  have most : roundEven (value / format.step ⌊value⌋₊) ≤ count := by
    apply roundEven_le
    rw [div_le_iff₀ stepPositive]
    calc value ≤ ((2 ^ (⌊value⌋₊.log2 + 1) : ℕ) : ℚ) := by push_cast; exact small.le
      _ = (count : ℤ) * format.step ⌊value⌋₊ := by rw [bound]; push_cast; ring
  rw [nearest, bound, mul_comm (format.step _)]
  exact Nat.mul_le_mul_right _ (by omega)

theorem nearest_of_nonpos (nonpositive : value ≤ 0) : format.nearest value = 0 := by
  have below : roundEven (value / format.step ⌊value⌋₊) ≤ 0 := by
    apply roundEven_le
    exact div_nonpos_of_nonpos_of_nonneg nonpositive (Nat.cast_nonneg _)
  rw [nearest, Int.toNat_eq_zero.mpr below, zero_mul]

theorem representable_nearest (value : ℚ) : format.Representable (format.nearest value) := by
  have divides : format.step ⌊value⌋₊ ∣ format.nearest value := Dvd.intro_left _ rfl
  rcases le_total value 0 with nonpositive | nonnegative
  · rw [nearest_of_nonpos nonpositive]
    exact dvd_zero _
  have most : format.nearest value ≤ 2 ^ (⌊value⌋₊.log2 + 1) := nearest_le nonnegative
  rcases most.lt_or_eq with less | same
  · by_cases zero : format.nearest value = 0
    · rw [zero]
      exact dvd_zero _
    · have log := (Nat.log2_lt zero).mpr less
      exact (step_dvd_step (by omega)).trans divides
  · have precise := format.precise
    rw [same, Representable, step, Nat.log2_two_pow]
    exact Nat.pow_dvd_pow 2 (by omega)

/-- Nothing is nearer than a magnitude that fits the last bit and is within half of it. -/
theorem nearest_eq (fits : format.step ⌊value⌋₊ ∣ units)
    (close : |value - units| < format.step ⌊value⌋₊ / 2) : format.nearest value = units := by
  obtain ⟨count, same⟩ := fits
  have positive : (0 : ℚ) < format.step ⌊value⌋₊ := by exact_mod_cast step_pos _
  have near : |value / format.step ⌊value⌋₊ - (count : ℤ)| < 1 / 2 := by
    have scaled : value / format.step ⌊value⌋₊ - ((count : ℤ) : ℚ) =
        (value - units) / format.step ⌊value⌋₊ := by
      rw [same]
      push_cast
      field_simp
    rw [scaled, abs_div, abs_of_pos positive, div_lt_iff₀ positive]
    linarith
  rw [nearest, roundEven_of_close near, Int.toNat_natCast, same, mul_comm]

theorem nearest_natCast (representable : format.Representable units) :
    format.nearest units = units := by
  have floor : ⌊(units : ℚ)⌋₊ = units := Nat.floor_natCast units
  apply nearest_eq
  · rw [floor]
    exact representable
  · have positive : (0 : ℚ) < format.step ⌊(units : ℚ)⌋₊ := by exact_mod_cast step_pos _
    rw [sub_self, abs_zero]
    linarith

/-! ### Whole numbers -/

theorem log2_mul_two_pow (positive : units ≠ 0) (shift : ℕ) :
    (units * 2 ^ shift).log2 = units.log2 + shift := by
  apply log2_eq
  · rw [pow_add]
    exact Nat.mul_le_mul_right _ (Nat.log2_self_le positive)
  · rw [add_right_comm, pow_add]
    exact Nat.mul_lt_mul_of_pos_right Nat.lt_log2_self (Nat.two_pow_pos shift)

theorem nearest_mul_two_pow (whole shift : ℕ) :
    format.nearest ((whole * 2 ^ shift : ℕ) : ℚ) = format.nearest whole * 2 ^ shift := by
  by_cases zero : whole = 0
  · subst zero
    rw [zero_mul, Nat.cast_zero, nearest_of_nonpos le_rfl, zero_mul]
  have log := log2_mul_two_pow zero shift
  by_cases wide : format.precision ≤ whole.log2 + 1
  · have steps : format.step (whole * 2 ^ shift) = format.step whole * 2 ^ shift := by
      rw [step, step, log, ← pow_add]
      congr 1
      omega
    have ratio : ((whole * 2 ^ shift : ℕ) : ℚ) / (format.step whole * 2 ^ shift : ℕ) =
        whole / format.step whole := by
      push_cast
      exact mul_div_mul_right _ _ (by positivity)
    rw [nearest, nearest, Nat.floor_natCast, Nat.floor_natCast, steps, ratio, mul_assoc]
  · have small : format.Representable whole := by
      rw [Representable, step, Nat.sub_eq_zero_of_le (by omega), pow_zero]
      exact one_dvd _
    have scaled : format.Representable (whole * 2 ^ shift) := by
      rw [Representable, step, log]
      exact Dvd.dvd.mul_left (Nat.pow_dvd_pow 2 (by omega)) _
    rw [nearest_natCast small, nearest_natCast scaled]

/-! ### Rounding back -/

theorem two_pow_le_step {exponent : ℕ} (le : exponent ≤ units.log2 + 1) :
    2 ^ exponent ≤ format.step units * 2 ^ format.precision := by
  rw [step, ← pow_add]
  exact Nat.pow_le_pow_right (by omega) (by omega)

/-- A value off by less than the precision allows is within half of the last bit. -/
theorem abs_sub_lt_of_close {exponent floor : ℕ} (le : exponent ≤ floor.log2 + 1)
    (small : units ≤ 2 ^ exponent)
    (close : |value - units| * 2 ^ (format.precision + 1) < units) :
    |value - units| < format.step floor / 2 := by
  have scale : (0 : ℚ) < 2 ^ format.precision := by positivity
  have bound : (units : ℚ) ≤ format.step floor * 2 ^ format.precision := by
    exact_mod_cast small.trans (two_pow_le_step le)
  have scaled : (2 * |value - units|) * 2 ^ format.precision <
      format.step floor * 2 ^ format.precision := by
    calc (2 * |value - units|) * 2 ^ format.precision
        = |value - units| * 2 ^ (format.precision + 1) := by ring
      _ < units := close
      _ ≤ format.step floor * 2 ^ format.precision := bound
  have halves := lt_of_mul_lt_mul_right scaled scale.le
  linarith

theorem add_step_le {left right : ℕ} (fitsLeft : format.step units ∣ left)
    (fitsRight : format.step units ∣ right) (less : left < right) :
    left + format.step units ≤ right := by
  have difference := Nat.le_of_dvd (by omega) (Nat.dvd_sub fitsRight fitsLeft)
  omega

theorem nearest_of_below {exponent : ℕ} (below : value < 2 ^ exponent)
    (close : |value - (2 ^ exponent : ℕ)| * 2 ^ (format.precision + 1) < (2 ^ exponent : ℕ)) :
    format.nearest value = 2 ^ exponent := by
  have precise := format.precise
  have quarter : |value - (2 ^ exponent : ℕ)| * 4 < (2 ^ exponent : ℕ) := by
    have four : (4 : ℚ) ≤ 2 ^ (format.precision + 1) := by
      calc (4 : ℚ) = 2 ^ (1 + 1) := by norm_num
        _ ≤ 2 ^ (format.precision + 1) := pow_le_pow_right₀ (by norm_num) (by omega)
    exact (mul_le_mul_of_nonneg_left four (abs_nonneg _)).trans_lt close
  have low := neg_abs_le (value - (2 ^ exponent : ℕ))
  push_cast at quarter low
  have log : ⌊value⌋₊.log2 = exponent - 1 := by
    cases exponent with
    | zero =>
        have zero : ⌊value⌋₊ = 0 := Nat.floor_eq_zero.mpr (by simpa using below)
        rw [zero]
        rfl
    | succ exponent =>
        rw [pow_succ] at below quarter low
        have positive : (0 : ℚ) < 2 ^ exponent := by positivity
        apply log2_eq
        · exact Nat.le_floor (by push_cast; linarith)
        · rw [Nat.add_sub_cancel, pow_succ]
          refine (Nat.floor_lt (by linarith)).mpr ?_
          push_cast
          exact below
  apply nearest_eq
  · exact Nat.pow_dvd_pow 2 (by omega)
  · exact abs_sub_lt_of_close (by omega) le_rfl close

theorem nearest_of_close (representable : format.Representable units)
    (close : |value - units| * 2 ^ (format.precision + 1) < units) :
    format.nearest value = units := by
  have positive : units ≠ 0 := by
    rintro rfl
    have nonnegative : 0 ≤ |value - (0 : ℕ)| * 2 ^ (format.precision + 1) := by positivity
    exact absurd close (not_lt.mpr (by rw [Nat.cast_zero] at *; exact nonnegative))
  have least : 2 ^ units.log2 ≤ units := Nat.log2_self_le positive
  have most : units < 2 ^ (units.log2 + 1) := Nat.lt_log2_self
  have near : |value - units| < format.step units / 2 := abs_sub_lt_of_close le_rfl most.le close
  have stepLeast : format.step units ∣ 2 ^ units.log2 := by
    have precise := format.precise
    exact Nat.pow_dvd_pow 2 (by omega)
  have stepMost : format.step units ∣ 2 ^ (units.log2 + 1) := Nat.pow_dvd_pow 2 (by omega)
  have bounds := abs_lt.mp near
  by_cases below : value < 2 ^ units.log2
  · -- only the power of two itself is so close to something below it
    have power : units = 2 ^ units.log2 := by
      by_contra different
      have gap := add_step_le stepLeast representable (by omega)
      have rational : ((2 ^ units.log2 : ℕ) : ℚ) + format.step units ≤ units := by
        exact_mod_cast gap
      push_cast at rational
      have positiveStep : (0 : ℚ) < format.step units := by exact_mod_cast step_pos _
      linarith
    rw [power] at close
    exact (nearest_of_below below close).trans power.symm
  · have gap := add_step_le representable stepMost most
    have rational : (units : ℚ) + format.step units ≤ ((2 ^ (units.log2 + 1) : ℕ) : ℚ) := by
      exact_mod_cast gap
    have log : ⌊value⌋₊.log2 = units.log2 := by
      have above := not_lt.mp below
      have nonnegative : (0 : ℚ) ≤ value := le_trans (by positivity) above
      apply log2_eq
      · exact Nat.le_floor (by push_cast; exact above)
      · refine (Nat.floor_lt nonnegative).mpr ?_
        have positiveStep : (0 : ℚ) < format.step units := by exact_mod_cast step_pos _
        linarith
    have sameStep : format.step ⌊value⌋₊ = format.step units := by rw [step, step, log]
    apply nearest_eq
    · rw [sameStep]
      exact representable
    · rw [sameStep]
      exact near

end Format

/-! ### Numbers -/

variable {format : Format}

structure Magnitude (format : Format) where
  units : ℕ
  representable : format.Representable units
  bounded : units < 2 ^ format.bits
deriving DecidableEq

def Magnitude.value (magnitude : Magnitude format) : ℚ := magnitude.units / 2 ^ format.least

def Magnitude.floor (magnitude : Magnitude format) : ℕ := magnitude.units / 2 ^ format.least

inductive Number (format : Format) where
  | finite (negative : Bool) (magnitude : Magnitude format)
  | infinite (negative : Bool)
  | nan
deriving DecidableEq

/-- The number of a sign and a value; what has no magnitude is infinite. -/
def roundTo (format : Format) (negative : Bool) (value : ℚ) : Number format :=
  let units := format.nearest (value * 2 ^ format.least)
  if bounded : units < 2 ^ format.bits then
    .finite negative ⟨units, Format.representable_nearest _, bounded⟩
  else .infinite negative

theorem roundTo_of_nearest {magnitude : Magnitude format} {value : ℚ}
    (nearest : format.nearest (value * 2 ^ format.least) = magnitude.units) (negative : Bool) :
    roundTo format negative value = .finite negative magnitude := by
  have bounded : format.nearest (value * 2 ^ format.least) < 2 ^ format.bits :=
    nearest ▸ magnitude.bounded
  rw [roundTo, dif_pos bounded]
  congr 1
  cases magnitude
  congr

theorem Magnitude.value_mul (magnitude : Magnitude format) :
    magnitude.value * 2 ^ format.least = magnitude.units := by
  rw [Magnitude.value, div_mul_cancel₀]
  positivity

theorem roundTo_value (magnitude : Magnitude format) (negative : Bool) :
    roundTo format negative magnitude.value = .finite negative magnitude := by
  apply roundTo_of_nearest
  rw [magnitude.value_mul]
  exact Format.nearest_natCast magnitude.representable

theorem roundTo_of_close {magnitude : Magnitude format} {value : ℚ}
    (close : |value - magnitude.value| * 2 ^ (format.precision + 1) < magnitude.value)
    (negative : Bool) : roundTo format negative value = .finite negative magnitude := by
  apply roundTo_of_nearest
  apply Format.nearest_of_close magnitude.representable
  have scale : (0 : ℚ) < 2 ^ format.least := by positivity
  rw [← magnitude.value_mul, ← sub_mul, abs_mul, abs_of_pos scale, mul_right_comm]
  exact mul_lt_mul_of_pos_right close scale

theorem roundTo_natCast {whole width : ℕ} (small : whole < 2 ^ width)
    (wide : width + format.least < format.bits) (negative : Bool) :
    ∃ magnitude, roundTo format negative whole = .finite negative magnitude ∧
      magnitude.floor = format.nearest whole := by
  have shifted : (whole : ℚ) * 2 ^ format.least = ((whole * 2 ^ format.least : ℕ) : ℚ) := by
    push_cast
    rfl
  have nearest : format.nearest ((whole : ℚ) * 2 ^ format.least) =
      format.nearest whole * 2 ^ format.least := by
    rw [shifted, Format.nearest_mul_two_pow]
  have most : format.nearest whole ≤ 2 ^ width := by
    rcases Nat.eq_zero_or_pos whole with rfl | positive
    · rw [Nat.cast_zero, Format.nearest_of_nonpos le_rfl]
      exact Nat.zero_le _
    · have bound : format.nearest whole ≤ 2 ^ (⌊(whole : ℚ)⌋₊.log2 + 1) :=
        Format.nearest_le (Nat.cast_nonneg _)
      rw [Nat.floor_natCast] at bound
      exact bound.trans (Nat.pow_le_pow_right (by omega) ((Nat.log2_lt positive.ne').mpr small))
  have bounded : format.nearest whole * 2 ^ format.least < 2 ^ format.bits :=
    calc format.nearest whole * 2 ^ format.least
        ≤ 2 ^ width * 2 ^ format.least := Nat.mul_le_mul_right _ most
      _ = 2 ^ (width + format.least) := (pow_add _ _ _).symm
      _ < 2 ^ format.bits := Nat.pow_lt_pow_right (by omega) wide
  have representable : format.Representable (format.nearest whole * 2 ^ format.least) :=
    nearest ▸ Format.representable_nearest _
  exact ⟨⟨_, representable, bounded⟩, roundTo_of_nearest nearest negative,
    Nat.mul_div_cancel _ (Nat.two_pow_pos _)⟩

/-! ### Decimal digits -/

/-- The digits of a positive number: the first, which is worth ten to the power `exponent` and is
not zero, and those after it. -/
structure Digits (after : ℕ) where
  digits : ℕ
  exponent : ℤ
  least : 10 ^ after ≤ digits
  bounded : digits < 10 ^ (after + 1)

def Digits.value {after : ℕ} (number : Digits after) : ℚ :=
  number.digits * 10 ^ (number.exponent - after)

def leadingDigits (after : ℕ) (value : ℚ) : ℕ :=
  (roundEven (value / 10 ^ (Int.log 10 value - after))).toNat

section

variable (after : ℕ) {value : ℚ}

theorem log_bounds (positive : 0 < value) :
    10 ^ after ≤ value / 10 ^ (Int.log 10 value - after) ∧
      value / 10 ^ (Int.log 10 value - after) < 10 ^ (after + 1) := by
  have scale : (0 : ℚ) < 10 ^ (Int.log 10 value - after) := by positivity
  rw [le_div_iff₀ scale, div_lt_iff₀ scale, ← zpow_natCast, ← zpow_natCast,
    ← zpow_add₀ (by norm_num), ← zpow_add₀ (by norm_num)]
  constructor
  · rw [add_sub_cancel]
    exact_mod_cast Int.zpow_log_le_self (by norm_num) positive
  · have exponents : ((after + 1 : ℕ) : ℤ) + (Int.log 10 value - after) = Int.log 10 value + 1 := by
      push_cast
      ring
    rw [exponents]
    exact_mod_cast Int.lt_zpow_succ_log_self (by norm_num) value

theorem le_leadingDigits (positive : 0 < value) : 10 ^ after ≤ leadingDigits after value := by
  have least : ((10 ^ after : ℕ) : ℤ) ≤ roundEven (value / 10 ^ (Int.log 10 value - after)) := by
    apply le_roundEven
    exact_mod_cast (log_bounds after positive).1
  rw [leadingDigits]
  omega

theorem leadingDigits_le (positive : 0 < value) :
    leadingDigits after value ≤ 10 ^ (after + 1) := by
  have most : roundEven (value / 10 ^ (Int.log 10 value - after)) ≤ ((10 ^ (after + 1) : ℕ) : ℤ) := by
    apply roundEven_le
    exact_mod_cast (log_bounds after positive).2.le
  rw [leadingDigits]
  exact Int.toNat_le.mpr most

def significant (after : ℕ) (value : ℚ) (positive : 0 < value) : Digits after :=
  if bounded : leadingDigits after value < 10 ^ (after + 1) then
    ⟨leadingDigits after value, Int.log 10 value, le_leadingDigits after positive, bounded⟩
  else
    ⟨10 ^ after, Int.log 10 value + 1, le_rfl, Nat.pow_lt_pow_right (by omega) (by omega)⟩

theorem significant_value (positive : 0 < value) :
    (significant after value positive).value =
      leadingDigits after value * 10 ^ (Int.log 10 value - after) := by
  rw [significant]
  split
  · rfl
  · rename_i carry
    have full : leadingDigits after value = 10 ^ (after + 1) := by
      have most := leadingDigits_le after positive
      omega
    rw [full, Digits.value]
    push_cast
    rw [pow_succ, mul_assoc, add_sub_right_comm, zpow_add₀ (by norm_num), zpow_one,
      mul_comm (10 : ℚ) (10 ^ _)]

theorem abs_significant_sub_le (positive : 0 < value) :
    |(significant after value positive).value - value| ≤ value / (2 * 10 ^ after) := by
  have scale : (0 : ℚ) < 10 ^ (Int.log 10 value - after) := by positivity
  have whole : ((leadingDigits after value : ℕ) : ℚ) =
      (roundEven (value / 10 ^ (Int.log 10 value - after)) : ℤ) := by
    have least := le_leadingDigits after positive
    have nonzero : 0 < 10 ^ after := Nat.pow_pos (by omega)
    rw [leadingDigits] at least ⊢
    rw [← Int.cast_natCast, Int.toNat_of_nonneg (by omega)]
  have error := abs_roundEven_sub_le (value / 10 ^ (Int.log 10 value - after))
  have resolution := (le_div_iff₀ scale).mp (log_bounds after positive).1
  rw [significant_value after, whole]
  calc |(roundEven (value / 10 ^ (Int.log 10 value - after)) : ℚ) *
          10 ^ (Int.log 10 value - after) - value|
      = |(roundEven (value / 10 ^ (Int.log 10 value - after)) : ℚ) -
            value / 10 ^ (Int.log 10 value - after)| * 10 ^ (Int.log 10 value - after) := by
          rw [← abs_of_pos scale, ← abs_mul, abs_of_pos scale, sub_mul, div_mul_cancel₀ _ scale.ne']
    _ ≤ 1 / 2 * 10 ^ (Int.log 10 value - after) := mul_le_mul_of_nonneg_right error scale.le
    _ ≤ value / (2 * 10 ^ after) := by
          rw [le_div_iff₀ (by positivity)]
          linarith

end

/-- Digits finer than the precision round back. -/
theorem roundTo_significant {after : ℕ} (fine : 2 ^ format.precision < 10 ^ after)
    (magnitude : Magnitude format) (positive : 0 < magnitude.value) (negative : Bool) :
    roundTo format negative (significant after magnitude.value positive).value =
      .finite negative magnitude := by
  have finer : (2 : ℚ) ^ format.precision < 10 ^ after := by exact_mod_cast fine
  have error := abs_significant_sub_le after positive
  apply roundTo_of_close
  calc |(significant after magnitude.value positive).value - magnitude.value| *
        2 ^ (format.precision + 1)
      ≤ magnitude.value / (2 * 10 ^ after) * 2 ^ (format.precision + 1) :=
        mul_le_mul_of_nonneg_right error (by positivity)
    _ = magnitude.value * (2 ^ format.precision / 10 ^ after) := by
        rw [pow_succ]
        field_simp
    _ < magnitude.value * 1 := by
        apply mul_lt_mul_of_pos_left _ positive
        rw [div_lt_one (by positivity)]
        exact finer
    _ = magnitude.value := mul_one _

end BinaryFormats
