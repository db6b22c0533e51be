/-
Whole numbers in a text.

A whole number becomes a `double` before it is printed.  Up to 53 bits it comes back as it was,
and a longer one comes back as the nearest number of 53 bits; `valueint` is saturated.
-/

import NetPolicy.Cjson.Printing

namespace NetPolicy.Cjson

open BinaryFormats DecimalNotation

def Double.ofInt (value : Int) : Double :=
  roundTo binary64 (decide (value < 0)) value.natAbs

theorem ofInt_finite {value : Int} (small : value.natAbs < 2 ^ 64) :
    ∃ magnitude, Double.ofInt value = .finite (decide (value < 0)) magnitude ∧
      magnitude.floor = binary64.nearest value.natAbs :=
  roundTo_natCast small (by decide) _

theorem truncate_finite (negative : Bool) (magnitude : Magnitude binary64) :
    Double.truncate (.finite negative magnitude) =
      if negative then -(magnitude.floor : Int) else magnitude.floor := rfl

theorem truncate_ofInt {value : Int} (small : value.natAbs < 2 ^ 64) :
    Double.truncate (Double.ofInt value) =
      if value < 0 then -(binary64.nearest value.natAbs : Int)
      else binary64.nearest value.natAbs := by
  obtain ⟨magnitude, finite, whole⟩ := ofInt_finite small
  rw [finite, truncate_finite, whole]
  by_cases negative : value < 0
  · rw [if_pos negative, if_pos (decide_eq_true negative)]
  · rw [if_neg negative, decide_eq_false negative, if_neg Bool.false_ne_true]

theorem nearest_of_short {whole : Nat} (short : whole < 2 ^ 53) : binary64.nearest whole = whole := by
  apply Format.nearest_natCast
  have log : whole.log2 + 1 ≤ 53 := by
    by_cases zero : whole = 0
    · rw [zero]
      decide
    · exact (Nat.log2_lt zero).mpr short
  have one : binary64.step whole = 1 := by
    rw [Format.step, Nat.sub_eq_zero_of_le (show _ ≤ binary64.precision from log), pow_zero]
  rw [Format.Representable, one]
  exact one_dvd _

theorem valueint_ofInt {value : Int} (small : value.natAbs < 2 ^ 53) :
    Double.valueint (Double.ofInt value) = max intMin (min intMax value) := by
  have fits : value.natAbs < 2 ^ 64 := small.trans (by decide)
  have whole := truncate_ofInt fits
  obtain ⟨magnitude, finite, _⟩ := ofInt_finite fits
  rw [nearest_of_short small] at whole
  have exact : Double.truncate (Double.ofInt value) = value := by
    rw [whole]
    split <;> omega
  rw [finite] at exact ⊢
  rw [Double.valueint, exact]

end NetPolicy.Cjson
