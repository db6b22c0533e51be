/-
Separator-delimited character lists and decimal numerals.

A field that does not contain its separator is recovered exactly from the
concatenation, whichever side of the separator it stands on.  Decimal numerals
never contain a separator that is not a digit, so a key assembled from numerals
and separators determines its numerals.
-/

import Mathlib.Data.List.Basic
import Mathlib.Tactic.Common

namespace SeparatedText

/-! ### Cutting at the first separator -/

/-- Split at the first occurrence of `separator`, dropping it.  There is no
result exactly when the separator does not occur. -/
def cutAt? (separator : Char) : List Char → Option (List Char × List Char)
  | [] => none
  | head :: tail =>
      if head = separator then some ([], tail)
      else (cutAt? separator tail).map fun parts => (head :: parts.1, parts.2)

theorem cutAt?_append (separator : Char) (before after : List Char)
    (absent : separator ∉ before) :
    cutAt? separator (before ++ separator :: after) = some (before, after) := by
  induction before with
  | nil => simp [cutAt?]
  | cons head tail ih =>
      have headDifferent : head ≠ separator := by
        intro same
        exact absent (by simp [same])
      have tailAbsent : separator ∉ tail := by
        intro member
        exact absent (List.mem_cons_of_mem head member)
      simp [cutAt?, headDifferent, ih tailAbsent]

/-! ### Recovering fields from a concatenation -/

theorem left_fields_eq {separator : Char} {left right leftRest rightRest : List Char}
    (leftFree : separator ∉ left) (rightFree : separator ∉ right)
    (equality : left ++ separator :: leftRest = right ++ separator :: rightRest) :
    left = right ∧ leftRest = rightRest := by
  have leftCut := cutAt?_append separator left leftRest leftFree
  rw [equality, cutAt?_append separator right rightRest rightFree] at leftCut
  have parts := Option.some.inj leftCut
  exact ⟨(congrArg Prod.fst parts).symm, (congrArg Prod.snd parts).symm⟩

theorem right_fields_eq {separator : Char} {left right leftRest rightRest : List Char}
    (leftFree : separator ∉ leftRest) (rightFree : separator ∉ rightRest)
    (equality : left ++ separator :: leftRest = right ++ separator :: rightRest) :
    left = right ∧ leftRest = rightRest := by
  have mirrored : leftRest.reverse ++ separator :: left.reverse =
      rightRest.reverse ++ separator :: right.reverse := by
    simpa using congrArg List.reverse equality
  obtain ⟨restEq, fieldEq⟩ := left_fields_eq (by simpa using leftFree)
    (by simpa using rightFree) mirrored
  exact ⟨List.reverse_injective fieldEq, List.reverse_injective restEq⟩

/-! ### Searching a text -/

theorem infix_append_cons_iff {separator : Char} {needle : List Char} (free : separator ∉ needle)
    (nonempty : needle ≠ []) (left right : List Char) :
    needle <:+: left ++ separator :: right ↔ needle <:+: left ∨ needle <:+: right := by
  rw [List.infix_append_iff]
  constructor
  · rintro (inLeft | inRest | ⟨head, tail, rfl, headSuffix, tailPrefix⟩)
    · exact Or.inl inLeft
    · rcases List.infix_cons_iff.mp inRest with starts | inRight
      · rcases List.prefix_cons_iff.mp starts with rfl | ⟨rest, rfl, _⟩
        · exact absurd rfl nonempty
        · exact absurd List.mem_cons_self free
      · exact Or.inr inRight
    · rcases List.prefix_cons_iff.mp tailPrefix with rfl | ⟨rest, rfl, _⟩
      · rw [List.append_nil]
        exact Or.inl headSuffix.isInfix
      · exact absurd (List.mem_append_right head List.mem_cons_self) free
  · rintro (inLeft | inRight)
    · exact Or.inl inLeft
    · exact Or.inr (Or.inl (inRight.trans (List.suffix_cons separator right).isInfix))

theorem infix_intercalate_iff {separator : Char} {needle : List Char} (free : separator ∉ needle)
    (nonempty : needle ≠ []) (words : List (List Char)) :
    needle <:+: [separator].intercalate words ↔ ∃ word ∈ words, needle <:+: word := by
  induction words with
  | nil =>
      simp only [List.intercalate_nil, List.infix_nil, List.not_mem_nil, false_and, exists_false,
        iff_false]
      exact nonempty
  | cons word rest ih =>
      cases rest with
      | nil => simp [List.intercalate]
      | cons second others =>
          have shape : [separator].intercalate (word :: second :: others) =
              word ++ separator :: [separator].intercalate (second :: others) := by
            simp [List.intercalate]
          rw [shape, infix_append_cons_iff free nonempty, ih]
          exact (List.exists_mem_cons_iff _ _ _).symm

theorem infix_lines_iff {separator : Char} {needle : List Char} (free : separator ∉ needle)
    (nonempty : needle ≠ []) (lines : List (List Char)) :
    needle <:+: lines.flatMap (fun line => line ++ [separator]) ↔
      ∃ line ∈ lines, needle <:+: line := by
  induction lines with
  | nil =>
      simp only [List.flatMap_nil, List.infix_nil, List.not_mem_nil, false_and, exists_false,
        iff_false]
      exact nonempty
  | cons line rest ih =>
      rw [List.flatMap_cons, List.append_assoc, List.singleton_append,
        infix_append_cons_iff free nonempty, ih]
      exact (List.exists_mem_cons_iff _ _ _).symm

/-! ### Decimal numerals -/

def parseDecimal (text : List Char) : Option Nat :=
  if text ≠ [] ∧ text.all Char.isDigit then some (Nat.ofDigitChars 10 text 0) else none

theorem parseDecimal_repr (value : Nat) :
    parseDecimal value.repr.toList = some value := by
  have digits : (Nat.toDigits 10 value).all Char.isDigit = true := by
    rw [List.all_eq_true]
    intro digit member
    exact Nat.isDigit_of_mem_toDigits (by decide) (by decide) member
  have nonempty : Nat.toDigits 10 value ≠ [] := Nat.toDigits_ne_nil
  rw [Nat.toList_repr]
  unfold parseDecimal
  rw [if_pos ⟨nonempty, digits⟩, Nat.ofDigitChars_ten_toDigits]

theorem not_mem_toDigits {separator : Char} (notDigit : separator.isDigit = false)
    (value : Nat) : separator ∉ Nat.toDigits 10 value := by
  intro member
  have digit := Nat.isDigit_of_mem_toDigits (by decide) (by decide) member
  rw [notDigit] at digit
  contradiction

theorem not_mem_repr {separator : Char} (notDigit : separator.isDigit = false)
    (value : Nat) : separator ∉ value.repr.toList := by
  rw [Nat.toList_repr]
  exact not_mem_toDigits notDigit value

theorem eq_zero_of_head_toDigits {value : Nat}
    (zero : (Nat.toDigits 10 value).head? = some '0') : value = 0 := by
  induction value using Nat.strongRecOn with
  | ind value ih =>
      by_cases small : value < 10
      · rw [Nat.toDigits_of_lt_base small] at zero
        have single : ∀ digit < 10, digit.digitChar = '0' → digit = 0 := by decide
        exact single value small (Option.some.inj zero)
      · have large : 10 ≤ value := Nat.not_lt.mp small
        rw [Nat.toDigits_of_base_le (by decide) large,
          List.head?_append_of_ne_nil _ Nat.toDigits_ne_nil] at zero
        have none := ih (value / 10) (Nat.div_lt_self (by omega) (by decide)) zero
        omega

theorem repr_head_isDigit (value : Nat) :
    ∃ head tail, value.repr.toList = head :: tail ∧ head.isDigit = true := by
  rw [Nat.toList_repr]
  cases digits : Nat.toDigits 10 value with
  | nil => exact absurd digits Nat.toDigits_ne_nil
  | cons head tail =>
      refine ⟨head, tail, rfl, ?_⟩
      apply Nat.isDigit_of_mem_toDigits (b := 10) (n := value) (by decide) (by decide)
      rw [digits]
      exact List.mem_cons_self

private theorem repr_fields_eq {left right : Nat} {leftRest rightRest : List Char}
    (equality : left.repr.toList ++ '-' :: leftRest =
      right.repr.toList ++ '-' :: rightRest) :
    left = right ∧ leftRest = rightRest := by
  obtain ⟨fieldEq, restEq⟩ := left_fields_eq
    (not_mem_repr (by decide) left) (not_mem_repr (by decide) right) equality
  have valueEq := congrArg parseDecimal fieldEq
  rw [parseDecimal_repr, parseDecimal_repr] at valueEq
  exact ⟨Option.some.inj valueEq, restEq⟩

/-- A hyphen ends a signed numeral although the sign is a hyphen too: the sign
can only stand first, where an unsigned numeral has a digit. -/
theorem signed_fields_eq {left right : Int} {leftRest rightRest : List Char}
    (equality : (toString left).toList ++ '-' :: leftRest =
      (toString right).toList ++ '-' :: rightRest) :
    left = right ∧ leftRest = rightRest := by
  cases left with
  | ofNat left =>
      change left.repr.toList ++ '-' :: leftRest = _ at equality
      cases right with
      | ofNat right =>
          obtain ⟨valueEq, restEq⟩ := repr_fields_eq equality
          exact ⟨congrArg Int.ofNat valueEq, restEq⟩
      | negSucc right =>
          obtain ⟨head, tail, shape, digit⟩ := repr_head_isDigit left
          change _ = ("-" ++ (right + 1).repr).toList ++ '-' :: rightRest at equality
          rw [shape, String.toList_append] at equality
          have headEq : head = '-' := (List.cons.inj equality).1
          rw [headEq] at digit
          contradiction
  | negSucc left =>
      change ("-" ++ (left + 1).repr).toList ++ '-' :: leftRest = _ at equality
      rw [String.toList_append] at equality
      cases right with
      | ofNat right =>
          obtain ⟨head, tail, shape, digit⟩ := repr_head_isDigit right
          change _ = right.repr.toList ++ '-' :: rightRest at equality
          rw [shape] at equality
          have headEq : '-' = head := (List.cons.inj equality).1
          rw [← headEq] at digit
          contradiction
      | negSucc right =>
          change _ = ("-" ++ (right + 1).repr).toList ++ '-' :: rightRest at equality
          rw [String.toList_append] at equality
          obtain ⟨valueEq, restEq⟩ := repr_fields_eq (List.cons.inj equality).2
          exact ⟨congrArg Int.negSucc (Nat.succ.inj valueEq), restEq⟩

theorem not_mem_signed {separator : Char} (notDigit : separator.isDigit = false)
    (notSign : separator ≠ '-') (value : Int) : separator ∉ (toString value).toList := by
  cases value with
  | ofNat value => exact not_mem_repr notDigit value
  | negSucc value =>
      change separator ∉ ("-" ++ (value + 1).repr).toList
      rw [String.toList_append, List.mem_append]
      rintro (sign | digits)
      · exact notSign (List.mem_singleton.mp sign)
      · exact not_mem_repr notDigit (value + 1) digits

theorem signed_toList_injective {left right : Int}
    (equality : (toString left).toList = (toString right).toList) : left = right :=
  (signed_fields_eq (congrArg (· ++ ['-']) equality)).1

end SeparatedText
