/-
Reads and subtractions that can go wrong.

An index or the start of a slice outside its list, and an unsigned difference below zero,
end a computation with a panic.  A computation that never panics returns a value for every
input; the lemmas below discharge the panics one operation at a time.
-/

import Mathlib.Data.List.Basic

namespace CheckedReads

variable {α : Type}

inductive Panic where
  | indexOutOfRange
  | sliceOutOfRange
  | subtractionUnderflow
deriving DecidableEq, Repr

abbrev Checked (α : Type) := Except Panic α

def index (items : List α) (position : Nat) : Checked α :=
  if inside : position < items.length then .ok (items.get ⟨position, inside⟩)
  else .error .indexOutOfRange

def sliceFrom (items : List α) (start : Nat) : Checked (List α) :=
  if start ≤ items.length then .ok (items.drop start) else .error .sliceOutOfRange

def slice (items : List α) (start stop : Nat) : Checked (List α) :=
  if start ≤ stop ∧ stop ≤ items.length then .ok ((items.drop start).take (stop - start))
  else .error .sliceOutOfRange

def sub (minuend subtrahend : Nat) : Checked Nat :=
  if subtrahend ≤ minuend then .ok (minuend - subtrahend) else .error .subtractionUnderflow

theorem index_eq_ok {items : List α} {position : Nat} (inside : position < items.length) :
    index items position = .ok (items.get ⟨position, inside⟩) := dif_pos inside

theorem sliceFrom_eq_ok {items : List α} {start : Nat} (inside : start ≤ items.length) :
    sliceFrom items start = .ok (items.drop start) := if_pos inside

theorem slice_eq_ok {items : List α} {start stop : Nat} (ordered : start ≤ stop)
    (inside : stop ≤ items.length) :
    slice items start stop = .ok ((items.drop start).take (stop - start)) :=
  if_pos ⟨ordered, inside⟩

theorem sub_eq_ok {minuend subtrahend : Nat} (fits : subtrahend ≤ minuend) :
    sub minuend subtrahend = .ok (minuend - subtrahend) := if_pos fits

@[simp] theorem ok_bind {β : Type} (value : α) (next : α → Checked β) :
    ((.ok value : Checked α) >>= next) = next value := rfl

@[simp] theorem pure_eq_ok (value : α) : (pure value : Checked α) = .ok value := rfl

end CheckedReads
