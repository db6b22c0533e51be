/-
Tables that are only looked up, written and swept entry by entry.

Such a table is its lookup function: two tables with the same lookups are equal, and
a write changes the lookup of the written key alone.
-/

@[ext] structure Table (κ υ : Type) where
  lookup : κ → Option υ

namespace Table

variable {κ υ : Type}

def empty : Table κ υ := ⟨fun _ => none⟩

def contains (table : Table κ υ) (key : κ) : Bool := (table.lookup key).isSome

def clear (_ : Table κ υ) : Table κ υ := empty

def retain (table : Table κ υ) (keep : κ → υ → Bool) : Table κ υ :=
  ⟨fun key => (table.lookup key).filter (keep key)⟩

theorem lookup_retain_eq_some {table : Table κ υ} {keep : κ → υ → Bool} {key : κ} {value : υ} :
    (table.retain keep).lookup key = some value ↔
      table.lookup key = some value ∧ keep key value = true :=
  Option.filter_eq_some_iff

variable [DecidableEq κ]

def insert (table : Table κ υ) (key : κ) (value : υ) : Table κ υ :=
  ⟨fun other => if other = key then some value else table.lookup other⟩

def erase (table : Table κ υ) (key : κ) : Table κ υ :=
  ⟨fun other => if other = key then none else table.lookup other⟩

@[simp] theorem lookup_insert_same (table : Table κ υ) (key : κ) (value : υ) :
    (table.insert key value).lookup key = some value := if_pos rfl

theorem lookup_insert_ne (table : Table κ υ) {key other : κ} (value : υ)
    (different : other ≠ key) : (table.insert key value).lookup other = table.lookup other :=
  if_neg different

@[simp] theorem lookup_erase_same (table : Table κ υ) (key : κ) :
    (table.erase key).lookup key = none := if_pos rfl

theorem lookup_erase_ne (table : Table κ υ) {key other : κ} (different : other ≠ key) :
    (table.erase key).lookup other = table.lookup other := if_neg different

theorem lookup_erase_eq_none (table : Table κ υ) {key : κ} (erased : κ)
    (absent : table.lookup key = none) : (table.erase erased).lookup key = none := by
  by_cases same : key = erased
  · rw [same]
    exact lookup_erase_same table erased
  · rw [lookup_erase_ne table same]
    exact absent

theorem eq_or_lookup_of_insert {table : Table κ υ} {key other : κ} {value found : υ}
    (lookup : (table.insert key value).lookup other = some found) :
    found = value ∨ table.lookup other = some found := by
  by_cases same : other = key
  · rw [same, lookup_insert_same] at lookup
    exact Or.inl (Option.some.inj lookup).symm
  · rw [lookup_insert_ne _ _ same] at lookup
    exact Or.inr lookup

theorem lookup_of_erase {table : Table κ υ} {key other : κ} {found : υ}
    (lookup : (table.erase key).lookup other = some found) : table.lookup other = some found := by
  by_cases same : other = key
  · rw [same, lookup_erase_same] at lookup
    cases lookup
  · rw [lookup_erase_ne _ same] at lookup
    exact lookup

theorem contains_insert (table : Table κ υ) (key other : κ) (value : υ) :
    (table.insert key value).contains other = (decide (other = key) || table.contains other) := by
  unfold contains
  by_cases same : other = key
  · rw [same, lookup_insert_same, decide_eq_true rfl]
    rfl
  · rw [lookup_insert_ne table value same, decide_eq_false same, Bool.false_or]

theorem contains_erase (table : Table κ υ) (key other : κ) :
    (table.erase key).contains other = (!decide (other = key) && table.contains other) := by
  unfold contains
  by_cases same : other = key
  · rw [same, lookup_erase_same, decide_eq_true rfl]
    rfl
  · rw [lookup_erase_ne table same, decide_eq_false same, Bool.not_false, Bool.true_and]

omit [DecidableEq κ] in
theorem lookup_eq_none_of_not_contains {table : Table κ υ} {key : κ}
    (absent : table.contains key = false) : table.lookup key = none := by
  unfold contains at absent
  cases found : table.lookup key with
  | none => rfl
  | some value =>
      rw [found] at absent
      cases absent

omit [DecidableEq κ] in
theorem contains_of_lookup {table : Table κ υ} {key : κ} {value : υ}
    (found : table.lookup key = some value) : table.contains key = true := by
  unfold contains
  rw [found]
  rfl

omit [DecidableEq κ] in
theorem not_contains_of_lookup {table : Table κ υ} {key : κ}
    (absent : table.lookup key = none) : table.contains key = false := by
  unfold contains
  rw [absent]
  rfl

omit [DecidableEq κ] in
theorem eq_empty_of_not_contains {table : Table κ υ} (absent : ∀ key, table.contains key = false) :
    table = empty :=
  Table.ext (funext fun key => lookup_eq_none_of_not_contains (absent key))

/-! ### The part of a table under some of its keys -/

def restrict (table : Table κ υ) (keep : κ → Bool) : Table κ υ :=
  table.retain fun key _ => keep key

omit [DecidableEq κ] in
theorem lookup_restrict (table : Table κ υ) {keep : κ → Bool} {key : κ}
    (kept : keep key = true) : (table.restrict keep).lookup key = table.lookup key := by
  simp only [restrict, retain, kept]
  cases table.lookup key <;> rfl

omit [DecidableEq κ] in
theorem lookup_restrict_hidden (table : Table κ υ) {keep : κ → Bool} {key : κ}
    (hidden : keep key = false) : (table.restrict keep).lookup key = none := by
  simp only [restrict, retain, hidden]
  cases table.lookup key <;> rfl

omit [DecidableEq κ] in
theorem contains_restrict (table : Table κ υ) {keep : κ → Bool} {key : κ}
    (kept : keep key = true) : (table.restrict keep).contains key = table.contains key := by
  rw [contains, table.lookup_restrict kept]
  rfl

omit [DecidableEq κ] in
theorem restrict_congr {table other : Table κ υ} {keep : κ → Bool}
    (same : ∀ key, keep key = true → table.lookup key = other.lookup key) :
    table.restrict keep = other.restrict keep := by
  apply Table.ext
  funext key
  cases kept : keep key with
  | true => rw [table.lookup_restrict kept, other.lookup_restrict kept, same key kept]
  | false => rw [table.lookup_restrict_hidden kept, other.lookup_restrict_hidden kept]

omit [DecidableEq κ] in
theorem restrict_retain (table : Table κ υ) {keep : κ → Bool} {test other : κ → υ → Bool}
    (same : ∀ key, keep key = true → test key = other key) :
    (table.retain test).restrict keep = (table.restrict keep).retain other := by
  apply Table.ext
  funext key
  cases kept : keep key with
  | true =>
      rw [lookup_restrict _ kept]
      simp only [retain, lookup_restrict _ kept, same key kept]
  | false =>
      rw [lookup_restrict_hidden _ kept]
      simp only [retain, lookup_restrict_hidden _ kept, Option.filter_none]

theorem restrict_insert (table : Table κ υ) {keep : κ → Bool} {key : κ}
    (kept : keep key = true) (value : υ) :
    (table.insert key value).restrict keep = (table.restrict keep).insert key value := by
  apply Table.ext
  funext other
  by_cases same : other = key
  · rw [same, lookup_restrict _ kept, lookup_insert_same, lookup_insert_same]
  · rw [lookup_insert_ne _ _ same]
    cases seen : keep other with
    | true => rw [lookup_restrict _ seen, lookup_restrict _ seen, lookup_insert_ne _ _ same]
    | false => rw [lookup_restrict_hidden _ seen, lookup_restrict_hidden _ seen]

theorem restrict_erase (table : Table κ υ) (keep : κ → Bool) (key : κ) :
    (table.erase key).restrict keep = (table.restrict keep).erase key := by
  apply Table.ext
  funext other
  cases seen : keep other with
  | true =>
      by_cases same : other = key
      · rw [lookup_restrict _ seen, same, lookup_erase_same, lookup_erase_same]
      · rw [lookup_restrict _ seen, lookup_erase_ne _ same, lookup_erase_ne _ same,
          lookup_restrict _ seen]
  | false =>
      rw [lookup_restrict_hidden _ seen,
        lookup_erase_eq_none _ _ (lookup_restrict_hidden _ seen)]

end Table
