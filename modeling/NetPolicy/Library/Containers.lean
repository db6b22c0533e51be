/-
Hash maps with an unspecified iteration order, and ordered sets.

A hash map is Mathlib's association list with distinct keys.  Its entry order
carries no meaning: code that iterates a map goes through an `IterationOrder`,
which may visit the values in any order at all.  An ordered set is an increasing
list, so that iteration from the smallest element is list traversal.
-/

import Mathlib.Data.List.AList
import Mathlib.Data.List.Sort
import Mathlib.Order.Basic

/-! ### Hash maps -/

abbrev HashMap (κ υ : Type) := AList (fun _ : κ => υ)

namespace HashMap

variable {κ υ : Type}

def values (map : HashMap κ υ) : List υ := map.entries.map Sigma.snd

def size (map : HashMap κ υ) : Nat := map.entries.length

variable [DecidableEq κ]

theorem mem_values (map : HashMap κ υ) (value : υ) :
    value ∈ values map ↔ ∃ key, map.lookup key = some value := by
  unfold values
  rw [List.mem_map]
  constructor
  · rintro ⟨⟨key, stored⟩, member, rfl⟩
    exact ⟨key, AList.mem_lookup_iff.mpr member⟩
  · rintro ⟨key, found⟩
    exact ⟨⟨key, value⟩, AList.mem_lookup_iff.mp found, rfl⟩

theorem size_eq_zero_iff (map : HashMap κ υ) :
    size map = 0 ↔ ∀ key, map.lookup key = none := by
  unfold size
  rw [List.length_eq_zero_iff]
  constructor
  · intro empty key
    have mapEmpty : map = ∅ := AList.ext empty
    rw [mapEmpty]
    rfl
  · intro absent
    cases shape : map.entries with
    | nil => rfl
    | cons entry rest =>
        have found : map.lookup entry.1 = some entry.2 := by
          apply AList.mem_lookup_iff.mpr
          rw [shape]
          exact List.mem_cons_self
        rw [absent entry.1] at found
        contradiction

theorem lookup_insert_eq (map : HashMap κ υ) (key other : κ) (value : υ) :
    (map.insert key value).lookup other =
      if other = key then some value else map.lookup other := by
  split
  · rename_i same
    rw [same]
    exact AList.lookup_insert map
  · rename_i different
    exact AList.lookup_insert_ne different

theorem lookup_erase_eq (map : HashMap κ υ) (key other : κ) :
    (map.erase key).lookup other = if other = key then none else map.lookup other := by
  split
  · rename_i same
    rw [same]
    exact AList.lookup_erase key map
  · rename_i different
    exact AList.lookup_erase_ne different

def mapValues {ω : Type} (map : HashMap κ υ) (f : υ → ω) : HashMap κ ω where
  entries := map.entries.map fun entry => ⟨entry.1, f entry.2⟩
  nodupKeys := by
    have keys : List.keys (map.entries.map fun entry => (⟨entry.1, f entry.2⟩ : Σ _ : κ, ω)) =
        map.entries.keys := by
      simp [List.keys]
    rw [List.NodupKeys, keys]
    exact map.nodupKeys

theorem lookup_mapValues {ω : Type} (map : HashMap κ υ) (f : υ → ω) (key : κ) :
    (map.mapValues f).lookup key = (map.lookup key).map f := by
  have mapped := List.dlookup_map₂ (l := map.entries) (f := fun _ => f) key
  exact mapped

end HashMap

/-- The order in which one iteration of a hash map visits its values. -/
structure IterationOrder (υ : Type) where
  visit : List υ → List υ
  perm : ∀ values, (visit values).Perm values

namespace IterationOrder

variable {υ : Type}

def stored : IterationOrder υ :=
  { visit := id
    perm := fun values => List.Perm.refl values }

theorem find?_eq_some_mem (order : IterationOrder υ) (values : List υ)
    (test : υ → Bool) (value : υ) (found : (order.visit values).find? test = some value) :
    value ∈ values ∧ test value = true := by
  exact ⟨(order.perm values).mem_iff.mp (List.mem_of_find?_eq_some found),
    List.find?_some found⟩

theorem find?_isSome_iff (order : IterationOrder υ) (values : List υ) (test : υ → Bool) :
    ((order.visit values).find? test).isSome = true ↔ ∃ value ∈ values, test value = true := by
  rw [List.find?_isSome]
  constructor
  · rintro ⟨value, member, accepted⟩
    exact ⟨value, (order.perm values).mem_iff.mp member, accepted⟩
  · rintro ⟨value, member, accepted⟩
    exact ⟨value, (order.perm values).mem_iff.mpr member, accepted⟩

def preferring [DecidableEq υ] (value : υ) : IterationOrder υ :=
  { visit := fun values =>
      values.filter (fun other => other = value) ++ values.filter fun other => !decide (other = value)
    perm := fun values => List.filter_append_perm _ values }

theorem find?_preferring [DecidableEq υ] {values : List υ} {value : υ} (member : value ∈ values)
    {test : υ → Bool} (accepted : test value = true) :
    ((preferring value).visit values).find? test = some value := by
  have first : (values.filter fun other => other = value).find? test = some value := by
    have present : value ∈ values.filter fun other => other = value :=
      List.mem_filter.mpr ⟨member, decide_eq_true rfl⟩
    obtain ⟨found, search⟩ := Option.isSome_iff_exists.mp
      (List.find?_isSome.mpr ⟨value, present, accepted⟩)
    have same := (List.mem_filter.mp (List.mem_of_find?_eq_some search)).2
    rw [search, of_decide_eq_true same]
  rw [preferring, List.find?_append, first]
  rfl

end IterationOrder

/-! ### Ordered sets -/

structure OrderedSet (α : Type) [LinearOrder α] where
  elements : List α
  increasing : elements.Pairwise (· < ·)

namespace OrderedSet

variable {α : Type} [LinearOrder α]

instance : Membership α (OrderedSet α) := ⟨fun set element => element ∈ set.elements⟩

instance (element : α) (set : OrderedSet α) : Decidable (element ∈ set) :=
  inferInstanceAs (Decidable (element ∈ set.elements))

def empty : OrderedSet α := ⟨[], List.Pairwise.nil⟩

def insertSorted (element : α) : List α → List α
  | [] => [element]
  | head :: tail =>
      if element < head then element :: head :: tail
      else if element = head then head :: tail
      else head :: insertSorted element tail

theorem mem_insertSorted (element other : α) (elements : List α) :
    other ∈ insertSorted element elements ↔ other = element ∨ other ∈ elements := by
  induction elements with
  | nil => simp [insertSorted]
  | cons head tail ih =>
      unfold insertSorted
      split
      · exact List.mem_cons
      · split
        · rename_i same
          rw [same, List.mem_cons]
          tauto
        · rw [List.mem_cons, ih, List.mem_cons]
          tauto

theorem insertSorted_increasing (element : α) (elements : List α)
    (increasing : elements.Pairwise (· < ·)) :
    (insertSorted element elements).Pairwise (· < ·) := by
  induction elements with
  | nil => exact List.pairwise_singleton _ _
  | cons head tail ih =>
      rcases List.pairwise_cons.mp increasing with ⟨headLess, tailIncreasing⟩
      unfold insertSorted
      split
      · rename_i less
        refine List.pairwise_cons.mpr ⟨?_, increasing⟩
        intro other member
        rcases List.mem_cons.mp member with same | later
        · rw [same]
          exact less
        · exact lt_trans less (headLess other later)
      · rename_i notLess
        split
        · exact increasing
        · rename_i different
          refine List.pairwise_cons.mpr ⟨?_, ih tailIncreasing⟩
          intro other member
          rcases (mem_insertSorted element other tail).mp member with same | later
          · rw [same]
            exact lt_of_le_of_ne (not_lt.mp notLess) (Ne.symm different)
          · exact headLess other later

def insert (set : OrderedSet α) (element : α) : OrderedSet α :=
  ⟨insertSorted element set.elements, insertSorted_increasing element set.elements set.increasing⟩

theorem mem_insert (set : OrderedSet α) (element other : α) :
    other ∈ set.insert element ↔ other = element ∨ other ∈ set :=
  mem_insertSorted element other set.elements

theorem not_mem_empty (element : α) : element ∉ (empty : OrderedSet α) := List.not_mem_nil

theorem eq_of_mem_iff {left right : OrderedSet α}
    (same : ∀ element, element ∈ left ↔ element ∈ right) : left = right := by
  have elements := left.increasing.eq_of_mem_iff right.increasing fun element => same element
  cases left
  cases right
  cases elements
  rfl

theorem filter_eq {left right : OrderedSet α} (keep : α → Bool)
    (common : ∀ element, keep element = true → (element ∈ left ↔ element ∈ right)) :
    left.elements.filter keep = right.elements.filter keep := by
  refine (left.increasing.filter keep).eq_of_mem_iff (right.increasing.filter keep) ?_
  intro element
  rw [List.mem_filter, List.mem_filter]
  constructor
  · rintro ⟨member, kept⟩
    exact ⟨(common element kept).mp member, kept⟩
  · rintro ⟨member, kept⟩
    exact ⟨(common element kept).mpr member, kept⟩

end OrderedSet

/-! ### First answer along a nested scan -/

theorem findSome?_flatMap {α β γ : Type*} (inner : α → List β) (answer : β → Option γ)
    (outer : List α) :
    (outer.flatMap inner).findSome? answer =
      outer.findSome? fun element => (inner element).findSome? answer := by
  induction outer with
  | nil => rfl
  | cons head tail hypothesis =>
      rw [List.flatMap_cons, List.findSome?_append, hypothesis, List.findSome?_cons]
      cases (inner head).findSome? answer <;> rfl

theorem findSome?_filter_of_silent {α β : Type*} {answer : α → Option β} {keep : α → Bool}
    {elements : List α}
    (silent : ∀ element ∈ elements, keep element = false → answer element = none) :
    (elements.filter keep).findSome? answer = elements.findSome? answer := by
  induction elements with
  | nil => rfl
  | cons head tail ih =>
      have later := ih fun element member => silent element (List.mem_cons_of_mem head member)
      cases kept : keep head with
      | true => rw [List.filter_cons_of_pos kept, List.findSome?_cons, List.findSome?_cons, later]
      | false =>
          rw [List.filter_cons_of_neg (by rw [kept]; exact Bool.false_ne_true),
            List.findSome?_cons, silent head List.mem_cons_self kept, later]

/-- Two sets that differ in silent elements only give the same first answer. -/
theorem OrderedSet.findSome?_eq {α β : Type} [LinearOrder α] {left right : OrderedSet α}
    {answer : α → Option β} (keep : α → Bool)
    (common : ∀ element, keep element = true → (element ∈ left ↔ element ∈ right))
    (silent : ∀ element, keep element = false → answer element = none) :
    left.elements.findSome? answer = right.elements.findSome? answer := by
  calc
    left.elements.findSome? answer
        = (left.elements.filter keep).findSome? answer :=
          (findSome?_filter_of_silent fun element _ => silent element).symm
    _ = (right.elements.filter keep).findSome? answer := by
          rw [OrderedSet.filter_eq keep common]
    _ = right.elements.findSome? answer :=
          findSome?_filter_of_silent fun element _ => silent element

theorem findSome?_eq_find?_bind {α β : Type*} {answer : α → Option β} {answers : α → Bool}
    (tells : ∀ element, (answer element).isSome = answers element) (elements : List α) :
    elements.findSome? answer = (elements.find? answers).bind answer := by
  induction elements with
  | nil => rfl
  | cons head tail ih =>
      rw [List.findSome?_cons, List.find?_cons, ← tells head]
      cases found : answer head with
      | none => exact ih
      | some value => exact found.symm
