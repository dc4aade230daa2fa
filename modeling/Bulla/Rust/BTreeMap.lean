import Std.Data.ExtTreeMap
import Std.Data.ExtTreeSet
import Mathlib.Algebra.BigOperators.Group.List.Basic
import Mathlib.Data.List.Nodup
import Mathlib.Data.Set.Insert

/-!
# Ordered maps

`BTreeMap` is the standard library's extensional tree map at the key type's own order, and `toList`
is its iteration order.  This file adds what a sum over the entries of a map does under insertion
and removal, and what the last entry of the iteration says about the other keys.
-/

namespace Rust

/-- `alloc::collections::BTreeMap`. -/
abbrev BTreeMap (κ ν : Type) [Ord κ] : Type := Std.ExtTreeMap κ ν compare

/-- `alloc::collections::BTreeSet`. -/
abbrev BTreeSet (κ : Type) [Ord κ] : Type := Std.ExtTreeSet κ compare

namespace BTreeMap

variable {κ ν M : Type} [Ord κ] [Std.TransOrd κ] [Std.LawfulEqOrd κ]

@[simp] theorem mem_toList {map : BTreeMap κ ν} {entry : κ × ν} :
    entry ∈ map.toList ↔ map[entry.1]? = some entry.2 := by
  exact Std.ExtTreeMap.mem_toList_iff_getElem?_eq_some

theorem toList_nodup (map : BTreeMap κ ν) : map.toList.Nodup := by
  refine map.distinct_keys_toList.imp ?_
  rintro left right distinct rfl
  exact distinct Std.ReflCmp.compare_self

theorem getElem?_insert_of_ne (map : BTreeMap κ ν) {key other : κ} (value : ν)
    (distinct : key ≠ other) : (map.insert key value)[other]? = map[other]? := by
  rw [Std.ExtTreeMap.getElem?_insert, if_neg]
  simpa using distinct

theorem getElem?_erase_of_ne (map : BTreeMap κ ν) {key other : κ}
    (distinct : key ≠ other) : (map.erase key)[other]? = map[other]? := by
  rw [Std.ExtTreeMap.getElem?_erase, if_neg]
  simpa using distinct

/-- Entries after an insertion: the new entry, or an old one at another key. -/
theorem getElem?_insert_eq_some {map : BTreeMap κ ν} {key other : κ} {value found : ν} :
    (map.insert key value)[other]? = some found ↔
      (key = other ∧ value = found) ∨ (key ≠ other ∧ map[other]? = some found) := by
  rw [Std.ExtTreeMap.getElem?_insert]
  by_cases same : key = other <;> simp [same]

theorem getElem?_insert_eq_none {map : BTreeMap κ ν} {key other : κ} {value : ν} :
    (map.insert key value)[other]? = none ↔ key ≠ other ∧ map[other]? = none := by
  rw [Std.ExtTreeMap.getElem?_insert]
  by_cases same : key = other <;> simp [same]

/-- Entries after a removal are the old ones at other keys. -/
theorem getElem?_erase_eq_some {map : BTreeMap κ ν} {key other : κ} {found : ν} :
    (map.erase key)[other]? = some found ↔ key ≠ other ∧ map[other]? = some found := by
  rw [Std.ExtTreeMap.getElem?_erase]
  by_cases same : key = other <;> simp [same]

omit [Std.LawfulEqOrd κ] in
theorem mem_of_present {map : BTreeMap κ ν} {key : κ} {value : ν}
    (present : map[key]? = some value) : key ∈ map := by
  rw [Std.ExtTreeMap.mem_iff_isSome_getElem?, present]
  rfl

/-- Writing back the value that is already there. -/
theorem insert_of_present {map : BTreeMap κ ν} {key : κ} {value : ν}
    (present : map[key]? = some value) : map.insert key value = map := by
  apply Std.ExtTreeMap.ext_getElem?
  intro other
  by_cases same : key = other
  · subst same
    rw [present, Std.ExtTreeMap.getElem?_insert_self]
  · exact getElem?_insert_of_ne map value same

omit [Std.LawfulEqOrd κ] in
/-- An insertion that changes nothing writes the value that is already there. -/
theorem eq_of_insert_eq {map : BTreeMap κ ν} {key : κ} {old value : ν}
    (same : map.insert key value = map) (present : map[key]? = some old) : old = value := by
  rw [← same, Std.ExtTreeMap.getElem?_insert_self] at present
  exact (Option.some.inj present).symm

/-- Writing back values that are already there. -/
theorem foldl_insert_of_present {map : BTreeMap κ ν} {writes : List (κ × ν)}
    (present : ∀ write ∈ writes, map[write.1]? = some write.2) :
    writes.foldl (fun map write => map.insert write.1 write.2) map = map := by
  induction writes with
  | nil => rfl
  | cons write writes induction =>
      rw [List.forall_mem_cons] at present
      rw [List.foldl_cons, insert_of_present present.1, induction present.2]

/-- Of two writes to one key the second stays. -/
theorem insert_insert (map : BTreeMap κ ν) (key : κ) (first second : ν) :
    (map.insert key first).insert key second = map.insert key second := by
  apply Std.ExtTreeMap.ext_getElem?
  intro other
  by_cases same : key = other
  · subst same
    rw [Std.ExtTreeMap.getElem?_insert_self, Std.ExtTreeMap.getElem?_insert_self]
  · simp only [getElem?_insert_of_ne _ _ same]

/-- Writes to other keys. -/
theorem getElem?_foldl_insert_of_ne (map : BTreeMap κ ν) {writes : List (κ × ν)} {key : κ}
    (others : ∀ write ∈ writes, write.1 ≠ key) :
    (writes.foldl (fun map write => map.insert write.1 write.2) map)[key]? = map[key]? := by
  induction writes generalizing map with
  | nil => rfl
  | cons write writes induction =>
      rw [List.forall_mem_cons] at others
      rw [List.foldl_cons, induction _ others.2, getElem?_insert_of_ne _ _ others.1]

/-- Of many writes to one key the last stays. -/
theorem getElem?_foldl_insert (map : BTreeMap κ ν) {earlier later : List (κ × ν)} {key : κ}
    {value : ν} (last : ∀ write ∈ later, write.1 ≠ key) :
    ((earlier ++ (key, value) :: later).foldl (fun map write => map.insert write.1 write.2)
      map)[key]? = some value := by
  rw [List.foldl_append, List.foldl_cons, getElem?_foldl_insert_of_ne _ last,
    Std.ExtTreeMap.getElem?_insert_self]

/-- Overwriting an entry keeps the keys. -/
theorem mem_insert_of_present {map : BTreeMap κ ν} {key : κ} {old : ν} (value : ν)
    (present : map[key]? = some old) (other : κ) : other ∈ map.insert key value ↔ other ∈ map := by
  rw [Std.ExtTreeMap.mem_insert, Std.LawfulEqCmp.compare_eq_iff_eq]
  constructor
  · rintro (rfl | old_member)
    · exact mem_of_present present
    · exact old_member
  · exact .inr

/-- Collecting keys that all get one value. -/
theorem getElem?_ofList_const [BEq κ] [LawfulBEq κ] (keys : BTreeSet κ) (value : ν) (key : κ) :
    (Std.ExtTreeMap.ofList (keys.toList.map fun key => (key, value)) : BTreeMap κ ν)[key]? =
      if key ∈ keys then some value else none := by
  have distinct : (keys.toList.map fun key => (key, value)).Pairwise
      fun left right => ¬compare left.1 right.1 = .eq :=
    List.pairwise_map.mpr (keys.distinct_toList)
  by_cases member : key ∈ keys
  · rw [if_pos member]
    exact Std.ExtTreeMap.getElem?_ofList_of_mem Std.ReflCmp.compare_self distinct
      (List.mem_map.mpr ⟨key, by simpa using member, rfl⟩)
  · rw [if_neg member]
    refine Std.ExtTreeMap.getElem?_ofList_of_contains_eq_false ?_
    simpa using member

theorem erase_of_absent {map : BTreeMap κ ν} {key : κ} (absent : map[key]? = none) :
    map.erase key = map := by
  apply Std.ExtTreeMap.ext_getElem?
  intro other
  by_cases same : key = other
  · subst same
    simp [absent]
  · exact getElem?_erase_of_ne map same

theorem erase_insert_self (map : BTreeMap κ ν) (key : κ) (value : ν) :
    (map.insert key value).erase key = map.erase key := by
  apply Std.ExtTreeMap.ext_getElem?
  intro other
  by_cases same : key = other
  · subst same
    simp
  · rw [getElem?_erase_of_ne _ same, getElem?_erase_of_ne _ same, getElem?_insert_of_ne _ _ same]

/-- The entries of a map are one of them together with the entries left when it is removed. -/
theorem toList_perm_cons_erase {map : BTreeMap κ ν} {key : κ} {value : ν}
    (present : map[key]? = some value) :
    map.toList.Perm ((key, value) :: (map.erase key).toList) := by
  refine (List.perm_ext_iff_of_nodup map.toList_nodup ?_).mpr ?_
  · refine List.nodup_cons.mpr ⟨?_, toList_nodup _⟩
    simp
  · rintro ⟨other, found⟩
    rw [List.mem_cons, mem_toList, mem_toList, getElem?_erase_eq_some, Prod.mk.injEq]
    by_cases same : key = other
    · subst same
      simp [present, eq_comm]
    · simp [same, Ne.symm same]

/-- The sum of a weight over the entries of a map. -/
def total [AddCommMonoid M] (weight : κ → ν → M) (map : BTreeMap κ ν) : M :=
  (map.toList.map fun entry => weight entry.1 entry.2).sum

section Total

variable [AddCommMonoid M] (weight : κ → ν → M)

omit [Std.LawfulEqOrd κ] in
@[simp] theorem total_empty : total weight (∅ : BTreeMap κ ν) = 0 := by
  rw [total, Std.ExtTreeMap.toList_eq_nil_iff.mpr (by rfl)]
  rfl

theorem total_eq_of_present {map : BTreeMap κ ν} {key : κ} {value : ν}
    (present : map[key]? = some value) :
    total weight map = weight key value + total weight (map.erase key) := by
  rw [total, ((toList_perm_cons_erase present).map _).sum_eq]
  rfl

theorem total_insert_of_absent {map : BTreeMap κ ν} {key : κ} (value : ν)
    (absent : map[key]? = none) :
    total weight (map.insert key value) = weight key value + total weight map := by
  have present : (map.insert key value)[key]? = some value := Std.ExtTreeMap.getElem?_insert_self
  rw [total_eq_of_present weight present, erase_insert_self, erase_of_absent absent]

/-- Overwriting an entry exchanges its weight. -/
theorem total_insert_of_present {map : BTreeMap κ ν} {key : κ} {old : ν} (value : ν)
    (present : map[key]? = some old) :
    weight key old + total weight (map.insert key value) =
      weight key value + total weight map := by
  have inserted : (map.insert key value)[key]? = some value := Std.ExtTreeMap.getElem?_insert_self
  rw [total_eq_of_present weight inserted, erase_insert_self, total_eq_of_present weight present]
  exact add_left_comm _ _ _

end Total

/-- The last entry of the iteration is present and no key lies above it. -/
theorem getLast?_toList {map : BTreeMap κ ν} {key : κ} {value : ν}
    (last : map.toList.getLast? = some (key, value)) :
    map[key]? = some value ∧
      ∀ other found, map[other]? = some found → other ≠ key → compare other key = .lt := by
  obtain ⟨front, entries_eq⟩ := List.getLast?_eq_some_iff.mp last
  constructor
  · have member : (key, value) ∈ map.toList := by simp [entries_eq]
    exact mem_toList.mp member
  · intro other found present distinct
    have ordered := map.ordered_keys_toList
    rw [entries_eq, List.pairwise_append] at ordered
    have member : (other, found) ∈ front ++ [(key, value)] := by
      rw [← entries_eq, mem_toList]
      exact present
    rcases List.mem_append.mp member with earlier | same
    · exact ordered.2.2 _ earlier (key, value) (by simp)
    · simp at same
      exact (distinct same.1).elim

end BTreeMap

namespace BTreeSet

variable {κ : Type} [Ord κ] [Std.TransOrd κ] [Std.LawfulEqOrd κ]

/-- Ordered sets are equal if they have the same members. -/
theorem setOf_mem_inj {left right : BTreeSet κ} :
    {key | key ∈ left} = {key | key ∈ right} ↔ left = right := by
  constructor
  · intro same
    exact Std.ExtTreeSet.ext_mem fun key => Set.ext_iff.mp same key
  · rintro rfl
    rfl

theorem erase_of_absent {set : BTreeSet κ} {key : κ} (absent : key ∉ set) :
    set.erase key = set := by
  apply Std.ExtTreeSet.ext_mem
  intro other
  rw [Std.ExtTreeSet.mem_erase, ne_eq, Std.LawfulEqCmp.compare_eq_iff_eq]
  constructor
  · exact fun member => member.2
  · intro member
    refine ⟨?_, member⟩
    rintro rfl
    exact absent member

theorem insert_of_mem {set : BTreeSet κ} {key : κ} (member : key ∈ set) : set.insert key = set := by
  apply Std.ExtTreeSet.ext_mem
  intro other
  rw [Std.ExtTreeSet.mem_insert, Std.LawfulEqCmp.compare_eq_iff_eq]
  constructor
  · rintro (rfl | old)
    · exact member
    · exact old
  · exact .inr

theorem toList_nodup (set : BTreeSet κ) : set.toList.Nodup := by
  refine set.distinct_toList.imp ?_
  rintro left right distinct rfl
  exact distinct Std.ReflCmp.compare_self

/-- The iteration of a set is a reordering of any list of its members. -/
theorem toList_perm {set : BTreeSet κ} {keys : List κ} (distinct : keys.Nodup)
    (members : ∀ key, key ∈ set ↔ key ∈ keys) : set.toList.Perm keys := by
  refine (List.perm_ext_iff_of_nodup set.toList_nodup distinct).mpr ?_
  intro key
  rw [Std.ExtTreeSet.mem_toList, members]

/-- A part of a set that is as large as the set is the whole of it. -/
theorem eq_of_subset_of_size_le {part whole : BTreeSet κ} (subset : ∀ key ∈ part, key ∈ whole)
    (size_le : whole.size ≤ part.size) : part = whole := by
  have inside : part.toList ⊆ whole.toList := by
    intro key member
    rw [Std.ExtTreeSet.mem_toList] at member ⊢
    exact subset key member
  have same := (List.subperm_of_subset part.toList_nodup inside).perm_of_length_le (by
    rwa [Std.ExtTreeSet.length_toList, Std.ExtTreeSet.length_toList])
  apply Std.ExtTreeSet.ext_mem
  intro key
  rw [← Std.ExtTreeSet.mem_toList, ← Std.ExtTreeSet.mem_toList]
  exact same.mem_iff

theorem setOf_mem_insert (set : BTreeSet κ) (key : κ) :
    {other | other ∈ set.insert key} = insert key {other | other ∈ set} := by
  ext other
  rw [Set.mem_ofPred_eq, Std.ExtTreeSet.mem_insert, Std.LawfulEqCmp.compare_eq_iff_eq,
    Set.mem_insert_iff]
  exact or_congr_left eq_comm

end BTreeSet

end Rust
