import Bulla.Rust.History
import Bulla.Rust.Word

/-!
# Arrays of fixed length and slices

An array is indexed by machine words, and an index out of bounds panics.  A store changes one slot,
so over a history every slot holds what was stored there last.  The length of a slice is a machine
word too.
-/

namespace Rust

/-- `[T]`. -/
abbrev Slice (T : Type) : Type := {values : List T // values.length < 2 ^ 64}

/-- `[T; N]`. -/
abbrev FixedArray (T : Type) (N : UInt64) : Type := Vector T N.toNat

namespace FixedArray

variable {T : Type} {N : UInt64}

/-- `array[index]`, where `None` is the panic. -/
def load (array : FixedArray T N) (index : UInt64) : Option T := array[index.toNat]?

/-- `array[index] = value`, where `None` is the panic. -/
def store (array : FixedArray T N) (index : UInt64) (value : T) : Option (FixedArray T N) :=
  if within : index.toNat < N.toNat then some (array.set index.toNat value within) else none

theorem load_eq_toList (array : FixedArray T N) (index : UInt64) :
    array.load index = array.toList[index.toNat]? := by
  simp [load]

theorem load_eq_none {array : FixedArray T N} {index : UInt64} :
    array.load index = none ↔ N.toNat ≤ index.toNat := by
  simp [load]

theorem store_eq_none {array : FixedArray T N} {index : UInt64} {value : T} :
    array.store index value = none ↔ N.toNat ≤ index.toNat := by
  simp [store]

theorem store_eq_some {array after : FixedArray T N} {index : UInt64} {value : T} :
    array.store index value = some after ↔
      ∃ within : index.toNat < N.toNat, array.set index.toNat value within = after := by
  simp [store]

/-- The slots of an array after a store. -/
theorem getElem?_of_store {array after : FixedArray T N} {index : UInt64} {value : T}
    (stored : array.store index value = some after) (slot : ℕ) :
    after[slot]? = if index.toNat = slot then some value else array[slot]? := by
  obtain ⟨within, rfl⟩ := store_eq_some.mp stored
  exact Vector.getElem?_set within

theorem toList_of_store {array after : FixedArray T N} {index : UInt64} {value : T}
    (stored : array.store index value = some after) :
    after.toList = array.toList.set index.toNat value := by
  obtain ⟨within, rfl⟩ := store_eq_some.mp stored
  exact Vector.toList_set within

theorem beq_iff [BEq T] {left right : FixedArray T N} :
    (left == right) = true ↔ ∀ (slot : ℕ) (first second : T),
      left[slot]? = some first → right[slot]? = some second → (first == second) = true := by
  rw [Vector.beq_eq_decide, decide_eq_true_eq]
  constructor
  · intro same slot first second first_eq second_eq
    obtain ⟨within, rfl⟩ := Vector.getElem?_eq_some_iff.mp first_eq
    obtain ⟨_, rfl⟩ := Vector.getElem?_eq_some_iff.mp second_eq
    exact same slot within
  · intro same slot within
    exact same slot _ _ (Vector.getElem?_eq_getElem within) (Vector.getElem?_eq_getElem within)

/-- Slices are compared by their lengths and entry by entry. -/
theorem slice_beq_iff [BEq T] {left right : List T} :
    (left == right) = true ↔ left.length = right.length ∧ ∀ (index : ℕ) (first second : T),
      left[index]? = some first → right[index]? = some second → (first == second) = true := by
  induction left generalizing right with
  | nil => cases right <;> simp
  | cons head tail induction =>
      cases right with
      | nil => simp
      | cons other rest =>
          have entries := Nat.and_forall_add_one (p := fun index => ∀ first second,
            (head :: tail)[index]? = some first → (other :: rest)[index]? = some second →
              (first == second) = true)
          rw [List.cons_beq_cons, Bool.and_eq_true, induction, ← entries]
          simp [and_left_comm]

section Remembers

variable {τ : Type}

/-- Every slot holds the value that was stored there last, or the initial one. -/
def Remembers (initial : T) (storedAt : ℕ → τ → Option T) (past : List τ)
    (array : FixedArray T N) : Prop :=
  ∀ slot < N.toNat, array[slot]? = some ((latest (storedAt slot) past).getD initial)

variable {initial : T} {storedAt : ℕ → τ → Option T} {past : List τ} {occurred : τ}
  {array after : FixedArray T N}

theorem remembers_replicate :
    Remembers initial storedAt [] (Vector.replicate N.toNat initial : FixedArray T N) := by
  intro slot within
  rw [Vector.getElem?_replicate, if_pos within]
  rfl

theorem Remembers.silent (remembers : Remembers initial storedAt past array)
    (silent : ∀ slot, storedAt slot occurred = none) :
    Remembers initial storedAt (past ++ [occurred]) array := by
  intro slot within
  rw [latest_snoc, silent, Option.none_or, remembers slot within]

theorem Remembers.store (remembers : Remembers initial storedAt past array) {index : UInt64}
    {value : T} (stored : array.store index value = some after)
    (shown : ∀ slot, storedAt slot occurred = if index.toNat = slot then some value else none) :
    Remembers initial storedAt (past ++ [occurred]) after := by
  intro slot within
  rw [getElem?_of_store stored, latest_snoc, shown]
  split
  · rfl
  · rw [Option.none_or, remembers slot within]

/-- Arrays are compared by what was stored in their slots last. -/
theorem Remembers.beq_iff [BEq T] {other : List τ} {second : FixedArray T N}
    (remembers : Remembers initial storedAt past array)
    (other_remembers : Remembers initial storedAt other second) :
    (array == second) = true ↔ ∀ slot < N.toNat,
      ((latest (storedAt slot) past).getD initial == (latest (storedAt slot) other).getD initial) =
        true := by
  rw [FixedArray.beq_iff]
  constructor
  · intro same slot within
    exact same slot _ _ (remembers slot within) (other_remembers slot within)
  · intro same slot first last first_eq last_eq
    obtain ⟨within, _⟩ := Vector.getElem?_eq_some_iff.mp first_eq
    rw [remembers slot within] at first_eq
    rw [other_remembers slot within] at last_eq
    rw [← Option.some.inj first_eq, ← Option.some.inj last_eq]
    exact same slot within

end Remembers

end FixedArray

end Rust
