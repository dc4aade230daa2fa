import Bulla.Rust.Bits
import Bulla.Kernel.Storage

/-!
# Bitmaps

A bitmap is a set of bit indices, kept in words of 64 bits.  Bit `index` lies in word `index / 64`
at position `index % 64`; the search for a clear bit skips the words that are all ones.
-/

namespace Bulla.Kernel

open Rust Outcome

/-- No array has `2 ^ 58` words or more, so the index of a bit is always a `usize` and can be
a number. -/
structure Bitmap (WORDS : ℕ) where
  words : Vector UInt64 WORDS
  deriving DecidableEq, Repr

namespace Bitmap

variable {WORDS : ℕ}

def new : Bitmap WORDS := ⟨Vector.replicate WORDS 0⟩

/-- The bit of an index in its word. -/
def mask (bit : ℕ) : UInt64 := 1 <<< UInt64.ofNat (bit % 64)

protected def set (bit : ℕ) (value : Bool) : Call (Bitmap WORDS) StorageError Unit := do
  let word := bit / 64
  rejectIf (WORDS ≤ word) StorageError.outOfBounds
  let old ← Call.unchecked (← get).words[word]?
  let changed := if value then old ||| mask bit else old &&& ~~~mask bit
  modify fun self => { self with words := self.words.setIfInBounds word changed }

protected def get (self : Bitmap WORDS) (bit : ℕ) : Outcome StorageError Bool := do
  let word := bit / 64
  rejectIf (WORDS ≤ word) StorageError.outOfBounds
  let found ← unchecked self.words[word]?
  return found &&& mask bit != 0

/-- The closure of `first_clear`: the least clear bit of one word. -/
def clearIn (entry : UInt64 × ℕ) : Option ℕ :=
  if entry.1 = 0xffffffffffffffff then none else some (entry.2 * 64 + trailingZeros (~~~entry.1))

def firstClear (self : Bitmap WORDS) : Option ℕ := self.words.toList.zipIdx.findSome? clearIn

/-- Whether a bit is set. -/
def contents (self : Bitmap WORDS) (index : ℕ) : Bool :=
  bit (self.words[index / 64]?.getD 0) (index % 64)

theorem shift_toNat (index : ℕ) : (UInt64.ofNat (index % 64)).toNat = index % 64 := by
  have small : index % 64 < 2 ^ 64 := by omega
  exact UInt64.toNat_ofNat_of_lt' small

theorem shift_lt (index : ℕ) : (UInt64.ofNat (index % 64)).toNat < 64 := by
  rw [shift_toNat]
  omega

theorem bit_mask (index position : ℕ) :
    bit (mask index) position = decide (index % 64 = position) := by
  rw [mask, bit_one_shiftLeft (shift_lt index), shift_toNat]

theorem and_mask_bne (word : UInt64) (index : ℕ) :
    (word &&& mask index != 0) = bit word (index % 64) := by
  have tested := and_one_shiftLeft_ne_zero word (shift_lt index)
  rwa [shift_toNat, ← bne_iff_ne, ← Bool.eq_iff_iff] at tested

theorem contents_new (index : ℕ) : (new : Bitmap WORDS).contents index = false := by
  rw [contents, new, Vector.getElem?_replicate]
  split <;> simp

/-- `get` returns the bit of an index within the bitmap. -/
theorem get_eq (self : Bitmap WORDS) (index : ℕ) :
    self.get index =
      if index < 64 * WORDS then .ok (self.contents index) else .err .outOfBounds := by
  by_cases within : index < 64 * WORDS
  · have word_lt : index / 64 < WORDS := by omega
    have loaded : self.words[index / 64]? = some self.words[index / 64] :=
      Vector.getElem?_eq_getElem word_lt
    rw [if_pos within, Bitmap.get, contents, loaded]
    simp only [Nat.not_le.mpr word_lt, rejectIf, if_false, unchecked, ok_bind, pure_eq,
      Option.getD_some, and_mask_bne]
  · have word_ge : WORDS ≤ index / 64 := by omega
    rw [if_neg within, Bitmap.get]
    simp only [rejectIf, word_ge, if_true, err_bind]

theorem get_eq_ok {self : Bitmap WORDS} {index : ℕ} {value : Bool} :
    self.get index = .ok value ↔ index < 64 * WORDS ∧ self.contents index = value := by
  rw [get_eq]
  split <;> simp [*]

/-- One bit is changed. -/
def Written (before : Bitmap WORDS) (index : ℕ) (value : Bool) (after : Bitmap WORDS) : Prop :=
  ∀ other, after.contents other = if other = index then value else before.contents other

/-- One call of `set`. -/
structure Request where
  bit : ℕ
  value : Bool
  deriving DecidableEq, Repr

def perform (request : Request) : Call (Bitmap WORDS) StorageError Unit :=
  Bitmap.set request.bit request.value

/-- The effect of each way a call can end. -/
inductive Step (before : Bitmap WORDS) (request : Request) :
    Outcome StorageError Unit → Bitmap WORDS → Prop
  | refused (outside : 64 * WORDS ≤ request.bit) : Step before request (.err .outOfBounds) before
  | written {after : Bitmap WORDS} (within : request.bit < 64 * WORDS)
      (changed : Written before request.bit request.value after) :
      Step before request (.ok ()) after

theorem bit_changed (old : UInt64) (index : ℕ) (value : Bool) {position : ℕ}
    (inside : position < 64) :
    bit (if value then old ||| mask index else old &&& ~~~mask index) position =
      if index % 64 = position then value else bit old position := by
  cases value <;> by_cases same : index % 64 = position <;> simp [bit_mask, bit_not, inside, same]

/-- Storing the changed word changes one bit. -/
theorem written_setIfInBounds {before : Bitmap WORDS} {index : ℕ} {value : Bool}
    {old changed : UInt64} (loaded : before.words[index / 64]? = some old)
    (changed_eq : changed = if value then old ||| mask index else old &&& ~~~mask index) :
    Written before index value ⟨before.words.setIfInBounds (index / 64) changed⟩ := by
  intro other
  obtain ⟨word_lt, _⟩ := Vector.getElem?_eq_some_iff.mp loaded
  rw [contents, contents, Vector.getElem?_setIfInBounds]
  by_cases same_word : index / 64 = other / 64
  · have same_iff : index % 64 = other % 64 ↔ other = index := by omega
    rw [if_pos same_word, if_pos word_lt, ← same_word, loaded, changed_eq, Option.getD_some,
      Option.getD_some, bit_changed old index value (Nat.mod_lt other (by decide))]
    simp only [same_iff]
  · have other_ne : other ≠ index := by
      rintro rfl
      exact same_word rfl
    rw [if_neg same_word, if_neg other_ne]

/-- Every call is one of the steps. -/
theorem step_perform (request : Request) (before : Bitmap WORDS) :
    Step before request (perform request before).1 (perform request before).2 := by
  show Call.Ensures (perform request) (Step before request) before
  simp only [perform, Bitmap.set]
  simp
  refine ⟨fun inside => ⟨fun old loaded => ?_, fun outside => ?_⟩, fun outside => ?_⟩
  · exact Step.written (by omega) (written_setIfInBounds loaded rfl)
  · omega
  · exact .refused (by omega)

/-- The value a call sets a bit to. -/
def Request.valueFor (index : ℕ) (request : Request) : Option Bool :=
  if request.bit = index then some request.value else none

/-- After every run each bit has the value it was set to last, and was clear at first. -/
theorem contents_final (requests : List Request) {index : ℕ} (within : index < 64 * WORDS) :
    (final perform (new : Bitmap WORDS) requests).contents index =
      (latest (Request.valueFor index) requests).getD false := by
  induction requests using List.reverseRecOn with
  | nil => exact contents_new index
  | append_singleton requests request induction =>
      rw [final_append, latest_snoc]
      generalize final perform (new : Bitmap WORDS) requests = state at induction
      show (perform request state).2.contents index = _
      have step := step_perform request state
      generalize (perform request state).1 = outcome at step
      generalize (perform request state).2 = after at step ⊢
      cases step with
      | refused outside =>
          have other : request.bit ≠ index := by omega
          rw [Request.valueFor, if_neg other, Option.none_or, induction]
      | written _ changed =>
          rw [changed index, Request.valueFor]
          by_cases same : request.bit = index
          · rw [if_pos same, if_pos same.symm, Option.some_or, Option.getD_some]
          · rw [if_neg same, if_neg (Ne.symm same), Option.none_or, induction]

theorem bit_full {index : ℕ} (inside : index < 64) : bit 0xffffffffffffffff index = true := by
  have full_eq : (0xffffffffffffffff : UInt64) = ~~~0 := rfl
  rw [full_eq, bit_not 0 inside, bit_zero, Bool.not_false]

theorem clearIn_eq_none {word : UInt64} {position : ℕ} :
    clearIn (word, position) = none ↔ word = 0xffffffffffffffff := by
  simp [clearIn]

theorem isLeast_of_clearIn {word : UInt64} {position index : ℕ}
    (found : clearIn (word, position) = some index) :
    index / 64 = position ∧ IsLeast {place | place < 64 ∧ bit word place = false} (index % 64) := by
  rw [clearIn] at found
  split at found
  · cases found
  · next free =>
    have free_bits : ~~~word ≠ 0 := fun zero => free (UInt64.not_eq_comm.mp zero)
    obtain ⟨set, least⟩ := isLeast_trailingZeros free_bits
    have inside : trailingZeros (~~~word) < 64 := by
      by_contra outside
      exact Bool.false_ne_true
        ((bit_eq_false_of_le (Nat.le_of_not_lt outside)).symm.trans set)
    obtain rfl := Option.some.inj found
    have word_eq : (position * 64 + trailingZeros (~~~word)) / 64 = position := by omega
    have place_eq : (position * 64 + trailingZeros (~~~word)) % 64 = trailingZeros (~~~word) := by
      omega
    rw [place_eq]
    refine ⟨word_eq, ⟨inside, ?_⟩, ?_⟩
    · rwa [Set.mem_ofPred_eq, bit_not word inside, Bool.not_eq_true'] at set
    · rintro place ⟨place_lt, clear⟩
      apply least
      rw [Set.mem_ofPred_eq, bit_not word place_lt, clear, Bool.not_false]

/-- The search stops in the first word that is not all ones. -/
theorem firstClear_eq_some {self : Bitmap WORDS} {index : ℕ}
    (found : self.firstClear = some index) :
    ∃ position word, self.words[position]? = some word ∧ clearIn (word, position) = some index ∧
      ∀ earlier < position, self.words[earlier]? = some 0xffffffffffffffff := by
  obtain ⟨skipped, ⟨word, position⟩, later, split, here, full⟩ :=
    List.findSome?_eq_some_iff.mp found
  have entry (place : ℕ) : (skipped ++ (word, position) :: later)[place]? =
      self.words[place]?.map fun value => (value, place) := by
    rw [← split, List.getElem?_zipIdx]
    simp
  have stopped := entry skipped.length
  rw [List.getElem?_append_right le_rfl, Nat.sub_self, List.getElem?_cons_zero, eq_comm,
    Option.map_eq_some_iff] at stopped
  obtain ⟨_, loaded, pair_eq⟩ := stopped
  obtain ⟨rfl, rfl⟩ := Prod.mk.inj pair_eq
  refine ⟨_, _, loaded, here, fun earlier before => ?_⟩
  have passed := entry earlier
  rw [List.getElem?_append_left before, List.getElem?_eq_getElem before, eq_comm,
    Option.map_eq_some_iff] at passed
  obtain ⟨value, value_eq, pair_eq⟩ := passed
  have skip := full _ (List.getElem_mem before)
  rw [← pair_eq] at skip
  rw [value_eq, clearIn_eq_none.mp skip]

/-- The indices of the clear bits. -/
def clear (self : Bitmap WORDS) : Set ℕ :=
  {index | index < 64 * WORDS ∧ self.contents index = false}

theorem isLeast_firstClear {self : Bitmap WORDS} {index : ℕ}
    (found : self.firstClear = some index) : IsLeast self.clear index := by
  obtain ⟨position, word, loaded, here, full⟩ := firstClear_eq_some found
  obtain ⟨rfl, ⟨place_lt, place_clear⟩, least⟩ := isLeast_of_clearIn here
  obtain ⟨word_lt, _⟩ := Vector.getElem?_eq_some_iff.mp loaded
  refine ⟨⟨by omega, by rwa [contents, loaded, Option.getD_some]⟩, ?_⟩
  rintro other ⟨other_lt, other_clear⟩
  rw [contents] at other_clear
  have other_place_lt : other % 64 < 64 := Nat.mod_lt other (by decide)
  -- Bits in earlier words are set, and the bits below in the same word are.
  rcases Nat.lt_trichotomy (other / 64) (index / 64) with earlier | same | later
  · rw [full _ earlier, Option.getD_some, bit_full other_place_lt] at other_clear
    cases other_clear
  · rw [same, loaded, Option.getD_some] at other_clear
    have place_le := least ⟨other_place_lt, other_clear⟩
    omega
  · omega

theorem contents_of_firstClear_eq_none {self : Bitmap WORDS} (none_clear : self.firstClear = none)
    {index : ℕ} (within : index < 64 * WORDS) : self.contents index = true := by
  have word_lt : index / 64 < WORDS := by omega
  have loaded : self.words[index / 64]? = some self.words[index / 64] :=
    Vector.getElem?_eq_getElem word_lt
  have member : (self.words[index / 64], index / 64) ∈ self.words.toList.zipIdx := by
    rw [List.mem_zipIdx_iff_getElem?, Vector.getElem?_toList, loaded]
  have full := clearIn_eq_none.mp (List.findSome?_eq_none_iff.mp none_clear _ member)
  rw [contents, loaded, full, Option.getD_some, bit_full (Nat.mod_lt index (by decide))]

theorem firstClear_eq_some_iff {self : Bitmap WORDS} {index : ℕ} :
    self.firstClear = some index ↔ IsLeast self.clear index := by
  refine ⟨isLeast_firstClear, fun least => ?_⟩
  cases found : self.firstClear with
  | none =>
      have set := contents_of_firstClear_eq_none found least.1.1
      rw [least.1.2] at set
      cases set
  | some other => rw [(isLeast_firstClear found).unique least]

theorem firstClear_eq_none_iff {self : Bitmap WORDS} :
    self.firstClear = none ↔ ∀ index < 64 * WORDS, self.contents index = true := by
  refine ⟨fun none_clear index within => contents_of_firstClear_eq_none none_clear within, ?_⟩
  intro full
  cases found : self.firstClear with
  | none => rfl
  | some index =>
      obtain ⟨within, clear⟩ := (isLeast_firstClear found).1
      rw [full index within] at clear
      cases clear

/-- A bitmap is a set of bit indices, and the search finds the least index that is not in it. -/
theorem bits_follow_set_calls (requests : List Request) :
    let self : Bitmap WORDS := final perform new requests
    (∀ index, self.get index =
        if index < 64 * WORDS then .ok ((latest (Request.valueFor index) requests).getD false)
        else .err .outOfBounds) ∧
      (∀ index value, ∃ outcome after, Bitmap.set index value self = (outcome, after) ∧
        if index < 64 * WORDS then
          outcome = .ok () ∧ after.get index = .ok value ∧
            ∀ other ≠ index, after.get other = self.get other
        else outcome = .err .outOfBounds ∧ after = self) ∧
      (∀ index, self.firstClear = some index ↔
        IsLeast {free | free < 64 * WORDS ∧ self.get free = .ok false} index) ∧
      (self.firstClear = none ↔ ∀ index < 64 * WORDS, self.get index = .ok true) := by
  intro self
  refine ⟨fun index => ?_, fun index value => ?_, fun index => ?_, ?_⟩
  · rw [get_eq]
    split
    · next within => rw [contents_final requests within]
    · rfl
  · obtain ⟨outcome, after, performed, step⟩ : ∃ outcome after,
        Bitmap.set index value self = (outcome, after) ∧ Step self ⟨index, value⟩ outcome after :=
      ⟨_, _, rfl, step_perform ⟨index, value⟩ self⟩
    refine ⟨outcome, after, performed, ?_⟩
    cases step with
    | refused outside =>
        rw [if_neg (Nat.not_lt.mpr outside)]
        exact ⟨rfl, rfl⟩
    | written within changed =>
        rw [if_pos within]
        refine ⟨rfl, ?_, fun other differs => ?_⟩
        · rw [get_eq, if_pos within, changed index, if_pos rfl]
        · rw [get_eq, get_eq, changed other, if_neg differs]
  · have clear_eq : {free | free < 64 * WORDS ∧ self.get free = .ok false} = self.clear := by
      ext free
      simp [clear, get_eq_ok]
    rw [firstClear_eq_some_iff, clear_eq]
  · rw [firstClear_eq_none_iff]
    refine forall₂_congr fun index within => ?_
    rw [get_eq_ok, and_iff_right within]

end Bitmap

end Bulla.Kernel
