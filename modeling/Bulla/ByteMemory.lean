import Mathlib.Data.Nat.Digits.Defs
import Bulla.Rust.BTreeMap
import Bulla.Rust.Word

/-!
# Byte memories

A sparse memory maps cells to bytes, and cells without an entry are zero.  A number is kept in
consecutive cells, its lowest byte first.  Loops over the bytes of a machine word, which shift and
mask, are brought to this form once: a loop that inserts the bytes of a number changes exactly its
cells, and a loop that collects bytes reads the number they are the digits of.
-/

namespace ByteMemory

open Rust

/-- A byte of a number. -/
def byteAt (value index : ℕ) : UInt8 := UInt8.ofNat (value / 256 ^ index)

/-- The number in consecutive cells. -/
def littleEndian (memory : ℕ → UInt8) (cell count : ℕ) : ℕ :=
  Nat.ofDigits 256 ((List.range count).map fun index => (memory (cell + index)).toNat)

theorem littleEndian_succ (memory : ℕ → UInt8) (cell count : ℕ) :
    littleEndian memory cell (count + 1) =
      littleEndian memory cell count + 256 ^ count * (memory (cell + count)).toNat := by
  simp [littleEndian, List.range_succ, Nat.ofDigits_append]

/-- A number depends on its own cells only. -/
theorem littleEndian_congr {memory other : ℕ → UInt8} {cell count : ℕ}
    (same : ∀ index < count, memory (cell + index) = other (cell + index)) :
    littleEndian memory cell count = littleEndian other cell count := by
  refine congrArg (Nat.ofDigits 256) (List.map_congr_left fun index member => ?_)
  rw [same index (List.mem_range.mp member)]

theorem littleEndian_lt (memory : ℕ → UInt8) (cell count : ℕ) :
    littleEndian memory cell count < 256 ^ count := by
  induction count with
  | zero => simp [littleEndian]
  | succ count induction =>
      have byte_lt := (memory (cell + count)).toNat_lt
      rw [littleEndian_succ, pow_succ, Nat.mul_comm (256 ^ count) 256]
      nlinarith

theorem pow_256 (index : ℕ) : 256 ^ index = 2 ^ (8 * index) := by
  rw [pow_mul]
  norm_num

/-- The distance by which a byte of a word is shifted. -/
theorem shift_eq {index : ℕ} (small : index < 8) :
    (UInt64.ofNat index * 8).toNat % 64 = 8 * index := by
  revert index
  decide

theorem shifted_toNat (byte : UInt8) {index : ℕ} (small : index < 8) :
    (byte.toUInt64 <<< (UInt64.ofNat index * 8)).toNat = 256 ^ index * byte.toNat := by
  have fits : byte.toNat * 2 ^ (8 * index) < 2 ^ 64 := by
    calc byte.toNat * 2 ^ (8 * index)
      _ < 2 ^ 8 * 2 ^ (8 * index) := Nat.mul_lt_mul_of_pos_right byte.toNat_lt (by positivity)
      _ = 2 ^ (8 + 8 * index) := (pow_add 2 8 (8 * index)).symm
      _ ≤ 2 ^ 64 := Nat.pow_le_pow_right (by decide) (by omega)
  rw [UInt64.toNat_shiftLeft, shift_eq small, UInt8.toNat_toUInt64, Nat.shiftLeft_eq,
    Nat.mod_eq_of_lt fits, pow_256, Nat.mul_comm]

/-- Collecting bytes by shifting them into place. -/
theorem collect_eq {memory : ℕ → UInt8} {cell count : ℕ} (small : count ≤ 8) :
    ((List.range count).foldl (fun value index =>
      value ||| (memory (cell + index)).toUInt64 <<< (UInt64.ofNat index * 8)) 0).toNat =
      littleEndian memory cell count := by
  induction count with
  | zero => rfl
  | succ count induction =>
      have below := littleEndian_lt memory cell count
      rw [List.range_succ, List.foldl_append, List.foldl_cons, List.foldl_nil, UInt64.toNat_or,
        induction (Nat.le_of_succ_le small), shifted_toNat _ small, littleEndian_succ]
      rw [pow_256] at below ⊢
      rw [Nat.or_comm, ← Nat.two_pow_add_eq_or_of_lt below, Nat.add_comm]

/-- Cutting a byte out of a word. -/
theorem cut_eq (value : UInt64) {index : ℕ} (small : index < 8) :
    ((value >>> (UInt64.ofNat index * 8)) &&& 0xff).toUInt8 = byteAt value.toNat index := by
  rw [← UInt8.toNat_inj, UInt64.toNat_toUInt8, UInt64.toNat_and, UInt64.toNat_shiftRight,
    shift_eq small, byteAt, UInt8.toNat_ofNat', pow_256, Nat.shiftRight_eq_div_pow]
  exact congrArg (· % 2 ^ 8) (Nat.and_two_pow_sub_one_eq_mod _ 8) |>.trans (Nat.mod_mod _ _)

section Sparse

variable {κ : Type} [Ord κ] [Std.TransOrd κ] [Std.LawfulEqOrd κ]

/-- The memory of a map whose keys are numbered. -/
def contents (key : ℕ → κ) (map : BTreeMap κ UInt8) (cell : ℕ) : UInt8 := map[key cell]?.getD 0

/-- Inserting the bytes of a number one after the other. -/
def store (key : ℕ → κ) (start count value : ℕ) (map : BTreeMap κ UInt8) : BTreeMap κ UInt8 :=
  (List.range count).foldl
    (fun map index => map.insert (key (start + index)) (byteAt value index)) map

/-- The byte of a number that a cell gets if the number is stored. -/
def storedIn (start count value cell : ℕ) : Option UInt8 :=
  if start ≤ cell ∧ cell < start + count then some (byteAt value (cell - start)) else none

/-- Storing a number changes its cells and no other. -/
theorem contents_store {key : ℕ → κ} {number : κ → ℕ} {size : ℕ}
    (numbered : ∀ cell < size, number (key cell) = cell) {start count : ℕ}
    (fits : start + count ≤ size) (map : BTreeMap κ UInt8) (value : ℕ) {cell : ℕ}
    (inside : cell < size) :
    contents key (store key start count value map) cell =
      (storedIn start count value cell).getD (contents key map cell) := by
  induction count with
  | zero =>
      rw [storedIn, if_neg (by omega)]
      rfl
  | succ count induction =>
      rw [store, List.range_succ, List.foldl_append, List.foldl_cons, List.foldl_nil, contents]
      by_cases last : cell = start + count
      · subst last
        rw [Std.ExtTreeMap.getElem?_insert_self, storedIn, if_pos (by omega),
          Nat.add_sub_cancel_left]
        rfl
      · have apart : key (start + count) ≠ key cell := by
          intro same
          have numbers := congrArg number same
          rw [numbered _ (by omega), numbered _ inside] at numbers
          exact last numbers.symm
        have same_cells : start ≤ cell ∧ cell < start + (count + 1) ↔
            start ≤ cell ∧ cell < start + count := by omega
        have before := induction (by omega)
        rw [store, contents, storedIn] at before
        rw [BTreeMap.getElem?_insert_of_ne _ _ apart, before, storedIn, if_congr same_cells rfl rfl]

end Sparse

end ByteMemory
