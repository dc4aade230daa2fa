import Mathlib.Data.Int.ModEq
import Bulla.Rust.History

/-!
# Queues

A queue puts values in at the back and takes them out at the front.  A call that keeps this law may
put in one value, take out one value, or do neither.  In every history of such calls, the values
that were taken out followed by those still held are the values that were put in.

A ring keeps the values of a queue in the cells of an array, from a head on and back to the first
cell after the last one.  Putting in writes the cell behind the window, taking out moves the head.
-/

namespace Fifo

variable {α τ : Type}

/-- What a call takes out and leaves is what it found and puts in. -/
def Turn (put taken : Option α) (before after : List α) : Prop :=
  taken.toList ++ after = before ++ put.toList

theorem turn_put (value : α) (held : List α) : Turn (some value) none held (held ++ [value]) := rfl

theorem turn_taken (value : α) (held : List α) : Turn none (some value) (value :: held) held := by
  simp [Turn]

theorem turn_refused (held : List α) : Turn none none held held := by
  simp [Turn]

/-- One more call keeps the values in order. -/
theorem order_snoc {put taken : τ → Option α} {past : List τ} {occurred : τ}
    {before after : List α} (order : past.filterMap taken ++ before = past.filterMap put)
    (turn : Turn (put occurred) (taken occurred) before after) :
    (past ++ [occurred]).filterMap taken ++ after = (past ++ [occurred]).filterMap put := by
  calc (past ++ [occurred]).filterMap taken ++ after
    _ = past.filterMap taken ++ ((taken occurred).toList ++ after) := by
      rw [Rust.filterMap_snoc, List.append_assoc]
    _ = past.filterMap taken ++ before ++ (put occurred).toList := by
      rw [turn, List.append_assoc]
    _ = (past ++ [occurred]).filterMap put := by
      rw [order, Rust.filterMap_snoc]

/-- The values of a ring, from its head on. -/
def window (cells : ℕ → α) (capacity head length : ℕ) : List α :=
  (List.range length).map fun offset => cells ((head + offset) % capacity)

variable {cells : ℕ → α} {capacity head length : ℕ}

@[simp] theorem length_window : (window cells capacity head length).length = length := by
  simp [window]

theorem getElem?_window {offset : ℕ} (held : offset < length) :
    (window cells capacity head length)[offset]? = some (cells ((head + offset) % capacity)) := by
  simp [window, held]

/-- Every cell of a ring is at some offset from the head. -/
theorem exists_offset {cell : ℕ} (cell_lt : cell < capacity) (head_lt : head < capacity) :
    ∃ offset < capacity, (head + offset) % capacity = cell := by
  refine ⟨(cell + (capacity - head)) % capacity, Nat.mod_lt _ (by omega), ?_⟩
  have around : head + (cell + (capacity - head)) = cell + capacity := by omega
  rw [Nat.add_mod_mod, around, Nat.add_mod_right, Nat.mod_eq_of_lt cell_lt]

/-- Within the capacity of a ring no two offsets meet in one cell. -/
theorem offset_inj {first second : ℕ} (first_lt : first < capacity) (second_lt : second < capacity)
    (same : (head + first) % capacity = (head + second) % capacity) : first = second := by
  have offsets : first ≡ second [MOD capacity] := Nat.ModEq.add_left_cancel' head same
  exact offsets.eq_of_lt_of_lt first_lt second_lt

theorem window_put (room : length < capacity) (value : α) :
    window (Function.update cells ((head + length) % capacity) value) capacity head (length + 1) =
      window cells capacity head length ++ [value] := by
  rw [window, List.range_succ, List.map_append, List.map_singleton, Function.update_self]
  congr 1
  apply List.map_congr_left
  intro offset member
  have offset_lt := List.mem_range.mp member
  rw [Function.update_of_ne]
  intro same
  have offset_eq := offset_inj (offset_lt.trans room) room same
  omega

theorem window_taken :
    window cells capacity head (length + 1) =
      cells (head % capacity) :: window cells capacity ((head + 1) % capacity) length := by
  rw [window, List.range_succ_eq_map, List.map_cons, List.map_map, Nat.add_zero, window]
  congr 1
  apply List.map_congr_left
  intro offset _
  rw [Function.comp_apply, Nat.mod_add_mod, Nat.succ_eq_add_one, Nat.add_assoc,
    Nat.add_comm offset 1]

end Fifo
