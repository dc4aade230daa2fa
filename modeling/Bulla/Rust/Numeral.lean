import Mathlib.Data.List.Basic
import Mathlib.Tactic.Linarith
import Bulla.Rust.Word

/-!
# Numerals

Positional notation, the most significant digit first: what a list of digits stands for, and the
list of a given width that stands for a number.
-/

namespace Rust

/-- `u32::checked_mul`. -/
def checkedMul32 (left right : UInt32) : Option UInt32 :=
  if left.toNat * right.toNat < 2 ^ 32 then some (left * right) else none

/-- What digits stand for that follow a number. -/
def positional (base : ℕ) (value : ℕ) (digits : List ℕ) : ℕ :=
  digits.foldl (fun value digit => base * value + digit) value

/-- The digits of a number, as many as there is room for. -/
def spelled (base : ℕ) : ℕ → ℕ → List ℕ
  | 0, _ => []
  | width + 1, value => spelled base width (value / base) ++ [value % base]

variable {base value : ℕ}

@[simp] theorem positional_nil : positional base value [] = value := rfl

@[simp] theorem positional_cons (digit : ℕ) (digits : List ℕ) :
    positional base value (digit :: digits) = positional base (base * value + digit) digits := rfl

theorem positional_append (earlier later : List ℕ) :
    positional base value (earlier ++ later) =
      positional base (positional base value earlier) later :=
  List.foldl_append

/-- More digits do not make a number smaller. -/
theorem le_positional (positive : 0 < base) (digits : List ℕ) :
    value ≤ positional base value digits := by
  induction digits generalizing value with
  | nil => exact le_rfl
  | cons digit digits induction =>
      calc value ≤ base * value := Nat.le_mul_of_pos_left _ positive
        _ ≤ base * value + digit := Nat.le_add_right _ _
        _ ≤ _ := induction

@[simp] theorem length_spelled (width value : ℕ) : (spelled base width value).length = width := by
  induction width generalizing value with
  | zero => rfl
  | succ width induction => simp [spelled, induction]

theorem lt_of_mem_spelled (positive : 0 < base) {width digit : ℕ}
    (member : digit ∈ spelled base width value) : digit < base := by
  induction width generalizing value with
  | zero => cases member
  | succ width induction =>
      rcases List.mem_append.mp member with earlier | last
      · exact induction earlier
      · rw [List.mem_singleton.mp last]
        exact Nat.mod_lt _ positive

theorem positional_spelled (width value : ℕ) :
    positional base 0 (spelled base width value) = value % base ^ width := by
  induction width generalizing value with
  | zero => simp [spelled, Nat.mod_one]
  | succ width induction =>
      rw [spelled, positional_append, induction, positional_cons, positional_nil, pow_succ,
        Nat.mul_comm (base ^ width), Nat.mod_mul, Nat.add_comm]

/-- `to_be_bytes`, for a word of the given number of bytes. -/
def beBytes (width value : ℕ) : List UInt8 := (spelled 256 width value).map UInt8.ofNat

/-- What `from_be_bytes` makes of the bytes of a word. -/
def fromBeBytes (bytes : List UInt8) : ℕ := positional 256 0 (bytes.map UInt8.toNat)

@[simp] theorem length_beBytes (width value : ℕ) : (beBytes width value).length = width := by
  rw [beBytes, List.length_map, length_spelled]

theorem fromBeBytes_beBytes {width value : ℕ} (fits : value < 256 ^ width) :
    fromBeBytes (beBytes width value) = value := by
  have same :
      (spelled 256 width value).map (UInt8.toNat ∘ UInt8.ofNat) = spelled 256 width value := by
    refine (List.map_congr_left fun digit member => ?_).trans (List.map_id _)
    exact UInt8.toNat_ofNat_of_lt' (lt_of_mem_spelled (by decide) member)
  rw [fromBeBytes, beBytes, List.map_map, same, positional_spelled, Nat.mod_eq_of_lt fits]

end Rust
