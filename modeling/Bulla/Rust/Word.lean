import Mathlib.Algebra.BigOperators.Group.List.Basic
import Mathlib.Data.Nat.Bitwise
import Mathlib.Order.Bounds.Basic
import Bulla.Rust.Call

/-!
# Machine words

Checked, saturating and bitwise operations on 64-bit words, each with its value in `ℕ`.  Proofs
about addresses and counters work on `toNat` and never unfold a word operation.
-/

namespace Rust

/-- `u64::checked_add`. -/
def checkedAdd (left right : UInt64) : Option UInt64 :=
  if left.toNat + right.toNat < 2 ^ 64 then some (left + right) else none

/-- `u32::checked_add`. -/
def checkedAdd32 (left right : UInt32) : Option UInt32 :=
  if left.toNat + right.toNat < 2 ^ 32 then some (left + right) else none

/-- `u16::checked_add`. -/
def checkedAdd16 (left right : UInt16) : Option UInt16 :=
  if left.toNat + right.toNat < 2 ^ 16 then some (left + right) else none

/-- `u16::saturating_add`. -/
def saturatingAdd16 (left right : UInt16) : UInt16 := (checkedAdd16 left right).getD 0xffff

/-- `u64::checked_sub`. -/
def checkedSub (left right : UInt64) : Option UInt64 :=
  if right ≤ left then some (left - right) else none

/-- `u64::checked_mul`. -/
def checkedMul (left right : UInt64) : Option UInt64 :=
  if left.toNat * right.toNat < 2 ^ 64 then some (left * right) else none

/-- `u64::saturating_add`. -/
def saturatingAdd (left right : UInt64) : UInt64 :=
  (checkedAdd left right).getD 0xffffffffffffffff

/-- `u64::saturating_mul`. -/
def saturatingMul (left right : UInt64) : UInt64 :=
  (checkedMul left right).getD 0xffffffffffffffff

/-- `u64::is_power_of_two`. -/
def isPowerOfTwo (word : UInt64) : Bool :=
  word.toNat == 2 ^ word.toNat.log2

/-- `u64::div_ceil`. -/
def divCeil (word divisor : UInt64) : UInt64 :=
  if word % divisor > 0 then word / divisor + 1 else word / divisor

/-- One bit of a word. -/
def bit (word : UInt64) (index : ℕ) : Bool := word.toNat.testBit index

/-- Every small number is the value of a word. -/
theorem exists_toNat_eq {number : ℕ} (small : number < 2 ^ 64) :
    ∃ word : UInt64, word.toNat = number :=
  ⟨UInt64.ofNat number, UInt64.toNat_ofNat_of_lt' small⟩

theorem toNat_pos {word : UInt64} (nonzero : word ≠ 0) : 0 < word.toNat :=
  Nat.pos_of_ne_zero fun zero => nonzero (UInt64.toNat_inj.mp zero)

theorem toNat_add_of_lt {left right : UInt64} (fits : left.toNat + right.toNat < 2 ^ 64) :
    (left + right).toNat = left.toNat + right.toNat := by
  rw [UInt64.toNat_add, Nat.mod_eq_of_lt fits]

theorem toNat_add_one {word : UInt64} (small : word.toNat + 1 < 2 ^ 64) :
    (word + 1).toNat = word.toNat + 1 := by
  rw [UInt64.toNat_add]
  exact Nat.mod_eq_of_lt small

theorem mod_eq_zero_iff {word divisor : UInt64} :
    word % divisor = 0 ↔ divisor.toNat ∣ word.toNat := by
  rw [← UInt64.toNat_inj, UInt64.toNat_mod]
  exact Nat.dvd_iff_mod_eq_zero.symm

@[simp] theorem checkedAdd_eq_some {left right sum : UInt64} :
    checkedAdd left right = some sum ↔ sum.toNat = left.toNat + right.toNat := by
  have bound := sum.toNat_lt
  by_cases fits : left.toNat + right.toNat < 2 ^ 64
  · simp only [checkedAdd, fits, if_true, Option.some.injEq]
    rw [← UInt64.toNat_inj, UInt64.toNat_add, Nat.mod_eq_of_lt fits, eq_comm]
  · simp only [checkedAdd, fits, if_false]
    constructor
    · simp
    · intro equality
      omega

@[simp] theorem checkedAdd_eq_none {left right : UInt64} :
    checkedAdd left right = none ↔ 2 ^ 64 ≤ left.toNat + right.toNat := by
  simp [checkedAdd]

@[simp] theorem checkedAdd32_eq_some {left right sum : UInt32} :
    checkedAdd32 left right = some sum ↔ sum.toNat = left.toNat + right.toNat := by
  have bound := sum.toNat_lt
  by_cases fits : left.toNat + right.toNat < 2 ^ 32
  · simp only [checkedAdd32, fits, if_true, Option.some.injEq]
    rw [← UInt32.toNat_inj, UInt32.toNat_add, Nat.mod_eq_of_lt fits, eq_comm]
  · simp only [checkedAdd32, fits, if_false]
    constructor
    · simp
    · intro equality
      omega

@[simp] theorem checkedAdd32_eq_none {left right : UInt32} :
    checkedAdd32 left right = none ↔ 2 ^ 32 ≤ left.toNat + right.toNat := by
  simp [checkedAdd32]

theorem checkedAdd16_eq_some {left right : UInt16} (fits : left.toNat + right.toNat < 2 ^ 16) :
    checkedAdd16 left right = some (left + right) := if_pos fits

@[simp] theorem checkedMul_eq_some {left right product : UInt64} :
    checkedMul left right = some product ↔ product.toNat = left.toNat * right.toNat := by
  have bound := product.toNat_lt
  by_cases fits : left.toNat * right.toNat < 2 ^ 64
  · simp only [checkedMul, fits, if_true, Option.some.injEq]
    rw [← UInt64.toNat_inj, UInt64.toNat_mul, Nat.mod_eq_of_lt fits, eq_comm]
  · simp only [checkedMul, fits, if_false]
    constructor
    · simp
    · intro equality
      omega

@[simp] theorem checkedMul_eq_none {left right : UInt64} :
    checkedMul left right = none ↔ 2 ^ 64 ≤ left.toNat * right.toNat := by
  simp [checkedMul]

@[simp] theorem checkedSub_eq_some {left right difference : UInt64} :
    checkedSub left right = some difference ↔
      left.toNat = difference.toNat + right.toNat := by
  have bound := left.toNat_lt
  by_cases fits : right ≤ left
  · have fits_nat := UInt64.le_iff_toNat_le.mp fits
    simp only [checkedSub, fits, if_true, Option.some.injEq]
    rw [← UInt64.toNat_inj, UInt64.toNat_sub_of_le _ _ fits]
    omega
  · have fits_nat := fun le => fits (UInt64.le_iff_toNat_le.mpr le)
    simp only [checkedSub, fits, if_false]
    constructor
    · simp
    · intro equality
      exact absurd (by omega) fits_nat

@[simp] theorem checkedSub_eq_none {left right : UInt64} :
    checkedSub left right = none ↔ left.toNat < right.toNat := by
  simp [checkedSub, UInt64.lt_iff_toNat_lt]

theorem saturatingAdd_toNat (left right : UInt64) :
    (saturatingAdd left right).toNat = min (left.toNat + right.toNat) (2 ^ 64 - 1) := by
  rcases equality : checkedAdd left right with _ | sum
  · have overflows := checkedAdd_eq_none.mp equality
    simp [saturatingAdd, equality]
    omega
  · have value := checkedAdd_eq_some.mp equality
    have bound := sum.toNat_lt
    simp [saturatingAdd, equality]
    omega

theorem saturatingMul_toNat (left right : UInt64) :
    (saturatingMul left right).toNat = min (left.toNat * right.toNat) (2 ^ 64 - 1) := by
  rcases equality : checkedMul left right with _ | product
  · have overflows := checkedMul_eq_none.mp equality
    simp [saturatingMul, equality]
    omega
  · have value := checkedMul_eq_some.mp equality
    have bound := product.toNat_lt
    simp [saturatingMul, equality]
    omega

theorem isPowerOfTwo_iff {word : UInt64} :
    isPowerOfTwo word = true ↔ ∃ exponent, word.toNat = 2 ^ exponent := by
  simp only [isPowerOfTwo, beq_iff_eq]
  constructor
  · exact fun equality => ⟨_, equality⟩
  · rintro ⟨exponent, equality⟩
    rw [equality, Nat.log2_two_pow]

theorem divCeil_toNat {word divisor : UInt64} (positive : 0 < divisor.toNat) :
    (divCeil word divisor).toNat = (word.toNat + divisor.toNat - 1) / divisor.toNat := by
  have word_lt := word.toNat_lt
  have division := Nat.div_add_mod word.toNat divisor.toNat
  have remainder_lt := Nat.mod_lt word.toNat positive
  have above (quotient : ℕ) :
      (quotient + 1) * divisor.toNat = divisor.toNat * quotient + divisor.toNat := by
    rw [Nat.succ_mul, Nat.mul_comm]
  rw [divCeil]
  split
  · next uneven =>
    rw [gt_iff_lt, UInt64.lt_iff_toNat_lt, UInt64.toNat_mod] at uneven
    replace uneven : 0 < word.toNat % divisor.toNat := uneven
    have quotient_le : word.toNat / divisor.toNat ≤ divisor.toNat * (word.toNat / divisor.toNat) :=
      Nat.le_mul_of_pos_left _ positive
    rw [toNat_add_one (by rw [UInt64.toNat_div]; omega), UInt64.toNat_div]
    refine (Nat.div_eq_of_lt_le ?_ ?_).symm
    · rw [above]
      omega
    · rw [above, Nat.mul_succ]
      omega
  · next even =>
    rw [gt_iff_lt, UInt64.lt_iff_toNat_lt, UInt64.toNat_mod] at even
    replace even : ¬0 < word.toNat % divisor.toNat := even
    rw [UInt64.toNat_div]
    refine (Nat.div_eq_of_lt_le ?_ ?_).symm
    · rw [Nat.mul_comm]
      omega
    · rw [above]
      omega

/-- A sum of words whose values fit into a word does not overflow. -/
theorem foldlM_checkedAdd {τ ε : Type} (count : τ → UInt64) (items : List τ) (start : UInt64)
    (fits : start.toNat + (items.map fun item => (count item).toNat).sum < 2 ^ 64) :
    ∃ total, items.foldlM (fun sum item => Outcome.unchecked (checkedAdd sum (count item))) start =
        (.ok total : Outcome ε UInt64) ∧
      total.toNat = start.toNat + (items.map fun item => (count item).toNat).sum := by
  induction items generalizing start with
  | nil => exact ⟨start, rfl, rfl⟩
  | cons item items induction =>
      simp only [List.map_cons, List.sum_cons] at fits ⊢
      obtain ⟨next, next_eq⟩ := exists_toNat_eq
        (show start.toNat + (count item).toNat < 2 ^ 64 by omega)
      obtain ⟨total, rest, total_eq⟩ := induction next (by omega)
      refine ⟨total, ?_, by omega⟩
      rw [List.foldlM_cons, Outcome.bind_eq_ok]
      exact ⟨next, by simpa using next_eq, rest⟩

@[simp] theorem bit_or (left right : UInt64) (index : ℕ) :
    bit (left ||| right) index = (bit left index || bit right index) := by
  simp [bit]

@[simp] theorem bit_and (left right : UInt64) (index : ℕ) :
    bit (left &&& right) index = (bit left index && bit right index) := by
  simp [bit]

@[simp] theorem bit_zero (index : ℕ) : bit 0 index = false := by
  simp [bit]

theorem bit_foldr_or (words : List UInt64) (index : ℕ) :
    bit (words.foldr (· ||| ·) 0) index = words.any fun word => bit word index := by
  induction words with
  | nil => simp
  | cons word words induction => simp [induction]

theorem bit_not (word : UInt64) {index : ℕ} (inside : index < 64) :
    bit (~~~word) index = !bit word index := by
  have word_lt := word.toNat_lt
  have not_eq : (~~~word).toNat = 2 ^ 64 - (word.toNat + 1) := by
    rw [UInt64.toNat_not]
    change 2 ^ 64 - 1 - word.toNat = _
    omega
  rw [bit, bit, not_eq, Nat.testBit_two_pow_sub_succ word_lt]
  simp [inside]

theorem bit_eq_false_of_le {word : UInt64} {index : ℕ} (outside : 64 ≤ index) :
    bit word index = false :=
  Nat.testBit_lt_two_pow
    (word.toNat_lt.trans_le (Nat.pow_le_pow_right (by decide) outside))

/-- Words with the same bits are the same. -/
theorem eq_of_bit_eq {left right : UInt64} (same : ∀ index < 64, bit left index = bit right index) :
    left = right := by
  rw [← UInt64.toNat_inj]
  apply Nat.eq_of_testBit_eq
  intro index
  by_cases inside : index < 64
  · exact same index inside
  · have outside : 64 ≤ index := Nat.le_of_not_lt inside
    exact (bit_eq_false_of_le outside).trans (bit_eq_false_of_le outside).symm

/-- No bit outside a mask is containment in the mask. -/
theorem and_not_eq_zero_iff {word mask : UInt32} :
    word &&& ~~~mask = 0 ↔ mask &&& word = word := by
  rw [← UInt32.toBitVec_inj, ← UInt32.toBitVec_inj]
  simp only [UInt32.toBitVec_and, UInt32.toBitVec_not]
  constructor
  · intro outside
    apply BitVec.eq_of_getElem_eq
    intro index bound
    have bit := congrArg (fun bits => bits[index]) outside
    simpa using bit
  · intro inside
    apply BitVec.eq_of_getElem_eq
    intro index bound
    have bit := congrArg (fun bits => bits[index]) inside
    simpa using bit

/-- Clearing the bits of a low mask rounds down to a multiple of the power of two above it. -/
theorem and_not_toNat (word : UInt64) {mask : UInt64} {exponent : ℕ}
    (low : mask.toNat + 1 = 2 ^ exponent) :
    (word &&& ~~~mask).toNat = word.toNat / 2 ^ exponent * 2 ^ exponent := by
  have mask_lt := mask.toNat_lt
  rw [UInt64.toNat_and, UInt64.toNat_not]
  apply Nat.eq_of_testBit_eq
  intro index
  have mask_eq : UInt64.size - 1 - mask.toNat = 2 ^ 64 - ((2 ^ exponent - 1) + 1) := by
    change 2 ^ 64 - 1 - mask.toNat = _
    omega
  rw [Nat.testBit_and, mask_eq, Nat.testBit_two_pow_sub_succ (by omega),
    Nat.testBit_two_pow_sub_one, Nat.mul_comm, Nat.testBit_two_pow_mul,
    Nat.testBit_div_two_pow]
  by_cases above : exponent ≤ index
  · have word_bit (set : word.toNat.testBit index = true) : index < 64 := by
      by_contra outside
      have word_lt : word.toNat < 2 ^ index :=
        word.toNat_lt.trans_le (Nat.pow_le_pow_right (by decide) (by omega))
      simp [Nat.testBit_lt_two_pow word_lt] at set
    simpa [above, Nat.sub_add_cancel above] using word_bit
  · simp only [above, decide_false, Bool.false_and]
    simp
    omega

/-- Adding a low mask before clearing its bits rounds up. -/
theorem isLeast_and_not {base raised mask : UInt64} {exponent : ℕ}
    (low : mask.toNat + 1 = 2 ^ exponent) (raised_eq : raised.toNat = base.toNat + mask.toNat) :
    IsLeast {multiple | 2 ^ exponent ∣ multiple ∧ base.toNat ≤ multiple}
      (raised &&& ~~~mask).toNat := by
  have positive : 0 < 2 ^ exponent := Nat.two_pow_pos exponent
  rw [and_not_toNat raised low]
  refine ⟨⟨Nat.dvd_mul_left _ _, ?_⟩, ?_⟩
  · have remainder_lt := Nat.mod_lt raised.toNat positive
    have division := Nat.div_add_mod' raised.toNat (2 ^ exponent)
    omega
  · rintro multiple ⟨⟨factor, rfl⟩, base_le⟩
    have factor_le : raised.toNat / 2 ^ exponent < factor + 1 := by
      rw [Nat.div_lt_iff_lt_mul positive, Nat.add_mul, Nat.mul_comm factor]
      omega
    rw [Nat.mul_comm (2 ^ exponent)]
    exact Nat.mul_le_mul_right _ (Nat.lt_succ_iff.mp factor_le)

/-- The low bits of a word. -/
def narrow (width : ℕ) (word : UInt64) : BitVec width := word.toBitVec.setWidth width

/-- A word with the given low bits and zeros above them. -/
def widen {width : ℕ} (bits : BitVec width) : UInt64 := ⟨bits.setWidth 64⟩

section Narrow

variable {width : ℕ} (le : width ≤ 64)

include le

theorem widen_toNat (bits : BitVec width) : (widen bits).toNat = bits.toNat := by
  have bits_lt : bits.toNat < 2 ^ 64 := bits.isLt.trans_le (Nat.pow_le_pow_right (by decide) le)
  show (bits.setWidth 64).toNat = _
  rw [BitVec.toNat_setWidth, Nat.mod_eq_of_lt bits_lt]

theorem narrow_widen (bits : BitVec width) : narrow width (widen bits) = bits :=
  (BitVec.setWidth_setWidth_of_le bits le).trans (BitVec.setWidth_eq bits)

theorem widen_inj {left right : BitVec width} : widen left = widen right ↔ left = right := by
  constructor
  · intro same
    rw [← narrow_widen le left, same, narrow_widen le]
  · exact congrArg widen

/-- A mask of low bits keeps the low bits. -/
theorem and_mask_eq {mask : UInt64} (low : mask.toNat + 1 = 2 ^ width) (word : UInt64) :
    word &&& mask = widen (narrow width word) := by
  have mask_eq : mask.toNat = 2 ^ width - 1 := by omega
  rw [← UInt64.toNat_inj, widen_toNat le, UInt64.toNat_and, mask_eq, Nat.and_two_pow_sub_one_eq_mod,
    narrow, BitVec.toNat_setWidth, UInt64.toNat_toBitVec]

theorem narrow_add (left right : UInt64) :
    narrow width (left + right) = narrow width left + narrow width right :=
  BitVec.setWidth_add _ _ le

theorem narrow_sub (left right : UInt64) :
    narrow width (left - right) = narrow width left - narrow width right := by
  have sum := narrow_add le (left - right) right
  rw [UInt64.sub_add_cancel] at sum
  rw [sum, BitVec.add_sub_cancel]

omit le

theorem narrow_and (left right : UInt64) :
    narrow width (left &&& right) = narrow width left &&& narrow width right := BitVec.setWidth_and

theorem narrow_or (left right : UInt64) :
    narrow width (left ||| right) = narrow width left ||| narrow width right := BitVec.setWidth_or

theorem narrow_xor (left right : UInt64) :
    narrow width (left ^^^ right) = narrow width left ^^^ narrow width right := BitVec.setWidth_xor

end Narrow

end Rust
