import Mathlib.Data.Fintype.EquivFin
import Mathlib.Data.List.Pairwise
import Bulla.Rust.Word

/-!
# Bits of a word

What shifts, masks and searches do to the single bits of a word.  An equation between words follows
from its bits by `eq_of_bit_eq`.
-/

namespace Rust

/-- `u64::trailing_zeros`. -/
def trailingZeros (word : UInt64) : ℕ := word.toBitVec.ctz.toNat

/-- `u64::count_ones`. -/
def countOnes (word : UInt64) : ℕ := (List.range 64).countP (bit word)

/-- `u64::checked_shl`. -/
def checkedShl (word : UInt64) (shift : UInt32) : Option UInt64 :=
  if shift < 64 then some (word <<< shift.toUInt64) else none

/-- `width` bits of a word, from bit `start` on. -/
def field (word : UInt64) (start width : ℕ) : UInt64 :=
  UInt64.ofNat (word.toNat / 2 ^ start % 2 ^ width)

@[simp] theorem bit_xor (left right : UInt64) (index : ℕ) :
    bit (left ^^^ right) index = (bit left index ^^ bit right index) := by
  simp [bit]

section Shift

variable (word : UInt64) {shift : UInt64} (small : shift.toNat < 64) (index : ℕ)

include small

theorem bit_shiftLeft :
    bit (word <<< shift) index =
      (decide (index < 64) && decide (shift.toNat ≤ index) && bit word (index - shift.toNat)) := by
  rw [bit, UInt64.toNat_shiftLeft, Nat.mod_eq_of_lt small, Nat.testBit_mod_two_pow,
    Nat.testBit_shiftLeft, Bool.and_assoc]
  rfl

theorem bit_shiftRight : bit (word >>> shift) index = bit word (shift.toNat + index) := by
  rw [bit, UInt64.toNat_shiftRight, Nat.mod_eq_of_lt small, Nat.testBit_shiftRight, bit]

theorem bit_one_shiftLeft : bit (1 <<< shift) index = decide (shift.toNat = index) := by
  have power_lt : 2 ^ shift.toNat < 2 ^ 64 := Nat.pow_lt_pow_right (by decide) small
  rw [bit, UInt64.toNat_shiftLeft, Nat.mod_eq_of_lt small, UInt64.toNat_one, Nat.one_shiftLeft,
    Nat.mod_eq_of_lt power_lt, Nat.testBit_two_pow]

end Shift

theorem bit_field (word : UInt64) (start width index : ℕ) :
    bit (field word start width) index = (decide (index < width) && bit word (start + index)) := by
  have small : word.toNat / 2 ^ start % 2 ^ width < 2 ^ 64 :=
    (Nat.mod_le _ _).trans_lt ((Nat.div_le_self _ _).trans_lt word.toNat_lt)
  rw [bit, field, UInt64.toNat_ofNat_of_lt' small, Nat.testBit_mod_two_pow,
    Nat.testBit_div_two_pow, Nat.add_comm, bit]

theorem bit_and_not (word mask : UInt64) (index : ℕ) :
    bit (word &&& ~~~mask) index = (bit word index && !bit mask index) := by
  by_cases inside : index < 64
  · rw [bit_and, bit_not mask inside]
  · have outside : 64 ≤ index := Nat.le_of_not_lt inside
    rw [bit_eq_false_of_le outside, bit_eq_false_of_le outside, Bool.false_and]

/-- A mask of low bits, tested bit by bit. -/
theorem bit_and_low {mask : UInt64} {width : ℕ} (low : mask.toNat + 1 = 2 ^ width) (word : UInt64)
    (index : ℕ) : bit (word &&& mask) index = (decide (index < width) && bit word index) := by
  have mask_eq : mask.toNat = 2 ^ width - 1 := by omega
  rw [bit_and, bit, bit, mask_eq, Nat.testBit_two_pow_sub_one, Bool.and_comm]

theorem toNat_and_lt (word : UInt64) {mask : UInt64} {width : ℕ} (low : mask.toNat < 2 ^ width) :
    (word &&& mask).toNat < 2 ^ width := by
  rw [UInt64.toNat_and]
  exact Nat.and_lt_two_pow _ low

theorem bit_eq_false_of_lt {word : UInt64} {width index : ℕ} (small : word.toNat < 2 ^ width)
    (above : width ≤ index) : bit word index = false :=
  Nat.testBit_lt_two_pow (small.trans_le (Nat.pow_le_pow_right (by decide) above))

/-- A cast to `u16` and back. -/
theorem bit_toUInt16 (word : UInt64) (index : ℕ) :
    bit word.toUInt16.toUInt64 index = (decide (index < 16) && bit word index) := by
  rw [bit, UInt16.toNat_toUInt64, UInt64.toNat_toUInt16, Nat.testBit_mod_two_pow, bit]

/-- A cast to `u32` and back. -/
theorem bit_toUInt32 (word : UInt64) (index : ℕ) :
    bit word.toUInt32.toUInt64 index = (decide (index < 32) && bit word index) := by
  rw [bit, UInt32.toNat_toUInt64, UInt64.toNat_toUInt32, Nat.testBit_mod_two_pow, bit]

theorem ne_zero_iff_bit {word : UInt64} : word ≠ 0 ↔ ∃ index, bit word index = true := by
  constructor
  · intro nonzero
    by_contra clear
    refine nonzero (eq_of_bit_eq fun index _ => ?_)
    rw [bit_zero, Bool.eq_false_iff]
    exact fun set => clear ⟨index, set⟩
  · rintro ⟨index, set⟩ rfl
    simp at set

/-- The test of one bit with a mask. -/
theorem and_one_shiftLeft_ne_zero (word : UInt64) {shift : UInt64} (small : shift.toNat < 64) :
    word &&& 1 <<< shift ≠ 0 ↔ bit word shift.toNat = true := by
  rw [ne_zero_iff_bit]
  simp only [bit_and, bit_one_shiftLeft small, Bool.and_eq_true, decide_eq_true_eq]
  constructor
  · rintro ⟨index, set, rfl⟩
    exact set
  · exact fun set => ⟨shift.toNat, set, rfl⟩

/-- A word has as many ones as there are indices of its bits. -/
theorem countOnes_eq_length {word : UInt64} {indices : List ℕ} (distinct : indices.Nodup)
    (bits : ∀ index, bit word index = true ↔ index ∈ indices) :
    countOnes word = indices.length := by
  rw [countOnes, List.countP_eq_length_filter]
  refine ((List.perm_ext_iff_of_nodup (List.nodup_range.filter _) distinct).mpr ?_).length_eq
  intro index
  rw [List.mem_filter, List.mem_range, bits, and_iff_right_iff_imp, ← bits]
  intro set
  by_contra outside
  exact Bool.false_ne_true ((bit_eq_false_of_le (Nat.le_of_not_lt outside)).symm.trans set)

theorem isLeast_trailingZeros {word : UInt64} (nonzero : word ≠ 0) :
    IsLeast {index | bit word index = true} (trailingZeros word) := by
  have bits_nonzero : word.toBitVec ≠ 0#64 := fun zero => nonzero (UInt64.toBitVec_inj.mp zero)
  constructor
  · exact BitVec.getLsbD_true_ctz_of_ne_zero bits_nonzero
  · intro index set
    by_contra above
    have clear : bit word index = false :=
      BitVec.getLsbD_false_of_lt_ctz (Nat.lt_of_not_le above)
    exact Bool.false_ne_true (clear.symm.trans set)

/-- Words are the same if each bit is, as soon as the bits of lower rank are. -/
theorem eq_of_bit_rank {left right : UInt64} (rank : ℕ → ℕ)
    (next : ∀ index < 64, (∀ lower, rank lower < rank index → bit left lower = bit right lower) →
      bit left index = bit right index) : left = right := by
  have same (bound : ℕ) : ∀ index, rank index < bound → bit left index = bit right index := by
    induction bound with
    | zero => exact fun index below => absurd below (Nat.not_lt_zero _)
    | succ bound induction =>
        intro index below
        by_cases inside : index < 64
        · refine next index inside fun lower lower_lt => induction lower ?_
          omega
        · have outside : 64 ≤ index := Nat.le_of_not_lt inside
          rw [bit_eq_false_of_le outside, bit_eq_false_of_le outside]
  exact eq_of_bit_eq fun index _ => same (rank index + 1) index (Nat.lt_succ_self _)

section XorShift

variable {shift : UInt64} (positive : 0 < shift.toNat) (small : shift.toNat < 64)

include positive small

/-- A word can be recovered from its exclusive or with itself shifted left: from the low bits up. -/
theorem injective_xor_shiftLeft :
    Function.Injective fun word : UInt64 => word ^^^ word <<< shift := by
  intro left right same
  refine eq_of_bit_rank id fun index inside lower => ?_
  have here := congrArg (bit · index) same
  simp only [bit_xor, bit_shiftLeft _ small] at here
  by_cases shifted : shift.toNat ≤ index
  · rw [lower (index - shift.toNat) (show index - shift.toNat < index by omega)] at here
    exact Bool.xor_left_inj.mp here
  · simpa [shifted] using here

/-- A word can be recovered from its exclusive or with itself shifted right: from the high bits
down. -/
theorem injective_xor_shiftRight :
    Function.Injective fun word : UInt64 => word ^^^ word >>> shift := by
  intro left right same
  refine eq_of_bit_rank (64 - ·) fun index inside lower => ?_
  have here := congrArg (bit · index) same
  simp only [bit_xor, bit_shiftRight _ small] at here
  rw [lower (shift.toNat + index) (show 64 - _ < 64 - index by omega)] at here
  exact Bool.xor_left_inj.mp here

end XorShift

theorem bijective_of_injective {update : UInt64 → UInt64} (injective : Function.Injective update) :
    Function.Bijective update := by
  have finite : Finite UInt64 := Finite.of_injective UInt64.toFin fun _ _ => UInt64.toFin_inj.mp
  exact Finite.injective_iff_bijective.mp injective

/-- A value in a field of a word. -/
structure Part where
  start : ℕ
  width : ℕ
  value : UInt64
  positive : 0 < width
  inside : start + width ≤ 64
  fits : value.toNat < 2 ^ width

namespace Part

/-- The value, shifted to its place. -/
def word (part : Part) : UInt64 := part.value <<< UInt64.ofNat part.start

/-- Fields that do not overlap. -/
def Disjoint (left right : Part) : Prop :=
  left.start + left.width ≤ right.start ∨ right.start + right.width ≤ left.start

instance (left right : Part) : Decidable (Disjoint left right) :=
  inferInstanceAs (Decidable (_ ∨ _))

instance : Std.Symm Disjoint := ⟨fun _ _ => Or.symm⟩

theorem bit_word (part : Part) (index : ℕ) :
    bit part.word index = (decide (part.start ≤ index) && bit part.value (index - part.start)) := by
  have positive := part.positive
  have inside := part.inside
  have start_lt : part.start < 2 ^ 64 := by omega
  have start_eq : (UInt64.ofNat part.start).toNat = part.start :=
    UInt64.toNat_ofNat_of_lt' start_lt
  rw [word, bit_shiftLeft _ (by omega), start_eq]
  by_cases below : index < 64
  · simp [below]
  · have above : part.width ≤ index - part.start := by omega
    simp [below, bit_eq_false_of_lt part.fits above]

/-- A part has no bit outside its field. -/
theorem inside_of_bit {part : Part} {index : ℕ} (set : bit part.word index = true) :
    part.start ≤ index ∧ index < part.start + part.width := by
  rw [bit_word, Bool.and_eq_true, decide_eq_true_eq] at set
  refine ⟨set.1, ?_⟩
  by_contra above
  have clear := bit_eq_false_of_lt part.fits (show part.width ≤ index - part.start by omega)
  exact Bool.false_ne_true (clear.symm.trans set.2)

theorem Disjoint.and_eq_zero {left right : Part} (disjoint : Disjoint left right) :
    left.word &&& right.word = 0 := by
  apply eq_of_bit_eq
  intro index _
  rw [bit_and, bit_zero, Bool.eq_false_iff, Ne, Bool.and_eq_true]
  rintro ⟨left_set, right_set⟩
  have left_inside := inside_of_bit left_set
  have right_inside := inside_of_bit right_set
  rcases disjoint with before | after <;> omega

end Part

/-- A word that is put together from parts. -/
def pack (parts : List Part) : UInt64 := (parts.map Part.word).foldr (· ||| ·) 0

/-- Each part is read back from its field, if the fields do not overlap. -/
theorem field_pack {parts : List Part} (disjoint : parts.Pairwise Part.Disjoint) {part : Part}
    (member : part ∈ parts) : field (pack parts) part.start part.width = part.value := by
  apply eq_of_bit_eq
  intro index _
  rw [bit_field, pack, bit_foldr_or]
  by_cases within : index < part.width
  · have own : bit part.word (part.start + index) = bit part.value index := by simp [Part.bit_word]
    rw [decide_eq_true within, Bool.true_and, List.any_map, ← own, Bool.eq_iff_iff,
      List.any_eq_true]
    refine ⟨?_, fun set => ⟨part, member, set⟩⟩
    rintro ⟨other, other_member, set⟩
    by_cases same : other = part
    · rwa [same] at set
    · have apart := disjoint.forall other_member member same
      have placed := Part.inside_of_bit set
      rcases apart with before | after <;> omega
  · have above : part.width ≤ index := Nat.le_of_not_lt within
    simp [within, bit_eq_false_of_lt part.fits above]

end Rust
