import Bulla.X86

/-!
# `memmove`

The routine copies upwards or downwards, so that no byte of the source is overwritten before it is
read.  In either direction the memory is the initial one with a part of the destination replaced;
the part grows from its lower or from its upper end.
-/

namespace Bulla.Platform

open X86 Register Instruction

/-- The routine, with the destination in `rcx`, the source in `rdx` and the length in `r8`. -/
def memmove : Routine :=
  [movq rcx rax,
    testq r8 r8,
    jump .zero 4,
    cmpq rdx rcx,
    jump .belowOrEqual 2,
    leaq rdx r8 r9,
    cmpq r9 rcx,
    jump .aboveOrEqual 2,
    movq r8 r10,
    label 1,
    decq r10,
    loadb rdx r10 r9,
    storeb r9 rcx r10,
    testq r10 r10,
    jump .notZero 1,
    jmp 4,
    label 2,
    xorq r10 r10,
    label 3,
    loadb rdx r10 r9,
    storeb r9 rcx r10,
    incq r10,
    cmpq r8 r10,
    jump .below 3,
    label 4,
    retq]

/-- The memory with the bytes from `lower` to `upper` of the destination moved. -/
def moved (initial : UInt64 → UInt8) (target source : UInt64) (lower upper : ℕ)
    (address : UInt64) : UInt8 :=
  if target.toNat + lower ≤ address.toNat ∧ address.toNat < target.toNat + upper then
    initial (source + (address - target))
  else initial address

section Moved

variable {initial : UInt64 → UInt8} {target source index : UInt64} {lower upper : ℕ}

theorem place_sub_target : target + index - target = index := by
  rw [UInt64.add_comm, UInt64.add_sub_cancel]

@[simp] theorem moved_self (place : ℕ) : moved initial target source place place = initial := by
  funext address
  apply if_neg
  omega

/-- Copying one more byte that has not been overwritten. -/
theorem update_moved {lowerAfter upperAfter : ℕ}
    (target_fits : target.toNat + index.toNat < 2 ^ 64)
    (source_fits : source.toNat + index.toNat < 2 ^ 64)
    (unread : source.toNat + index.toNat < target.toNat + lower ∨
      target.toNat + upper ≤ source.toNat + index.toNat)
    (extended : ∀ place, lowerAfter ≤ place ∧ place < upperAfter ↔
      (lower ≤ place ∧ place < upper) ∨ place = index.toNat) :
    Function.update (moved initial target source lower upper) (target + index)
        (moved initial target source lower upper (source + index)) =
      moved initial target source lowerAfter upperAfter := by
  have target_eq := Rust.toNat_add_of_lt target_fits
  have source_eq := Rust.toNat_add_of_lt source_fits
  have original : moved initial target source lower upper (source + index) =
      initial (source + index) := by
    apply if_neg
    rw [source_eq]
    omega
  funext address
  by_cases here : address = target + index
  · have within := (extended index.toNat).mpr (.inr rfl)
    rw [here, Function.update_self, original, moved, if_pos (by omega), place_sub_target]
  · have elsewhere : address.toNat ≠ target.toNat + index.toNat :=
      fun same => here (UInt64.toNat_inj.mp (same.trans target_eq.symm))
    have same_part : target.toNat + lower ≤ address.toNat ∧ address.toNat < target.toNat + upper ↔
        target.toNat + lowerAfter ≤ address.toNat ∧
          address.toNat < target.toNat + upperAfter := by
      have place := extended (address.toNat - target.toNat)
      omega
    rw [Function.update_of_ne here, moved, moved]
    simp only [same_part]

end Moved

/-- A block of instructions that keeps the result and the arguments. -/
structure Block (start later : State) (counter : ℕ) (memory : UInt64 → UInt8) : Prop where
  reaches : Reaches memmove start later
  counter_eq : later.counter = counter
  rax_eq : later.registers rax = start.registers rax
  rcx_eq : later.registers rcx = start.registers rcx
  rdx_eq : later.registers rdx = start.registers rdx
  r8_eq : later.registers r8 = start.registers r8
  memory_eq : later.memory = memory

section Blocks

variable {state : State}

/-- Nothing is moved if the length is zero. -/
theorem enter (at_entry : state.counter = 0) :
    ∃ later, Reaches memmove state later ∧
      later.counter = (if state.registers r8 = 0 then 24 else 3) ∧
      later.registers = Function.update state.registers rax (state.registers rcx) ∧
      later.memory = state.memory := by
  obtain ⟨counter, registers, carry, zero, memory⟩ := state
  obtain rfl : counter = 0 := at_entry
  refine ⟨_, ⟨3, rfl⟩, ?_, rfl, rfl⟩
  show (if (registers r8 &&& registers r8 == 0) = true then 24 else 3) =
    if registers r8 = 0 then 24 else 3
  rw [UInt64.and_self]
  simp only [beq_iff_eq]

/-- A destination that is not above the source is copied upwards. -/
theorem compare_source (at_compare : state.counter = 3) :
    ∃ later, Block state later (if state.registers rcx ≤ state.registers rdx then 16 else 5)
      state.memory := by
  obtain ⟨counter, registers, carry, zero, memory⟩ := state
  obtain rfl : counter = 3 := at_compare
  refine ⟨_, ⟨2, rfl⟩, ?_, rfl, rfl, rfl, rfl, rfl⟩
  have le_iff : (decide (registers rcx < registers rdx) || registers rcx == registers rdx) = true ↔
      registers rcx ≤ registers rdx := by
    rw [Bool.or_eq_true, decide_eq_true_eq, beq_iff_eq]
    exact UInt64.le_iff_lt_or_eq.symm
  show (if (decide (registers rcx < registers rdx) || registers rcx == registers rdx) = true
      then 16 else 5) = if registers rcx ≤ registers rdx then 16 else 5
  simp only [le_iff]

/-- So is a destination behind the end of the source. -/
theorem compare_end (at_compare : state.counter = 5) :
    ∃ later, Block state later
      (if state.registers rcx < state.registers rdx + state.registers r8 then 8 else 16)
      state.memory := by
  obtain ⟨counter, registers, carry, zero, memory⟩ := state
  obtain rfl : counter = 5 := at_compare
  refine ⟨_, ⟨3, rfl⟩, ?_, rfl, rfl, rfl, rfl, rfl⟩
  show (if (!decide (registers rcx < registers rdx + registers r8)) = true then 16 else 8) =
    if registers rcx < registers rdx + registers r8 then 8 else 16
  by_cases inside : registers rcx < registers rdx + registers r8 <;> simp [inside]

theorem start_upward (at_start : state.counter = 16) :
    ∃ later, later.registers r10 = 0 ∧ Block state later 18 state.memory := by
  obtain ⟨counter, registers, carry, zero, memory⟩ := state
  obtain rfl : counter = 16 := at_start
  exact ⟨_, UInt64.xor_self, ⟨2, rfl⟩, rfl, rfl, rfl, rfl, rfl, rfl⟩

theorem start_downward (at_start : state.counter = 8) :
    ∃ later, later.registers r10 = state.registers r8 ∧ Block state later 9 state.memory := by
  obtain ⟨counter, registers, carry, zero, memory⟩ := state
  obtain rfl : counter = 8 := at_start
  exact ⟨_, rfl, ⟨1, rfl⟩, rfl, rfl, rfl, rfl, rfl, rfl⟩

/-- One round of the upward loop. -/
theorem round_upward (at_loop : state.counter = 18) :
    ∃ later, later.registers r10 = state.registers r10 + 1 ∧
      Block state later (if state.registers r10 + 1 < state.registers r8 then 18 else 24)
        (Function.update state.memory (state.registers rcx + state.registers r10)
          (state.memory (state.registers rdx + state.registers r10))) := by
  obtain ⟨counter, registers, carry, zero, memory⟩ := state
  obtain rfl : counter = 18 := at_loop
  refine ⟨_, ?_, ⟨6, rfl⟩, ?_, rfl, rfl, rfl, rfl, ?_⟩
  · rfl
  · show (if decide (registers r10 + 1 < registers r8) = true then _ else _) = _
    simp only [decide_eq_true_eq]
    rfl
  · show Function.update memory _ (withLowByte _ _).toUInt8 = _
    rw [toUInt8_withLowByte]
    rfl

/-- One round of the downward loop. -/
theorem round_downward (at_loop : state.counter = 9) :
    ∃ later, later.registers r10 = state.registers r10 - 1 ∧
      Block state later (if state.registers r10 - 1 = 0 then 15 else 9)
        (Function.update state.memory (state.registers rcx + (state.registers r10 - 1))
          (state.memory (state.registers rdx + (state.registers r10 - 1)))) := by
  obtain ⟨counter, registers, carry, zero, memory⟩ := state
  obtain rfl : counter = 9 := at_loop
  refine ⟨_, ?_, ⟨6, rfl⟩, ?_, rfl, rfl, rfl, rfl, ?_⟩
  · rfl
  · show (if (!(registers r10 - 1 &&& (registers r10 - 1) == 0)) = true then 9 else 15) =
      if registers r10 - 1 = 0 then 15 else 9
    rw [UInt64.and_self]
    by_cases done : registers r10 - 1 = 0 <;> simp [done]
  · show Function.update memory _ (withLowByte _ _).toUInt8 = _
    rw [toUInt8_withLowByte]
    rfl

theorem leave_downward (at_end : state.counter = 15) :
    ∃ later, Block state later 24 state.memory := by
  obtain ⟨counter, registers, carry, zero, memory⟩ := state
  obtain rfl : counter = 15 := at_end
  exact ⟨_, ⟨1, rfl⟩, rfl, rfl, rfl, rfl, rfl, rfl⟩

theorem leave (at_end : state.counter = 24) :
    ∃ later, Block state later 25 state.memory := by
  obtain ⟨counter, registers, carry, zero, memory⟩ := state
  obtain rfl : counter = 24 := at_end
  exact ⟨_, ⟨1, rfl⟩, rfl, rfl, rfl, rfl, rfl, rfl⟩

end Blocks

/-- The routine at an instruction, with the bytes from `lower` to `upper` moved. -/
structure Moving (initial : UInt64 → UInt8) (target source length : UInt64) (counter : ℕ)
    (lower upper : ℕ) (state : State) : Prop where
  counter_eq : state.counter = counter
  rax_eq : state.registers rax = target
  rcx_eq : state.registers rcx = target
  rdx_eq : state.registers rdx = source
  r8_eq : state.registers r8 = length
  memory_eq : state.memory = moved initial target source lower upper

section Moving

variable {initial : UInt64 → UInt8} {target source length : UInt64} {counter counterAfter : ℕ}
  {lower upper lowerAfter upperAfter : ℕ} {state later : State}

theorem Moving.block {memory : UInt64 → UInt8}
    (moving : Moving initial target source length counter lower upper state)
    (block : Block state later counterAfter memory)
    (memory_eq : memory = moved initial target source lowerAfter upperAfter) :
    Moving initial target source length counterAfter lowerAfter upperAfter later where
  counter_eq := block.counter_eq
  rax_eq := block.rax_eq.trans moving.rax_eq
  rcx_eq := block.rcx_eq.trans moving.rcx_eq
  rdx_eq := block.rdx_eq.trans moving.rdx_eq
  r8_eq := block.r8_eq.trans moving.r8_eq
  memory_eq := block.memory_eq.trans memory_eq

variable (target_fits : target.toNat + length.toNat ≤ 2 ^ 64)
  (source_fits : source.toNat + length.toNat ≤ 2 ^ 64)

include target_fits source_fits

/-- A round of the upward loop moves the next byte: the bytes moved so far do not cover it. -/
theorem Moving.upward
    (apart : target.toNat ≤ source.toNat ∨ source.toNat + length.toNat ≤ target.toNat)
    (below : upper < length.toNat) (index_eq : (state.registers r10).toNat = upper)
    (moving : Moving initial target source length 18 0 upper state) :
    ∃ next, Reaches memmove state next ∧ (next.registers r10).toNat = upper + 1 ∧
      Moving initial target source length (if upper + 1 < length.toNat then 18 else 24) 0
        (upper + 1) next := by
  obtain ⟨next, next_index, block⟩ := round_upward moving.counter_eq
  have length_lt := length.toNat_lt
  have next_eq : (state.registers r10 + 1).toNat = upper + 1 := by
    rw [Rust.toNat_add_one (by omega), index_eq]
  simp only [moving.r8_eq, moving.rcx_eq, moving.rdx_eq, moving.memory_eq, UInt64.lt_iff_toNat_lt,
    next_eq] at block
  refine ⟨next, block.reaches, next_index ▸ next_eq, moving.block block ?_⟩
  exact update_moved (by omega) (by omega) (by omega) (by omega)

/-- The upward loop moves the rest. -/
theorem loop_upward
    (apart : target.toNat ≤ source.toNat ∨ source.toNat + length.toNat ≤ target.toNat)
    (below : upper < length.toNat) (index_eq : (state.registers r10).toNat = upper)
    (moving : Moving initial target source length 18 0 upper state) :
    ∃ later, Reaches memmove state later ∧
      Moving initial target source length 24 0 length.toNat later := by
  -- Induction on the number of bytes that are left.
  induction left : length.toNat - upper generalizing upper state with
  | zero => omega
  | succ rest induction =>
      obtain ⟨next, reaches, next_index, moving⟩ :=
        moving.upward target_fits source_fits apart below index_eq
      by_cases more : upper + 1 < length.toNat
      · rw [if_pos more] at moving
        obtain ⟨later, later_reaches, moved_all⟩ := induction more next_index moving (by omega)
        exact ⟨later, reaches.trans later_reaches, moved_all⟩
      · have all : upper + 1 = length.toNat := by omega
        rw [if_neg more, all] at moving
        exact ⟨next, reaches, moving⟩

/-- A round of the downward loop moves the byte below: it is not among those moved so far. -/
theorem Moving.downward (above : source.toNat ≤ target.toNat) (within : lower < length.toNat)
    (index_eq : (state.registers r10).toNat = lower + 1)
    (moving : Moving initial target source length 9 (lower + 1) length.toNat state) :
    ∃ next, Reaches memmove state next ∧ (next.registers r10).toNat = lower ∧
      Moving initial target source length (if lower = 0 then 15 else 9) lower length.toNat
        next := by
  obtain ⟨next, next_index, block⟩ := round_downward moving.counter_eq
  have next_eq : (state.registers r10 - 1).toNat = lower := by
    have one_le : 1 ≤ state.registers r10 := UInt64.le_iff_toNat_le.mpr (by simp [index_eq])
    rw [UInt64.toNat_sub_of_le _ _ one_le, index_eq]
    rfl
  simp only [moving.rcx_eq, moving.rdx_eq, moving.memory_eq, ← UInt64.toNat_inj, next_eq,
    UInt64.toNat_zero] at block
  refine ⟨next, block.reaches, next_index ▸ next_eq, moving.block block ?_⟩
  exact update_moved (by omega) (by omega) (by omega) (by omega)

/-- The downward loop moves the rest. -/
theorem loop_downward (above : source.toNat ≤ target.toNat) (within : lower < length.toNat)
    (index_eq : (state.registers r10).toNat = lower + 1)
    (moving : Moving initial target source length 9 (lower + 1) length.toNat state) :
    ∃ later, Reaches memmove state later ∧
      Moving initial target source length 24 0 length.toNat later := by
  induction lower generalizing state with
  | zero =>
      obtain ⟨next, reaches, -, moving⟩ :=
        moving.downward target_fits source_fits above within index_eq
      obtain ⟨later, block⟩ := leave_downward moving.counter_eq
      exact ⟨later, reaches.trans block.reaches, moving.block block moving.memory_eq⟩
  | succ lower induction =>
      obtain ⟨next, reaches, next_index, moving⟩ :=
        moving.downward target_fits source_fits above within index_eq
      obtain ⟨later, later_reaches, moved_all⟩ := induction (by omega) next_index moving
      exact ⟨later, reaches.trans later_reaches, moved_all⟩

/-- From the start of the upward copy everything is moved. -/
theorem moves_upward
    (apart : target.toNat ≤ source.toNat ∨ source.toNat + length.toNat ≤ target.toNat)
    (some_bytes : 0 < length.toNat) (moving : Moving initial target source length 16 0 0 state) :
    ∃ later, Reaches memmove state later ∧
      Moving initial target source length 24 0 length.toNat later := by
  obtain ⟨next, next_index, block⟩ := start_upward moving.counter_eq
  obtain ⟨later, reaches, moved_all⟩ := loop_upward target_fits source_fits apart some_bytes
    (by rw [next_index, UInt64.toNat_zero]) (moving.block block moving.memory_eq)
  exact ⟨later, block.reaches.trans reaches, moved_all⟩

/-- From the start of the downward copy everything is moved. -/
theorem moves_downward (above : source.toNat ≤ target.toNat) (some_bytes : 0 < length.toNat)
    (moving : Moving initial target source length 8 0 0 state) :
    ∃ later, Reaches memmove state later ∧
      Moving initial target source length 24 0 length.toNat later := by
  obtain ⟨lower, length_eq⟩ := Nat.exists_eq_add_one.mpr some_bytes
  obtain ⟨next, next_index, block⟩ := start_downward moving.counter_eq
  have next_eq : (next.registers r10).toNat = lower + 1 := by
    rw [next_index, moving.r8_eq, length_eq]
  have moving_next : Moving initial target source length 9 (lower + 1) length.toNat next :=
    moving.block block (by rw [moving.memory_eq, length_eq, moved_self, moved_self])
  obtain ⟨later, reaches, moved_all⟩ :=
    loop_downward target_fits source_fits above (by omega) next_eq moving_next
  exact ⟨later, block.reaches.trans reaches, moved_all⟩

omit source_fits in
/-- The routine copies upwards unless the destination begins inside the source. -/
theorem chooses_direction (moving : Moving initial target source length 3 0 0 state) :
    ∃ later, Reaches memmove state later ∧
      ((target.toNat ≤ source.toNat ∨ source.toNat + length.toNat ≤ target.toNat) ∧
          Moving initial target source length 16 0 0 later ∨
        source.toNat ≤ target.toNat ∧ Moving initial target source length 8 0 0 later) := by
  obtain ⟨first, first_block⟩ := compare_source moving.counter_eq
  simp only [moving.rcx_eq, moving.rdx_eq] at first_block
  replace moving := moving.block first_block moving.memory_eq
  by_cases below : target ≤ source
  · rw [if_pos below] at moving
    exact ⟨first, first_block.reaches, .inl ⟨.inl (UInt64.le_iff_toNat_le.mp below), moving⟩⟩
  · rw [if_neg below] at moving
    rw [UInt64.le_iff_toNat_le] at below
    -- The end of the source is below the end of the destination, so it is an address.
    have end_eq : (source + length).toNat = source.toNat + length.toNat :=
      Rust.toNat_add_of_lt (by omega)
    obtain ⟨second, second_block⟩ := compare_end moving.counter_eq
    simp only [moving.rcx_eq, moving.rdx_eq, moving.r8_eq] at second_block
    replace moving := moving.block second_block moving.memory_eq
    refine ⟨second, first_block.reaches.trans second_block.reaches, ?_⟩
    by_cases inside : target < source + length
    · rw [if_pos inside] at moving
      exact .inr ⟨by omega, moving⟩
    · rw [if_neg inside] at moving
      rw [UInt64.lt_iff_toNat_lt, end_eq, Nat.not_lt] at inside
      exact .inl ⟨.inr inside, moving⟩

/-- Whichever way the routine chooses, it moves everything. -/
theorem moves_all (some_bytes : 0 < length.toNat)
    (moving : Moving initial target source length 3 0 0 state) :
    ∃ later, Reaches memmove state later ∧
      Moving initial target source length 24 0 length.toNat later := by
  obtain ⟨start, chosen, ⟨apart, moving⟩ | ⟨above, moving⟩⟩ := chooses_direction target_fits moving
  · obtain ⟨later, reaches, moved_all⟩ :=
      moves_upward target_fits source_fits apart some_bytes moving
    exact ⟨later, chosen.trans reaches, moved_all⟩
  · obtain ⟨later, reaches, moved_all⟩ :=
      moves_downward target_fits source_fits above some_bytes moving
    exact ⟨later, chosen.trans reaches, moved_all⟩

end Moving

/-- The routine returns the destination, with the bytes of the source in it however the two overlap,
and leaves every other byte as it was. -/
theorem memmove_moves_bytes (start : State) (at_entry : start.counter = 0)
    (target_fits : (start.registers rcx).toNat + (start.registers r8).toNat ≤ 2 ^ 64)
    (source_fits : (start.registers rdx).toNat + (start.registers r8).toNat ≤ 2 ^ 64) :
    ∃ last, Returns memmove start last ∧ last.registers rax = start.registers rcx ∧
      (∀ index < start.registers r8, last.memory (start.registers rcx + index) =
        start.memory (start.registers rdx + index)) ∧
      ∀ address : UInt64, address.toNat < (start.registers rcx).toNat ∨
          (start.registers rcx).toNat + (start.registers r8).toNat ≤ address.toNat →
        last.memory address = start.memory address := by
  obtain ⟨first, entered, counter_eq, registers_eq, memory_eq⟩ := enter at_entry
  have moving : Moving start.memory (start.registers rcx) (start.registers rdx)
      (start.registers r8) _ 0 0 first :=
    ⟨counter_eq, by rw [registers_eq]; rfl, by rw [registers_eq]; rfl, by rw [registers_eq]; rfl,
      by rw [registers_eq]; rfl, by rw [memory_eq, moved_self]⟩
  obtain ⟨later, reaches, moved_all⟩ : ∃ later, Reaches memmove first later ∧
      Moving start.memory (start.registers rcx) (start.registers rdx) (start.registers r8) 24 0
        (start.registers r8).toNat later := by
    by_cases empty : start.registers r8 = 0
    · rw [if_pos empty] at moving
      refine ⟨first, ⟨0, rfl⟩, ?_⟩
      rwa [empty, UInt64.toNat_zero, ← empty]
    · rw [if_neg empty] at moving
      exact moves_all target_fits source_fits (Rust.toNat_pos empty) moving
  obtain ⟨last, block⟩ := leave moved_all.counter_eq
  have moved_last := moved_all.block block moved_all.memory_eq
  refine ⟨last, ⟨(entered.trans reaches).trans block.reaches, ?_⟩, moved_last.rax_eq, ?_, ?_⟩
  · rw [moved_last.counter_eq]
    rfl
  · intro index inside
    have inside_toNat := UInt64.lt_iff_toNat_lt.mp inside
    have place_eq : (start.registers rcx + index).toNat =
        (start.registers rcx).toNat + index.toNat := Rust.toNat_add_of_lt (by omega)
    rw [moved_last.memory_eq, moved, if_pos (by omega), place_sub_target]
  · intro address outside
    rw [moved_last.memory_eq]
    exact if_neg (by omega)

/-- Two bytes are moved to the next address, which holds the second of them. -/
theorem two_bytes_moved_up_by_one : let start : State :=
    ⟨0, Function.update (Function.update (Function.update (fun _ => 0) rcx 17) rdx 16) r8 2, false,
      false, fun address => address.toUInt8⟩
    ∃ last, Returns memmove start last ∧ last.registers rax = 17 ∧ last.memory 17 = 16 ∧
      last.memory 18 = 17 ∧ last.memory 16 = 16 := by
  intro start
  obtain ⟨last, returns, rax_eq, bytes, kept⟩ :=
    memmove_moves_bytes start rfl (by decide) (by decide)
  exact ⟨last, returns, rax_eq, bytes 0 (by decide), bytes 1 (by decide),
    kept 16 (.inl (by decide))⟩

end Bulla.Platform
