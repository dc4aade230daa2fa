import Mathlib.Logic.Function.Basic
import Bulla.Rust.Word

/-!
# A fragment of x86-64

Registers, two flags, bytes of memory and the instructions of straight-line code, comparisons and
jumps.  A routine is a list of instructions with the labels between them; it runs until it comes to
`retq`.  Routines are analysed block by block: the effect of a block is a computation, and blocks
are put together by `Reaches.trans`.
-/

namespace X86

/-- The general registers. -/
inductive Register where
  | rax | rbx | rcx | rdx | rsi | rdi | rbp | rsp
  | r8 | r9 | r10 | r11 | r12 | r13 | r14 | r15
  deriving DecidableEq, Repr

inductive Condition where
  | zero
  | notZero
  | below
  | belowOrEqual
  | aboveOrEqual
  deriving DecidableEq, Repr

/-- Operands stand in the order of the assembler: the last one is written. -/
inductive Instruction where
  | label (name : ℕ)
  | movq (source target : Register)
  | leaq (base index target : Register)
  | xorq (source target : Register)
  | incq (target : Register)
  | decq (target : Register)
  /-- `movb (base,index), target`. -/
  | loadb (base index target : Register)
  /-- `movb source, (base,index)`. -/
  | storeb (source base index : Register)
  | testq (left right : Register)
  /-- The flags of `target - source`. -/
  | cmpq (source target : Register)
  | jump (condition : Condition) (name : ℕ)
  | jmp (name : ℕ)
  | retq
  deriving DecidableEq, Repr

abbrev Routine : Type := List Instruction

structure State where
  /-- Index of the next instruction. -/
  counter : ℕ
  registers : Register → UInt64
  carry : Bool
  zero : Bool
  memory : UInt64 → UInt8

namespace State

/-- Go on with the next instruction. -/
def advance (state : State) : State := { state with counter := state.counter + 1 }

def write (state : State) (target : Register) (value : UInt64) : State :=
  { state with registers := Function.update state.registers target value }

def store (state : State) (address : UInt64) (byte : UInt8) : State :=
  { state with memory := Function.update state.memory address byte }

def holds (state : State) : Condition → Bool
  | .zero => state.zero
  | .notZero => !state.zero
  | .below => state.carry
  | .belowOrEqual => state.carry || state.zero
  | .aboveOrEqual => !state.carry

end State

/-- A word with another lowest byte. -/
def withLowByte (word : UInt64) (byte : UInt8) : UInt64 := word &&& ~~~0xff ||| byte.toUInt64

/-- Whether an instruction is a given label. -/
def Instruction.isLabel (name : ℕ) : Instruction → Bool
  | .label other => other == name
  | _ => false

/-- Where a label stands. -/
def Routine.position (routine : Routine) (name : ℕ) : ℕ :=
  routine.findIdx (Instruction.isLabel name)

/-- What one instruction does. `inc` and `dec` keep the carry. -/
def Instruction.execute (routine : Routine) (state : State) : Instruction → Option State
  | .label _ => some state.advance
  | .movq source target => some (state.write target (state.registers source)).advance
  | .leaq base index target =>
      some (state.write target (state.registers base + state.registers index)).advance
  | .xorq source target =>
      let value := state.registers target ^^^ state.registers source
      some { (state.write target value).advance with carry := false, zero := value == 0 }
  | .incq target =>
      let value := state.registers target + 1
      some { (state.write target value).advance with zero := value == 0 }
  | .decq target =>
      let value := state.registers target - 1
      some { (state.write target value).advance with zero := value == 0 }
  | .loadb base index target =>
      let byte := state.memory (state.registers base + state.registers index)
      some (state.write target (withLowByte (state.registers target) byte)).advance
  | .storeb source base index =>
      some (state.store (state.registers base + state.registers index)
        (state.registers source).toUInt8).advance
  | .testq left right =>
      some { state.advance with
        carry := false, zero := state.registers right &&& state.registers left == 0 }
  | .cmpq source target =>
      some { state.advance with
        carry := decide (state.registers target < state.registers source)
        zero := state.registers target == state.registers source }
  | .jump condition name =>
      some { state with
        counter := if state.holds condition then routine.position name else state.counter + 1 }
  | .jmp name => some { state with counter := routine.position name }
  | .retq => none

/-- Execute one instruction, or stop at the end of the routine. -/
def next (routine : Routine) (state : State) : Option State :=
  routine[state.counter]? >>= Instruction.execute routine state

/-- Execute exactly `steps` instructions. -/
def run (routine : Routine) : ℕ → State → Option State
  | 0, state => some state
  | steps + 1, state => next routine state >>= run routine steps

theorem run_add (routine : Routine) (first second : ℕ) (state : State) :
    run routine (first + second) state = run routine first state >>= run routine second := by
  induction first generalizing state with
  | zero => simp [run]
  | succ first induction =>
      simp only [Nat.succ_add, run]
      cases next routine state with
      | none => rfl
      | some middle => exact induction middle

/-- A state that comes up in a run. -/
def Reaches (routine : Routine) (start later : State) : Prop :=
  ∃ steps, run routine steps start = some later

/-- The run ends with a return. -/
def Returns (routine : Routine) (start last : State) : Prop :=
  Reaches routine start last ∧ routine[last.counter]? = some .retq

variable {routine : Routine} {start middle later : State}

theorem Reaches.trans (first : Reaches routine start middle)
    (second : Reaches routine middle later) : Reaches routine start later := by
  obtain ⟨firstSteps, first_eq⟩ := first
  obtain ⟨secondSteps, second_eq⟩ := second
  refine ⟨firstSteps + secondSteps, ?_⟩
  rw [run_add, first_eq]
  exact second_eq

@[simp] theorem toUInt8_withLowByte (word : UInt64) (byte : UInt8) :
    (withLowByte word byte).toUInt8 = byte := by
  have cleared := Rust.and_not_toNat word (show (0xff : UInt64).toNat + 1 = 2 ^ 8 from rfl)
  rw [Nat.mul_comm] at cleared
  rw [← UInt8.toNat_inj, UInt64.toNat_toUInt8, withLowByte, UInt64.toNat_or, cleared,
    UInt8.toNat_toUInt64, ← Nat.two_pow_add_eq_or_of_lt byte.toNat_lt, Nat.mul_add_mod,
    Nat.mod_eq_of_lt byte.toNat_lt]

end X86
