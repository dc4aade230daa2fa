import Bulla.Interleaving
import Bulla.Rust.History
import Bulla.Rust.Word

/-!
# The kernel heap

Pages of the heap are owned through the bits of one word.  An allocation looks for the first run of
clear bits that is long enough and sets it with a compare and exchange; a deallocation clears the
bits of its run.  Any number of processors do so at a time, and they are stopped between any two
operations on the word.
-/

namespace Bulla.Platform

open Rust

/-- `HEAP_PAGES`. -/
def heapPages : UInt64 := 64

/-- `HEAP_BYTES`. -/
def heapBytes : UInt64 := heapPages * 4096

/-- A `Layout`, with what `Layout::from_size_align` checks. -/
structure Layout where
  size : UInt64
  align : UInt64
  power : isPowerOfTwo align = true
  bounded : size.toNat + align.toNat ≤ 2 ^ 63
  deriving DecidableEq, Repr

/-- Number of pages of an allocation; it is never 0. -/
def Layout.pages (layout : Layout) : UInt64 := divCeil (max layout.size 1) 4096

/-- The bits of a run of pages. -/
def mask (pages first : UInt64) : UInt64 :=
  if pages = 64 then 0xffffffffffffffff else ((1 <<< pages) - 1) <<< first

/-- What a caller of `alloc` gets and passes to `dealloc`. -/
structure Allocation where
  address : UInt64
  layout : Layout
  deriving DecidableEq, Repr

structure Heap where
  /-- `HEAP_BITMAP`. -/
  bitmap : UInt64
  /-- `HEAP_ALLOCATIONS`. -/
  allocations : UInt64
  /-- Allocations that callers have and have not passed to `dealloc`. -/
  callers : List Allocation

/-- Where a processor is: the operation it does next, with the values it has in hand. -/
inductive HeapUser where
  | idle
  /-- `HEAP_BITMAP.load()`. -/
  | scanning (layout : Layout) (first : UInt64)
  /-- `HEAP_BITMAP.compare_exchange_weak(observed, observed | mask)`. -/
  | swapping (layout : Layout) (first observed : UInt64)
  /-- Clears the pages; then `HEAP_ALLOCATIONS.fetch_add(1)`. -/
  | zeroing (layout : Layout) (first : UInt64)
  /-- `HEAP_BITMAP.fetch_and(!mask)`. -/
  | freeing (allocation : Allocation) (mask : UInt64)

/-- What a processor does at its turn: call `alloc`, call `dealloc`, or go on with its call. -/
inductive HeapAction where
  | alloc (layout : Layout)
  | dealloc (allocation : Allocation)
  /-- A weak exchange may fail for no reason. -/
  | advance (spurious : Bool)

inductive HeapReply where
  | continues
  /-- `alloc` returns an address, or null. -/
  | returned (address : UInt64)
  | freed
  deriving DecidableEq, Repr

namespace HeapUser

/-- The next turn of the loop over `first`. -/
def nextRun (layout : Layout) (first : UInt64) : HeapReply × HeapUser :=
  if first < heapPages - layout.pages then (.continues, .scanning layout (first + 1))
  else (.returned 0, .idle)

/-- The inner loop: either the run is blocked, or an exchange is tried. -/
def inspect (layout : Layout) (first observed : UInt64) : HeapReply × HeapUser :=
  if observed &&& mask layout.pages first ≠ 0 then nextRun layout first
  else (.continues, .swapping layout first observed)

/-- `alloc`, up to the first operation on the bitmap. -/
def alloc (base : UInt64) (layout : Layout) : HeapReply × HeapUser :=
  if base = 0 ∨ layout.align > 4096 then (.returned 0, .idle)
  else if layout.pages > heapPages then (.returned 0, .idle)
  else (.continues, .scanning layout 0)

/-- `dealloc`, up to its operation on the bitmap. -/
def dealloc (base : UInt64) (allocation : Allocation) : HeapReply × HeapUser :=
  if base = 0 ∨ allocation.address < base ∨ allocation.address ≥ base + heapBytes ∨
      allocation.address % 4096 ≠ 0 then (.freed, .idle)
  else
    let pages := allocation.layout.pages
    let first := (allocation.address - base) / 4096
    if pages > heapPages ∨ first + pages > heapPages then (.freed, .idle)
    else (.continues, .freeing allocation (mask pages first))

/-- One step of a processor. -/
def step (base : UInt64) (self : Heap) : HeapAction → HeapUser → HeapReply × Heap × HeapUser
  | .alloc layout, .idle => ((alloc base layout).1, self, (alloc base layout).2)
  | .dealloc allocation, .idle =>
      -- Only what callers have can be passed to `dealloc`, and they do not have it afterwards.
      if allocation ∈ self.callers then
        ((dealloc base allocation).1, { self with callers := self.callers.erase allocation },
          (dealloc base allocation).2)
      else (.continues, self, .idle)
  | .advance _, .scanning layout first =>
      ((inspect layout first self.bitmap).1, self, (inspect layout first self.bitmap).2)
  | .advance spurious, .swapping layout first observed =>
      if self.bitmap = observed ∧ spurious = false then
        (.continues, { self with bitmap := observed ||| mask layout.pages first },
          .zeroing layout first)
      else ((inspect layout first self.bitmap).1, self, (inspect layout first self.bitmap).2)
  | .advance _, .zeroing layout first =>
      (.returned (base + first * 4096),
        { self with
          allocations := self.allocations + 1
          callers := ⟨base + first * 4096, layout⟩ :: self.callers }, .idle)
  | .advance _, .freeing _ mask => (.freed, { self with bitmap := self.bitmap &&& ~~~mask }, .idle)
  -- A processor does one call at a time.
  | _, own => (.continues, self, own)

end HeapUser

/-- The state of all processors. -/
abbrev HeapUsers (processors : ℕ) : Type := Interleaved processors Heap HeapUser

namespace HeapUsers

variable {processors : ℕ}

/-- Nothing is allocated, and nobody is in a call. -/
def empty (processors : ℕ) : HeapUsers processors where
  shared := ⟨0, 0, []⟩
  own := fun _ => .idle

/-- The turn of a processor. -/
def perform (base : UInt64) (turn : Fin processors × HeapAction) :
    Call (HeapUsers processors) Empty HeapReply := do
  let self ← get
  let moved := (self.own turn.1).step base self.shared turn.2
  set (self.put turn.1 moved.2.1 moved.2.2)
  return moved.1

end HeapUsers

theorem pages_toNat (layout : Layout) :
    layout.pages.toNat = (max layout.size.toNat 1 + 4095) / 4096 := by
  rw [Layout.pages, divCeil_toNat (by decide), UInt64.toNat_max]
  rfl

theorem pages_pos (layout : Layout) : 0 < layout.pages.toNat := by
  rw [pages_toNat]
  omega

/-- The bits of a mask are the pages of its run. -/
theorem bit_mask {pages first : UInt64} (positive : 0 < pages.toNat)
    (fits : first.toNat + pages.toNat ≤ 64) (page : ℕ) :
    bit (mask pages first) page =
      decide (first.toNat ≤ page ∧ page < first.toNat + pages.toNat) := by
  by_cases whole : pages = 64
  · have pages_eq : pages.toNat = 64 := congrArg UInt64.toNat whole
    have first_eq : first.toNat = 0 := by omega
    rw [mask, if_pos whole, first_eq, pages_eq]
    change Nat.testBit (2 ^ 64 - 1) page = _
    rw [Nat.testBit_two_pow_sub_one]
    simp
  · have pages_lt : pages.toNat < 64 := by
      have distinct : pages.toNat ≠ 64 := fun same => whole (UInt64.toNat_inj.mp same)
      omega
    have power_lt : 2 ^ pages.toNat < 2 ^ 64 := Nat.pow_lt_pow_right (by decide) pages_lt
    have power_pos : 0 < 2 ^ pages.toNat := Nat.two_pow_pos _
    have power_eq : ((1 : UInt64) <<< pages).toNat = 2 ^ pages.toNat := by
      rw [UInt64.toNat_shiftLeft, Nat.mod_eq_of_lt pages_lt, UInt64.toNat_one, Nat.shiftLeft_eq,
        Nat.one_mul, Nat.mod_eq_of_lt power_lt]
    have low_eq : ((1 : UInt64) <<< pages - 1).toNat = 2 ^ pages.toNat - 1 := by
      rw [UInt64.toNat_sub_of_le, power_eq, UInt64.toNat_one]
      rw [UInt64.le_iff_toNat_le, power_eq, UInt64.toNat_one]
      exact power_pos
    have first_lt : first.toNat < 64 := by omega
    rw [mask, if_neg whole, bit, UInt64.toNat_shiftLeft, low_eq, Nat.mod_eq_of_lt first_lt,
      Nat.testBit_mod_two_pow, Nat.testBit_shiftLeft, Nat.testBit_two_pow_sub_one]
    rw [Bool.eq_iff_iff]
    simp
    omega

end Bulla.Platform
