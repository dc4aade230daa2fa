import Bulla.Rust.Bits

/-!
# Descriptor tables

The addresses of interrupt handlers and of the task state segment are cut into fields and scattered
over the descriptors.  What the processor puts together from the fields is the address again.
-/

namespace Bulla.Platform

open Rust

structure IdtEntry where
  offsetLow : UInt16
  selector : UInt16
  ist : UInt8
  attributes : UInt8
  offsetMiddle : UInt16
  offsetHigh : UInt32
  reserved : UInt32
  deriving DecidableEq, Repr

namespace IdtEntry

/-- `MISSING`. -/
def missing : IdtEntry := ⟨0, 0, 0, 0, 0, 0, 0⟩

def interrupt (handler : UInt64) (user : Bool) : IdtEntry where
  offsetLow := handler.toUInt16
  selector := 0x08
  ist := 0
  attributes := if user then 0xee else 0x8e
  offsetMiddle := (handler >>> 16).toUInt16
  offsetHigh := (handler >>> 32).toUInt32
  reserved := 0

/-- The address the processor jumps to. -/
def offset (entry : IdtEntry) : UInt64 :=
  entry.offsetLow.toUInt64 ||| entry.offsetMiddle.toUInt64 <<< 16 |||
    entry.offsetHigh.toUInt64 <<< 32

end IdtEntry

/-- The addresses that the tables are made of, as the linker places them. -/
structure Addresses where
  /-- `TSS`. -/
  tss : UInt64
  pageFaultHandler : UInt64
  ipiHandler : UInt64
  timerHandler : UInt64
  userSyscallHandler : UInt64
  userFinishHandler : UInt64
  deriving DecidableEq, Repr

/-- `IPI_VECTOR`. -/
def ipiVector : ℕ := 0xf1

/-- `TIMER_VECTOR`. -/
def timerVector : ℕ := 0xf2

/-- `tss_low`. -/
def tssLow (base : UInt64) : UInt64 :=
  let limit : UInt64 := 103
  limit ||| (base &&& 0x00ffffff) <<< 16 ||| (0x89 : UInt64) <<< 40 |||
    ((limit >>> 16) &&& 0x0f) <<< 48 ||| ((base >>> 24) &&& 0xff) <<< 56

structure DescriptorTables where
  gdt : Vector UInt64 7
  idt : Vector IdtEntry 256

/-- The tables that `setup_descriptor_tables` writes. -/
def setupDescriptorTables (addresses : Addresses) : DescriptorTables where
  gdt := #v[0, 0x00af9a000000ffff, 0x00cf92000000ffff, 0x00cff2000000ffff, 0x00affa000000ffff,
    tssLow addresses.tss, addresses.tss >>> 32]
  idt := (Vector.replicate 256 IdtEntry.missing)
    |>.set 14 (.interrupt addresses.pageFaultHandler false)
    |>.set ipiVector (.interrupt addresses.ipiHandler false)
    |>.set timerVector (.interrupt addresses.timerHandler false)
    |>.set 0x80 (.interrupt addresses.userSyscallHandler true)
    |>.set 0x81 (.interrupt addresses.userFinishHandler true)

/-- How the processor reads the two words of a system descriptor. -/
structure SystemDescriptor where
  base : UInt64
  limit : UInt64
  access : UInt64
  deriving DecidableEq, Repr

def SystemDescriptor.decode (low high : UInt64) : SystemDescriptor where
  base := field low 16 24 ||| field low 56 8 <<< 24 ||| field high 0 32 <<< 32
  limit := field low 0 16 ||| field low 48 4 <<< 16
  access := field low 40 8

theorem IdtEntry.offset_interrupt (handler : UInt64) (user : Bool) :
    (interrupt handler user).offset = handler := by
  apply eq_of_bit_eq
  intro index inside
  simp only [offset, interrupt, bit_or, bit_toUInt16]
  rw [bit_shiftLeft _ (by decide), bit_shiftLeft _ (by decide), bit_toUInt16, bit_toUInt32,
    bit_shiftRight _ (by decide), bit_shiftRight _ (by decide)]
  simp only [UInt64.reduceToNat]
  grind

/-- The parts that are joined in `tss_low`: the low limit, the low base, the access byte, the high
limit and the next byte of the base. -/
def tssParts (base : UInt64) : List Part :=
  [⟨0, 16, 103, by decide, by decide, by decide⟩,
    ⟨16, 24, base &&& 0x00ffffff, by decide, by decide, toNat_and_lt base (by decide)⟩,
    ⟨40, 8, 0x89, by decide, by decide, by decide⟩,
    ⟨48, 4, ((103 : UInt64) >>> 16) &&& 0x0f, by decide, by decide, by decide⟩,
    ⟨56, 8, (base >>> 24) &&& 0xff, by decide, by decide, toNat_and_lt _ (by decide)⟩]

theorem tssLow_eq (base : UInt64) : tssLow base = pack (tssParts base) := by
  simp only [tssLow, pack, tssParts, Part.word, List.map_cons, List.map_nil, List.foldr_cons,
    List.foldr_nil, UInt64.or_zero, UInt64.or_assoc]
  rfl

theorem disjoint_tssParts (base : UInt64) : (tssParts base).Pairwise Part.Disjoint := by
  simp [tssParts, Part.Disjoint]

/-- The processor reads every part back from its field. -/
theorem field_tssLow (base : UInt64) :
    ∀ part ∈ tssParts base, field (tssLow base) part.start part.width = part.value := by
  rw [tssLow_eq]
  exact fun part member => field_pack (disjoint_tssParts base) member

/-- The base is put together from three fields. -/
theorem base_fields (base : UInt64) :
    (base &&& (0x00ffffff : UInt64)) ||| ((base >>> 24) &&& (0xff : UInt64)) <<< 24 |||
      field (base >>> 32) 0 32 <<< 32 = base := by
  have low_mask : (0x00ffffff : UInt64).toNat + 1 = 2 ^ 24 := rfl
  have byte_mask : (0xff : UInt64).toNat + 1 = 2 ^ 8 := rfl
  apply eq_of_bit_eq
  intro index inside
  rw [bit_or, bit_or, bit_shiftLeft _ (by decide), bit_shiftLeft _ (by decide), bit_field,
    bit_and_low low_mask, bit_and_low byte_mask, bit_shiftRight _ (by decide),
    bit_shiftRight _ (by decide)]
  simp only [UInt64.reduceToNat]
  grind

theorem decode_tss (base : UInt64) :
    SystemDescriptor.decode (tssLow base) (base >>> 32) = ⟨base, 103, 0x89⟩ := by
  have parts := field_tssLow base
  simp only [tssParts, List.forall_mem_cons] at parts
  obtain ⟨limitLow, baseLow, access, limitHigh, baseHigh, -⟩ := parts
  rw [SystemDescriptor.decode, limitLow, baseLow, access, limitHigh, baseHigh, base_fields]
  rfl

/-- The processor finds the handlers and the task state segment at any address: gates of both
privileges keep the whole handler, and the two words of the segment keep its base, its limit and its
access byte in fields that do not overlap. -/
theorem descriptors_keep_addresses (addresses : Addresses) :
    (∀ handler user, (IdtEntry.interrupt handler user).offset = handler) ∧
      SystemDescriptor.decode (setupDescriptorTables addresses).gdt[5]
        (setupDescriptorTables addresses).gdt[6] = ⟨addresses.tss, 103, 0x89⟩ ∧
      (setupDescriptorTables addresses).gdt[5] =
        ((tssParts addresses.tss).map Part.word).foldr (· ||| ·) 0 ∧
      (tssParts addresses.tss).Pairwise (fun left right => left.word &&& right.word = 0) := by
  refine ⟨IdtEntry.offset_interrupt, decode_tss addresses.tss, tssLow_eq addresses.tss, ?_⟩
  exact (disjoint_tssParts addresses.tss).imp Part.Disjoint.and_eq_zero

end Bulla.Platform
