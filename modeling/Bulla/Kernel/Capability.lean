import Bulla.Rust.BTreeMap
import Bulla.Rust.Call
import Bulla.Rust.Word

/-!
# The capability ledger

The ledger keeps one record for every minted kind and slot.  A capability is a copy of that record
handed to its owner; it is accepted only while it still agrees with the record in every field.
Records are never removed, so a released slot stays occupied.
-/

namespace Bulla.Kernel

open Rust Outcome

/-- Stable owner identity used by the capability ledger. -/
abbrev OwnerId : Type := UInt32

/-- The closed authority kinds minted by the kernel profile. -/
inductive CapabilityKind where
  | bootInfo
  | cpu
  | cpuSet
  | cpuLocal
  | physRegion
  | frame
  | virtRegion
  | addressSpace
  | mmio
  | ioPort
  | irq
  | irqState
  | trapFrame
  | userContext
  | dma
  | iommuDomain
  | clock
  | entropy
  | power
  deriving DecidableEq, Repr

namespace CapabilityKind

theorem ctorIdx_injective : Function.Injective CapabilityKind.ctorIdx := by
  intro left right equality
  cases left <;> cases right <;> first | rfl | cases equality

instance : Ord CapabilityKind := ⟨compareOn CapabilityKind.ctorIdx⟩

instance : Std.TransOrd CapabilityKind :=
  inferInstanceAs (Std.TransCmp (compareOn CapabilityKind.ctorIdx))

instance : Std.LawfulEqOrd CapabilityKind where
  eq_of_compare {left right} equality :=
    ctorIdx_injective (Std.LawfulEqOrd.eq_of_compare
      (show compare left.ctorIdx right.ctorIdx = .eq from equality))

end CapabilityKind

instance : Ord (CapabilityKind × UInt32) := lexOrd

/-- Rights are an explicit bitset. -/
structure Rights where
  /-- One bit for each right. -/
  bits : UInt32
  deriving DecidableEq, Repr

namespace Rights

def read : Rights := ⟨(1 : UInt32) <<< 0⟩
def write : Rights := ⟨(1 : UInt32) <<< 1⟩
def execute : Rights := ⟨(1 : UInt32) <<< 2⟩
def map : Rights := ⟨(1 : UInt32) <<< 3⟩
def route : Rights := ⟨(1 : UInt32) <<< 4⟩
def control : Rights := ⟨(1 : UInt32) <<< 5⟩
def transfer : Rights := ⟨(1 : UInt32) <<< 6⟩
def all : Rights := ⟨((1 : UInt32) <<< 7) - 1⟩

def empty : Rights := ⟨0⟩

def union (self other : Rights) : Rights := ⟨self.bits ||| other.bits⟩

/-- Every required right is held. -/
def contains (self required : Rights) : Bool :=
  self.bits &&& required.bits == required.bits

theorem contains_iff {self required : Rights} :
    self.contains required = true ↔ self.bits &&& required.bits = required.bits := by
  simp [contains]

@[simp] theorem contains_self (rights : Rights) : rights.contains rights = true := by
  simp [contains]

theorem contains_trans {outer middle inner : Rights} (outer_holds : outer.contains middle = true)
    (middle_holds : middle.contains inner = true) : outer.contains inner = true := by
  rw [contains_iff] at *
  calc
    outer.bits &&& inner.bits = outer.bits &&& (middle.bits &&& inner.bits) := by rw [middle_holds]
    _ = (outer.bits &&& middle.bits) &&& inner.bits := by rw [UInt32.and_assoc]
    _ = inner.bits := by rw [outer_holds, middle_holds]

/-- The mint check: no bit outside the known rights is exactly containment in them. -/
theorem all_contains_iff {rights : Rights} :
    all.contains rights = true ↔ rights.bits &&& ~~~all.bits = 0 := by
  rw [contains_iff, and_not_eq_zero_iff]

end Rights

/-- A handle into a ledger. -/
structure Capability where
  kind : CapabilityKind
  slot : UInt32
  owner : OwnerId
  rights : Rights
  generation : UInt64
  base : UInt64
  len : UInt64
  deriving DecidableEq, Repr

namespace Capability

/-- The range `[base, base + len)` lies in the capability's own range, neither of them wrapping. -/
def containsRange (self : Capability) (base len : UInt64) : Bool :=
  match checkedAdd self.base self.len with
  | none => false
  | some capEnd =>
      match checkedAdd base len with
      | none => false
      | some stop => decide (self.base ≤ base) && decide (stop ≤ capEnd)

theorem containsRange_iff {self : Capability} {base len : UInt64} :
    self.containsRange base len = true ↔
      self.base.toNat + self.len.toNat < 2 ^ 64 ∧ self.base.toNat ≤ base.toNat ∧
        base.toNat + len.toNat ≤ self.base.toNat + self.len.toNat := by
  unfold containsRange
  rcases own : checkedAdd self.base self.len with _ | capEnd
  · have overflows := checkedAdd_eq_none.mp own
    simp
    omega
  · have own_value := checkedAdd_eq_some.mp own
    have own_bound := capEnd.toNat_lt
    rcases queried : checkedAdd base len with _ | stop
    · have overflows := checkedAdd_eq_none.mp queried
      simp
      omega
    · have queried_value := checkedAdd_eq_some.mp queried
      simp [UInt64.le_iff_toNat_le]
      omega

end Capability

/-- What the ledger knows about one kind and slot. -/
structure Record where
  owner : OwnerId
  rights : Rights
  generation : UInt64
  base : UInt64
  len : UInt64
  live : Bool
  deriving DecidableEq, Repr

/-- Named reasons a capability operation can be refused. -/
inductive CapabilityError where
  | duplicateSlot
  | unknownSlot
  | released
  | wrongKind
  | foreignOwner
  | staleGeneration
  | missingRights
  | rightsEscalation
  | rangeOverflow
  | outOfRange
  | generationOverflow
  deriving DecidableEq, Repr

/-- Dynamic uniqueness ledger. -/
structure CapabilityLedger where
  records : BTreeMap (CapabilityKind × UInt32) Record

namespace CapabilityLedger

def new : CapabilityLedger := ⟨∅⟩

/-- The handle that agrees with a record. -/
def capability (kind : CapabilityKind) (slot : UInt32) (record : Record) : Capability where
  kind := kind
  slot := slot
  owner := record.owner
  rights := record.rights
  generation := record.generation
  base := record.base
  len := record.len

def validateRecord (record : Record) (capability : Capability) : Outcome CapabilityError Unit := do
  rejectIf (record.live = false) CapabilityError.released
  rejectIf (record.owner ≠ capability.owner) CapabilityError.foreignOwner
  rejectIf (record.generation ≠ capability.generation) CapabilityError.staleGeneration
  rejectIf (record.rights ≠ capability.rights ∨ record.base ≠ capability.base ∨
    record.len ≠ capability.len) CapabilityError.outOfRange

def mintRoot (kind : CapabilityKind) (slot : UInt32) (owner : OwnerId) (rights : Rights)
    (base len : UInt64) : Call CapabilityLedger CapabilityError Capability := do
  rejectIf (rights.bits &&& ~~~Rights.all.bits ≠ 0) CapabilityError.rightsEscalation
  rejectIf (checkedAdd base len = none) CapabilityError.rangeOverflow
  rejectIf ((← get).records.contains (kind, slot) = true) CapabilityError.duplicateSlot
  let record : Record := { owner, rights, generation := 0, base, len, live := true }
  modify fun self => { self with records := self.records.insert (kind, slot) record }
  return capability kind slot record

def validate (self : CapabilityLedger) (capability : Capability) (owner : OwnerId)
    (required : Rights) (base len : UInt64) : Outcome CapabilityError Unit := do
  let record ← okOr self.records[(capability.kind, capability.slot)]? CapabilityError.unknownSlot
  rejectIf (record.live = false) CapabilityError.released
  rejectIf (record.generation ≠ capability.generation) CapabilityError.staleGeneration
  rejectIf (record.owner ≠ owner ∨ capability.owner ≠ owner) CapabilityError.foreignOwner
  rejectIf (record.rights ≠ capability.rights ∨ record.rights.contains required = false)
    CapabilityError.missingRights
  rejectIf (record.base ≠ capability.base ∨ record.len ≠ capability.len) CapabilityError.outOfRange
  rejectIf (capability.containsRange base len = false) CapabilityError.outOfRange

def transfer (source : Capability) (newOwner : OwnerId) (newRights : Rights) :
    Call CapabilityLedger CapabilityError Capability := do
  let record ← okOr (← get).records[(source.kind, source.slot)]? CapabilityError.unknownSlot
  validateRecord record source
  rejectIf (record.rights.contains newRights = false) CapabilityError.rightsEscalation
  let generation ← okOr (checkedAdd record.generation 1) CapabilityError.generationOverflow
  let record := { record with generation, owner := newOwner, rights := newRights }
  modify fun self => { self with records := self.records.insert (source.kind, source.slot) record }
  return capability source.kind source.slot record

def release (source : Capability) : Call CapabilityLedger CapabilityError Unit := do
  let record ← okOr (← get).records[(source.kind, source.slot)]? CapabilityError.unknownSlot
  validateRecord record source
  let generation ← okOr (checkedAdd record.generation 1) CapabilityError.generationOverflow
  let record := { record with generation, live := false }
  modify fun self => { self with records := self.records.insert (source.kind, source.slot) record }

/-- A handle agrees with a live record of its slot. -/
def Current (self : CapabilityLedger) (handle : Capability) (record : Record) : Prop :=
  self.records[(handle.kind, handle.slot)]? = some record ∧ record.live = true ∧
    handle = capability handle.kind handle.slot record

theorem validateRecord_eq_ok {record : Record} {handle : Capability} {value : Unit} :
    validateRecord record handle = .ok value ↔
      record.live = true ∧ handle = capability handle.kind handle.slot record := by
  obtain ⟨kind, slot, owner, rights, generation, base, len⟩ := handle
  simp only [validateRecord, bind_eq_ok, rejectIf_eq_ok, capability, Capability.mk.injEq]
  grind

theorem validate_eq_ok {self : CapabilityLedger} {handle : Capability} {owner : OwnerId}
    {required : Rights} {base len : UInt64} {value : Unit} :
    self.validate handle owner required base len = .ok value ↔
      ∃ record, self.Current handle record ∧ record.owner = owner ∧
        record.rights.contains required = true ∧ handle.containsRange base len = true := by
  obtain ⟨kind, slot, handleOwner, rights, generation, handleBase, handleLen⟩ := handle
  simp only [validate, Current, bind_eq_ok, okOr_eq_ok, rejectIf_eq_ok, capability,
    Capability.mk.injEq]
  grind

/-- One call of the ledger's mutating interface. -/
inductive Request where
  | mintRoot (kind : CapabilityKind) (slot : UInt32) (owner : OwnerId) (rights : Rights)
      (base len : UInt64)
  | transfer (handle : Capability) (newOwner : OwnerId) (newRights : Rights)
  | release (handle : Capability)
  deriving DecidableEq, Repr

/-- Perform a request; `mintRoot` and `transfer` return a capability. -/
def perform : Request → Call CapabilityLedger CapabilityError (Option Capability)
  | .mintRoot kind slot owner rights base len => do
      return some (← mintRoot kind slot owner rights base len)
  | .transfer handle newOwner newRights => do
      return some (← transfer handle newOwner newRights)
  | .release handle => do
      release handle
      return none

/-- Everything one request can do to a ledger. -/
inductive Step (before : CapabilityLedger) :
    Request → Outcome CapabilityError (Option Capability) → CapabilityLedger → Prop where
  | rejected (request : Request) (reason : CapabilityError) :
      Step before request (.err reason) before
  | minted {kind slot owner rights base len}
      (absent : before.records[(kind, slot)]? = none)
      (known : Rights.all.contains rights = true)
      (fits : base.toNat + len.toNat < 2 ^ 64) :
      Step before (.mintRoot kind slot owner rights base len)
        (.ok (some (capability kind slot ⟨owner, rights, 0, base, len, true⟩)))
        ⟨before.records.insert (kind, slot) ⟨owner, rights, 0, base, len, true⟩⟩
  | transferred {handle newOwner newRights record generation}
      (current : before.Current handle record)
      (narrowed : record.rights.contains newRights = true)
      (advanced : generation.toNat = record.generation.toNat + 1) :
      Step before (.transfer handle newOwner newRights)
        (.ok (some (capability handle.kind handle.slot
          { record with generation, owner := newOwner, rights := newRights })))
        ⟨before.records.insert (handle.kind, handle.slot)
          { record with generation, owner := newOwner, rights := newRights }⟩
  | released {handle record generation}
      (current : before.Current handle record)
      (advanced : generation.toNat = record.generation.toNat + 1) :
      Step before (.release handle) (.ok none)
        ⟨before.records.insert (handle.kind, handle.slot)
          { record with generation, live := false }⟩

theorem validateRecord_ne_overflow {record : Record} {handle : Capability} :
    validateRecord record handle ≠ .overflow := by
  simp [validateRecord]

/-- Every request takes exactly one of the listed steps. -/
theorem step_perform (before : CapabilityLedger) (request : Request) :
    Step before request (perform request before).1 (perform request before).2 := by
  show Call.Ensures (perform request) (Step before request) before
  cases request with
  | mintRoot kind slot owner rights base len =>
      simp only [perform, mintRoot]
      simp [Step.rejected]
      intro known fits absent
      exact .minted (Std.ExtTreeMap.getElem?_eq_none absent) (Rights.all_contains_iff.mpr known)
        fits
  | transfer handle newOwner newRights =>
      simp only [perform, transfer]
      simp [validateRecord_eq_ok, validateRecord_ne_overflow, Step.rejected]
      intro record present live handle_eq narrowed generation advanced
      exact .transferred ⟨present, live, handle_eq⟩ narrowed advanced
  | release handle =>
      simp only [perform, release]
      simp [validateRecord_eq_ok, validateRecord_ne_overflow, Step.rejected]
      intro record present live handle_eq generation advanced
      exact .released ⟨present, live, handle_eq⟩ advanced

end CapabilityLedger

end Bulla.Kernel
