import Bulla.Kernel.Capability
import Bulla.Rust.History

/-!
# Address spaces

An address space is a map from virtual bases to mappings.  A mapping is made from a frame capability
and covers the first pages of its physical range.  Every change of the map advances the epoch.  User
memory is reached through `translate`, byte by byte.
-/

namespace Bulla.Kernel

open Rust Outcome

inductive PageSize where
  | size4K
  | size2M
  | size1G
  deriving DecidableEq, Repr

def PageSize.bytes : PageSize → UInt64
  | .size4K => 4096
  | .size2M => 2 * 1024 * 1024
  | .size1G => 1024 * 1024 * 1024

/-- Page permissions are a bitset of their own, apart from capability rights. -/
structure PagePermissions where
  bits : UInt8
  deriving DecidableEq, Repr

namespace PagePermissions

def read : PagePermissions := ⟨(1 : UInt8) <<< 0⟩
def write : PagePermissions := ⟨(1 : UInt8) <<< 1⟩
def execute : PagePermissions := ⟨(1 : UInt8) <<< 2⟩
def user : PagePermissions := ⟨(1 : UInt8) <<< 3⟩

def union (self other : PagePermissions) : PagePermissions := ⟨self.bits ||| other.bits⟩

def contains (self other : PagePermissions) : Bool := self.bits &&& other.bits == other.bits

/-- Holding a union is holding both parts. -/
theorem contains_union {self left right : PagePermissions} :
    self.contains (left.union right) = true ↔
      self.contains left = true ∧ self.contains right = true := by
  simp only [contains, union, beq_iff_eq, ← UInt8.toBitVec_inj, UInt8.toBitVec_and,
    UInt8.toBitVec_or]
  constructor
  · intro both
    constructor
    · ext index bound
      have bit := congrArg (fun word => word[index]) both
      simp at bit ⊢
      tauto
    · ext index bound
      have bit := congrArg (fun word => word[index]) both
      simp at bit ⊢
      tauto
  · rintro ⟨left_held, right_held⟩
    ext index bound
    have left_bit := congrArg (fun word => word[index]) left_held
    have right_bit := congrArg (fun word => word[index]) right_held
    simp at left_bit right_bit ⊢
    tauto

end PagePermissions

structure Mapping where
  virtualBase : UInt64
  physicalBase : UInt64
  pageSize : PageSize
  pages : UInt64
  permissions : PagePermissions
  epoch : UInt64
  deriving DecidableEq, Repr

inductive MapError where
  | wrongAddressSpaceCapability
  | wrongFrameCapability
  | missingRights
  | nonCanonical
  | misaligned
  | rangeOverflow
  | outOfRange
  | overlap
  | notMapped
  | epochOverflow
  | emptyPermissions
  | active
  | destroyed
  | userFault
  | windowFull
  | staleGeneration
  | wrongWindowCapability
  deriving DecidableEq, Repr

/-- Bits 47 to 63 of the address agree. -/
def isCanonicalX8664 (address : UInt64) : Bool :=
  let upper := address >>> 48
  let sign := (address >>> 47) &&& 1
  (sign == 0 && upper == 0) || (sign == 1 && upper == 0xffff)

structure AddressSpace where
  /-- Mappings by their virtual base. -/
  mappings : BTreeMap UInt64 Mapping
  epoch : UInt64
  activeCpus : BTreeSet UInt16
  destroyed : Bool

/-- Physical memory as seen by the user copies. -/
structure UserMemory where
  bytes : BTreeMap UInt64 UInt8

def requireSpace (space : Capability) : Outcome MapError Unit := do
  rejectIf (space.kind ≠ .addressSpace) MapError.wrongAddressSpaceCapability
  rejectIf (space.rights.contains Rights.map = false) MapError.missingRights

namespace AddressSpace

def new : AddressSpace := ⟨∅, 0, ∅, false⟩

/-- The overlap test of `map` against one mapping. -/
def overlaps (virtualBase stop : UInt64) (entry : UInt64 × Mapping) : Bool :=
  let mappingBytes := saturatingMul entry.2.pageSize.bytes entry.2.pages
  let mappingEnd := saturatingAdd entry.2.virtualBase mappingBytes
  decide (virtualBase < mappingEnd) && decide (entry.2.virtualBase < stop)

def map (space frames : Capability) (virtualBase : UInt64) (pageSize : PageSize) (pages : UInt64)
    (permissions : PagePermissions) : Call AddressSpace MapError Mapping := do
  rejectIf ((← get).destroyed = true) MapError.destroyed
  rejectIf (space.kind ≠ .addressSpace) MapError.wrongAddressSpaceCapability
  rejectIf (frames.kind ≠ .frame ∧ frames.kind ≠ .physRegion) MapError.wrongFrameCapability
  rejectIf (space.rights.contains Rights.map = false ∨ frames.rights.contains Rights.read = false)
    MapError.missingRights
  rejectIf (isCanonicalX8664 virtualBase = false) MapError.nonCanonical
  rejectIf (pages = 0 ∨ permissions.bits = 0) MapError.emptyPermissions
  let bytes ← okOr (checkedMul pageSize.bytes pages) MapError.rangeOverflow
  rejectIf (virtualBase % pageSize.bytes ≠ 0 ∨ frames.base % pageSize.bytes ≠ 0) MapError.misaligned
  rejectIf (frames.containsRange frames.base bytes = false) MapError.outOfRange
  let stop ← okOr (checkedAdd virtualBase bytes) MapError.rangeOverflow
  rejectIf ((← get).mappings.toList.any (overlaps virtualBase stop) = true) MapError.overlap
  let epoch ← okOr (checkedAdd (← get).epoch 1) MapError.epochOverflow
  modify fun self => { self with epoch }
  let mapping : Mapping :=
    { virtualBase, physicalBase := frames.base, pageSize, pages, permissions, epoch }
  modify fun self => { self with mappings := self.mappings.insert virtualBase mapping }
  return mapping

/-- The mapping is removed before the epoch is advanced. -/
def unmap (virtualBase : UInt64) : Call AddressSpace MapError Mapping := do
  rejectIf ((← get).destroyed = true) MapError.destroyed
  let mapping ← okOr (← get).mappings[virtualBase]? MapError.notMapped
  modify fun self => { self with mappings := self.mappings.erase virtualBase }
  let epoch ← okOr (checkedAdd (← get).epoch 1) MapError.epochOverflow
  modify fun self => { self with epoch }
  return mapping

/-- The epoch is advanced before the mapping is looked up. -/
def protect (space : Capability) (virtualBase : UInt64) (permissions : PagePermissions) :
    Call AddressSpace MapError Mapping := do
  rejectIf ((← get).destroyed = true) MapError.destroyed
  rejectIf (space.kind ≠ .addressSpace) MapError.wrongAddressSpaceCapability
  rejectIf (space.rights.contains Rights.map = false) MapError.missingRights
  rejectIf (permissions.bits = 0) MapError.emptyPermissions
  let epoch ← okOr (checkedAdd (← get).epoch 1) MapError.epochOverflow
  modify fun self => { self with epoch }
  let old ← okOr (← get).mappings[virtualBase]? MapError.notMapped
  let mapping := { old with permissions, epoch }
  modify fun self => { self with mappings := self.mappings.insert virtualBase mapping }
  return mapping

/-- The loop of `translate`. -/
def translateIn (virtualAddress : UInt64) :
    List (UInt64 × Mapping) → Outcome MapError (UInt64 × PagePermissions)
  | [] => .err .notMapped
  | (_, mapping) :: entries => do
      let bytes ← okOr (checkedMul mapping.pageSize.bytes mapping.pages) MapError.rangeOverflow
      let stop ← okOr (checkedAdd mapping.virtualBase bytes) MapError.rangeOverflow
      if mapping.virtualBase ≤ virtualAddress ∧ virtualAddress < stop then
        let offset ← unchecked (checkedSub virtualAddress mapping.virtualBase)
        let physical ← unchecked (checkedAdd mapping.physicalBase offset)
        return (physical, mapping.permissions)
      else
        translateIn virtualAddress entries

def translate (self : AddressSpace) (virtualAddress : UInt64) :
    Outcome MapError (UInt64 × PagePermissions) := do
  rejectIf (self.destroyed = true) MapError.destroyed
  rejectIf (isCanonicalX8664 virtualAddress = false) MapError.nonCanonical
  translateIn virtualAddress self.mappings.toList

def activate (space : Capability) (cpu : UInt16) : Call AddressSpace MapError Unit := do
  requireSpace space
  rejectIf ((← get).destroyed = true) MapError.destroyed
  modify fun self => { self with activeCpus := self.activeCpus.insert cpu }

def deactivate (space : Capability) (cpu : UInt16) : Call AddressSpace MapError Unit := do
  requireSpace space
  rejectIf ((← get).activeCpus.contains cpu = false) MapError.notMapped
  modify fun self => { self with activeCpus := self.activeCpus.erase cpu }

def destroy (space : Capability) : Call AddressSpace MapError Unit := do
  requireSpace space
  rejectIf ((← get).activeCpus.isEmpty = false ∨ (← get).mappings.isEmpty = false) MapError.active
  modify fun self => { self with destroyed := true }

/-- Translate one byte of a user range and test its permissions. -/
def validateUserByte (self : AddressSpace) (start : UInt64) (right : PagePermissions)
    (offset : ℕ) : Outcome MapError UInt64 := do
  let virtualAddress ← okOr (checkedAdd start (UInt64.ofNat offset)) MapError.rangeOverflow
  let found ← self.translate virtualAddress
  rejectIf (found.2.contains (PagePermissions.user.union right) = false) MapError.userFault
  return found.1

/-- The physical addresses of a user range. -/
def validateUserRange (self : AddressSpace) (start : UInt64) (len : ℕ) (right : PagePermissions) :
    Outcome MapError (List UInt64) :=
  (List.range len).mapM (self.validateUserByte start right)

/-- The bytes read; the caller's buffer is overwritten only when all of them are there. -/
def copyFromUser (self : AddressSpace) (memory : UserMemory) (userAddress : UInt64) (len : ℕ) :
    Outcome MapError (List UInt8) := do
  let addresses ← self.validateUserRange userAddress len PagePermissions.read
  addresses.mapM fun physical => okOr memory.bytes[physical]? MapError.userFault

/-- The whole range is validated before the first write. -/
def copyToUser (self : AddressSpace) (userAddress : UInt64) (input : List UInt8) :
    Call UserMemory MapError Unit := do
  let addresses ← self.validateUserRange userAddress input.length PagePermissions.write
  modify fun memory =>
    ⟨(addresses.zip input).foldl (fun bytes write => bytes.insert write.1 write.2) memory.bytes⟩

/-- One call of the mutating interface. -/
inductive Request where
  | map (space frames : Capability) (virtualBase : UInt64) (pageSize : PageSize) (pages : UInt64)
      (permissions : PagePermissions)
  | unmap (virtualBase : UInt64)
  | protect (space : Capability) (virtualBase : UInt64) (permissions : PagePermissions)
  | activate (space : Capability) (cpu : UInt16)
  | deactivate (space : Capability) (cpu : UInt16)
  | destroy (space : Capability)
  deriving DecidableEq, Repr

/-- The mapping a successful call returns, if it returns one. -/
def perform : Request → Call AddressSpace MapError (Option Mapping)
  | .map space frames virtualBase pageSize pages permissions =>
      return some (← map space frames virtualBase pageSize pages permissions)
  | .unmap virtualBase => return some (← unmap virtualBase)
  | .protect space virtualBase permissions => return some (← protect space virtualBase permissions)
  | .activate space cpu => do
      activate space cpu
      return none
  | .deactivate space cpu => do
      deactivate space cpu
      return none
  | .destroy space => do
      destroy space
      return none

/-- What `map` has checked when it inserts a mapping. -/
structure Mappable (before : AddressSpace) (space frames : Capability) (virtualBase : UInt64)
    (pageSize : PageSize) (pages : UInt64) (permissions : PagePermissions) : Prop where
  alive : before.destroyed = false
  frame_kind : frames.kind = .frame ∨ frames.kind = .physRegion
  readable : frames.rights.contains Rights.read = true
  positive : pages ≠ 0
  permitted : permissions.bits ≠ 0
  virtual_aligned : virtualBase % pageSize.bytes = 0
  physical_aligned : frames.base % pageSize.bytes = 0
  bounded : virtualBase.toNat + pageSize.bytes.toNat * pages.toNat < 2 ^ 64
  frame_bounded : frames.base.toNat + frames.len.toNat < 2 ^ 64
  fits : pageSize.bytes.toNat * pages.toNat ≤ frames.len.toNat
  clear : ∃ stop : UInt64,
    stop.toNat = virtualBase.toNat + pageSize.bytes.toNat * pages.toNat ∧
    ∀ (key : UInt64) (other : Mapping), before.mappings[key]? = some other →
      overlaps virtualBase stop (key, other) = false

/-- The effect of each way a call can end. -/
inductive Step (before : AddressSpace) :
    Request → Outcome MapError (Option Mapping) → AddressSpace → Prop
  | rejected (request : Request) (reason : MapError) : Step before request (.err reason) before
  | mapped {space frames : Capability} {virtualBase pages epoch : UInt64} {pageSize : PageSize}
      {permissions : PagePermissions}
      (mappable : Mappable before space frames virtualBase pageSize pages permissions)
      (advanced : epoch.toNat = before.epoch.toNat + 1) :
      Step before (.map space frames virtualBase pageSize pages permissions)
        (.ok (some ⟨virtualBase, frames.base, pageSize, pages, permissions, epoch⟩))
        { before with
          epoch
          mappings := before.mappings.insert virtualBase
            ⟨virtualBase, frames.base, pageSize, pages, permissions, epoch⟩ }
  | unmapped {virtualBase epoch : UInt64} {mapping : Mapping}
      (alive : before.destroyed = false)
      (present : before.mappings[virtualBase]? = some mapping)
      (advanced : epoch.toNat = before.epoch.toNat + 1) :
      Step before (.unmap virtualBase) (.ok (some mapping))
        { before with mappings := before.mappings.erase virtualBase, epoch }
  | unmapExhausted {virtualBase : UInt64} {mapping : Mapping}
      (alive : before.destroyed = false)
      (present : before.mappings[virtualBase]? = some mapping)
      (exhausted : 2 ^ 64 ≤ before.epoch.toNat + 1) :
      Step before (.unmap virtualBase) (.err .epochOverflow)
        { before with mappings := before.mappings.erase virtualBase }
  | reprotected {space : Capability} {virtualBase epoch : UInt64} {old : Mapping}
      {permissions : PagePermissions}
      (alive : before.destroyed = false)
      (permitted : permissions.bits ≠ 0)
      (present : before.mappings[virtualBase]? = some old)
      (advanced : epoch.toNat = before.epoch.toNat + 1) :
      Step before (.protect space virtualBase permissions)
        (.ok (some { old with permissions, epoch }))
        { before with
          epoch
          mappings := before.mappings.insert virtualBase { old with permissions, epoch } }
  | protectMissed {space : Capability} {virtualBase epoch : UInt64} {permissions : PagePermissions}
      (alive : before.destroyed = false)
      (absent : before.mappings[virtualBase]? = none)
      (advanced : epoch.toNat = before.epoch.toNat + 1) :
      Step before (.protect space virtualBase permissions) (.err .notMapped) { before with epoch }
  | activated {space : Capability} {cpu : UInt16} (alive : before.destroyed = false) :
      Step before (.activate space cpu) (.ok none)
        { before with activeCpus := before.activeCpus.insert cpu }
  | deactivated {space : Capability} {cpu : UInt16} (active : cpu ∈ before.activeCpus) :
      Step before (.deactivate space cpu) (.ok none)
        { before with activeCpus := before.activeCpus.erase cpu }
  | destroyed {space : Capability} (inactive : before.activeCpus = ∅)
      (unmapped : before.mappings = ∅) :
      Step before (.destroy space) (.ok none) { before with destroyed := true }

theorem requireSpace_ne_overflow {space : Capability} : requireSpace space ≠ .overflow := by
  simp [requireSpace]

/-- Every call is one of the steps. -/
theorem step_perform (request : Request) (before : AddressSpace) :
    Step before request (perform request before).1 (perform request before).2 := by
  show Call.Ensures (perform request) (Step before request) before
  cases request with
  | map space frames virtualBase pageSize pages permissions =>
      simp only [perform, map]
      simp [Step.rejected]
      intro alive _ frame_kind _ readable _ positive permitted bytes bytes_eq virtual_aligned
        physical_aligned contained stop stop_eq clear epoch advanced
      obtain ⟨frame_bounded, _, fits⟩ := Capability.containsRange_iff.mp contained
      have stop_lt := stop.toNat_lt
      refine .mapped ⟨alive, ?_, readable, positive, permitted, virtual_aligned,
        physical_aligned, by omega, frame_bounded, by omega, stop, by omega, clear⟩ advanced
      exact or_iff_not_imp_left.mpr frame_kind
  | unmap virtualBase =>
      simp only [perform, unmap]
      simp [Step.rejected]
      intro alive mapping present
      refine ⟨fun epoch advanced => .unmapped alive present advanced, fun exhausted => ?_⟩
      exact .unmapExhausted alive present (by omega)
  | protect space virtualBase permissions =>
      simp only [perform, protect]
      simp [Step.rejected]
      intro alive _ _ permitted epoch advanced
      refine ⟨fun old present => .reprotected alive permitted present advanced, fun absent => ?_⟩
      exact .protectMissed alive (Std.ExtTreeMap.getElem?_eq_none absent) advanced
  | activate space cpu =>
      simp only [perform, activate]
      simp [requireSpace_ne_overflow, Step.rejected]
      intro _ _ alive
      exact .activated alive
  | deactivate space cpu =>
      simp only [perform, deactivate]
      simp [requireSpace_ne_overflow, Step.rejected]
      intro _ _ active
      exact .deactivated active
  | destroy space =>
      simp only [perform, destroy]
      simp [requireSpace_ne_overflow, Step.rejected]
      intro _ _ inactive unmapped
      exact .destroyed inactive unmapped

end AddressSpace

end Bulla.Kernel
