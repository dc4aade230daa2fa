import Bulla.Kernel.Capability
import Bulla.Rust.History

/-!
# DMA pinning and IOMMU domains

Memory is pinned in a slot for one device and one domain, made visible to the device through a
registered domain, and handed back and forth between CPU and device.  A slot counts a generation for
every pin it has released.
-/

namespace Bulla.Kernel

open Rust Outcome

inductive DmaDirection where
  | toDevice
  | fromDevice
  | bidirectional
  deriving DecidableEq, Repr

inductive DmaOwnership where
  | cpu
  | device
  deriving DecidableEq, Repr

structure DmaMapping where
  device : UInt32
  domain : UInt32
  base : UInt64
  len : UInt64
  direction : DmaDirection
  generation : UInt64
  ownership : DmaOwnership
  deriving DecidableEq, Repr

structure DmaPin where
  slot : UInt32
  device : UInt32
  domain : UInt32
  base : UInt64
  len : UInt64
  direction : DmaDirection
  deriving DecidableEq, Repr

inductive DmaError where
  | wrongCapability
  | missingRights
  | outOfRange
  | duplicateMapping
  | unknownMapping
  | staleGeneration
  | foreignDevice
  | foreignDomain
  | generationOverflow
  | zeroLength
  | wrongOwnership
  | duplicateDomain
  | unknownDomain
  | domainCapability
  | iommuRequired
  | alreadyMapped
  | notMapped
  | segmentOverflow
  deriving DecidableEq, Repr

inductive IommuMode where
  | absentIdentity
  | present
  deriving DecidableEq, Repr

structure IommuDomain where
  id : UInt32
  device : UInt32
  apertureBase : UInt64
  apertureLen : UInt64
  mode : IommuMode
  deriving DecidableEq, Repr

structure DmaSegment where
  deviceAddress : UInt64
  len : UInt64
  deriving DecidableEq, Repr

structure DmaState where
  /-- Pinned memory by slot. -/
  mappings : BTreeMap UInt32 DmaMapping
  /-- Generation of the next pin in a slot. -/
  generations : BTreeMap UInt32 UInt64
  domains : BTreeMap UInt32 IommuDomain
  /-- What the device sees of a slot. -/
  segments : BTreeMap UInt32 (List DmaSegment)

namespace DmaState

def new : DmaState := ⟨∅, ∅, ∅, ∅⟩

def pin (region : Capability) (request : DmaPin) : Call DmaState DmaError DmaMapping := do
  rejectIf (region.kind ≠ .dma ∧ region.kind ≠ .frame ∧ region.kind ≠ .physRegion)
    DmaError.wrongCapability
  rejectIf (region.rights.contains (Rights.read.union Rights.write) = false) DmaError.missingRights
  rejectIf (request.len = 0) DmaError.zeroLength
  rejectIf (region.containsRange request.base request.len = false) DmaError.outOfRange
  rejectIf ((← get).mappings.contains request.slot = true) DmaError.duplicateMapping
  let generation := ((← get).generations[request.slot]?).getD 0
  let mapping : DmaMapping :=
    { device := request.device, domain := request.domain, base := request.base, len := request.len,
      direction := request.direction, generation, ownership := .cpu }
  modify fun self => { self with mappings := self.mappings.insert request.slot mapping }
  return mapping

/-- The record is written even when the identifier is already taken. -/
def registerDomain (domain : IommuDomain) : Call DmaState DmaError Unit := do
  rejectIf (domain.apertureLen = 0 ∨ checkedAdd domain.apertureBase domain.apertureLen = none)
    DmaError.segmentOverflow
  let known := (← get).domains.contains domain.id
  modify fun self => { self with domains := self.domains.insert domain.id domain }
  rejectIf (known = true) DmaError.duplicateDomain

/-- The part of `map_domain` that depends on the mode of the domain. -/
def checkMode (domain : IommuDomain) (mapping : DmaMapping) (domainCapability : Option Capability)
    (deviceAddress : UInt64) : Outcome DmaError Unit :=
  match domain.mode with
  | .absentIdentity =>
      rejectIf (domainCapability.isSome = true ∨ deviceAddress ≠ mapping.base)
        DmaError.iommuRequired
  | .present => do
      let capability ← okOr domainCapability DmaError.domainCapability
      rejectIf (capability.kind ≠ .iommuDomain ∨ capability.rights.contains Rights.map = false ∨
        capability.slot ≠ domain.id) DmaError.domainCapability
      let stop ← okOr (checkedAdd deviceAddress mapping.len) DmaError.segmentOverflow
      let apertureEnd ← okOr (checkedAdd domain.apertureBase domain.apertureLen)
        DmaError.segmentOverflow
      rejectIf (deviceAddress < domain.apertureBase ∨ apertureEnd < stop) DmaError.outOfRange

def mapDomain (slot : UInt32) (mapping : DmaMapping) (domainCapability : Option Capability)
    (deviceAddress : UInt64) : Call DmaState DmaError (List DmaSegment) := do
  let live ← okOr (← get).mappings[slot]? DmaError.unknownMapping
  rejectIf (live.generation ≠ mapping.generation) DmaError.staleGeneration
  rejectIf ((← get).segments.contains slot = true) DmaError.alreadyMapped
  let domain ← okOr (← get).domains[mapping.domain]? DmaError.unknownDomain
  rejectIf (domain.device ≠ mapping.device) DmaError.foreignDevice
  checkMode domain mapping domainCapability deviceAddress
  let segments : List DmaSegment := [{ deviceAddress, len := mapping.len }]
  modify fun self => { self with segments := self.segments.insert slot segments }
  return segments

def unmapDomain (slot : UInt32) (mapping : DmaMapping) :
    Call DmaState DmaError (List DmaSegment) := do
  let live ← okOr (← get).mappings[slot]? DmaError.unknownMapping
  rejectIf (live.generation ≠ mapping.generation) DmaError.staleGeneration
  rejectIf (live.ownership ≠ .cpu) DmaError.wrongOwnership
  let segments ← okOr (← get).segments[slot]? DmaError.notMapped
  modify fun self => { self with segments := self.segments.erase slot }
  return segments

/-- The comparison of a handle with its slot that `map_domain` does not make. -/
def validate (self : DmaState) (slot : UInt32) (mapping : DmaMapping) (device domain : UInt32) :
    Outcome DmaError Unit := do
  let live ← okOr self.mappings[slot]? DmaError.unknownMapping
  rejectIf (live.generation ≠ mapping.generation) DmaError.staleGeneration
  rejectIf (live.device ≠ device ∨ mapping.device ≠ device) DmaError.foreignDevice
  rejectIf (live.domain ≠ domain ∨ mapping.domain ≠ domain) DmaError.foreignDomain

def unpin (slot : UInt32) (mapping : DmaMapping) : Call DmaState DmaError Unit := do
  let live ← okOr (← get).mappings[slot]? DmaError.unknownMapping
  rejectIf (live.generation ≠ mapping.generation) DmaError.staleGeneration
  rejectIf (live.ownership ≠ .cpu) DmaError.wrongOwnership
  rejectIf ((← get).segments.contains slot = true) DmaError.alreadyMapped
  let next ← okOr (checkedAdd live.generation 1) DmaError.generationOverflow
  modify fun self => { self with mappings := self.mappings.erase slot }
  modify fun self => { self with generations := self.generations.insert slot next }

def transitionOwnership (slot : UInt32) (mapping : DmaMapping) (expected next : DmaOwnership) :
    Call DmaState DmaError DmaMapping := do
  let live ← okOr (← get).mappings[slot]? DmaError.unknownMapping
  rejectIf (live.generation ≠ mapping.generation) DmaError.staleGeneration
  rejectIf (live.ownership ≠ expected ∨ mapping.ownership ≠ expected) DmaError.wrongOwnership
  let moved := { live with ownership := next }
  modify fun self => { self with mappings := self.mappings.insert slot moved }
  return moved

def syncForDevice (slot : UInt32) (mapping : DmaMapping) : Call DmaState DmaError DmaMapping :=
  transitionOwnership slot mapping .cpu .device

def syncForCpu (slot : UInt32) (mapping : DmaMapping) : Call DmaState DmaError DmaMapping :=
  transitionOwnership slot mapping .device .cpu

/-- One call of the mutating interface. -/
inductive Request where
  | pin (region : Capability) (request : DmaPin)
  | registerDomain (domain : IommuDomain)
  | mapDomain (slot : UInt32) (mapping : DmaMapping) (domainCapability : Option Capability)
      (deviceAddress : UInt64)
  | unmapDomain (slot : UInt32) (mapping : DmaMapping)
  | unpin (slot : UInt32) (mapping : DmaMapping)
  | syncForDevice (slot : UInt32) (mapping : DmaMapping)
  | syncForCpu (slot : UInt32) (mapping : DmaMapping)
  deriving DecidableEq, Repr

/-- What a successful call returns. -/
inductive Reply where
  | done
  | mapping (mapping : DmaMapping)
  | segments (segments : List DmaSegment)
  deriving DecidableEq, Repr

def perform : Request → Call DmaState DmaError Reply
  | .pin region request => return .mapping (← pin region request)
  | .registerDomain domain => do
      registerDomain domain
      return .done
  | .mapDomain slot mapping domainCapability deviceAddress =>
      return .segments (← mapDomain slot mapping domainCapability deviceAddress)
  | .unmapDomain slot mapping => return .segments (← unmapDomain slot mapping)
  | .unpin slot mapping => do
      unpin slot mapping
      return .done
  | .syncForDevice slot mapping => return .mapping (← syncForDevice slot mapping)
  | .syncForCpu slot mapping => return .mapping (← syncForCpu slot mapping)

/-- What `map_domain` has checked when it makes memory visible. -/
structure Visible (before : DmaState) (slot : UInt32) (mapping : DmaMapping)
    (domainCapability : Option Capability) (deviceAddress : UInt64) (live : DmaMapping)
    (domain : IommuDomain) : Prop where
  pinned : before.mappings[slot]? = some live
  generation_eq : live.generation = mapping.generation
  unmapped : before.segments[slot]? = none
  registered : before.domains[mapping.domain]? = some domain
  device_eq : domain.device = mapping.device
  mode_ok : checkMode domain mapping domainCapability deviceAddress = .ok ()

/-- The effect of each way a call can end. -/
inductive Step (before : DmaState) : Request → Outcome DmaError Reply → DmaState → Prop
  | rejected (request : Request) (reason : DmaError) : Step before request (.err reason) before
  | pinned {region : Capability} {request : DmaPin} {mapping : DmaMapping}
      (contained : region.containsRange request.base request.len = true)
      (vacant : before.mappings[request.slot]? = none)
      (mapping_eq : mapping =
        { device := request.device, domain := request.domain, base := request.base,
          len := request.len, direction := request.direction,
          generation := (before.generations[request.slot]?).getD 0, ownership := .cpu }) :
      Step before (.pin region request) (.ok (.mapping mapping))
        { before with mappings := before.mappings.insert request.slot mapping }
  | registered {domain : IommuDomain}
      (bounded : domain.apertureBase.toNat + domain.apertureLen.toNat < 2 ^ 64)
      (unknown : domain.id ∉ before.domains) :
      Step before (.registerDomain domain) (.ok .done)
        { before with domains := before.domains.insert domain.id domain }
  | overwritten {domain : IommuDomain}
      (bounded : domain.apertureBase.toNat + domain.apertureLen.toNat < 2 ^ 64)
      (known : domain.id ∈ before.domains) :
      Step before (.registerDomain domain) (.err .duplicateDomain)
        { before with domains := before.domains.insert domain.id domain }
  | mapped {slot : UInt32} {mapping live : DmaMapping} {domainCapability : Option Capability}
      {deviceAddress : UInt64} {domain : IommuDomain}
      (visible : Visible before slot mapping domainCapability deviceAddress live domain) :
      Step before (.mapDomain slot mapping domainCapability deviceAddress)
        (.ok (.segments [⟨deviceAddress, mapping.len⟩]))
        { before with segments := before.segments.insert slot [⟨deviceAddress, mapping.len⟩] }
  | unmapped {slot : UInt32} {mapping live : DmaMapping} {segments : List DmaSegment}
      (present : before.mappings[slot]? = some live)
      (generation : live.generation = mapping.generation)
      (ownership : live.ownership = .cpu)
      (visible : before.segments[slot]? = some segments) :
      Step before (.unmapDomain slot mapping) (.ok (.segments segments))
        { before with segments := before.segments.erase slot }
  | unpinned {slot : UInt32} {mapping live : DmaMapping} {next : UInt64}
      (present : before.mappings[slot]? = some live)
      (generation : live.generation = mapping.generation)
      (ownership : live.ownership = .cpu)
      (invisible : before.segments[slot]? = none)
      (advanced : next.toNat = live.generation.toNat + 1) :
      Step before (.unpin slot mapping) (.ok .done)
        { before with
          mappings := before.mappings.erase slot
          generations := before.generations.insert slot next }
  | toDevice {slot : UInt32} {mapping live : DmaMapping}
      (present : before.mappings[slot]? = some live)
      (generation : live.generation = mapping.generation)
      (ownership : live.ownership = .cpu) (handle_ownership : mapping.ownership = .cpu) :
      Step before (.syncForDevice slot mapping) (.ok (.mapping { live with ownership := .device }))
        { before with mappings := before.mappings.insert slot { live with ownership := .device } }
  | toCpu {slot : UInt32} {mapping live : DmaMapping}
      (present : before.mappings[slot]? = some live)
      (generation : live.generation = mapping.generation)
      (ownership : live.ownership = .device) (handle_ownership : mapping.ownership = .device) :
      Step before (.syncForCpu slot mapping) (.ok (.mapping { live with ownership := .cpu }))
        { before with mappings := before.mappings.insert slot { live with ownership := .cpu } }

theorem checkMode_ne_overflow {domain : IommuDomain} {mapping : DmaMapping}
    {domainCapability : Option Capability} {deviceAddress : UInt64} :
    checkMode domain mapping domainCapability deviceAddress ≠ .overflow := by
  unfold checkMode
  split <;> simp

/-- Every call is one of the steps. -/
theorem step_perform (request : Request) (before : DmaState) :
    Step before request (perform request before).1 (perform request before).2 := by
  show Call.Ensures (perform request) (Step before request) before
  cases request with
  | pin region request =>
      simp only [perform, pin]
      simp [Step.rejected]
      intro _ _ _ contained vacant
      exact .pinned contained (Std.ExtTreeMap.getElem?_eq_none vacant) rfl
  | registerDomain domain =>
      simp only [perform, registerDomain]
      simp [Step.rejected]
      intro _ bounded
      exact ⟨.registered bounded, .overwritten bounded⟩
  | mapDomain slot mapping domainCapability deviceAddress =>
      simp only [perform, mapDomain]
      simp [checkMode_ne_overflow, Step.rejected]
      intro live pinned generation_eq unmapped domain registered device_eq _ mode_ok
      exact .mapped ⟨pinned, generation_eq, Std.ExtTreeMap.getElem?_eq_none unmapped, registered,
        device_eq, mode_ok⟩
  | unmapDomain slot mapping =>
      simp only [perform, unmapDomain]
      simp [Step.rejected]
      intro live present generation ownership segments visible
      exact .unmapped present generation ownership visible
  | unpin slot mapping =>
      simp only [perform, unpin]
      simp [Step.rejected]
      intro live present generation ownership invisible next advanced
      exact .unpinned present generation ownership
        (Std.ExtTreeMap.getElem?_eq_none invisible) advanced
  | syncForDevice slot mapping =>
      simp only [perform, syncForDevice, transitionOwnership]
      simp [Step.rejected]
      intro live present generation ownership handle_ownership
      exact .toDevice present generation ownership handle_ownership
  | syncForCpu slot mapping =>
      simp only [perform, syncForCpu, transitionOwnership]
      simp [Step.rejected]
      intro live present generation ownership handle_ownership
      exact .toCpu present generation ownership handle_ownership

end DmaState

end Bulla.Kernel
