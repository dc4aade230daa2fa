import Bulla.Kernel.Dma
import Bulla.Kernel.Memory
import Bulla.Kernel.Smp

/-!
# Events and actions

An action is a privileged operation as data.  A table gives the capability kind, the rights and the
range that each action demands, and the executor authorizes an action only for a capability that the
ledger accepts for all three.  The sequencer numbers the events that reach the kernel and the
actions that leave it; the completion of an action comes back as an event correlated with it.
-/

namespace Bulla.Kernel

open Rust Outcome

inductive Action where
  | startCpu (cpu : CpuId)
  | sendIpi (targets : CpuSet) (vector : UInt8) (epoch : UInt64)
  | tlbShootdown (targets : CpuSet) (epoch virtualBase len : UInt64)
  | ackIrq (vector : UInt8)
  | maskIrq (vector : UInt8)
  | unmaskIrq (vector : UInt8)
  | map (virtualBase : UInt64) (pageSize : PageSize) (pages : UInt64)
      (permissions : PagePermissions)
  | unmap (virtualBase : UInt64)
  | protect (virtualBase : UInt64) (permissions : PagePermissions)
  | mmioRead (address : UInt64) (width : UInt8)
  | mmioWrite (address : UInt64) (width : UInt8) (value : UInt64)
  | pioRead (port : UInt16) (width : UInt8)
  | pioWrite (port : UInt16) (width : UInt8) (value : UInt32)
  | submitDma (slot : UInt32)
  | armTimer (deadline : UInt64)
  | cancelTimer
  | enqueueTask (task : UInt32) (cpu : CpuId)
  | enterContext (context : UInt32)
  | reboot
  | powerOff
  | halt

inductive PlatformError where
  | capability (reason : CapabilityError)
  | atomic
  | smp (reason : SmpError)
  | memory (reason : MapError)
  | dma (reason : DmaError)
  | invalidEventId
  | invalidCorrelation
  | invalidPayload
  | terminal
  | rangeOverflow
  | invalidWidth
  | unknownCpu
  | unownedVector
  | unownedDmaSlot
  | invalidTrapOrigin
  deriving DecidableEq, Repr

def validateAction : Action → Outcome PlatformError Unit
  | .tlbShootdown _ _ virtualBase len => do
      rejectIf (len = 0) PlatformError.invalidPayload
      rejectIf (checkedAdd virtualBase len = none) PlatformError.rangeOverflow
  | .mmioRead _ width => rejectIf (width ∉ [1, 2, 4, 8]) PlatformError.invalidWidth
  | .mmioWrite _ width _ => rejectIf (width ∉ [1, 2, 4, 8]) PlatformError.invalidWidth
  | .pioRead _ width => rejectIf (width ∉ [1, 2, 4]) PlatformError.invalidWidth
  | .pioWrite _ width _ => rejectIf (width ∉ [1, 2, 4]) PlatformError.invalidWidth
  | _ => .ok ()

/-- What an action demands of the capability it is authorized by. -/
structure ActionAuthority where
  kind : CapabilityKind
  rights : Rights
  base : UInt64
  len : UInt64
  deriving DecidableEq, Repr

def actionAuthority : Action → Outcome PlatformError ActionAuthority
  | .startCpu cpu => .ok ⟨.cpu, Rights.control, cpu.toUInt64, 1⟩
  | .sendIpi _ _ _ => .ok ⟨.cpuSet, Rights.control, 0, 0⟩
  | .tlbShootdown _ _ _ _ => .ok ⟨.cpuSet, Rights.control, 0, 0⟩
  | .ackIrq vector => .ok ⟨.irq, Rights.control, vector.toUInt64, 1⟩
  | .maskIrq vector => .ok ⟨.irq, Rights.control, vector.toUInt64, 1⟩
  | .unmaskIrq vector => .ok ⟨.irq, Rights.control, vector.toUInt64, 1⟩
  | .map virtualBase pageSize pages _ => do
      let bytes ← okOr (checkedMul pageSize.bytes pages) PlatformError.rangeOverflow
      .ok ⟨.addressSpace, Rights.map, virtualBase, bytes⟩
  | .unmap virtualBase => .ok ⟨.addressSpace, Rights.map, virtualBase, 1⟩
  | .protect virtualBase _ => .ok ⟨.addressSpace, Rights.map, virtualBase, 1⟩
  | .mmioRead address width => .ok ⟨.mmio, Rights.read, address, width.toUInt64⟩
  | .mmioWrite address width _ => .ok ⟨.mmio, Rights.write, address, width.toUInt64⟩
  | .pioRead port width => .ok ⟨.ioPort, Rights.read, port.toUInt64, width.toUInt64⟩
  | .pioWrite port width _ => .ok ⟨.ioPort, Rights.write, port.toUInt64, width.toUInt64⟩
  | .submitDma slot => .ok ⟨.dma, Rights.control, slot.toUInt64, 1⟩
  | .armTimer _ => .ok ⟨.clock, Rights.control, 0, 0⟩
  | .cancelTimer => .ok ⟨.clock, Rights.control, 0, 0⟩
  | .enqueueTask _ cpu => .ok ⟨.cpu, Rights.control, cpu.toUInt64, 1⟩
  | .enterContext context => .ok ⟨.userContext, Rights.control, context.toUInt64, 1⟩
  | .reboot => .ok ⟨.power, Rights.control, 0, 0⟩
  | .powerOff => .ok ⟨.power, Rights.control, 0, 0⟩
  | .halt => .ok ⟨.power, Rights.control, 0, 0⟩

structure AuthorizedAction where
  action : Action
  capabilitySlot : UInt32
  capabilityGeneration : UInt64

namespace ActionExecutor

def authorize (ledger : CapabilityLedger) (owner : OwnerId) (capability : Capability)
    (action : Action) : Outcome PlatformError AuthorizedAction := do
  validateAction action
  let authority ← actionAuthority action
  rejectIf (capability.kind ≠ authority.kind)
    (PlatformError.capability CapabilityError.wrongKind)
  (ledger.validate capability owner authority.rights authority.base authority.len).mapErr
    PlatformError.capability
  return {
    action, capabilitySlot := capability.slot, capabilityGeneration := capability.generation }

/-- An authorized action is valid, and the ledger accepts the capability for all it demands. -/
theorem authorize_eq_ok {ledger : CapabilityLedger} {owner : OwnerId} {capability : Capability}
    {action : Action} {authorized : AuthorizedAction} :
    authorize ledger owner capability action = .ok authorized ↔
      validateAction action = .ok () ∧
      (∃ authority, actionAuthority action = .ok authority ∧ capability.kind = authority.kind ∧
        ledger.validate capability owner authority.rights authority.base authority.len = .ok ()) ∧
      authorized = ⟨action, capability.slot, capability.generation⟩ := by
  simp only [authorize, bind_eq_ok, rejectIf_eq_ok, mapErr_eq_ok, pure_eq, ok.injEq, not_not]
  constructor
  · rintro ⟨_, valid, authority, authority_eq, _, kind_eq, _, accepted, rfl⟩
    exact ⟨valid, ⟨authority, authority_eq, kind_eq, accepted⟩, rfl⟩
  · rintro ⟨valid, ⟨authority, authority_eq, kind_eq, accepted⟩, rfl⟩
    exact ⟨(), valid, authority, authority_eq, (), kind_eq, (), accepted, rfl⟩

end ActionExecutor

abbrev EventId : Type := UInt64

abbrev ActionId : Type := UInt64

inductive EventKind where
  | boot
  | cpuOnline
  | cpuStartFailed (reason : CpuFailure)
  | irq (vector : UInt8)
  | timer
  | ipi (vector : UInt8) (epoch : UInt64)
  | dmaComplete (slot : UInt32)
  | syscall (number : UInt64)
  | userFault (address : UInt64) (code : UInt32)
  | deviceFault (device code : UInt32)
  | actionComplete
  | shutdownRequest
  deriving DecidableEq, Repr

structure IssuedAction where
  id : ActionId
  action : Action

structure Completion where
  action : ActionId
  event : EventId
  result : Except PlatformError Unit

def platformErrorCode : PlatformError → UInt32
  | .capability _ => 1
  | .atomic => 2
  | .smp _ => 3
  | .memory _ => 4
  | .dma _ => 5
  | .invalidEventId => 6
  | .invalidCorrelation => 7
  | .invalidPayload => 8
  | .terminal => 9
  | .rangeOverflow => 10
  | .invalidWidth => 11
  | .unknownCpu => 12
  | .unownedVector => 13
  | .unownedDmaSlot => 14
  | .invalidTrapOrigin => 15

/-- The event that reports how an action ended. -/
def completionKind : Action → Except PlatformError Unit → EventKind
  | _, .error reason => .deviceFault 0 (platformErrorCode reason)
  | .startCpu _, .ok () => .cpuOnline
  | .sendIpi _ vector epoch, .ok () => .ipi vector epoch
  | .submitDma slot, .ok () => .dmaComplete slot
  | .armTimer _, .ok () => .timer
  | .cancelTimer, .ok () => .timer
  | .reboot, .ok () => .shutdownRequest
  | .powerOff, .ok () => .shutdownRequest
  | .halt, .ok () => .shutdownRequest
  | _, .ok () => .actionComplete

structure EventSequencer where
  nextEvent : EventId
  nextAction : ActionId
  /-- The configured topology, if there is one. -/
  online : Option CpuSet
  irqOwners : BTreeMap UInt8 CpuId
  dmaSlots : BTreeSet UInt32
  maxSyscall : UInt64

namespace EventSequencer

structure Event where
  cpu : CpuId
  id : EventId
  correlation : Option ActionId
  kind : EventKind
  deriving DecidableEq, Repr

def new : EventSequencer := ⟨1, 1, none, ∅, ∅, 0⟩

def withTopology (online : CpuSet) (maxSyscall : UInt64) : EventSequencer :=
  { new with online := some online, maxSyscall }

/-- The processor is outside the configured topology. -/
def excludes (self : EventSequencer) (cpu : CpuId) : Bool :=
  self.online.any fun online => !online.contains cpu

def assignIrq (vector : UInt8) (cpu : CpuId) : Call EventSequencer PlatformError Unit := do
  rejectIf (vector < 32 ∨ (← get).excludes cpu = true) PlatformError.unownedVector
  let replaced := (← get).irqOwners[vector]?
  modify fun self => { self with irqOwners := self.irqOwners.insert vector cpu }
  rejectIf (replaced.isSome = true) PlatformError.unownedVector

def allowDmaSlot (slot : UInt32) : Call EventSequencer PlatformError Unit := do
  rejectIf ((← get).dmaSlots.contains slot = true) PlatformError.unownedDmaSlot
  modify fun self => { self with dmaSlots := self.dmaSlots.insert slot }

/-- The payload checks of `ingress`. -/
def validateKind (self : EventSequencer) (cpu : CpuId) : EventKind → Outcome PlatformError Unit
  | .irq vector =>
      rejectIf (vector < 32 ∨ self.irqOwners[vector]? ≠ some cpu) PlatformError.unownedVector
  | .ipi vector epoch => rejectIf (vector < 32 ∨ epoch = 0) PlatformError.invalidPayload
  | .dmaComplete slot =>
      rejectIf (self.dmaSlots.contains slot = false) PlatformError.unownedDmaSlot
  | .syscall number => rejectIf (self.maxSyscall < number) PlatformError.invalidPayload
  | .userFault address _ =>
      rejectIf (isCanonicalX8664 address = false) PlatformError.invalidTrapOrigin
  | _ => .ok ()

/-- The identifier is used up before the correlation is checked. -/
def ingress (cpu : CpuId) (kind : EventKind) (correlation : Option ActionId) :
    Call EventSequencer PlatformError Event := do
  rejectIf ((← get).excludes cpu = true) PlatformError.unknownCpu
  (← get).validateKind cpu kind
  let id := (← get).nextEvent
  let next ← okOr (checkedAdd id 1) PlatformError.invalidEventId
  modify fun self => { self with nextEvent := next }
  let self ← get
  rejectIf (∃ action ∈ correlation, action = 0 ∨ self.nextAction ≤ action)
    PlatformError.invalidCorrelation
  return { cpu, id, correlation, kind }

def issue (action : Action) : Call EventSequencer PlatformError IssuedAction := do
  validateAction action
  let id := (← get).nextAction
  let next ← okOr (checkedAdd id 1) PlatformError.invalidCorrelation
  modify fun self => { self with nextAction := next }
  return { id, action }

def complete (issued : IssuedAction) (cpu : CpuId) (result : Except PlatformError Unit) :
    Call EventSequencer PlatformError (Completion × Event) := do
  rejectIf (issued.id = 0 ∨ (← get).nextAction ≤ issued.id) PlatformError.invalidCorrelation
  let event ← ingress cpu (completionKind issued.action result) (some issued.id)
  return ({ action := issued.id, event := event.id, result }, event)

/-- One call of the interface. -/
inductive Request where
  | assignIrq (vector : UInt8) (cpu : CpuId)
  | allowDmaSlot (slot : UInt32)
  | ingress (cpu : CpuId) (kind : EventKind) (correlation : Option ActionId)
  | issue (action : Action)
  | complete (issued : IssuedAction) (cpu : CpuId) (result : Except PlatformError Unit)

/-- What a successful call returns. -/
inductive Reply where
  | done
  | event (event : Event)
  | issued (issued : IssuedAction)
  | completed (completion : Completion) (event : Event)

def perform : Request → Call EventSequencer PlatformError Reply
  | .assignIrq vector cpu => do
      assignIrq vector cpu
      return .done
  | .allowDmaSlot slot => do
      allowDmaSlot slot
      return .done
  | .ingress cpu kind correlation => return .event (← ingress cpu kind correlation)
  | .issue action => return .issued (← issue action)
  | .complete issued cpu result => do
      let (completion, event) ← complete issued cpu result
      return .completed completion event

/-- The checks that `ingress` makes before it takes an identifier. -/
structure Admits (state : EventSequencer) (cpu : CpuId) (kind : EventKind) : Prop where
  included : state.excludes cpu = false
  payload : state.validateKind cpu kind = .ok ()

/-- An identifier that `issue` has handed out. -/
def Known (self : EventSequencer) (action : ActionId) : Prop :=
  action ≠ 0 ∧ action < self.nextAction

/-- The effect of each way a call can end. -/
inductive Step (before : EventSequencer) :
    Request → Outcome PlatformError Reply → EventSequencer → Prop
  | rejected (request : Request) (reason : PlatformError) : Step before request (.err reason) before
  | assigned {vector : UInt8} {cpu : CpuId} (high : 32 ≤ vector)
      (included : before.excludes cpu = false) (vacant : before.irqOwners[vector]? = none) :
      Step before (.assignIrq vector cpu) (.ok .done)
        { before with irqOwners := before.irqOwners.insert vector cpu }
  | reassigned {vector : UInt8} {cpu owner : CpuId} (high : 32 ≤ vector)
      (included : before.excludes cpu = false) (owned : before.irqOwners[vector]? = some owner) :
      Step before (.assignIrq vector cpu) (.err .unownedVector)
        { before with irqOwners := before.irqOwners.insert vector cpu }
  | allowed {slot : UInt32} (fresh : slot ∉ before.dmaSlots) :
      Step before (.allowDmaSlot slot) (.ok .done)
        { before with dmaSlots := before.dmaSlots.insert slot }
  | entered {cpu : CpuId} {kind : EventKind} {correlation : Option ActionId} {next : EventId}
      (admits : Admits before cpu kind) (advanced : next.toNat = before.nextEvent.toNat + 1)
      (correlated : ∀ action ∈ correlation, Known before action) :
      Step before (.ingress cpu kind correlation)
        (.ok (.event ⟨cpu, before.nextEvent, correlation, kind⟩)) { before with nextEvent := next }
  | uncorrelated {cpu : CpuId} {kind : EventKind} {action : ActionId} {next : EventId}
      (advanced : next.toNat = before.nextEvent.toNat + 1) (unknown : ¬Known before action) :
      Step before (.ingress cpu kind (some action)) (.err .invalidCorrelation)
        { before with nextEvent := next }
  | issued {action : Action} {next : ActionId} (valid : validateAction action = .ok ())
      (advanced : next.toNat = before.nextAction.toNat + 1) :
      Step before (.issue action) (.ok (.issued ⟨before.nextAction, action⟩))
        { before with nextAction := next }
  | completed {issued : IssuedAction} {cpu : CpuId} {result : Except PlatformError Unit}
      {next : EventId} (known : Known before issued.id)
      (admits : Admits before cpu (completionKind issued.action result))
      (advanced : next.toNat = before.nextEvent.toNat + 1) :
      Step before (.complete issued cpu result)
        (.ok (.completed ⟨issued.id, before.nextEvent, result⟩
          ⟨cpu, before.nextEvent, some issued.id, completionKind issued.action result⟩))
        { before with nextEvent := next }

theorem validateKind_ne_overflow {self : EventSequencer} {cpu : CpuId} {kind : EventKind} :
    self.validateKind cpu kind ≠ .overflow := by
  cases kind <;> simp [validateKind]

theorem validateAction_ne_overflow {action : Action} : validateAction action ≠ .overflow := by
  cases action <;> simp [validateAction]

/-- Every call is one of the steps. -/
theorem step_perform (request : Request) (before : EventSequencer) :
    Step before request (perform request before).1 (perform request before).2 := by
  show Call.Ensures (perform request) (Step before request) before
  cases request with
  | assignIrq vector cpu =>
      simp only [perform, assignIrq]
      simp [Step.rejected]
      intro high included
      refine ⟨fun vacant => ?_, fun owned => ?_⟩
      · exact .assigned high included (Std.ExtTreeMap.getElem?_eq_none vacant)
      · exact .reassigned high included (Std.ExtTreeMap.getElem?_eq_some_getElem owned)
  | allowDmaSlot slot =>
      simp only [perform, allowDmaSlot]
      simp [Step.rejected]
      exact .allowed
  | ingress cpu kind correlation =>
      simp only [perform, ingress]
      simp [Step.rejected, validateKind_ne_overflow]
      intro included _ payload next advanced
      refine ⟨fun correlated => .entered ⟨included, payload⟩ advanced correlated, ?_⟩
      rintro action rfl unknown
      refine .uncorrelated advanced fun known => ?_
      rcases unknown with zero | above
      · exact known.1 zero
      · exact UInt64.not_le.mpr known.2 above
  | issue action =>
      simp only [perform, issue]
      simp [Step.rejected, validateAction_ne_overflow]
      exact fun _ valid next advanced => .issued valid advanced
  | complete issued cpu result =>
      simp only [perform, complete, ingress]
      simp [Step.rejected, validateKind_ne_overflow]
      intro nonzero below included _ payload next advanced
      refine ⟨fun _ _ => .completed ⟨nonzero, below⟩ ⟨included, payload⟩ advanced,
        fun unknown => ?_⟩
      rcases unknown with zero | above
      · exact (nonzero zero).elim
      · exact (UInt64.not_le.mpr below above).elim

end EventSequencer

end Bulla.Kernel
