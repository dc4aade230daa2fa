import Bulla.Kernel.Context

/-!
# The Thermite port of user contexts

`src/context.th` restates `create`, `enter` and `resume` in Thermite, with the bit tests written out
and a context that is returned where the source changes it.  Both give the same results.
-/

namespace Bulla.Thermite

open Rust Outcome

inductive Privilege where
  | kernel
  | user
  deriving DecidableEq, Repr

/-- The variants carry a `Cap` that those of the source do not have. -/
inductive CapabilityKind where
  | capBootInfo
  | capCpu
  | capCpuSet
  | capCpuLocal
  | capPhysRegion
  | capFrame
  | capVirtRegion
  | capAddressSpace
  | capMmio
  | capIoPort
  | capIrq
  | capIrqState
  | capTrapFrame
  | capUserContext
  | capDma
  | capIommuDomain
  | capClock
  | capEntropy
  | capPower
  deriving DecidableEq, Repr

inductive TrapOrigin where
  | interrupt (vector : UInt8)
  | exception (vector : UInt8)
  | syscall (number : UInt64)
  deriving DecidableEq, Repr

inductive ContextError where
  | wrongCapability
  | missingRights
  | nonCanonical
  | misalignedStack
  | kernelAddress
  | notRunnable
  | wrongContext
  | wrongGeneration
  | wrongPrivilege
  | generationOverflow
  deriving DecidableEq, Repr

structure Capability where
  kind : CapabilityKind
  rights : UInt32
  generation : UInt64
  deriving DecidableEq, Repr

structure Registers where
  instructionPointer : UInt64
  stackPointer : UInt64
  flags : UInt64
  argument0 : UInt64
  result : UInt64
  deriving DecidableEq, Repr

structure UserContext where
  id : UInt32
  addressSpace : UInt32
  registers : Registers
  generation : UInt64
  runnable : Bool
  deriving DecidableEq, Repr

/-- The fields of a frame; the declared invariant is `TrapFrame.Inv`. -/
structure TrapFrame where
  context : UInt32
  origin : TrapOrigin
  registers : Registers
  privilege : Privilege
  generation : UInt64
  deriving DecidableEq, Repr

def TrapFrame.Inv (self : TrapFrame) : Prop := self.privilege = .user

def create (cap : Capability) (id space : UInt32) (ip sp : UInt64) :
    Outcome ContextError UserContext := do
  rejectIf (cap.kind ≠ .capUserContext) ContextError.wrongCapability
  rejectIf (cap.rights &&& 32 ≠ 32) ContextError.missingRights
  rejectIf
    (¬((ip >>> 47 &&& 1 = 0 ∧ ip >>> 48 = 0) ∨ (ip >>> 47 &&& 1 = 1 ∧ ip >>> 48 = 65535)) ∨
      ¬((sp >>> 47 &&& 1 = 0 ∧ sp >>> 48 = 0) ∨ (sp >>> 47 &&& 1 = 1 ∧ sp >>> 48 = 65535)))
    ContextError.nonCanonical
  rejectIf (ip ≥ 140737488355328 ∨ sp ≥ 140737488355328) ContextError.kernelAddress
  rejectIf (sp % 16 ≠ 0) ContextError.misalignedStack
  return {
    id, addressSpace := space
    registers := {
      instructionPointer := ip, stackPointer := sp, flags := 514, argument0 := 0, result := 0 }
    generation := 0, runnable := true }

def enter (ctx : UserContext) (cap : Capability) :
    Outcome ContextError (UserContext × TrapFrame) := do
  rejectIf (cap.kind ≠ .capUserContext) ContextError.wrongCapability
  rejectIf (cap.rights &&& 32 ≠ 32) ContextError.missingRights
  rejectIf (ctx.runnable = false) ContextError.notRunnable
  return (
    { id := ctx.id, addressSpace := ctx.addressSpace
      registers := {
        instructionPointer := ctx.registers.instructionPointer
        stackPointer := ctx.registers.stackPointer
        flags := ctx.registers.flags
        argument0 := ctx.registers.argument0
        result := ctx.registers.result }
      generation := ctx.generation, runnable := false },
    { context := ctx.id, origin := .syscall 0, registers := ctx.registers, privilege := .user
      generation := ctx.generation })

def resume (ctx : UserContext) (cap : Capability) (frame : TrapFrame) (value : UInt64) :
    Outcome ContextError UserContext := do
  rejectIf (cap.kind ≠ .capUserContext) ContextError.wrongCapability
  rejectIf (cap.rights &&& 32 ≠ 32) ContextError.missingRights
  rejectIf (frame.context ≠ ctx.id) ContextError.wrongContext
  rejectIf (frame.generation ≠ ctx.generation) ContextError.wrongGeneration
  rejectIf (frame.privilege ≠ .user) ContextError.wrongPrivilege
  rejectIf (ctx.generation > 18446744073709551614) ContextError.generationOverflow
  let generation ← unchecked (checkedAdd ctx.generation 1)
  return {
    id := ctx.id, addressSpace := ctx.addressSpace
    registers := {
      instructionPointer := frame.registers.instructionPointer
      stackPointer := frame.registers.stackPointer
      flags := frame.registers.flags
      argument0 := frame.registers.argument0
      result := value }
    generation, runnable := true }

/-! ## The values of the source in the port -/

def portPrivilege : Kernel.Privilege → Privilege
  | .kernel => .kernel
  | .user => .user

def portKind : Kernel.CapabilityKind → CapabilityKind
  | .bootInfo => .capBootInfo
  | .cpu => .capCpu
  | .cpuSet => .capCpuSet
  | .cpuLocal => .capCpuLocal
  | .physRegion => .capPhysRegion
  | .frame => .capFrame
  | .virtRegion => .capVirtRegion
  | .addressSpace => .capAddressSpace
  | .mmio => .capMmio
  | .ioPort => .capIoPort
  | .irq => .capIrq
  | .irqState => .capIrqState
  | .trapFrame => .capTrapFrame
  | .userContext => .capUserContext
  | .dma => .capDma
  | .iommuDomain => .capIommuDomain
  | .clock => .capClock
  | .entropy => .capEntropy
  | .power => .capPower

def portOrigin : Kernel.TrapOrigin → TrapOrigin
  | .interrupt vector => .interrupt vector
  | .exception vector => .exception vector
  | .syscall number => .syscall number

def portError : Kernel.ContextError → ContextError
  | .wrongCapability => .wrongCapability
  | .missingRights => .missingRights
  | .nonCanonical => .nonCanonical
  | .misalignedStack => .misalignedStack
  | .kernelAddress => .kernelAddress
  | .notRunnable => .notRunnable
  | .wrongContext => .wrongContext
  | .wrongGeneration => .wrongGeneration
  | .wrongPrivilege => .wrongPrivilege
  | .generationOverflow => .generationOverflow

def portCapability (capability : Kernel.Capability) : Capability :=
  ⟨portKind capability.kind, capability.rights.bits, capability.generation⟩

def portRegisters (registers : Kernel.Registers) : Registers :=
  ⟨registers.instructionPointer, registers.stackPointer, registers.flags, registers.argument0,
    registers.result⟩

def portContext (context : Kernel.UserContext) : UserContext :=
  ⟨context.id, context.addressSpace, portRegisters context.registers, context.generation,
    context.runnable⟩

def portFrame (frame : Kernel.TrapFrame) : TrapFrame :=
  ⟨frame.context, portOrigin frame.origin, portRegisters frame.registers,
    portPrivilege frame.privilege, frame.generation⟩

/-- A result of the source in the port. -/
def portOutcome {α β : Type} (port : α → β) :
    Outcome Kernel.ContextError α → Outcome ContextError β
  | .ok value => .ok (port value)
  | .err reason => .err (portError reason)
  | .overflow => .overflow

section Checks

/-- A check that both sides make, with the same error. -/
theorem rejectIf_bind_agree {α β : Type} {condition ported : Prop} [Decidable condition]
    [Decidable ported] {reason : Kernel.ContextError} {portedReason : ContextError}
    {first : Unit → Outcome ContextError β} {second : Unit → Outcome Kernel.ContextError α}
    {port : α → β} (reason_eq : portedReason = portError reason) (same : ported ↔ condition)
    (next : first () = portOutcome port (second ())) :
    (rejectIf ported portedReason >>= first) =
      portOutcome port (rejectIf condition reason >>= second) := by
  by_cases refused : condition
  · simp [rejectIf, refused, same, reason_eq, portOutcome]
  · simp [rejectIf, refused, same, next]

@[simp] theorem portKind_eq_iff {kind : Kernel.CapabilityKind} :
    portKind kind = .capUserContext ↔ kind = .userContext := by
  cases kind <;> simp [portKind]

@[simp] theorem portPrivilege_eq_iff {privilege : Kernel.Privilege} :
    portPrivilege privilege = .user ↔ privilege = .user := by
  cases privilege <;> simp [portPrivilege]

/-- The literal is the bit of `CONTROL`. -/
@[simp] theorem and_control_iff {rights : Kernel.Rights} :
    rights.bits &&& 32 = 32 ↔ rights.contains Kernel.Rights.control = true := by
  rw [Kernel.Rights.contains_iff]
  exact Iff.rfl

theorem canonical_iff {address : UInt64} :
    ((address >>> 47 &&& 1 = 0 ∧ address >>> 48 = 0) ∨
      (address >>> 47 &&& 1 = 1 ∧ address >>> 48 = 65535)) ↔
      Kernel.isCanonicalX8664 address = true := by
  simp [Kernel.isCanonicalX8664]

theorem mod_sixteen_iff {pointer : UInt64} : pointer % 16 = 0 ↔ pointer &&& 0xf = 0 := by
  rw [← UInt64.toNat_inj, ← UInt64.toNat_inj, UInt64.toNat_mod, UInt64.toNat_and]
  exact (Nat.and_two_pow_sub_one_eq_mod pointer.toNat 4).symm ▸ Iff.rfl

end Checks

theorem create_eq (capability : Kernel.Capability) (id space : UInt32) (ip sp : UInt64) :
    create (portCapability capability) id space ip sp =
      portOutcome portContext (Kernel.UserContext.create capability id space ip sp) := by
  simp only [create, Kernel.UserContext.create, Kernel.UserContext.require, bind_assoc]
  refine rejectIf_bind_agree rfl portKind_eq_iff.not ?_
  refine rejectIf_bind_agree rfl ?_ ?_
  · simp [portCapability, and_control_iff]
  refine rejectIf_bind_agree rfl ?_ ?_
  · simp only [canonical_iff, Bool.not_eq_true]
  refine rejectIf_bind_agree rfl Iff.rfl ?_
  refine rejectIf_bind_agree rfl mod_sixteen_iff.not ?_
  rfl

theorem enter_eq (context : Kernel.UserContext) (capability : Kernel.Capability) :
    enter (portContext context) (portCapability capability) =
      portOutcome (fun frame => (portContext (Kernel.UserContext.enter capability context).2,
        portFrame frame)) (Kernel.UserContext.enter capability context).1 := by
  show Call.Ensures (Kernel.UserContext.enter capability) (fun outcome after =>
    enter (portContext context) (portCapability capability) =
      portOutcome (fun frame => (portContext after, portFrame frame)) outcome) context
  simp only [Kernel.UserContext.enter, Kernel.UserContext.require]
  simp
  refine ⟨fun kind_eq rights => ⟨fun runnable => ?_, fun stopped => ?_⟩, ?_⟩
  · simp [enter, portContext, portCapability, kind_eq, rights, runnable, rejectIf, portOutcome]
    rfl
  · simp [enter, portContext, portCapability, kind_eq, rights, stopped, rejectIf, portOutcome,
      portError]
  · rintro reason (⟨wrong, rfl⟩ | ⟨kind_eq, missing, rfl⟩)
    · simp [enter, portCapability, wrong, rejectIf, portOutcome, portError]
    · simp [enter, portCapability, kind_eq, missing, rejectIf, portOutcome, portError]

theorem resume_eq (context : Kernel.UserContext) (capability : Kernel.Capability)
    (frame : Kernel.TrapFrame) (value : UInt64) :
    resume (portContext context) (portCapability capability) (portFrame frame) value =
      portOutcome
        (fun _ => portContext (Kernel.UserContext.resume capability frame value context).2)
        (Kernel.UserContext.resume capability frame value context).1 := by
  show Call.Ensures (Kernel.UserContext.resume capability frame value) (fun outcome after =>
    resume (portContext context) (portCapability capability) (portFrame frame) value =
      portOutcome (fun _ => portContext after) outcome) context
  simp only [Kernel.UserContext.resume, Kernel.UserContext.require]
  simp
  refine ⟨fun kind_eq rights => ⟨fun context_eq => ⟨fun generation_eq => ⟨fun privilege_eq => ?_,
    fun privilege_ne => ?_⟩, fun generation_ne => ?_⟩, fun context_ne => ?_⟩, ?_⟩
  · constructor
    · intro next advanced
      have next_lt := next.toNat_lt
      have below : context.generation ≤ 18446744073709551614 := by
        rw [UInt64.le_iff_toNat_le]
        show context.generation.toNat ≤ 18446744073709551614
        omega
      have next_eq : checkedAdd context.generation 1 = some next := checkedAdd_eq_some.mpr advanced
      show resume _ _ _ _ = _
      simp [resume, portContext, portCapability, portFrame, kind_eq, rights, context_eq,
        generation_eq, privilege_eq, below, next_eq, rejectIf, Outcome.unchecked, portOutcome]
      rfl
    · intro last
      have above : 18446744073709551614 < context.generation := by
        rw [UInt64.lt_iff_toNat_lt]
        show 18446744073709551614 < context.generation.toNat
        omega
      simp [resume, portContext, portCapability, portFrame, kind_eq, rights, context_eq,
        generation_eq, privilege_eq, above, rejectIf, portOutcome, portError]
  · simp [resume, portContext, portCapability, portFrame, kind_eq, rights, context_eq,
      generation_eq, privilege_ne, rejectIf, portOutcome, portError]
  · simp [resume, portContext, portCapability, portFrame, kind_eq, rights, context_eq,
      generation_ne, rejectIf, portOutcome, portError]
  · simp [resume, portContext, portCapability, portFrame, kind_eq, rights, context_ne, rejectIf,
      portOutcome, portError]
  · rintro reason (⟨wrong, rfl⟩ | ⟨kind_eq, missing, rfl⟩)
    · simp [resume, portCapability, wrong, rejectIf, portOutcome, portError]
    · simp [resume, portCapability, kind_eq, missing, rejectIf, portOutcome, portError]

/-- The port and the source give the same results, on every input and for every error, and the
frames that the port hands out keep their invariant. -/
theorem port_agrees :
    (∀ capability id space ip sp, create (portCapability capability) id space ip sp =
      portOutcome portContext (Kernel.UserContext.create capability id space ip sp)) ∧
    (∀ context capability, enter (portContext context) (portCapability capability) =
      portOutcome (fun frame => (portContext (Kernel.UserContext.enter capability context).2,
        portFrame frame)) (Kernel.UserContext.enter capability context).1) ∧
    (∀ context capability frame value,
      resume (portContext context) (portCapability capability) (portFrame frame) value =
        portOutcome
          (fun _ => portContext (Kernel.UserContext.resume capability frame value context).2)
          (Kernel.UserContext.resume capability frame value context).1) ∧
    ∀ ctx cap entered frame, enter ctx cap = .ok (entered, frame) → frame.Inv := by
  refine ⟨create_eq, enter_eq, resume_eq, fun ctx cap entered frame accepted => ?_⟩
  simp only [enter, bind_eq_ok, pure_eq, Outcome.ok.injEq, Prod.mk.injEq] at accepted
  obtain ⟨_, _, _, _, _, _, _, rfl⟩ := accepted
  rfl

end Bulla.Thermite
