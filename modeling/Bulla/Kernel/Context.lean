import Bulla.Kernel.Memory

/-!
# User contexts and trap frames

A user context saves the registers of a task outside the kernel.  `enter` and `trap` hand out trap
frames, and `resume` takes a frame back and saves its registers.  Pointers are checked when a
context is created and at no later time, so a context stays in the user half of the address space
exactly as long as the frames that `resume` takes do.
-/

namespace Bulla.Kernel

open Rust Outcome

inductive Privilege where
  | kernel
  | user
  deriving DecidableEq, Repr

inductive TrapOrigin where
  | interrupt (vector : UInt8)
  | exception (vector : UInt8)
  | syscall (number : UInt64)
  deriving DecidableEq, Repr

structure Registers where
  instructionPointer : UInt64
  stackPointer : UInt64
  flags : UInt64
  argument0 : UInt64
  result : UInt64
  deriving DecidableEq, Repr

structure UserContext where
  id : UInt32
  addressSpace : UInt32
  registers : Registers
  /-- Number of frames taken back so far. -/
  generation : UInt64
  runnable : Bool
  deriving DecidableEq, Repr

structure TrapFrame where
  context : UInt32
  origin : TrapOrigin
  registers : Registers
  privilege : Privilege
  generation : UInt64
  deriving DecidableEq, Repr

inductive ContextError where
  | wrongCapability
  | missingRights
  | nonCanonical
  | misalignedStack
  | kernelAddress
  | notRunnable
  | wrongContext
  | wrongGeneration
  | wrongPrivilege
  | generationOverflow
  deriving DecidableEq, Repr

namespace UserContext

def require (capability : Capability) (kind : CapabilityKind) (rights : Rights) :
    Outcome ContextError Unit := do
  rejectIf (capability.kind ≠ kind) ContextError.wrongCapability
  rejectIf (capability.rights.contains rights = false) ContextError.missingRights

/-- First address above the user half. -/
def userLimit : UInt64 := 0x0000800000000000

def create (capability : Capability) (id addressSpace : UInt32)
    (instructionPointer stackPointer : UInt64) : Outcome ContextError UserContext := do
  require capability .userContext Rights.control
  rejectIf (isCanonicalX8664 instructionPointer = false ∨ isCanonicalX8664 stackPointer = false)
    ContextError.nonCanonical
  rejectIf (userLimit ≤ instructionPointer ∨ userLimit ≤ stackPointer) ContextError.kernelAddress
  rejectIf (stackPointer &&& 0xf ≠ 0) ContextError.misalignedStack
  return {
    id, addressSpace
    registers := { instructionPointer, stackPointer, flags := 0x202, argument0 := 0, result := 0 }
    generation := 0, runnable := true }

def enter (capability : Capability) : Call UserContext ContextError TrapFrame := do
  require capability .userContext Rights.control
  rejectIf ((← get).runnable = false) ContextError.notRunnable
  modify fun self => { self with runnable := false }
  let self ← get
  return {
    context := self.id, origin := .syscall 0, registers := self.registers, privilege := .user
    generation := self.generation }

def trap (frameCapability : Capability) (origin : TrapOrigin) (registers : Registers) :
    Call UserContext ContextError TrapFrame := do
  require frameCapability .trapFrame Rights.control
  let self ← get
  return {
    context := self.id, origin, registers, privilege := .user, generation := self.generation }

/-- The registers are saved before the generation is known to advance. -/
def resume (capability : Capability) (frame : TrapFrame) (result : UInt64) :
    Call UserContext ContextError Unit := do
  require capability .userContext Rights.control
  rejectIf (frame.context ≠ (← get).id) ContextError.wrongContext
  rejectIf (frame.generation ≠ (← get).generation) ContextError.wrongGeneration
  rejectIf (frame.privilege ≠ .user) ContextError.wrongPrivilege
  modify fun self => { self with registers := frame.registers }
  modify fun self => { self with registers := { self.registers with result } }
  let generation ← okOr (checkedAdd (← get).generation 1) ContextError.generationOverflow
  modify fun self => { self with generation }
  modify fun self => { self with runnable := true }

def terminate : Call UserContext Empty Unit := do
  modify fun self => { self with runnable := false }

/-- One call on an existing context. -/
inductive Request where
  | enter (capability : Capability)
  | trap (frameCapability : Capability) (origin : TrapOrigin) (registers : Registers)
  | resume (capability : Capability) (frame : TrapFrame) (result : UInt64)
  | terminate
  deriving DecidableEq, Repr

/-- What a successful call returns. -/
inductive Reply where
  | done
  | frame (frame : TrapFrame)
  deriving DecidableEq, Repr

def perform : Request → Call UserContext ContextError Reply
  | .enter capability => return .frame (← enter capability)
  | .trap frameCapability origin registers =>
      return .frame (← trap frameCapability origin registers)
  | .resume capability frame result => do
      resume capability frame result
      return .done
  | .terminate => do
      terminate
      return .done

/-- What `resume` has checked when it saves the registers of a frame. -/
structure Admitted (before : UserContext) (capability : Capability) (frame : TrapFrame) : Prop where
  kind_eq : capability.kind = .userContext
  rights : capability.rights.contains Rights.control = true
  context_eq : frame.context = before.id
  generation_eq : frame.generation = before.generation
  privilege_eq : frame.privilege = .user

/-- A call that asks `resume` to save the registers of a frame it admits. -/
def Saves (before : UserContext) : Request → Prop
  | .resume capability frame _ => Admitted before capability frame
  | _ => False

/-- The effect of each way a call can end. -/
inductive Step (before : UserContext) :
    Request → Outcome ContextError Reply → UserContext → Prop
  | rejected {request : Request} (reason : ContextError) (unsaved : ¬Saves before request) :
      Step before request (.err reason) before
  | entered {capability : Capability} (runnable : before.runnable = true) :
      Step before (.enter capability)
        (.ok (.frame ⟨before.id, .syscall 0, before.registers, .user, before.generation⟩))
        { before with runnable := false }
  | trapped {frameCapability : Capability} {origin : TrapOrigin} {registers : Registers} :
      Step before (.trap frameCapability origin registers)
        (.ok (.frame ⟨before.id, origin, registers, .user, before.generation⟩)) before
  | resumed {capability : Capability} {frame : TrapFrame} {result next : UInt64}
      (admitted : Admitted before capability frame)
      (advanced : next.toNat = before.generation.toNat + 1) :
      Step before (.resume capability frame result) (.ok .done)
        { before with
          registers := { frame.registers with result }
          generation := next
          runnable := true }
  | exhausted {capability : Capability} {frame : TrapFrame} {result : UInt64}
      (admitted : Admitted before capability frame)
      (last : 2 ^ 64 ≤ before.generation.toNat + 1) :
      Step before (.resume capability frame result) (.err .generationOverflow)
        { before with registers := { frame.registers with result } }
  | terminated : Step before .terminate (.ok .done) { before with runnable := false }

theorem require_eq_ok {capability : Capability} {kind : CapabilityKind} {rights : Rights}
    {value : Unit} : require capability kind rights = .ok value ↔
      capability.kind = kind ∧ capability.rights.contains rights = true := by
  simp [require]

theorem require_ne_overflow {capability : Capability} {kind : CapabilityKind} {rights : Rights} :
    require capability kind rights ≠ .overflow := by
  simp [require]

/-- Every call is one of the steps. -/
theorem step_perform (request : Request) (before : UserContext) :
    Step before request (perform request before).1 (perform request before).2 := by
  show Call.Ensures (perform request) (Step before request) before
  cases request with
  | enter capability =>
      have rejected (reason : ContextError) :
          Step before (.enter capability) (.err reason) before := .rejected reason not_false
      simp only [perform, enter]
      simp [require_ne_overflow, rejected]
      intro _ _ runnable
      exact .entered runnable
  | trap frameCapability origin registers =>
      have rejected (reason : ContextError) :
          Step before (.trap frameCapability origin registers) (.err reason) before :=
        .rejected reason not_false
      simp only [perform, trap]
      simp [require_ne_overflow, rejected]
      intro _ _
      exact .trapped
  | resume capability frame result =>
      simp only [perform, resume]
      simp [require_eq_ok, require_ne_overflow]
      refine ⟨fun kind_eq rights => ⟨fun context_eq => ⟨fun generation_eq => ⟨fun privilege_eq =>
        ⟨fun next advanced => ?_, fun last => ?_⟩, ?_⟩, ?_⟩, ?_⟩, ?_⟩
      · exact .resumed ⟨kind_eq, rights, context_eq, generation_eq, privilege_eq⟩ advanced
      · exact .exhausted ⟨kind_eq, rights, context_eq, generation_eq, privilege_eq⟩ (by omega)
      · exact fun refused => .rejected _ fun admitted => refused admitted.privilege_eq
      · exact fun refused => .rejected _ fun admitted => refused admitted.generation_eq
      · exact fun refused => .rejected _ fun admitted => refused admitted.context_eq
      · intro reason refused
        refine .rejected _ fun admitted => ?_
        have passed : require capability .userContext Rights.control = .ok () :=
          require_eq_ok.mpr ⟨admitted.kind_eq, admitted.rights⟩
        rw [passed] at refused
        cases refused
  | terminate => exact .terminated

abbrev ContextEvent : Type := Event UserContext Request ContextError Reply

/-- Pointers a user context may run with. -/
structure UserHalf (registers : Registers) : Prop where
  instruction_canonical : isCanonicalX8664 registers.instructionPointer = true
  instruction_below : registers.instructionPointer < userLimit
  stack_canonical : isCanonicalX8664 registers.stackPointer = true
  stack_below : registers.stackPointer < userLimit

/-- A context that can be entered has its pointers in the user half. -/
def Confined (context : UserContext) : Prop :=
  context.runnable = true → UserHalf context.registers

/-- Every frame that `enter` returns has its pointers in the user half. -/
def EntersConfined : Request → Outcome ContextError Reply → Prop
  | .enter _, .ok (.frame frame) => UserHalf frame.registers
  | _, _ => True

/-- A frame that `resume` admits, to a context that stays or becomes runnable, has its pointers in
the user half. -/
def Screened (before : UserContext) : Request → Prop
  | .resume capability frame _ =>
      Admitted before capability frame →
        (before.runnable = true ∨ before.generation.toNat + 1 < 2 ^ 64) → UserHalf frame.registers
  | _ => True

theorem confined_create {capability : Capability} {id addressSpace : UInt32}
    {instructionPointer stackPointer : UInt64} {context : UserContext}
    (created : create capability id addressSpace instructionPointer stackPointer = .ok context) :
    Confined context := by
  simp [create, require] at created
  obtain ⟨-, -, ⟨instruction_canonical, stack_canonical⟩, ⟨instruction_below, stack_below⟩, -,
    rfl⟩ := created
  intro _
  exact ⟨instruction_canonical, instruction_below, stack_canonical, stack_below⟩

/-- A screened call leaves a confined context, and `enter` hands out confined frames. -/
theorem confined_step {before after : UserContext} {request : Request}
    {outcome : Outcome ContextError Reply} (confined : Confined before)
    (screened : Screened before request) (step : Step before request outcome after) :
    Confined after ∧ EntersConfined request outcome := by
  cases step with
  | rejected reason unsaved => exact ⟨confined, by cases request <;> trivial⟩
  | entered runnable => exact ⟨nofun, confined runnable⟩
  | trapped => exact ⟨confined, trivial⟩
  | resumed admitted advanced =>
      have room : before.generation.toNat + 1 < 2 ^ 64 := advanced ▸ UInt64.toNat_lt _
      obtain ⟨pointer, below, stack, stack_below⟩ := screened admitted (.inr room)
      exact ⟨fun _ => ⟨pointer, below, stack, stack_below⟩, trivial⟩
  | exhausted admitted last =>
      refine ⟨fun runnable => ?_, trivial⟩
      obtain ⟨pointer, below, stack, stack_below⟩ := screened admitted (.inl runnable)
      exact ⟨pointer, below, stack, stack_below⟩
  | terminated => exact ⟨nofun, trivial⟩

/-- A call that leaves a confined context took no frame from outside the user half. -/
theorem screened_of_confined {before after : UserContext} {request : Request}
    {outcome : Outcome ContextError Reply} (confined : Confined after)
    (step : Step before request outcome after) : Screened before request := by
  cases step with
  | rejected reason unsaved =>
      cases request with
      | resume => exact fun admitted => absurd admitted unsaved
      | _ => trivial
  | resumed admitted advanced =>
      intro _ _
      obtain ⟨pointer, below, stack, stack_below⟩ := confined rfl
      exact ⟨pointer, below, stack, stack_below⟩
  | exhausted admitted last =>
      rintro _ (runnable | room)
      · obtain ⟨pointer, below, stack, stack_below⟩ := confined runnable
        exact ⟨pointer, below, stack, stack_below⟩
      · omega
  | _ => trivial

/-- A created context stays confined, and `enter` hands out confined frames, throughout a run
exactly when every frame taken by `resume` is screened. -/
theorem confined_iff_screened {capability : Capability} {id addressSpace : UInt32}
    {instructionPointer stackPointer : UInt64} {context : UserContext}
    (created : create capability id addressSpace instructionPointer stackPointer = .ok context)
    (requests : List Request) :
    (Confined context ∧ ∀ occurred ∈ history perform context requests,
        Confined occurred.after ∧ EntersConfined occurred.input occurred.outcome) ↔
      ∀ occurred ∈ history perform context requests, Screened occurred.before occurred.input := by
  have initial := confined_create created
  rw [and_iff_right initial, ← guarded_iff_forall (fun occurred : ContextEvent =>
    Confined occurred.after ∧ EntersConfined occurred.input occurred.outcome) [],
    ← guarded_iff_forall (fun occurred : ContextEvent =>
      Screened occurred.before occurred.input) []]
  refine guarded_iff_of_invariant perform (fun _ state => Confined state) initial ?_ ?_ requests
  · intro _ state request confined
    have step := step_perform request state
    exact ⟨fun after => screened_of_confined after.1 step,
      fun screened => confined_step confined screened step⟩
  · intro _ state request confined screened
    exact (confined_step confined screened (step_perform request state)).1

/-- A context that is created, traps with user registers and is resumed at them stays confined. -/
theorem confined_after_user_trap :
    Confined ⟨1, 2, ⟨0x400000, 0x7000, 0x202, 0, 0⟩, 0, true⟩ ∧
      ∀ occurred ∈ history perform ⟨1, 2, ⟨0x400000, 0x7000, 0x202, 0, 0⟩, 0, true⟩
          [.enter ⟨.userContext, 0, 0, Rights.control, 0, 0, 0⟩,
            .resume ⟨.userContext, 0, 0, Rights.control, 0, 0, 0⟩
              ⟨1, .syscall 3, ⟨0x400010, 0x6ff0, 0x202, 0, 0⟩, .user, 0⟩ 9],
        Confined occurred.after ∧ EntersConfined occurred.input occurred.outcome := by
  have created : create ⟨.userContext, 0, 0, Rights.control, 0, 0, 0⟩ 1 2 0x400000 0x7000 =
      .ok ⟨1, 2, ⟨0x400000, 0x7000, 0x202, 0, 0⟩, 0, true⟩ := by decide
  refine (confined_iff_screened created _).mpr ?_
  intro occurred member
  simp only [history, List.mem_cons, List.not_mem_nil, or_false] at member
  rcases member with rfl | rfl
  · trivial
  · exact fun _ _ => ⟨by decide, by decide, by decide, by decide⟩

/-- A trap with kernel pointers is resumed: the context is runnable, and entered, in the kernel
half. -/
theorem resumed_at_kernel_address :
    ∃ context frame,
      create ⟨.userContext, 0, 0, Rights.control, 0, 0, 0⟩ 1 2 0x400000 0x7000 = .ok context ∧
      (history perform context
        [.trap ⟨.trapFrame, 0, 0, Rights.control, 0, 0, 0⟩ (.syscall 3)
            ⟨0xffff800000000000, 0xffff800000001000, 0x202, 0, 0⟩,
          .resume ⟨.userContext, 0, 0, Rights.control, 0, 0, 0⟩ frame 0,
          .enter ⟨.userContext, 0, 0, Rights.control, 0, 0, 0⟩]).map Event.outcome =
        [.ok (.frame frame), .ok .done,
          .ok (.frame ⟨1, .syscall 0, ⟨0xffff800000000000, 0xffff800000001000, 0x202, 0, 0⟩,
            .user, 1⟩)] ∧
      ¬Confined (final perform context
        [.trap ⟨.trapFrame, 0, 0, Rights.control, 0, 0, 0⟩ (.syscall 3)
            ⟨0xffff800000000000, 0xffff800000001000, 0x202, 0, 0⟩,
          .resume ⟨.userContext, 0, 0, Rights.control, 0, 0, 0⟩ frame 0]) := by
  refine ⟨⟨1, 2, ⟨0x400000, 0x7000, 0x202, 0, 0⟩, 0, true⟩,
    ⟨1, .syscall 3, ⟨0xffff800000000000, 0xffff800000001000, 0x202, 0, 0⟩, .user, 0⟩,
    by decide, by decide, ?_⟩
  intro confined
  exact absurd (confined (by decide)).instruction_below (by decide)

end UserContext

end Bulla.Kernel
