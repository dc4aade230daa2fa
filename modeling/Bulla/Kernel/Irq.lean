import Bulla.Kernel.Capability
import Bulla.Kernel.Smp

/-!
# The interrupt controller

Each processor can disable its interrupts and gets a token for the state it was in; the token is
taken back by `restore`.  Vectors are routed to processors, and a delivered interrupt is in service
until it is acknowledged.
-/

namespace Bulla.Kernel

open Rust Outcome

/-- What `save_disable` found; tokens can be copied. -/
structure IrqStateToken where
  cpu : CpuId
  generation : UInt64
  wasEnabled : Bool
  deriving DecidableEq, Repr

structure LocalIrqState where
  enabled : Bool
  /-- Generation of the latest token. -/
  generation : UInt64
  /-- The latest token has not been taken back. -/
  outstanding : Bool
  deriving DecidableEq, Repr

structure IrqRoute where
  cpu : CpuId
  vector : UInt8
  masked : Bool
  deriving DecidableEq, Repr

inductive IrqError where
  | wrongCapability
  | missingRights
  | unknownCpu
  | nestedDisable
  | foreignCpu
  | staleGeneration
  | alreadyRestored
  | generationOverflow
  | invalidVector
  | unknownRoute
  | duplicateRoute
  | spuriousAcknowledgement
  deriving DecidableEq, Repr

instance : Ord (CpuId × UInt8) := lexOrd

structure IrqController where
  locals : BTreeMap CpuId LocalIrqState
  routes : BTreeMap UInt8 IrqRoute
  inService : BTreeMap (CpuId × UInt8) Bool

namespace IrqController

def new : IrqController := ⟨∅, ∅, ∅⟩

/-- The state of a processor that has just been added. -/
def fresh : LocalIrqState := ⟨true, 0, false⟩

def require (capability : Capability) (kind : CapabilityKind) (rights : Rights) :
    Outcome IrqError Unit := do
  rejectIf (capability.kind ≠ kind) IrqError.wrongCapability
  rejectIf (capability.rights.contains rights = false) IrqError.missingRights

/-- The state is overwritten before a known processor is reported. -/
def addCpu (cpu : CpuId) : Call IrqController IrqError Unit := do
  let replaced := (← get).locals[cpu]?
  modify fun self => { self with locals := self.locals.insert cpu fresh }
  rejectIf (replaced.isSome = true) IrqError.unknownCpu

def saveDisable (cpu : CpuId) (capability : Capability) :
    Call IrqController IrqError IrqStateToken := do
  require capability .cpuLocal Rights.control
  let state ← okOr (← get).locals[cpu]? IrqError.unknownCpu
  rejectIf (state.outstanding = true) IrqError.nestedDisable
  let generation ← okOr (checkedAdd state.generation 1) IrqError.generationOverflow
  modify fun self => { self with locals := self.locals.insert cpu ⟨false, generation, true⟩ }
  return ⟨cpu, generation, state.enabled⟩

def restore (cpu : CpuId) (capability : Capability) (token : IrqStateToken) :
    Call IrqController IrqError Unit := do
  require capability .cpuLocal Rights.control
  rejectIf (token.cpu ≠ cpu) IrqError.foreignCpu
  let state ← okOr (← get).locals[cpu]? IrqError.unknownCpu
  rejectIf (token.generation ≠ state.generation) IrqError.staleGeneration
  rejectIf (state.outstanding = false) IrqError.alreadyRestored
  modify fun self =>
    { self with locals := self.locals.insert cpu ⟨token.wasEnabled, state.generation, false⟩ }

/-- The route is overwritten before a duplicate is reported. -/
def route (capability : Capability) (vector : UInt8) (cpu : CpuId) :
    Call IrqController IrqError Unit := do
  require capability .irq Rights.route
  rejectIf (vector < 32) IrqError.invalidVector
  rejectIf ((← get).locals.contains cpu = false) IrqError.unknownCpu
  let replaced := (← get).routes[vector]?
  modify fun self => { self with routes := self.routes.insert vector ⟨cpu, vector, false⟩ }
  rejectIf (replaced.isSome = true) IrqError.duplicateRoute

def setMasked (vector : UInt8) (masked : Bool) : Call IrqController IrqError Unit := do
  let route ← okOr (← get).routes[vector]? IrqError.unknownRoute
  modify fun self => { self with routes := self.routes.insert vector { route with masked } }

def deliver (vector : UInt8) : Call IrqController IrqError CpuId := do
  let route ← okOr (← get).routes[vector]? IrqError.unknownRoute
  rejectIf (route.masked = true) IrqError.unknownRoute
  modify fun self => { self with inService := self.inService.insert (route.cpu, vector) true }
  return route.cpu

/-- The entry is removed before it is looked at. -/
def endOfInterrupt (cpu : CpuId) (vector : UInt8) : Call IrqController IrqError Unit := do
  let removed := (← get).inService[(cpu, vector)]?
  modify fun self => { self with inService := self.inService.erase (cpu, vector) }
  rejectIf (removed ≠ some true) IrqError.spuriousAcknowledgement

def interruptsEnabled (self : IrqController) (cpu : CpuId) : Option Bool :=
  self.locals[cpu]?.map (·.enabled)

/-- One call of the mutating interface. -/
inductive Request where
  | addCpu (cpu : CpuId)
  | saveDisable (cpu : CpuId) (capability : Capability)
  | restore (cpu : CpuId) (capability : Capability) (token : IrqStateToken)
  | route (capability : Capability) (vector : UInt8) (cpu : CpuId)
  | setMasked (vector : UInt8) (masked : Bool)
  | deliver (vector : UInt8)
  | endOfInterrupt (cpu : CpuId) (vector : UInt8)
  deriving DecidableEq, Repr

/-- What a successful call returns. -/
inductive Reply where
  | done
  | token (token : IrqStateToken)
  | cpu (cpu : CpuId)
  deriving DecidableEq, Repr

def perform : Request → Call IrqController IrqError Reply
  | .addCpu cpu => do
      addCpu cpu
      return .done
  | .saveDisable cpu capability => return .token (← saveDisable cpu capability)
  | .restore cpu capability token => do
      restore cpu capability token
      return .done
  | .route capability vector cpu => do
      route capability vector cpu
      return .done
  | .setMasked vector masked => do
      setMasked vector masked
      return .done
  | .deliver vector => return .cpu (← deliver vector)
  | .endOfInterrupt cpu vector => do
      endOfInterrupt cpu vector
      return .done

/-- What `route` has checked when it writes. -/
structure Routable (before : IrqController) (capability : Capability) (vector : UInt8)
    (cpu : CpuId) : Prop where
  permitted : require capability .irq Rights.route = .ok ()
  high : 32 ≤ vector
  known : cpu ∈ before.locals

/-- The effect of each way a call can end. -/
inductive Step (before : IrqController) :
    Request → Outcome IrqError Reply → IrqController → Prop
  | rejected (request : Request) (reason : IrqError) : Step before request (.err reason) before
  | added {cpu : CpuId} (unknown : before.locals[cpu]? = none) :
      Step before (.addCpu cpu) (.ok .done)
        { before with locals := before.locals.insert cpu fresh }
  | replaced {cpu : CpuId} {old : LocalIrqState} (known : before.locals[cpu]? = some old) :
      Step before (.addCpu cpu) (.err .unknownCpu)
        { before with locals := before.locals.insert cpu fresh }
  | saved {cpu : CpuId} {capability : Capability} {state : LocalIrqState} {generation : UInt64}
      (present : before.locals[cpu]? = some state) (idle : state.outstanding = false)
      (advanced : generation.toNat = state.generation.toNat + 1) :
      Step before (.saveDisable cpu capability) (.ok (.token ⟨cpu, generation, state.enabled⟩))
        { before with locals := before.locals.insert cpu ⟨false, generation, true⟩ }
  | restored {cpu : CpuId} {capability : Capability} {token : IrqStateToken}
      {state : LocalIrqState} (cpu_eq : token.cpu = cpu)
      (present : before.locals[cpu]? = some state)
      (generation_eq : token.generation = state.generation)
      (outstanding : state.outstanding = true) :
      Step before (.restore cpu capability token) (.ok .done)
        { before with
          locals := before.locals.insert cpu ⟨token.wasEnabled, state.generation, false⟩ }
  | routed {capability : Capability} {vector : UInt8} {cpu : CpuId}
      (routable : Routable before capability vector cpu) (vacant : before.routes[vector]? = none) :
      Step before (.route capability vector cpu) (.ok .done)
        { before with routes := before.routes.insert vector ⟨cpu, vector, false⟩ }
  | rerouted {capability : Capability} {vector : UInt8} {cpu : CpuId} {old : IrqRoute}
      (routable : Routable before capability vector cpu)
      (present : before.routes[vector]? = some old) :
      Step before (.route capability vector cpu) (.err .duplicateRoute)
        { before with routes := before.routes.insert vector ⟨cpu, vector, false⟩ }
  | masked {vector : UInt8} {masked : Bool} {route : IrqRoute}
      (present : before.routes[vector]? = some route) :
      Step before (.setMasked vector masked) (.ok .done)
        { before with routes := before.routes.insert vector { route with masked } }
  | delivered {vector : UInt8} {route : IrqRoute} (present : before.routes[vector]? = some route)
      (unmasked : route.masked = false) :
      Step before (.deliver vector) (.ok (.cpu route.cpu))
        { before with inService := before.inService.insert (route.cpu, vector) true }
  | ended {cpu : CpuId} {vector : UInt8} (serving : before.inService[(cpu, vector)]? = some true) :
      Step before (.endOfInterrupt cpu vector) (.ok .done)
        { before with inService := before.inService.erase (cpu, vector) }
  | dropped {cpu : CpuId} {vector : UInt8}
      (waiting : before.inService[(cpu, vector)]? = some false) :
      Step before (.endOfInterrupt cpu vector) (.err .spuriousAcknowledgement)
        { before with inService := before.inService.erase (cpu, vector) }

theorem require_ne_overflow {capability : Capability} {kind : CapabilityKind} {rights : Rights} :
    require capability kind rights ≠ .overflow := by
  simp [require]

/-- Every call is one of the steps. -/
theorem step_perform (request : Request) (before : IrqController) :
    Step before request (perform request before).1 (perform request before).2 := by
  show Call.Ensures (perform request) (Step before request) before
  cases request with
  | addCpu cpu =>
      simp only [perform, addCpu]
      simp
      constructor
      · exact fun unknown => .added (Std.ExtTreeMap.getElem?_eq_none unknown)
      · exact fun known => .replaced (Std.ExtTreeMap.getElem?_eq_some_getElem known)
  | saveDisable cpu capability =>
      simp only [perform, saveDisable]
      simp [require_ne_overflow, Step.rejected]
      intro _ _ state present idle generation advanced
      exact .saved present idle advanced
  | restore cpu capability token =>
      simp only [perform, restore]
      simp [require_ne_overflow, Step.rejected]
      intro _ _ cpu_eq state present generation_eq outstanding
      exact .restored cpu_eq present generation_eq outstanding
  | route capability vector cpu =>
      simp only [perform, route]
      simp [require_ne_overflow, Step.rejected]
      rintro ⟨⟩ permitted high known
      have routable : Routable before capability vector cpu := ⟨permitted, high, known⟩
      constructor
      · exact fun vacant => .routed routable (Std.ExtTreeMap.getElem?_eq_none vacant)
      · exact fun present => .rerouted routable (Std.ExtTreeMap.getElem?_eq_some_getElem present)
  | setMasked vector masked =>
      simp only [perform, setMasked]
      simp [Step.rejected]
      exact fun route present => .masked present
  | deliver vector =>
      simp only [perform, deliver]
      simp [Step.rejected]
      exact fun route present unmasked => .delivered present unmasked
  | endOfInterrupt cpu vector =>
      simp only [perform, endOfInterrupt]
      simp
      refine ⟨fun serving => .ended serving, fun idle => ?_⟩
      rcases entry : before.inService[(cpu, vector)]? with _ | served
      · rw [BTreeMap.erase_of_absent entry]
        exact .rejected _ _
      · cases served with
        | false => exact .dropped entry
        | true => exact (idle entry).elim

end IrqController

end Bulla.Kernel
