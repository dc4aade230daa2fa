import Bulla.Kernel.Event
import Bulla.Kernel.IrqRoutes

/-!
# Authority over vectors and processors

`route` looks at the kind and the rights of the capability it is given and never at its range, and
`deliver` looks at the route of a vector and never at the processor that it leads to.  So a vector
is routed outside every range, and a processor with disabled interrupts is interrupted, whenever the
caller does not keep from it.
-/

namespace Bulla.Kernel.IrqController

open Rust Outcome

/-- A capability with the right to route interrupts and the vector in its range. -/
def Grants (capability : Capability) (vector : UInt8) : Prop :=
  require capability .irq Rights.route = .ok () ∧
    capability.containsRange vector.toUInt64 1 = true

-- The range is the one that the executor asks for.
example (vector : UInt8) :
    ∀ action ∈ [Action.ackIrq vector, .maskIrq vector, .unmaskIrq vector],
      actionAuthority action = .ok ⟨.irq, Rights.control, vector.toUInt64, 1⟩ := by
  simp [actionAuthority]

/-- A call of `route` brings a capability that grants the vector. -/
def Presents (vector : UInt8) (occurred : IrqEvent) : Prop :=
  ∃ capability target cpu, occurred.input = .route capability target cpu ∧ Grants capability vector

/-- A call of `route` writes a route for the vector, whatever it returns. -/
def Routes (vector : UInt8) (occurred : IrqEvent) : Prop :=
  ∃ capability cpu, occurred.input = .route capability vector cpu ∧
    Routable occurred.before capability vector cpu

/-- A call of `deliver` returns the processor or marks a vector in service on it. -/
def Interrupts (cpu : CpuId) (occurred : IrqEvent) : Prop :=
  (∃ vector, occurred.input = .deliver vector) ∧
    (occurred.outcome = .ok (.cpu cpu) ∨
      ∃ vector : UInt8,
        occurred.after.inService[(cpu, vector)]? ≠ occurred.before.inService[(cpu, vector)]?)

/-- The vector that `deliver` is called for has an unmasked route to the processor. -/
def Targets (cpu : CpuId) (occurred : IrqEvent) : Prop :=
  ∃ vector route, occurred.input = .deliver vector ∧
    occurred.before.routes[vector]? = some route ∧ route.masked = false ∧ route.cpu = cpu

section Step

variable {past : List IrqEvent} {before after : IrqController} {request : Request}
  {outcome : Outcome IrqError Reply} {vector : UInt8} {cpu : CpuId}

theorem perform_route_of_routable {capability : Capability}
    (routable : Routable before capability vector cpu) :
    (perform (.route capability vector cpu) before).2 =
      { before with routes := before.routes.insert vector ⟨cpu, vector, false⟩ } := by
  show Call.Ensures (perform (.route capability vector cpu)) (fun _ after =>
    after = { before with routes := before.routes.insert vector ⟨cpu, vector, false⟩ }) before
  simp only [perform, route]
  simp [routable.permitted, routable.high, routable.known]

/-- Routes are written by `route` alone, and never removed. -/
theorem mem_routes_event :
    vector ∈ (event perform before request).after.routes ↔
      vector ∈ before.routes ∨ Routes vector (event perform before request) := by
  by_cases routes : Routes vector (event perform before request)
  · obtain ⟨capability, cpu, rfl, (routable : Routable before capability vector cpu)⟩ := id routes
    simp only [routes, or_true, iff_true]
    show vector ∈ (perform (.route capability vector cpu) before).2.routes
    rw [perform_route_of_routable routable]
    exact Std.ExtTreeMap.mem_insert_self
  · simp only [routes, or_false]
    have step := step_perform request before
    simp only [Rust.event] at routes ⊢
    generalize (perform request before).1 = outcome,
      (perform request before).2 = after at step routes ⊢
    -- A route that is written is one for another vector.
    have elsewhere {capability : Capability} {target : UInt8} {cpu : CpuId}
        (request_eq : request = .route capability target cpu)
        (routable : Routable before capability target cpu) :
        vector ∈ before.routes.insert target ⟨cpu, target, false⟩ ↔ vector ∈ before.routes := by
      have distinct : target ≠ vector := by
        rintro rfl
        exact routes ⟨capability, cpu, request_eq, routable⟩
      simp [distinct]
    cases step with
    | routed routable vacant => exact elsewhere rfl routable
    | rerouted routable present => exact elsewhere rfl routable
    | masked present => exact BTreeMap.mem_insert_of_present _ present _
    | _ => rfl

theorem perform_deliver {route : IrqRoute} (present : before.routes[vector]? = some route)
    (unmasked : route.masked = false) :
    perform (.deliver vector) before = (.ok (.cpu route.cpu),
      { before with inService := before.inService.insert (route.cpu, vector) true }) := by
  simp [perform, deliver, present, unmasked]

/-- An interrupt reaches the processor that the route of its vector leads to, and no other. -/
theorem interrupts_iff_targets :
    Interrupts cpu (event perform before request) ↔ Targets cpu (event perform before request) := by
  constructor
  · rintro ⟨⟨vector, rfl⟩, reached⟩
    have step := step_perform (.deliver vector) before
    simp only [Rust.event] at reached
    generalize (perform (.deliver vector) before).1 = outcome,
      (perform (.deliver vector) before).2 = after at step reached
    cases step with
    | rejected => simp at reached
    | @delivered _ route present unmasked =>
        refine ⟨vector, route, rfl, present, unmasked, ?_⟩
        rcases reached with returned | ⟨other, marked⟩
        · simpa using returned
        · by_contra distinct
          refine marked (BTreeMap.getElem?_insert_of_ne _ _ ?_)
          exact fun same => distinct (Prod.mk.inj same).1
  · rintro ⟨vector, route, rfl, present, unmasked, rfl⟩
    refine ⟨⟨vector, rfl⟩, .inl ?_⟩
    exact congrArg Prod.fst (perform_deliver present unmasked)

end Step

/-- The routed vectors of a run are those that `route` has written. -/
theorem mem_routes_iff (requests : List Request) (vector : UInt8) :
    vector ∈ (final perform new requests).routes ↔
      ∃ occurred ∈ history perform new requests, Routes vector occurred := by
  refine run_induction perform (motive := fun past state =>
    vector ∈ state.routes ↔ ∃ occurred ∈ past, Routes vector occurred) ?_ ?_ requests
  · simp [new]
  · intro past state request routed
    rw [mem_routes_event, routed]
    simp [or_and_right, exists_or]

/-- A call of `route` that is carried out has its vector in the range of its own capability. -/
def InRange (occurred : IrqEvent) : Prop :=
  ∀ capability vector cpu, occurred.input = .route capability vector cpu →
    Routable occurred.before capability vector cpu →
      capability.containsRange vector.toUInt64 1 = true

theorem presents_of_inRange {vector : UInt8} {occurred : IrqEvent} (ranged : InRange occurred)
    (routes : Routes vector occurred) : Presents vector occurred := by
  obtain ⟨capability, cpu, input_eq, routable⟩ := routes
  exact ⟨capability, vector, cpu, input_eq, routable.permitted,
    ranged capability vector cpu input_eq routable⟩

/-- Every routed vector is in the range of a capability that was presented exactly if every vector
that `route` writes is.  It is enough that the callers of `route` keep to the range of the
capability they pass. -/
theorem routes_granted_iff (requests : List Request) :
    ((∀ vector ∈ (final perform new requests).routes,
        ∃ occurred ∈ history perform new requests, Presents vector occurred) ↔
      ∀ occurred ∈ history perform new requests, ∀ vector, Routes vector occurred →
        ∃ other ∈ history perform new requests, Presents vector other) ∧
    ((∀ occurred ∈ history perform new requests, InRange occurred) →
      ∀ vector ∈ (final perform new requests).routes,
        ∃ occurred ∈ history perform new requests, Presents vector occurred) := by
  refine ⟨⟨?_, ?_⟩, ?_⟩
  · intro granted occurred member vector routes
    exact granted vector ((mem_routes_iff requests vector).mpr ⟨occurred, member, routes⟩)
  · intro granted vector routed
    obtain ⟨occurred, member, routes⟩ := (mem_routes_iff requests vector).mp routed
    exact granted occurred member vector routes
  · intro ranged vector routed
    obtain ⟨occurred, member, routes⟩ := (mem_routes_iff requests vector).mp routed
    exact ⟨occurred, member, presents_of_inRange (ranged occurred member) routes⟩

/-- A capability for vector 40 alone routes vector 50. -/
theorem routed_out_of_range :
    let irq : Capability := ⟨.irq, 0, 0, Rights.route, 0, 40, 1⟩
    let requests : List Request := [.addCpu 0, .route irq 50 0]
    (history perform new requests).map (·.outcome) = [.ok .done, .ok .done] ∧
      (50 : UInt8) ∈ (final perform new requests).routes ∧
      ¬∃ occurred ∈ history perform new requests, Presents 50 occurred := by
  intro irq requests
  have ranged : irq.containsRange 50 1 = false := by decide
  refine ⟨by decide, by decide, ?_⟩
  simp [requests, history, Presents, Grants, ranged]

/-- No interrupt reaches a processor with an outstanding token exactly if `deliver` is not called
for a vector whose unmasked route leads there.  It is enough that the processors which are delivered
to have their interrupts enabled, if `add_cpu` leaves known processors alone. -/
theorem disabled_uninterrupted_iff (requests : List Request) :
    (Guarded (fun past occurred => ∀ cpu, latest (holding cpu) past = some true →
          ¬Interrupts cpu occurred) [] (history perform new requests) ↔
        Guarded (fun past occurred => ∀ cpu, latest (holding cpu) past = some true →
          ¬Targets cpu occurred) [] (history perform new requests)) ∧
      ((∀ occurred ∈ history perform new requests, Leaves occurred.before occurred.input ∧
          ∀ cpu, Targets cpu occurred → occurred.before.interruptsEnabled cpu = some true) →
        Guarded (fun past occurred => ∀ cpu, latest (holding cpu) past = some true →
          ¬Interrupts cpu occurred) [] (history perform new requests)) := by
  constructor
  · refine guarded_iff_of_invariant perform (fun _ _ => True) trivial ?_ (fun _ _ _ _ _ => trivial)
      requests
    intro past state request _
    simp only [interrupts_iff_targets]
  · intro polite
    refine guarded_of_invariant perform Tracked tracked_new ?_ requests
      ((guarded_iff_forall _ [] _).mpr polite)
    rintro past state request tracked ⟨leaves, enabled⟩
    refine ⟨fun cpu held interrupts => ?_, tracked.step (step_perform request state) leaves⟩
    obtain ⟨found, present, outstanding⟩ := tracked.held cpu held
    have disabled := tracked.disabled cpu found present outstanding
    have open_again := enabled cpu (interrupts_iff_targets.mp interrupts)
    simp [Rust.event, interruptsEnabled, present, disabled] at open_again

/-- An interrupt is delivered to a processor between `save_disable` and `restore`. -/
theorem interrupted_while_disabled :
    let irq : Capability := ⟨.irq, 0, 0, Rights.route, 0, 40, 1⟩
    let cpuLocal : Capability := ⟨.cpuLocal, 0, 0, Rights.control, 0, 0, 0⟩
    let requests : List Request :=
      [.addCpu 0, .route irq 40 0, .saveDisable 0 cpuLocal, .deliver 40]
    (history perform new requests).map (·.outcome) =
        [.ok .done, .ok .done, .ok (.token ⟨0, 1, true⟩), .ok (.cpu 0)] ∧
      (final perform new requests).interruptsEnabled 0 = some false ∧
      (final perform new requests).inService[((0 : CpuId), (40 : UInt8))]? = some true := by
  decide

end Bulla.Kernel.IrqController
