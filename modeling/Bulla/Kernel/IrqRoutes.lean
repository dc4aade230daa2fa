import Bulla.Kernel.IrqTokens

/-!
# Refused calls of the interrupt controller

`add_cpu`, `route` and `end_of_interrupt` write first and look at what they replaced afterwards.  A
refused call is therefore harmless only if it writes what was there.
-/

namespace Bulla.Kernel.IrqController

open Rust Outcome

/-- The processor that a successful `route` names for a vector. -/
def routedTo (vector : UInt8) (occurred : IrqEvent) : Option CpuId :=
  match occurred.input, occurred.outcome with
  | .route _ target cpu, .ok _ => if target = vector then some cpu else none
  | _, _ => none

/-- An error leaves everything as it was. -/
def Inert (occurred : IrqEvent) : Prop :=
  ∀ reason, occurred.outcome = .err reason → occurred.after = occurred.before

/-- Interrupts are delivered to the processor of the only successful `route` for their vector. -/
def Reported (past : List IrqEvent) (occurred : IrqEvent) : Prop :=
  ∀ vector cpu, occurred.input = .deliver vector → occurred.outcome = .ok (.cpu cpu) →
    past.filterMap (routedTo vector) = [cpu]

/-- A call does not overwrite anything that it did not find: a known processor is as it was when it
was added, a known route is the same and not masked, and what is not in service is not listed. -/
def Harmless (before : IrqController) : Request → Prop
  | .addCpu cpu => ∀ old, before.locals[cpu]? = some old → old = fresh
  | .route capability vector cpu => Routable before capability vector cpu →
      ∀ old, before.routes[vector]? = some old → old = ⟨cpu, vector, false⟩
  | .endOfInterrupt cpu vector => before.inService[(cpu, vector)]? ≠ some false
  | _ => True

/-- Every route goes back to the only successful `route` for its vector. -/
def Routed (past : List IrqEvent) (state : IrqController) : Prop :=
  ∀ vector : UInt8, past.filterMap (routedTo vector) = (state.routes[vector]?.map (·.cpu)).toList

theorem perform_addCpu_of_known {before : IrqController} {cpu : CpuId}
    (known : cpu ∈ before.locals) :
    perform (.addCpu cpu) before =
      (.err .unknownCpu, { before with locals := before.locals.insert cpu fresh }) := by
  simp [perform, addCpu, known]

theorem perform_route_of_known {before : IrqController} {capability : Capability} {vector : UInt8}
    {cpu : CpuId} (routable : Routable before capability vector cpu)
    (known : vector ∈ before.routes) :
    perform (.route capability vector cpu) before =
      (.err .duplicateRoute,
        { before with routes := before.routes.insert vector ⟨cpu, vector, false⟩ }) := by
  rw [Call.eq_iff_ensures]
  simp only [perform, route]
  simp [routable.permitted, routable.high, routable.known, known]

theorem perform_endOfInterrupt_of_idle {before : IrqController} {cpu : CpuId} {vector : UInt8}
    (idle : before.inService[(cpu, vector)]? = some false) :
    perform (.endOfInterrupt cpu vector) before =
      (.err .spuriousAcknowledgement,
        { before with inService := before.inService.erase (cpu, vector) }) := by
  simp [perform, endOfInterrupt, idle]

section Step

variable {past : List IrqEvent} {before after : IrqController} {request : Request}
  {outcome : Outcome IrqError Reply}

theorem harmless_of_inert (inert : Inert (event perform before request)) :
    Harmless before request := by
  have inert : (perform request).Inert before := inert
  cases request with
  | addCpu cpu =>
      intro old present
      have refused := perform_addCpu_of_known (BTreeMap.mem_of_present present)
      have same := inert.unchanged refused
      exact BTreeMap.eq_of_insert_eq (congrArg locals same) present
  | route capability vector cpu =>
      intro routable old present
      have refused := perform_route_of_known routable (BTreeMap.mem_of_present present)
      have same := inert.unchanged refused
      exact BTreeMap.eq_of_insert_eq (congrArg routes same) present
  | endOfInterrupt cpu vector =>
      intro idle
      have refused := perform_endOfInterrupt_of_idle idle
      rw [← inert.unchanged refused] at idle
      simp at idle
  | _ => trivial

theorem inert_of_harmless (step : Step before request outcome after)
    (harmless : Harmless before request) : Inert ⟨before, request, outcome, after⟩ := by
  intro reason refused
  cases step with
  | rejected => rfl
  | @replaced cpu old known =>
      obtain rfl := harmless old known
      simp only [BTreeMap.insert_of_present known]
  | @rerouted capability vector cpu old routable present =>
      obtain rfl := harmless routable old present
      simp only [BTreeMap.insert_of_present present]
  | dropped waiting => exact (harmless waiting).elim
  | _ => cases refused

theorem Routed.step (routed : Routed past before) (step : Step before request outcome after)
    (harmless : Harmless before request) :
    Routed (past ++ [⟨before, request, outcome, after⟩]) after := by
  intro vector
  rw [filterMap_snoc, routed vector]
  cases step with
  | rejected request => cases request <;> simp [routedTo]
  | @routed capability target cpu routable vacant =>
      by_cases same : target = vector
      · subst same
        simp [routedTo, vacant]
      · simp only [BTreeMap.getElem?_insert_of_ne _ _ same]
        simp [routedTo, same]
  | @rerouted capability target cpu old routable present =>
      obtain rfl := harmless routable old present
      simp only [BTreeMap.insert_of_present present]
      simp [routedTo]
  | @masked target masked route present =>
      by_cases same : target = vector
      · subst same
        simp [routedTo, present]
      · simp only [BTreeMap.getElem?_insert_of_ne _ _ same]
        simp [routedTo]
  | _ => simp [routedTo]

theorem Routed.reported (routed : Routed past before) (step : Step before request outcome after) :
    Reported past ⟨before, request, outcome, after⟩ := by
  rintro vector cpu rfl rfl
  rw [routed vector]
  cases step with
  | delivered present unmasked => simp [present]

theorem Harmless.leaves (harmless : Harmless before request) : Leaves before request := by
  cases request with
  | addCpu cpu => exact harmless
  | _ => trivial

end Step

/-- Refused calls change nothing exactly if they overwrite nothing else than what they write.  In
the runs of such calls, and only in these, refused calls are inert, interrupts go where the one
successful `route` sent them, and tokens that were taken back are not accepted again. -/
theorem inert_iff_harmless (before : IrqController) (request : Request)
    (requests : List Request) :
    (Inert (event perform before request) ↔ Harmless before request) ∧
      (Guarded (fun past occurred => Inert occurred ∧ Reported past occurred ∧
          ∀ token ∈ spentToken occurred, token ∉ past.filterMap spentToken) []
        (history perform new requests) ↔
      ∀ occurred ∈ history perform new requests, Harmless occurred.before occurred.input) := by
  have inert_iff (before : IrqController) (request : Request) :
      Inert (event perform before request) ↔ Harmless before request :=
    ⟨harmless_of_inert, inert_of_harmless (step_perform request before)⟩
  refine ⟨inert_iff before request, ?_⟩
  rw [← guarded_iff_forall (fun occurred : IrqEvent => Harmless occurred.before occurred.input) []]
  refine guarded_iff_of_invariant perform
    (fun past state => Tracked past state ∧ Routed past state) ⟨tracked_new, ?_⟩ ?_ ?_ requests
  · intro vector
    simp [new]
  · rintro past state request ⟨tracked, routed⟩
    have step := step_perform request state
    constructor
    · exact fun passed => (inert_iff state request).mp passed.1
    · intro harmless
      refine ⟨(inert_iff state request).mpr harmless, routed.reported step, ?_⟩
      exact (tracked.singleUse step).once
  · rintro past state request ⟨tracked, routed⟩ harmless
    have step := step_perform request state
    exact ⟨tracked.step step harmless.leaves, routed.step step harmless⟩

/-- A refused `route` moves the vector, and a refused `add_cpu` makes a token usable again. -/
theorem moved_by_refused_calls :
    let irq : Capability := ⟨.irq, 0, 0, Rights.route, 0, 0, 0⟩
    let cpuLocal : Capability := ⟨.cpuLocal, 0, 0, Rights.control, 0, 0, 0⟩
    (history perform new [.addCpu 0, .addCpu 1, .route irq 40 0, .route irq 40 1,
        .deliver 40]).map (·.outcome) =
      [.ok .done, .ok .done, .ok .done, .err .duplicateRoute, .ok (.cpu 1)] ∧
    (history perform new [.addCpu 0, .saveDisable 0 cpuLocal, .restore 0 cpuLocal ⟨0, 1, true⟩,
        .addCpu 0, .saveDisable 0 cpuLocal, .restore 0 cpuLocal ⟨0, 1, true⟩]).map (·.outcome) =
      [.ok .done, .ok (.token ⟨0, 1, true⟩), .ok .done, .err .unknownCpu,
        .ok (.token ⟨0, 1, true⟩), .ok .done] ∧
    ¬Inert (event perform (final perform new [.addCpu 0, .addCpu 1, .route irq 40 0])
      (.route irq 40 1)) := by
  refine ⟨by decide, by decide, fun inert => ?_⟩
  have same := congrArg (·.routes[(40 : UInt8)]?) (inert .duplicateRoute (by decide))
  revert same
  decide

end Bulla.Kernel.IrqController
