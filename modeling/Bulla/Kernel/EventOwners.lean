import Bulla.Kernel.EventRuns

/-!
# Owners of interrupt vectors

`assign_irq` replaces the owner of a vector before it reports that the vector is taken.  Interrupts
enter only on the processor that was accepted as their owner exactly in the runs in which no
assignment names another processor for a vector that has an owner.
-/

namespace Bulla.Kernel.EventSequencer

open Rust Outcome

/-- An assignment that was accepted. -/
def Assigned (past : List SequencerEvent) (vector : UInt8) (cpu : CpuId) : Prop :=
  ∃ occurred ∈ past, occurred.input = .assignIrq vector cpu ∧ occurred.outcome = .ok .done

/-- An interrupt enters only on a processor that was accepted as its owner, and no owner changes. -/
structure Owned (past : List SequencerEvent) (occurred : SequencerEvent) : Prop where
  entered : ∀ cpu vector correlation event,
    occurred.input = .ingress cpu (.irq vector) correlation →
    occurred.outcome = .ok (.event event) → Assigned past vector cpu
  unchanged : ∀ (vector : UInt8) (owner : CpuId),
    occurred.before.irqOwners[vector]? = some owner →
    occurred.after.irqOwners[vector]? = some owner

/-- An assignment that passes the checks does not name another processor for an owned vector. -/
def Respects (before : EventSequencer) : Request → Prop
  | .assignIrq vector cpu =>
      32 ≤ vector → before.excludes cpu = false →
        ∀ owner, before.irqOwners[vector]? = some owner → owner = cpu
  | _ => True

/-- Every owner in the table was accepted. -/
def Accepted (past : List SequencerEvent) (state : EventSequencer) : Prop :=
  ∀ (vector : UInt8) (cpu : CpuId), state.irqOwners[vector]? = some cpu → Assigned past vector cpu

theorem Assigned.mono {past : List SequencerEvent} {vector : UInt8} {cpu : CpuId}
    (assigned : Assigned past vector cpu) (occurred : SequencerEvent) :
    Assigned (past ++ [occurred]) vector cpu := by
  obtain ⟨earlier, member, accepted⟩ := assigned
  exact ⟨earlier, List.mem_append_left _ member, accepted⟩

theorem perform_assignIrq_owned {before : EventSequencer} {vector : UInt8} {cpu owner : CpuId}
    (high : 32 ≤ vector) (included : before.excludes cpu = false)
    (owned : before.irqOwners[vector]? = some owner) :
    perform (.assignIrq vector cpu) before =
      (.err .unownedVector, { before with irqOwners := before.irqOwners.insert vector cpu }) := by
  have member : vector ∈ before.irqOwners := BTreeMap.mem_of_present owned
  simp [perform, assignIrq, high, included, member]

section Step

variable {past : List SequencerEvent} {before after : EventSequencer} {request : Request}
  {outcome : Outcome PlatformError Reply}

/-- An interrupt that enters is for the owner in the table. -/
theorem owner_of_entered {cpu : CpuId} {vector : UInt8} {correlation : Option ActionId}
    {event : Event}
    (step : Step before (.ingress cpu (.irq vector) correlation) (.ok (.event event)) after) :
    before.irqOwners[vector]? = some cpu := by
  cases step with
  | entered admits advanced correlated =>
      have payload := admits.payload
      simp only [validateKind, rejectIf_eq_ok, not_or, not_not] at payload
      exact payload.2

theorem Accepted.kept (accepted : Accepted past before) (occurred : SequencerEvent)
    (same : after.irqOwners = before.irqOwners) : Accepted (past ++ [occurred]) after := by
  intro vector cpu found
  rw [same] at found
  exact (accepted vector cpu found).mono occurred

/-- Assignments that respect the owners keep every owner accepted and in place. -/
theorem Accepted.step (accepted : Accepted past before) (step : Step before request outcome after)
    (respects : Respects before request) :
    (∀ (vector : UInt8) (owner : CpuId), before.irqOwners[vector]? = some owner →
      after.irqOwners[vector]? = some owner) ∧
    Accepted (past ++ [⟨before, request, outcome, after⟩]) after := by
  cases step with
  | @assigned vector cpu high included vacant =>
      constructor
      · intro other owner found
        have distinct : vector ≠ other := by
          rintro rfl
          rw [vacant] at found
          cases found
        exact (BTreeMap.getElem?_insert_of_ne _ _ distinct).trans found
      · intro other owner found
        rcases BTreeMap.getElem?_insert_eq_some.mp found with ⟨rfl, rfl⟩ | ⟨_, old⟩
        · exact ⟨_, List.mem_append_right _ (List.mem_singleton_self _), rfl, rfl⟩
        · exact (accepted other owner old).mono _
  | @reassigned vector cpu owner high included owned =>
      obtain rfl := respects high included owner owned
      have same : before.irqOwners.insert vector owner = before.irqOwners :=
        BTreeMap.insert_of_present owned
      refine ⟨fun other found_owner found => ?_, accepted.kept _ same⟩
      simp only [same]
      exact found
  | rejected => exact ⟨fun _ _ found => found, accepted.kept _ rfl⟩
  | allowed => exact ⟨fun _ _ found => found, accepted.kept _ rfl⟩
  | entered => exact ⟨fun _ _ found => found, accepted.kept _ rfl⟩
  | uncorrelated => exact ⟨fun _ _ found => found, accepted.kept _ rfl⟩
  | issued => exact ⟨fun _ _ found => found, accepted.kept _ rfl⟩
  | completed => exact ⟨fun _ _ found => found, accepted.kept _ rfl⟩

/-- A call that leaves every owner in place respects the owners. -/
theorem respects_of_unchanged
    (unchanged : ∀ (vector : UInt8) (owner : CpuId), before.irqOwners[vector]? = some owner →
      (perform request before).2.irqOwners[vector]? = some owner) : Respects before request := by
  cases request with
  | assignIrq vector cpu =>
      intro high included owner owned
      have kept := unchanged vector owner owned
      rw [perform_assignIrq_owned high included owned] at kept
      simpa using kept.symm
  | _ => trivial

end Step

/-- Interrupts enter only on accepted owners and no owner changes in exactly the runs in which every
assignment respects the owners. -/
theorem owned_iff_respects (configuration : Option (CpuSet × UInt64)) (requests : List Request) :
    Guarded Owned [] (history perform (start configuration) requests) ↔
      ∀ occurred ∈ history perform (start configuration) requests,
        Respects occurred.before occurred.input := by
  rw [← guarded_iff_forall
    (fun occurred : SequencerEvent => Respects occurred.before occurred.input) []]
  refine guarded_iff_of_invariant perform Accepted ?_ ?_ ?_ requests
  · intro vector cpu found
    cases configuration <;> simp [start, new, withTopology] at found
  · intro past state request accepted
    refine ⟨fun owned => respects_of_unchanged owned.unchanged, fun respects => ⟨?_, ?_⟩⟩
    · intro cpu vector correlation event input_eq returned
      obtain rfl : request = .ingress cpu (.irq vector) correlation := input_eq
      have step := step_perform (.ingress cpu (.irq vector) correlation) state
      rw [show (perform _ state).1 = .ok (.event event) from returned] at step
      exact accepted vector cpu (owner_of_entered step)
    · exact (accepted.step (step_perform request state) respects).1
  · exact fun past state request accepted respects =>
      (accepted.step (step_perform request state) respects).2

/-- A refused assignment hands a vector to another processor, where the interrupt then enters. -/
theorem entered_through_refused_assignment :
    ∃ sequencer, (assignIrq 40 0 new).1 = .ok () ∧
      assignIrq 40 1 (assignIrq 40 0 new).2 = (.err .unownedVector, sequencer) ∧
      (ingress 1 (.irq 40) none sequencer).1 = .ok ⟨1, 1, none, .irq 40⟩ ∧
      ¬Guarded Owned [] (history perform (start none)
        [.assignIrq 40 0, .assignIrq 40 1, .ingress 1 (.irq 40) none]) := by
  refine ⟨_, rfl, rfl, by decide, fun guarded => ?_⟩
  have kept := guarded.2.1.unchanged 40 0 (by decide)
  exact absurd kept (by decide)

end Bulla.Kernel.EventSequencer
