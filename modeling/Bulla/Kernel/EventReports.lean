import Bulla.Kernel.EventRuns

/-!
# Completions that enter as events

`complete` asks whether an action was issued and then enters its completion like any other event.
The sequencer keeps no record of what has been completed, and `issue` does not look at what the
completion will have to pass, so an action may be completed again, or never.
-/

namespace Bulla.Kernel.EventSequencer

open Rust Outcome

/-- What a successful action must bring for its completion to enter as an event. -/
def Reportable (state : EventSequencer) : Action → Except PlatformError Unit → Prop
  | .sendIpi _ vector epoch, .ok () => 32 ≤ vector ∧ epoch ≠ 0
  | .submitDma slot, .ok () => slot ∈ state.dmaSlots
  | _, _ => True

theorem validateKind_completionKind {state : EventSequencer} {cpu : CpuId} {action : Action}
    {result : Except PlatformError Unit} :
    state.validateKind cpu (completionKind action result) = .ok () ↔
      Reportable state action result := by
  rcases result with reason | ⟨⟩
  · cases action <;> simp [completionKind, validateKind, Reportable]
  · cases action <;> simp [completionKind, validateKind, Reportable]

instance (state : EventSequencer) (cpu : CpuId) (kind : EventKind) :
    Decidable (Admits state cpu kind) :=
  decidable_of_iff (state.excludes cpu = false ∧ state.validateKind cpu kind = .ok ())
    ⟨fun both => ⟨both.1, both.2⟩, fun admits => ⟨admits.included, admits.payload⟩⟩

/-- An event of this kind is admitted, and there is an identifier left for it. -/
def Passes (state : EventSequencer) (cpu : CpuId) (kind : EventKind) : Prop :=
  Admits state cpu kind ∧ state.nextEvent.toNat + 1 < 2 ^ 64

instance (state : EventSequencer) (cpu : CpuId) (kind : EventKind) :
    Decidable (Passes state cpu kind) :=
  inferInstanceAs (Decidable (_ ∧ _))

theorem perform_complete {state : EventSequencer} {issued : IssuedAction} {cpu : CpuId}
    {result : Except PlatformError Unit} {next : EventId} (known : Known state issued.id)
    (admits : Admits state cpu (completionKind issued.action result))
    (advanced : next.toNat = state.nextEvent.toNat + 1) :
    perform (.complete issued cpu result) state =
      (.ok (.completed ⟨issued.id, state.nextEvent, result⟩
        ⟨cpu, state.nextEvent, some issued.id, completionKind issued.action result⟩),
        { state with nextEvent := next }) := by
  obtain ⟨nonzero, below⟩ := known
  obtain ⟨included, payload⟩ := admits
  have advances : checkedAdd state.nextEvent 1 = some next := checkedAdd_eq_some.mpr advanced
  rw [Call.eq_iff_ensures]
  simp only [perform, complete, ingress]
  simp [nonzero, below, included, payload, advances]

/-- The completion of a known action is refused only as an event. -/
theorem complete_returns_iff {state : EventSequencer} {issued : IssuedAction} {cpu : CpuId}
    {result : Except PlatformError Unit} (known : Known state issued.id) :
    (∃ reply, (perform (.complete issued cpu result) state).1 = .ok reply) ↔
      Passes state cpu (completionKind issued.action result) := by
  constructor
  · rintro ⟨reply, returned⟩
    have step := step_perform (.complete issued cpu result) state
    rw [returned] at step
    generalize (perform (.complete issued cpu result) state).2 = after at step
    cases step with
    | @completed _ _ _ next _ admits advanced =>
        have bound := next.toNat_lt
        exact ⟨admits, by omega⟩
  · rintro ⟨admits, left⟩
    obtain ⟨next, advanced⟩ := exists_toNat_eq left
    exact ⟨_, by rw [perform_complete known admits advanced]⟩

/-- An issued action can be completed, on a processor of the topology and while there are event
identifiers left, exactly if its completion brings what an event of its kind must bring. -/
theorem completes_iff_reportable (configuration : Option (CpuSet × UInt64))
    (requests : List Request) (issued : IssuedAction) (cpu : CpuId)
    (result : Except PlatformError Unit)
    (handed : issued ∈ actions (history perform (start configuration) requests))
    (included : (start configuration).excludes cpu = false)
    (left : (final perform (start configuration) requests).nextEvent.toNat + 1 < 2 ^ 64) :
    (∃ reply, (perform (.complete issued cpu result)
      (final perform (start configuration) requests)).1 = .ok reply) ↔
      Reportable (final perform (start configuration) requests) issued.action result := by
  have numbered := numbered_run configuration requests
  have still_included : (final perform (start configuration) requests).excludes cpu = false := by
    rw [excludes, numbered.online_eq]
    exact included
  rw [complete_returns_iff (numbered.known_iff.mpr ⟨issued, handed, rfl⟩),
    ← validateKind_completionKind]
  exact ⟨fun passes => passes.1.payload, fun payload => ⟨⟨still_included, payload⟩, left⟩⟩

/-- A processor that was started can report it. -/
theorem completes_started_processor :
    ∃ reply, (perform (.complete ⟨1, .startCpu 1⟩ 1 (.ok ()))
      (final perform (start none) [.issue (.startCpu 1)])).1 = .ok reply :=
  (completes_iff_reportable none [.issue (.startCpu 1)] ⟨1, .startCpu 1⟩ 1 (.ok ())
    List.mem_cons_self rfl (by decide)).mpr trivial

/-- An interrupt on a reserved vector and a transfer in an unknown slot are issued, and neither can
be completed. -/
theorem issued_without_completion :
    (∃ sequencer, issue (.sendIpi (CpuSet.fromIds [1]) 16 1) new =
        (.ok ⟨1, .sendIpi (CpuSet.fromIds [1]) 16 1⟩, sequencer) ∧
      (complete ⟨1, .sendIpi (CpuSet.fromIds [1]) 16 1⟩ 0 (.ok ()) sequencer).1 =
        .err .invalidPayload) ∧
    ∃ sequencer, issue (.submitDma 3) new = (.ok ⟨1, .submitDma 3⟩, sequencer) ∧
      (complete ⟨1, .submitDma 3⟩ 0 (.ok ()) sequencer).1 = .err .unownedDmaSlot :=
  ⟨⟨_, rfl, rfl⟩, _, rfl, rfl⟩

/-- The action of a `complete` call that returns `Ok`. -/
def completedId (occurred : SequencerEvent) : Option ActionId :=
  match occurred.input, occurred.outcome with
  | .complete issued _ _, .ok _ => some issued.id
  | _, _ => none

/-- `complete` is given only what `issue` has returned. -/
def Issued (past : List SequencerEvent) (occurred : SequencerEvent) : Prop :=
  match occurred.input with
  | .complete issued _ _ => issued ∈ actions past
  | _ => True

/-- The action of a `complete` call whose completion passes as an event. -/
def passingId (occurred : SequencerEvent) : Option ActionId :=
  match occurred.input with
  | .complete issued cpu result =>
      if Passes occurred.before cpu (completionKind issued.action result) then some issued.id
      else none
  | _ => none

/-- An action whose completion passes as an event is not presented once more, unless what is
presented then does not pass. -/
def Unrepeated (past : List SequencerEvent) (occurred : SequencerEvent) : Prop :=
  ∀ action ∈ passingId occurred, action ∉ past.filterMap passingId

/-- For what was issued, `complete` returns `Ok` whenever the completion passes as an event. -/
theorem completedId_eq_passingId {past : List SequencerEvent} {state : EventSequencer}
    {configuration : Option (CpuSet × UInt64)} (numbered : Numbered configuration past state)
    {request : Request} (issued : Issued past (event perform state request)) :
    completedId (event perform state request) = passingId (event perform state request) := by
  cases request with
  | complete action cpu result =>
      have known := numbered.known_iff.mpr ⟨action, issued, rfl⟩
      have returns : _ ↔ Passes state cpu (completionKind action.action result) :=
        complete_returns_iff known
      by_cases passes : Passes state cpu (completionKind action.action result)
      · obtain ⟨reply, returned⟩ := returns.mpr passes
        simp [completedId, passingId, event, returned, passes]
      · have refused := mt returns.mp passes
        rcases outcome : (perform (.complete action cpu result) state).1 with reply | _ | _
        · exact (refused ⟨reply, outcome⟩).elim
        · simp [completedId, passingId, event, outcome, passes]
        · simp [completedId, passingId, event, outcome, passes]
  | _ => rfl

/-- In a run that completes only what was issued, every action is completed at most once exactly if
no action is presented again after its completion has passed. -/
theorem completed_once_iff_unrepeated (configuration : Option (CpuSet × UInt64))
    (requests : List Request)
    (issued : Guarded Issued [] (history perform (start configuration) requests)) :
    ((history perform (start configuration) requests).filterMap completedId).Nodup ↔
      Guarded Unrepeated [] (history perform (start configuration) requests) := by
  have same : ∀ occurred ∈ history perform (start configuration) requests,
      completedId occurred = passingId occurred := by
    rw [← guarded_iff_forall (fun occurred => completedId occurred = passingId occurred) []]
    refine guarded_of_invariant perform (Numbered configuration) (numbered_run configuration []) ?_
      requests issued
    intro past state request numbered issued
    exact ⟨completedId_eq_passingId numbered issued, numbered.step (step_perform request state)⟩
  rw [List.filterMap_congr same]
  exact nodup_filterMap_iff passingId _

/-- A timer that is reported once is completed once. -/
theorem completed_once_of_timer :
    ((history perform (start none) [.issue (.armTimer 100),
      .complete ⟨1, .armTimer 100⟩ 0 (.ok ())]).filterMap completedId).Nodup :=
  (completed_once_iff_unrepeated none [.issue (.armTimer 100),
    .complete ⟨1, .armTimer 100⟩ 0 (.ok ())] ⟨trivial, List.mem_cons_self, trivial⟩).mpr
    ⟨by rintro _ ⟨⟩, fun _ _ => List.not_mem_nil, trivial⟩

/-- One start of a processor is reported twice, in two events with different identifiers. -/
theorem started_processor_completed_twice :
    ∃ requests, Guarded Issued [] (history perform (start none) requests) ∧
      (history perform (start none) requests).filterMap completedId = [1, 1] ∧
      events (history perform (start none) requests) =
        [⟨1, 1, some 1, .cpuOnline⟩, ⟨1, 2, some 1, .cpuOnline⟩] ∧
      ¬((history perform (start none) requests).filterMap completedId).Nodup :=
  ⟨[.issue (.startCpu 1), .complete ⟨1, .startCpu 1⟩ 1 (.ok ()),
    .complete ⟨1, .startCpu 1⟩ 1 (.ok ())],
    ⟨trivial, List.mem_cons_self, List.mem_cons_self, trivial⟩, rfl, rfl, by decide⟩

end Bulla.Kernel.EventSequencer
