import Bulla.Kernel.Event

/-!
# Runs of the sequencer

Events and actions are numbered by two counters.  An event that is refused for its correlation still
uses up an identifier, so events have gaps; actions have none, and that is why a number below the
counter is the number of an issued action.
-/

namespace Bulla.Kernel.EventSequencer

open Rust Outcome

abbrev SequencerEvent : Type := Rust.Event EventSequencer Request PlatformError Reply

/-- A sequencer without a topology, or one with a topology and a largest system call. -/
def start : Option (CpuSet × UInt64) → EventSequencer
  | none => new
  | some (online, maxSyscall) => withTopology online maxSyscall

/-- The event that a call returns. -/
def returned (occurred : SequencerEvent) : Option Event :=
  match occurred.outcome with
  | .ok (.event event) => some event
  | .ok (.completed _ event) => some event
  | _ => none

/-- The action that a call hands out. -/
def handedOut (occurred : SequencerEvent) : Option IssuedAction :=
  match occurred.outcome with
  | .ok (.issued issued) => some issued
  | _ => none

def events (past : List SequencerEvent) : List Event := past.filterMap returned

def actions (past : List SequencerEvent) : List IssuedAction := past.filterMap handedOut

/-- The identifiers of a run are in order and refer to each other. -/
structure Disciplined (configuration : Option (CpuSet × UInt64)) (past : List SequencerEvent) :
    Prop where
  events_increasing : ((events past).map (·.id)).Pairwise (· < ·)
  events_positive : ∀ event ∈ events past, 1 ≤ event.id
  actions_increasing : ((actions past).map (·.id)).Pairwise (· < ·)
  actions_start : ∀ issued ∈ (actions past).head?, issued.id = 1
  correlated : Guarded (fun earlier occurred => ∀ event ∈ returned occurred,
    ∀ action ∈ event.correlation, ∃ issued ∈ actions earlier, issued.id = action) [] past
  included : ∀ event ∈ events past, ∀ online ∈ (start configuration).online,
    online.contains event.cpu = true
  reported : ∀ occurred ∈ past, ∀ completion event,
    occurred.outcome = .ok (.completed completion event) →
      completion.event = event.id ∧ event.correlation = some completion.action

/-- The counters are past everything they have handed out. -/
structure Numbered (configuration : Option (CpuSet × UInt64)) (past : List SequencerEvent)
    (state : EventSequencer) : Prop where
  events_increasing : ((events past).map (·.id.toNat)).Pairwise (· < ·)
  events_between : ∀ event ∈ events past,
    1 ≤ event.id.toNat ∧ event.id.toNat < state.nextEvent.toNat
  event_positive : 1 ≤ state.nextEvent.toNat
  actions_eq : (actions past).map (·.id.toNat) = List.range' 1 (state.nextAction.toNat - 1)
  action_positive : 1 ≤ state.nextAction.toNat
  online_eq : state.online = (start configuration).online

variable {configuration : Option (CpuSet × UInt64)} {past : List SequencerEvent}
  {before after : EventSequencer}

theorem events_snoc (occurred : SequencerEvent) :
    events (past ++ [occurred]) = events past ++ (returned occurred).toList := by
  rw [events, filterMap_snoc, events]

theorem actions_snoc (occurred : SequencerEvent) :
    actions (past ++ [occurred]) = actions past ++ (handedOut occurred).toList := by
  rw [actions, filterMap_snoc, actions]

/-- The known identifiers are those of the actions that were handed out. -/
theorem Numbered.known_iff (numbered : Numbered configuration past before) {action : ActionId} :
    Known before action ↔ ∃ issued ∈ actions past, issued.id = action := by
  have listed : (∃ issued ∈ actions past, issued.id = action) ↔
      action.toNat ∈ (actions past).map (·.id.toNat) := by
    simp [UInt64.toNat_inj]
  have positive := numbered.action_positive
  rw [listed, numbered.actions_eq, List.mem_range'_1, Known, UInt64.lt_iff_toNat_lt, ne_eq,
    ← UInt64.toNat_inj]
  simp
  omega

theorem Numbered.first_action (numbered : Numbered configuration past before)
    {issued : IssuedAction} (first : (actions past).head? = some issued) : issued.id = 1 := by
  have actions_eq := numbered.actions_eq
  obtain ⟨rest, list_eq⟩ := List.head?_eq_some_iff.mp first
  rw [list_eq] at actions_eq
  rcases count_eq : before.nextAction.toNat - 1 with _ | count
  · rw [count_eq] at actions_eq
    cases actions_eq
  · rw [count_eq, List.range'_succ] at actions_eq
    exact UInt64.toNat_inj.mp (List.cons.inj actions_eq).1

/-- A call that returns neither an event nor an action. -/
theorem Numbered.silent (numbered : Numbered configuration past before) {occurred : SequencerEvent}
    (no_event : returned occurred = none) (no_action : handedOut occurred = none)
    (forward : before.nextEvent.toNat ≤ after.nextEvent.toNat)
    (action_eq : after.nextAction = before.nextAction) (online_eq : after.online = before.online) :
    Numbered configuration (past ++ [occurred]) after := by
  obtain ⟨increasing, between, event_positive, actions_eq, action_positive, configured⟩ := numbered
  refine ⟨?_, ?_, event_positive.trans forward, ?_, ?_, online_eq.trans configured⟩
  · rw [events_snoc, no_event]
    simpa using increasing
  · rw [events_snoc, no_event]
    intro event member
    obtain ⟨positive, below⟩ := between event (by simpa using member)
    exact ⟨positive, below.trans_le forward⟩
  · rw [actions_snoc, no_action, action_eq]
    simpa using actions_eq
  · rw [action_eq]
    exact action_positive

/-- A call that returns the next event. -/
theorem Numbered.entered (numbered : Numbered configuration past before) {occurred : SequencerEvent}
    {event : Event} (event_eq : returned occurred = some event)
    (id_eq : event.id = before.nextEvent) (no_action : handedOut occurred = none)
    (advanced : after.nextEvent.toNat = before.nextEvent.toNat + 1)
    (action_eq : after.nextAction = before.nextAction) (online_eq : after.online = before.online) :
    Numbered configuration (past ++ [occurred]) after := by
  obtain ⟨increasing, between, event_positive, actions_eq, action_positive, configured⟩ := numbered
  refine ⟨?_, ?_, by omega, ?_, ?_, online_eq.trans configured⟩
  · rw [events_snoc, event_eq]
    refine pairwise_map_snoc increasing fun earlier member => ?_
    rw [id_eq]
    exact (between earlier member).2
  · rw [events_snoc, event_eq]
    intro found member
    rcases List.mem_append.mp member with earlier | now
    · obtain ⟨positive, below⟩ := between found earlier
      exact ⟨positive, by omega⟩
    · obtain rfl : found = event := by simpa using now
      rw [id_eq]
      exact ⟨event_positive, by omega⟩
  · rw [actions_snoc, no_action, action_eq]
    simpa using actions_eq
  · rw [action_eq]
    exact action_positive

/-- A call that hands out the next action. -/
theorem Numbered.issued (numbered : Numbered configuration past before) {occurred : SequencerEvent}
    {issued : IssuedAction} (issued_eq : handedOut occurred = some issued)
    (id_eq : issued.id = before.nextAction) (no_event : returned occurred = none)
    (advanced : after.nextAction.toNat = before.nextAction.toNat + 1)
    (event_eq : after.nextEvent = before.nextEvent) (online_eq : after.online = before.online) :
    Numbered configuration (past ++ [occurred]) after := by
  obtain ⟨increasing, between, event_positive, actions_eq, action_positive, configured⟩ := numbered
  refine ⟨?_, ?_, event_eq ▸ event_positive, ?_, by omega, online_eq.trans configured⟩
  · rw [events_snoc, no_event]
    simpa using increasing
  · rw [events_snoc, no_event, event_eq]
    simpa using between
  · have count : after.nextAction.toNat - 1 = (before.nextAction.toNat - 1) + 1 := by omega
    have last : before.nextAction.toNat = 1 + (before.nextAction.toNat - 1) := by omega
    rw [actions_snoc, issued_eq, List.map_append, actions_eq, count, List.range'_1_concat, ← last]
    simp [id_eq]

theorem Numbered.step (numbered : Numbered configuration past before) {request : Request}
    {outcome : Outcome PlatformError Reply} (step : Step before request outcome after) :
    Numbered configuration (past ++ [⟨before, request, outcome, after⟩]) after := by
  cases step with
  | rejected => exact numbered.silent rfl rfl le_rfl rfl rfl
  | assigned => exact numbered.silent rfl rfl le_rfl rfl rfl
  | reassigned => exact numbered.silent rfl rfl le_rfl rfl rfl
  | allowed => exact numbered.silent rfl rfl le_rfl rfl rfl
  | entered admits advanced => exact numbered.entered rfl rfl rfl advanced rfl rfl
  | uncorrelated advanced =>
      exact numbered.silent rfl rfl (by simp only [advanced]; omega) rfl rfl
  | issued valid advanced => exact numbered.issued rfl rfl rfl advanced rfl rfl
  | completed known admits advanced => exact numbered.entered rfl rfl rfl advanced rfl rfl

theorem numbered_run (configuration : Option (CpuSet × UInt64)) (requests : List Request) :
    Numbered configuration (history perform (start configuration) requests)
      (final perform (start configuration) requests) := by
  refine run_induction perform (motive := Numbered configuration) ?_ ?_ requests
  · have counters : (start configuration).nextEvent = 1 ∧ (start configuration).nextAction = 1 := by
      cases configuration <;> exact ⟨rfl, rfl⟩
    refine ⟨.nil, by simp [events], ?_, ?_, ?_, rfl⟩
    · rw [counters.1]
      decide
    · rw [counters.2]
      rfl
    · rw [counters.2]
      decide
  · exact fun past state request numbered => numbered.step (step_perform request state)

/-- An event that is returned is for a processor of the topology, and correlated with a known
action. -/
theorem returned_of_step {request : Request} {outcome : Outcome PlatformError Reply}
    (step : Step before request outcome after) {event : Event}
    (event_eq : returned ⟨before, request, outcome, after⟩ = some event) :
    before.excludes event.cpu = false ∧ ∀ action ∈ event.correlation, Known before action := by
  cases step with
  | entered admits advanced correlated =>
      obtain rfl := Option.some.inj event_eq
      exact ⟨admits.included, correlated⟩
  | completed known admits advanced =>
      obtain rfl := Option.some.inj event_eq
      refine ⟨admits.included, fun action same => ?_⟩
      exact Option.some.inj same ▸ known
  | _ => cases event_eq

/-- A completion names its event and the action that the event is correlated with. -/
theorem reported_of_step {request : Request} {completion : Completion} {event : Event}
    (step : Step before request (.ok (.completed completion event)) after) :
    completion.event = event.id ∧ event.correlation = some completion.action := by
  cases step with
  | completed => exact ⟨rfl, rfl⟩

/-- In every run, rejected calls included, events and actions are numbered in strictly increasing
order from 1, every correlation names an action issued before, every event is for a processor of the
topology, and completions agree with their events. -/
theorem identifiers_disciplined (configuration : Option (CpuSet × UInt64))
    (requests : List Request) :
    Disciplined configuration (history perform (start configuration) requests) := by
  have numbered := numbered_run configuration requests
  have action_ids : ((actions (history perform (start configuration) requests)).map
      (·.id.toNat)).Pairwise (· < ·) := by
    rw [numbered.actions_eq]
    exact List.pairwise_lt_range'
  have event_ids := numbered.events_increasing
  rw [List.pairwise_map] at action_ids event_ids
  refine ⟨?_, ?_, ?_, ?_, ?_, ?_, ?_⟩
  · exact List.pairwise_map.mpr (event_ids.imp UInt64.lt_iff_toNat_lt.mpr)
  · intro event member
    exact UInt64.le_iff_toNat_le.mpr (numbered.events_between event member).1
  · exact List.pairwise_map.mpr (action_ids.imp UInt64.lt_iff_toNat_lt.mpr)
  · exact fun issued first => numbered.first_action first
  · refine guarded_of_invariant perform (Numbered configuration) (numbered_run configuration []) ?_
      requests ((guarded_iff_forall (fun _ => True) [] _).mpr fun _ _ => trivial)
    intro past state request numbered _
    have step := step_perform request state
    refine ⟨fun event event_eq action correlated => ?_, numbered.step step⟩
    exact numbered.known_iff.mp ((returned_of_step step event_eq).2 action correlated)
  · intro event member online configured
    obtain ⟨occurred, occurred_member, event_eq⟩ := List.mem_filterMap.mp member
    have step := step_of_mem_history perform step_perform occurred_member
    have included := (returned_of_step step event_eq).1
    obtain ⟨earlier, later, _, occurred_eq⟩ := exists_split_of_mem_history perform occurred_member
    have before_eq : occurred.before.online = (start configuration).online := by
      rw [occurred_eq]
      exact (numbered_run configuration earlier).online_eq
    rw [excludes, before_eq, Option.mem_def.mp configured] at included
    simpa using included
  · intro occurred member completion event completed
    have step := step_of_mem_history perform step_perform member
    rw [completed] at step
    exact reported_of_step step

end Bulla.Kernel.EventSequencer
