import Bulla.Kernel.Policy

/-!
# Runs of the policy

Identifiers of accepted events increase across all processors, so a replayed event is refused, and
the counters of a shard count the events that its processor has had.  `add_cpu` puts a fresh shard
in place before it reports that the processor is known: this brings a processor back that has shut
down.
-/

namespace Bulla.Kernel.KernelPolicy

open Rust Outcome

abbrev PolicyEvent : Type :=
  Rust.Event KernelPolicy Request PolicyError (Option (ActionBatch 4))

/-- The processor whose `ShutdownRequest` a step accepts. -/
def shutDown (occurred : PolicyEvent) : Option CpuId :=
  match occurred.input, occurred.outcome with
  | .step event, .ok _ => if terminating event.kind then some event.cpu else none
  | _, _ => none

/-- Every step for a processor that has been shut down is refused. -/
def Terminated (past : List PolicyEvent) (state : KernelPolicy) : Prop :=
  ∀ event : EventSequencer.Event, event.cpu ∈ past.filterMap shutDown →
    ∃ reason, (perform (.step event) state).1 = .err reason

/-- `add_cpu` does not name a processor that has shut down while there are identifiers left. -/
def Leaves (before : KernelPolicy) : Request → Prop
  | .addCpu cpu => ∀ shard, before.shards[cpu]? = some shard → shard.terminal = true →
      before.lastGlobalEvent.toNat + 1 = 2 ^ 64
  | _ => True

/-- The terminal shards are those of the processors that have been shut down, as long as there are
identifiers left. -/
structure Absorbed (past : List PolicyEvent) (state : KernelPolicy) : Prop where
  terminal : ∀ cpu ∈ past.filterMap shutDown,
    (∃ shard, state.shards[cpu]? = some shard ∧ shard.terminal = true) ∨
      state.lastGlobalEvent.toNat + 1 = 2 ^ 64
  accepted : ∀ (cpu : CpuId) (shard : CpuShard), state.shards[cpu]? = some shard →
    shard.terminal = true → cpu ∈ past.filterMap shutDown

section Step

variable {past : List PolicyEvent} {before after : KernelPolicy} {request : Request}
  {outcome : Outcome PolicyError (Option (ActionBatch 4))}

/-- The shard of an event that is taken is not terminal. -/
theorem Takes.running_of_present {event : EventSequencer.Event} {shard found : CpuShard}
    (takes : Takes before event shard) (present : before.shards[event.cpu]? = some found) :
    found.terminal = false := by
  obtain rfl := Option.some.inj (takes.present.symm.trans present)
  exact takes.running

/-- A step for a terminal shard, or after the last identifier, is refused. -/
theorem refused_of_step {event : EventSequencer.Event}
    (closed : (∃ shard, before.shards[event.cpu]? = some shard ∧ shard.terminal = true) ∨
      before.lastGlobalEvent.toNat + 1 = 2 ^ 64)
    (step : Step before (.step event) outcome after) : ∃ reason, outcome = .err reason := by
  have untaken {shard : CpuShard} (takes : Takes before event shard) : False := by
    rcases closed with ⟨found, present, terminal⟩ | last
    · rw [takes.running_of_present present] at terminal
      cases terminal
    · have newer := UInt64.lt_iff_toNat_lt.mp takes.newer
      have bound := event.id.toNat_lt
      omega
  cases step with
  | rejected request reason => exact ⟨reason, rfl⟩
  | taken takes updates => exact (untaken takes).elim
  | overflowed takes timer updates => exact (untaken takes).elim
  | exhausted takes cause => exact (untaken takes).elim

theorem Absorbed.terminated (absorbed : Absorbed past before) : Terminated past before :=
  fun event member => refused_of_step (absorbed.terminal event.cpu member)
    (step_perform (.step event) before)

/-- A fresh shard does not bring a processor back if the call leaves terminal shards alone. -/
theorem Absorbed.add (absorbed : Absorbed past before) {cpu : CpuId} {occurred : PolicyEvent}
    (leaves : Leaves before (.addCpu cpu)) (silent : shutDown occurred = none) :
    Absorbed (past ++ [occurred])
      { before with shards := before.shards.insert cpu ⟨cpu, 0, 0, 0, false⟩ } := by
  constructor
  · intro other member
    have earlier : other ∈ past.filterMap shutDown := by
      simpa [mem_filterMap_snoc, silent] using member
    rcases absorbed.terminal other earlier with ⟨shard, present, terminal⟩ | last
    · by_cases same : cpu = other
      · subst same
        exact .inr (leaves shard present terminal)
      · exact .inl ⟨shard, (BTreeMap.getElem?_insert_of_ne _ _ same).trans present, terminal⟩
    · exact .inr last
  · intro other shard found terminal
    refine mem_filterMap_snoc.mpr (.inl ?_)
    rcases BTreeMap.getElem?_insert_eq_some.mp found with ⟨_, rfl⟩ | ⟨_, old⟩
    · cases terminal
    · exact absorbed.accepted other shard old terminal

/-- A step makes the shard of its processor terminal exactly if it accepts a shutdown. -/
theorem Absorbed.take (absorbed : Absorbed past before) {event : EventSequencer.Event}
    {shard updated : CpuShard} {occurred : PolicyEvent} (takes : Takes before event shard)
    (names : ∀ cpu, shutDown occurred = some cpu ↔ cpu = event.cpu ∧ updated.terminal = true) :
    Absorbed (past ++ [occurred]) ⟨before.shards.insert event.cpu updated, event.id⟩ := by
  have newer := UInt64.lt_iff_toNat_lt.mp takes.newer
  have bound := event.id.toNat_lt
  constructor
  · intro cpu member
    left
    rcases mem_filterMap_snoc.mp member with earlier | now
    · rcases absorbed.terminal cpu earlier with ⟨found, present, terminal⟩ | last
      · have distinct : event.cpu ≠ cpu := by
          rintro rfl
          rw [takes.running_of_present present] at terminal
          cases terminal
        exact ⟨found, (BTreeMap.getElem?_insert_of_ne _ _ distinct).trans present, terminal⟩
      · omega
    · obtain ⟨rfl, terminal⟩ := (names cpu).mp now
      exact ⟨updated, Std.ExtTreeMap.getElem?_insert_self, terminal⟩
  · intro cpu found present terminal
    refine mem_filterMap_snoc.mpr ?_
    rcases BTreeMap.getElem?_insert_eq_some.mp present with ⟨rfl, rfl⟩ | ⟨_, old⟩
    · exact .inr ((names event.cpu).mpr ⟨rfl, terminal⟩)
    · exact .inl (absorbed.accepted cpu found old terminal)

theorem Absorbed.step (absorbed : Absorbed past before) (step : Step before request outcome after)
    (leaves : Leaves before request) :
    Absorbed (past ++ [⟨before, request, outcome, after⟩]) after := by
  cases step with
  | rejected request reason =>
      have silent : shutDown ⟨before, request, .err reason, before⟩ = none := by
        cases request <;> rfl
      constructor
      · intro cpu member
        exact absorbed.terminal cpu (by simpa [mem_filterMap_snoc, silent] using member)
      · intro cpu shard present terminal
        exact mem_filterMap_snoc.mpr (.inl (absorbed.accepted cpu shard present terminal))
  | added unknown => exact absorbed.add leaves rfl
  | replaced known => exact absorbed.add leaves rfl
  | @taken event shard updated batch takes updates =>
      refine absorbed.take takes fun cpu => ?_
      have terminal := updates.terminal
      simp only [takes.running, Bool.false_or] at terminal
      show (if terminating event.kind then some event.cpu else none) = some cpu ↔ _
      rw [terminal]
      cases terminating event.kind <;> simp [eq_comm]
  | @overflowed event shard updated takes timer updates =>
      refine absorbed.take takes fun cpu => ?_
      have terminal := updates.terminal
      simp only [takes.running, timer, terminating, Bool.or_false] at terminal
      simp [shutDown, terminal]
  | exhausted takes cause =>
      refine absorbed.take takes fun cpu => ?_
      simp [shutDown, takes.running]

end Step

/-- `add_cpu` writes the shard, whatever it returns. -/
theorem addCpu_writes (cpu : CpuId) (before : KernelPolicy) :
    (perform (.addCpu cpu) before).2 =
      { before with shards := before.shards.insert cpu ⟨cpu, 0, 0, 0, false⟩ } := by
  show Call.Ensures (perform (.addCpu cpu)) (fun _ after => after =
    { before with shards := before.shards.insert cpu ⟨cpu, 0, 0, 0, false⟩ }) before
  simp only [perform, addCpu]
  simp

/-- A fresh shard takes the last event there is. -/
theorem fresh_takes_last (cpu : CpuId) {before : KernelPolicy}
    (left : before.lastGlobalEvent.toNat + 1 ≠ 2 ^ 64) :
    ∃ batch, (perform (.step ⟨cpu, 0xffffffffffffffff, none, .boot⟩)
      { before with shards := before.shards.insert cpu ⟨cpu, 0, 0, 0, false⟩ }).1 = .ok batch := by
  have newer : before.lastGlobalEvent < 0xffffffffffffffff := by
    have bound := before.lastGlobalEvent.toNat_lt
    rw [UInt64.lt_iff_toNat_lt]
    show before.lastGlobalEvent.toNat < 2 ^ 64 - 1
    omega
  have takes : Takes { before with shards := before.shards.insert cpu ⟨cpu, 0, 0, 0, false⟩ }
      ⟨cpu, 0xffffffffffffffff, none, .boot⟩ ⟨cpu, 0, 0, 0, false⟩ :=
    ⟨newer, Std.ExtTreeMap.getElem?_insert_self, rfl, rfl⟩
  obtain ⟨batch, answered⟩ := takes.step_ok_iff.mpr ⟨nofun, nofun⟩
  exact ⟨some batch, perform_step_of_ok answered⟩

/-- A call that leaves processors shut down does not put a fresh shard in their place. -/
theorem leaves_of_terminated {past : List PolicyEvent} {before : KernelPolicy} {request : Request}
    (absorbed : Absorbed past before)
    (terminated : Terminated (past ++ [event perform before request])
      (event perform before request).after) : Leaves before request := by
  cases request with
  | addCpu cpu =>
      intro shard present terminal
      by_contra left
      obtain ⟨batch, returned⟩ := fresh_takes_last cpu left
      obtain ⟨reason, refused⟩ := terminated ⟨cpu, 0xffffffffffffffff, none, .boot⟩
        (mem_filterMap_snoc.mpr (.inl (absorbed.accepted cpu shard present terminal)))
      simp only [event, addCpu_writes, returned] at refused
      cases refused
  | step event => trivial

/-- Processors that have been shut down stay so, at every moment of a run, exactly if `add_cpu` is
not called for any of them. -/
theorem terminated_iff_leaves (requests : List Request) :
    Guarded (fun past occurred => Terminated (past ++ [occurred]) occurred.after) []
        (history perform new requests) ↔
      ∀ occurred ∈ history perform new requests, Leaves occurred.before occurred.input := by
  rw [← guarded_iff_forall (fun occurred : PolicyEvent => Leaves occurred.before occurred.input) []]
  refine guarded_iff_of_invariant perform Absorbed ⟨?_, ?_⟩ ?_ ?_ requests
  · intro cpu member
    simp at member
  · intro cpu shard present
    simp [new] at present
  · intro past state request absorbed
    refine ⟨leaves_of_terminated absorbed, fun leaves => ?_⟩
    exact (absorbed.step (step_perform request state) leaves).terminated
  · intro past state request absorbed leaves
    exact absorbed.step (step_perform request state) leaves

/-- A refused `add_cpu` brings a processor back after its shutdown was accepted. -/
theorem stepped_after_shutdown :
    ∃ policy batch, (perform (.addCpu 0) new).1 = .ok none ∧
      perform (.step ⟨0, 1, none, .shutdownRequest⟩) (perform (.addCpu 0) new).2 =
        (.ok (some batch), policy) ∧
      (perform (.addCpu 0) policy).1 = .err .duplicateCpu ∧
      (perform (.step ⟨0, 2, none, .timer⟩) (perform (.addCpu 0) policy).2).1 =
        .ok (some ⟨[.armTimer 2], by decide⟩) ∧
      ¬Guarded (fun past occurred => Terminated (past ++ [occurred]) occurred.after) []
        (history perform new
          [.addCpu 0, .step ⟨0, 1, none, .shutdownRequest⟩, .addCpu 0]) := by
  refine ⟨_, ⟨[.powerOff], by decide⟩, rfl, rfl, rfl, rfl, fun guarded => ?_⟩
  obtain ⟨reason, refused⟩ := guarded.2.2.1 ⟨0, 2, none, .timer⟩ (by decide)
  cases refused

/-- The event that a step takes.  The deadline of a timer event is computed, without a check, after
the tick has been counted, so an overflow there does not undo the event. -/
def accepted (occurred : PolicyEvent) : Option EventSequencer.Event :=
  match occurred.input, occurred.outcome with
  | .step event, .ok _ => some event
  | .step event, .overflow => some event
  | _, _ => none

/-- The processor that a call of `add_cpu` names. -/
def addedCpu (occurred : PolicyEvent) : Option CpuId :=
  match occurred.input with
  | .addCpu cpu => some cpu
  | _ => none

/-- A shard counts the events that its processor has had. -/
structure Tallies (taken : List EventSequencer.Event) (cpu : CpuId) (shard : CpuShard) : Prop where
  ticks : shard.ticks.toNat = taken.countP fun event => event.cpu = cpu ∧ ticking event.kind
  runnableTasks : shard.runnableTasks.toNat =
    taken.countP fun event => event.cpu = cpu ∧ waking event.kind
  lastEvent : shard.lastEvent = ((taken.filter (·.cpu = cpu)).getLast?.map (·.id)).getD 0

/-- Accepted events are in order and counted in the shards of their processors. -/
structure Counted (past : List PolicyEvent) (state : KernelPolicy) : Prop where
  increasing : ((past.filterMap accepted).map (·.id)).Pairwise (· < ·)
  seen : ∀ event ∈ past.filterMap accepted, event.id ≤ state.lastGlobalEvent ∧
    event.cpu ∈ state.shards
  listed : ∀ cpu ∈ state.shards, cpu ∈ past.filterMap addedCpu
  tallies : ∀ (cpu : CpuId) (shard : CpuShard), state.shards[cpu]? = some shard →
    Tallies (past.filterMap accepted) cpu shard

section Tally

variable {taken : List EventSequencer.Event} {event : EventSequencer.Event} {cpu : CpuId}
  {shard updated : CpuShard}

theorem Tallies.fresh (unseen : ∀ event ∈ taken, event.cpu ≠ cpu) :
    Tallies taken cpu ⟨cpu, 0, 0, 0, false⟩ := by
  have none_for : taken.filter (·.cpu = cpu) = [] := by
    simpa using unseen
  refine ⟨?_, ?_, ?_⟩
  · symm
    simpa [List.countP_eq_zero] using fun event member same => (unseen event member same).elim
  · symm
    simpa [List.countP_eq_zero] using fun event member same => (unseen event member same).elim
  · simp [none_for]

theorem Tallies.other (tallies : Tallies taken cpu shard) (distinct : event.cpu ≠ cpu) :
    Tallies (taken ++ [event]) cpu shard := by
  obtain ⟨ticks, runnableTasks, lastEvent⟩ := tallies
  refine ⟨?_, ?_, ?_⟩
  · simpa [List.countP_append, distinct] using ticks
  · simpa [List.countP_append, distinct] using runnableTasks
  · simpa [distinct] using lastEvent

/-- An accepted event is counted once in the shard of its processor. -/
theorem Tallies.update (tallies : Tallies taken event.cpu shard)
    (updates : Updates event.kind { shard with lastEvent := event.id } updated) :
    Tallies (taken ++ [event]) event.cpu updated := by
  obtain ⟨ticks, runnableTasks, _⟩ := tallies
  refine ⟨?_, ?_, ?_⟩
  · rw [updates.ticks, List.countP_append, ← ticks]
    cases counted : ticking event.kind <;> simp [counted]
  · rw [updates.runnableTasks, List.countP_append, ← runnableTasks]
    cases counted : waking event.kind <;> simp [counted]
  · simp [updates.lastEvent]

end Tally

section Count

variable {past : List PolicyEvent} {before after : KernelPolicy} {request : Request}
  {outcome : Outcome PolicyError (Option (ActionBatch 4))} {occurred : PolicyEvent}

/-- A call that takes no event and leaves the policy as it is. -/
theorem Counted.idle (counted : Counted past before) (silent : accepted occurred = none) :
    Counted (past ++ [occurred]) before := by
  have taken_eq := filterMap_snoc_of_none past silent
  refine ⟨?_, ?_, ?_, ?_⟩
  · rw [taken_eq]
    exact counted.increasing
  · rw [taken_eq]
    exact counted.seen
  · exact fun cpu known => mem_filterMap_snoc.mpr (.inl (counted.listed cpu known))
  · rw [taken_eq]
    exact counted.tallies

/-- A processor that is added for the first time has had no event. -/
theorem Counted.add (counted : Counted past before) {cpu : CpuId}
    (unknown : before.shards[cpu]? = none) (silent : accepted occurred = none)
    (named : addedCpu occurred = some cpu) :
    Counted (past ++ [occurred])
      { before with shards := before.shards.insert cpu ⟨cpu, 0, 0, 0, false⟩ } := by
  have kept := counted.idle silent
  refine ⟨kept.increasing, ?_, ?_, ?_⟩
  · intro event member
    obtain ⟨older, known⟩ := kept.seen event member
    exact ⟨older, Std.ExtTreeMap.mem_insert.mpr (.inr known)⟩
  · intro other known
    rcases Std.ExtTreeMap.mem_insert.mp known with same | known
    · obtain rfl := Std.LawfulEqCmp.eq_of_compare same
      exact mem_filterMap_snoc.mpr (.inr named)
    · exact kept.listed other known
  · intro other shard found
    rcases BTreeMap.getElem?_insert_eq_some.mp found with ⟨rfl, rfl⟩ | ⟨_, old⟩
    · refine .fresh fun event member same => ?_
      have known := (kept.seen event member).2
      rw [same] at known
      simp [Std.ExtTreeMap.mem_iff_isSome_getElem?, unknown] at known
    · exact kept.tallies other shard old

/-- A step that takes an event counts it in one shard. -/
theorem Counted.take (counted : Counted past before) {event : EventSequencer.Event}
    {shard updated : CpuShard} (takes : Takes before event shard)
    (updates : Updates event.kind { shard with lastEvent := event.id } updated)
    (shown : accepted occurred = some event) :
    Counted (past ++ [occurred]) ⟨before.shards.insert event.cpu updated, event.id⟩ := by
  have taken_eq : (past ++ [occurred]).filterMap accepted = past.filterMap accepted ++ [event] := by
    rw [filterMap_snoc, shown, Option.toList_some]
  have newer := UInt64.lt_iff_toNat_lt.mp takes.newer
  have older : ∀ earlier ∈ past.filterMap accepted, earlier.id < event.id := by
    intro earlier member
    have seen := UInt64.le_iff_toNat_le.mp (counted.seen earlier member).1
    rw [UInt64.lt_iff_toNat_lt]
    omega
  refine ⟨?_, ?_, ?_, ?_⟩
  · rw [taken_eq]
    exact pairwise_map_snoc counted.increasing older
  · rw [taken_eq]
    intro earlier member
    rcases List.mem_append.mp member with member | now
    · refine ⟨UInt64.le_of_lt (older earlier member), ?_⟩
      exact Std.ExtTreeMap.mem_insert.mpr (.inr (counted.seen earlier member).2)
    · obtain rfl := List.mem_singleton.mp now
      exact ⟨UInt64.le_refl _, Std.ExtTreeMap.mem_insert_self⟩
  · intro cpu known
    have old := (BTreeMap.mem_insert_of_present _ takes.present cpu).mp known
    exact mem_filterMap_snoc.mpr (.inl (counted.listed cpu old))
  · rw [taken_eq]
    intro cpu found present
    rcases BTreeMap.getElem?_insert_eq_some.mp present with ⟨rfl, rfl⟩ | ⟨distinct, old⟩
    · exact (counted.tallies event.cpu shard takes.present).update updates
    · exact (counted.tallies cpu found old).other distinct

theorem Counted.step (counted : Counted past before) (step : Step before request outcome after)
    (fresh : ∀ cpu ∈ addedCpu ⟨before, request, outcome, after⟩, cpu ∉ past.filterMap addedCpu)
    (unexhausted : outcome ≠ .err .tickOverflow ∧ outcome ≠ .err .taskOverflow) :
    Counted (past ++ [⟨before, request, outcome, after⟩]) after := by
  cases step with
  | rejected request reason => exact counted.idle (by cases request <;> rfl)
  | added unknown => exact counted.add unknown rfl rfl
  | @replaced cpu old known =>
      exact (fresh cpu rfl (counted.listed cpu (BTreeMap.mem_of_present known))).elim
  | taken takes updates => exact counted.take takes updates rfl
  | overflowed takes timer updates => exact counted.take takes updates rfl
  | exhausted takes cause =>
      rcases cause with rfl | rfl
      · exact (unexhausted.1 rfl).elim
      · exact (unexhausted.2 rfl).elim

end Count

/-- If every processor is added once and no counter is exhausted, accepted events are in the order
of their identifiers and every shard counts those of its processor, whatever events are
presented. -/
theorem accepted_events_counted (requests : List Request)
    (once : ((history perform new requests).filterMap addedCpu).Nodup)
    (unexhausted : ∀ occurred ∈ history perform new requests,
      occurred.outcome ≠ .err .tickOverflow ∧ occurred.outcome ≠ .err .taskOverflow) :
    (((history perform new requests).filterMap accepted).map (·.id)).Pairwise (· < ·) ∧
      ∀ (cpu : CpuId) (shard : CpuShard), (final perform new requests).shards[cpu]? = some shard →
        Tallies ((history perform new requests).filterMap accepted) cpu shard := by
  have counted : Counted (history perform new requests) (final perform new requests) := by
    rw [nodup_filterMap_iff] at once
    rw [← guarded_iff_forall (fun occurred : PolicyEvent => occurred.outcome ≠ .err .tickOverflow ∧
      occurred.outcome ≠ .err .taskOverflow) []] at unexhausted
    refine run_induction perform (motive := fun past state =>
      Guarded (fun past occurred => ∀ cpu ∈ addedCpu occurred, cpu ∉ past.filterMap addedCpu) []
        past →
      Guarded (fun _ occurred => occurred.outcome ≠ .err .tickOverflow ∧
        occurred.outcome ≠ .err .taskOverflow) [] past → Counted past state)
      ?_ ?_ requests once unexhausted
    · intro _ _
      refine ⟨List.Pairwise.nil, ?_, ?_, ?_⟩ <;> simp [new]
    · intro past state request induction once unexhausted
      rw [guarded_snoc] at once unexhausted
      exact (induction once.1 unexhausted.1).step (step_perform request state) once.2 unexhausted.2
  exact ⟨counted.increasing, counted.tallies⟩

/-- Two processors, with a replayed tick and an event that comes late. -/
theorem replayed_tick_counted_once :
    ∃ shard, (final perform new [.addCpu 0, .addCpu 1, .step ⟨0, 3, none, .timer⟩,
        .step ⟨0, 3, none, .timer⟩, .step ⟨1, 2, none, .timer⟩,
        .step ⟨0, 5, some 1, .cpuOnline⟩]).shards[(0 : CpuId)]? = some shard ∧
      Tallies [⟨0, 3, none, .timer⟩, ⟨0, 5, some 1, .cpuOnline⟩] 0 shard :=
  ⟨⟨0, 5, 1, 1, false⟩, rfl,
    (accepted_events_counted [.addCpu 0, .addCpu 1, .step ⟨0, 3, none, .timer⟩,
      .step ⟨0, 3, none, .timer⟩, .step ⟨1, 2, none, .timer⟩, .step ⟨0, 5, some 1, .cpuOnline⟩]
      (by decide) (by decide)).2 0 ⟨0, 5, 1, 1, false⟩ rfl⟩

end Bulla.Kernel.KernelPolicy
