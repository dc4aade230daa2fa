import Mathlib.Data.List.DropRight
import Bulla.Kernel.Smp
import Bulla.Kernel.Sync

/-!
# The barrier

Each participant arrives once in every generation, and the generation advances when all have.  The
code tests that by the number of arrivals: it suffices because outsiders, late arrivals of an
earlier generation and second arrivals are turned away before they are counted.
-/

namespace Bulla.Kernel

open Rust Outcome

structure Barrier where
  participants : CpuSet
  arrived : BTreeSet CpuId
  generation : UInt64

namespace Barrier

def new (participants : CpuSet) : Barrier := ⟨participants, ∅, 0⟩

/-- True if this is the arrival that the others were waiting for. -/
def arrive (cpu : CpuId) (generation : UInt64) : Call Barrier SyncError Bool := do
  rejectIf (generation ≠ (← get).generation) SyncError.staleGeneration
  rejectIf ((← get).participants.contains cpu = false) SyncError.foreignParticipant
  let present := (← get).arrived.contains cpu
  modify fun self => { self with arrived := self.arrived.insert cpu }
  rejectIf (present = true) SyncError.duplicateParticipant
  return decide ((← get).arrived.size = (← get).participants.len)

def advance : Call Barrier SyncError UInt64 := do
  rejectIf ((← get).arrived.size ≠ (← get).participants.len) SyncError.foreignParticipant
  let generation ← okOr (checkedAdd (← get).generation 1) SyncError.generationOverflow
  modify fun self => { self with generation }
  modify fun self => { self with arrived := ∅ }
  return (← get).generation

/-- One call of the interface. -/
inductive Request where
  | arrive (cpu : CpuId) (generation : UInt64)
  | advance
  deriving DecidableEq, Repr

/-- What a successful call returns. -/
inductive Reply where
  | arrived (complete : Bool)
  | generation (generation : UInt64)
  deriving DecidableEq, Repr

def perform : Request → Call Barrier SyncError Reply
  | .arrive cpu generation => return .arrived (← arrive cpu generation)
  | .advance => return .generation (← advance)

/-- The effect of each way a call can end. -/
inductive Step (before : Barrier) : Request → Outcome SyncError Reply → Barrier → Prop
  | turnedAway {cpu : CpuId} {generation : UInt64} {reason : SyncError}
      (unfit : ¬(generation = before.generation ∧ cpu ∈ before.participants.members ∧
        cpu ∉ before.arrived)) :
      Step before (.arrive cpu generation) (.err reason) before
  | arrived {cpu : CpuId} (participant : cpu ∈ before.participants.members)
      (fresh : cpu ∉ before.arrived) :
      Step before (.arrive cpu before.generation)
        (.ok (.arrived (decide ((before.arrived.insert cpu).size = before.participants.len))))
        { before with arrived := before.arrived.insert cpu }
  | held {reason : SyncError} : Step before .advance (.err reason) before
  | advanced {generation : UInt64} (full : before.arrived.size = before.participants.len)
      (generation_eq : generation.toNat = before.generation.toNat + 1) :
      Step before .advance (.ok (.generation generation))
        { before with generation, arrived := ∅ }

/-- Every call is one of the steps. -/
theorem step_perform (request : Request) (before : Barrier) :
    Step before request (perform request before).1 (perform request before).2 := by
  show Call.Ensures (perform request) (Step before request) before
  cases request with
  | arrive cpu generation =>
      simp only [perform, arrive]
      simp [CpuSet.contains]
      refine ⟨fun current => ⟨fun participant => ⟨fun fresh => ?_, fun present => ?_⟩, ?_⟩, ?_⟩
      · subst current
        exact .arrived participant fresh
      · rw [BTreeSet.insert_of_mem present]
        exact .turnedAway fun fit => fit.2.2 present
      · exact fun outsider => .turnedAway fun fit => Bool.eq_false_iff.mp outsider fit.2.1
      · exact fun stale => .turnedAway fun fit => stale fit.1
  | advance =>
      simp only [perform, advance]
      simp [Step.held]
      exact fun full generation generation_eq => .advanced full generation_eq

abbrev BarrierEvent : Type := Rust.Event Barrier Request SyncError Reply

/-- The processor and the generation of an arrival that was accepted. -/
def arrival (occurred : BarrierEvent) : Option (CpuId × UInt64) :=
  match occurred.input, occurred.outcome with
  | .arrive cpu generation, .ok _ => some (cpu, generation)
  | _, _ => none

/-- Whether a call has moved the barrier to its next generation. -/
def advances (occurred : BarrierEvent) : Bool :=
  match occurred.input, occurred.outcome with
  | .advance, .ok _ => true
  | _, _ => false

/-- The part of a history since the barrier has entered its generation. -/
def sinceEntered (past : List BarrierEvent) : List BarrierEvent :=
  past.rtakeWhile fun occurred => !advances occurred

/-- The accepted arrivals since the barrier has entered its generation. -/
def arrivals (past : List BarrierEvent) : List (CpuId × UInt64) :=
  (sinceEntered past).filterMap arrival

/-- Every participant is among the arrivals. -/
def Complete (participants : CpuSet) (generation : UInt64) (arrived : List (CpuId × UInt64)) :
    Prop :=
  ∀ cpu, participants.contains cpu = true → (cpu, generation) ∈ arrived

theorem arrivals_snoc (past : List BarrierEvent) (occurred : BarrierEvent) :
    arrivals (past ++ [occurred]) =
      if advances occurred then [] else arrivals past ++ (arrival occurred).toList := by
  rw [arrivals, sinceEntered, List.rtakeWhile_concat]
  cases advances occurred with
  | true => rfl
  | false => exact filterMap_snoc arrival (sinceEntered past) occurred

/-- The set of arrivals is what the history says, and it holds participants only. -/
structure Recorded (past : List BarrierEvent) (state : Barrier) : Prop where
  inside : ∀ cpu ∈ state.arrived, cpu ∈ state.participants.members
  count : ∀ cpu generation, (arrivals past).count (cpu, generation) =
    if generation = state.generation ∧ cpu ∈ state.arrived then 1 else 0

/-- What the participants rely on: a call is judged by the arrivals of the generation so far. -/
structure Agrees (participants : CpuSet) (past : List BarrierEvent) (occurred : BarrierEvent) :
    Prop where
  accepts : ∀ cpu generation, occurred.input = .arrive cpu generation →
    ((∃ reply, occurred.outcome = .ok reply) ↔ generation = occurred.before.generation ∧
      participants.contains cpu = true ∧ (cpu, generation) ∉ arrivals past)
  completes : occurred.outcome = .ok (.arrived true) ↔
    (arrival occurred).isSome = true ∧
      ¬Complete participants occurred.before.generation (arrivals past) ∧
      Complete participants occurred.before.generation (arrivals (past ++ [occurred]))
  moves : advances occurred = true →
    occurred.after.generation.toNat = occurred.before.generation.toNat + 1 ∧
      occurred.outcome = .ok (.generation occurred.after.generation) ∧
      ∀ cpu generation, (arrivals past).count (cpu, generation) =
        if generation = occurred.before.generation ∧ participants.contains cpu = true then 1 else 0
  stays : advances occurred = false → occurred.after.generation = occurred.before.generation
  inert : ∀ reason, occurred.outcome = .err reason → occurred.after = occurred.before
  returns : occurred.outcome ≠ .overflow

section Step

variable {past : List BarrierEvent} {state before after : Barrier} {request : Request}
  {outcome : Outcome SyncError Reply}

theorem Recorded.mem_iff (recorded : Recorded past state) {cpu : CpuId} {generation : UInt64} :
    (cpu, generation) ∈ arrivals past ↔ generation = state.generation ∧ cpu ∈ state.arrived := by
  rw [← List.count_pos_iff, recorded.count]
  split <;> simp_all

/-- Participants are all there when there are as many arrivals as participants. -/
theorem full_iff (inside : ∀ cpu ∈ state.arrived, cpu ∈ state.participants.members) :
    state.arrived.size = state.participants.len ↔ state.arrived = state.participants.members := by
  constructor
  · exact fun full => BTreeSet.eq_of_subset_of_size_le inside full.ge
  · intro same
    rw [same, CpuSet.len]

theorem Recorded.complete_iff (recorded : Recorded past state) :
    Complete state.participants state.generation (arrivals past) ↔
      state.arrived.size = state.participants.len := by
  rw [full_iff recorded.inside]
  constructor
  · intro complete
    apply Std.ExtTreeSet.ext_mem
    intro cpu
    refine ⟨recorded.inside cpu, fun participant => ?_⟩
    exact (recorded.mem_iff.mp (complete cpu participant)).2
  · intro same cpu participant
    rw [recorded.mem_iff, same]
    exact ⟨rfl, participant⟩

theorem Recorded.step (recorded : Recorded past before) (step : Step before request outcome after) :
    Recorded (past ++ [⟨before, request, outcome, after⟩]) after := by
  cases step with
  | turnedAway unfit =>
      refine ⟨recorded.inside, ?_⟩
      rw [arrivals_snoc]
      simpa [advances, arrival] using recorded.count
  | held =>
      refine ⟨recorded.inside, ?_⟩
      rw [arrivals_snoc]
      simpa [advances, arrival] using recorded.count
  | @arrived cpu participant fresh =>
      refine ⟨?_, ?_⟩
      · intro other member
        rcases Std.ExtTreeSet.mem_insert.mp member with same | old
        · rwa [← Std.LawfulEqCmp.compare_eq_iff_eq.mp same]
        · exact recorded.inside other old
      · intro other generation
        have old := recorded.count other generation
        rw [arrivals_snoc]
        simp only [advances, arrival, Bool.false_eq_true, if_false, Option.toList_some,
          List.count_append, List.count_singleton, old, Std.ExtTreeSet.mem_insert,
          Std.LawfulEqCmp.compare_eq_iff_eq, beq_iff_eq, Prod.mk.injEq]
        by_cases same : cpu = other
        · subst same
          simp [fresh, eq_comm]
        · simp [same]
  | advanced full generation_eq =>
      refine ⟨?_, ?_⟩
      · simp
      · simp [arrivals_snoc, advances]

theorem Step.participants_eq (step : Step before request outcome after) :
    after.participants = before.participants := by
  cases step <;> rfl

theorem Recorded.agrees (recorded : Recorded past before)
    (step : Step before request outcome after) :
    Agrees before.participants past ⟨before, request, outcome, after⟩ := by
  have next := recorded.step step
  cases step with
  | @turnedAway cpu generation reason unfit =>
      refine ⟨?_, by simp [arrival], by simp [advances], fun _ => rfl, fun _ _ => rfl,
        by simp⟩
      rintro _ _ ⟨⟩
      simp only [reduceCtorEq, exists_false, false_iff, recorded.mem_iff]
      rintro ⟨current, participant, fresh⟩
      exact unfit ⟨current, participant, fun present => fresh ⟨current, present⟩⟩
  | held =>
      exact ⟨by simp, by simp [arrival], by simp [advances], fun _ => rfl, fun _ _ => rfl,
        by simp⟩
  | @arrived cpu participant fresh =>
      have incomplete : ¬Complete before.participants before.generation (arrivals past) := by
        intro complete
        exact fresh (recorded.mem_iff.mp (complete cpu participant)).2
      refine ⟨?_, ?_, by simp [advances], fun _ => rfl, by simp, by simp⟩
      · rintro _ _ ⟨⟩
        rw [recorded.mem_iff]
        exact iff_of_true ⟨_, rfl⟩ ⟨rfl, participant, fun present => fresh present.2⟩
      · have complete_iff := next.complete_iff
        simp [arrival, incomplete]
        exact complete_iff.symm
  | @advanced generation full generation_eq =>
      have same := (full_iff recorded.inside).mp full
      refine ⟨by simp, by simp [arrival], ?_, by simp [advances], by simp, by simp⟩
      refine fun _ => ⟨generation_eq, rfl, ?_⟩
      intro cpu generation
      rw [recorded.count, same]
      rfl

end Step

theorem recorded_run (participants : CpuSet) (requests : List Request) :
    Recorded (history perform (new participants) requests)
        (final perform (new participants) requests) ∧
      (final perform (new participants) requests).participants = participants := by
  refine run_induction perform (motive := fun past state =>
    Recorded past state ∧ state.participants = participants) ⟨?_, rfl⟩ ?_ requests
  · exact ⟨by simp [new], by simp [new, arrivals, sinceEntered]⟩
  · rintro past state request ⟨recorded, rfl⟩
    have step := step_perform request state
    exact ⟨recorded.step step, step.participants_eq⟩

/-- The barrier advances by one generation, and only after every participant and nobody else has
arrived once in the generation that ends, for any participants and any order of calls by any
processors. -/
theorem agreement (participants : CpuSet) (requests : List Request) :
    Guarded (Agrees participants) [] (history perform (new participants) requests) := by
  refine guarded_of_reached perform (fun earlier request => ?_) requests
  obtain ⟨recorded, participants_eq⟩ := recorded_run participants earlier
  have agrees := recorded.agrees (step_perform request _)
  rw [participants_eq] at agrees
  exact agrees

end Barrier

end Bulla.Kernel
