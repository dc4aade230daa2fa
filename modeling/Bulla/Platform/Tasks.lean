import Bulla.Interleaving
import Bulla.Rust.History
import Bulla.Rust.Word
import Mathlib.Data.Multiset.Range

/-!
# Distribution of the boot tasks

Every processor runs `run_tasks` once.  It takes a seed task, waits until all processors have one,
and then takes tasks from a shared queue until there are none left.  Processors are stopped between
any two atomic operations.
-/

namespace Bulla.Platform

open Rust

/-- `POST_TASKS`. -/
def postTasks : UInt64 := 4096

/-- The counters that `run_tasks` works on. -/
structure TaskCounters where
  taskReady : UInt64
  expectedWorkers : UInt64
  taskGate : UInt64
  nextTask : UInt64
  taskSum : UInt64
  active : UInt64
  maxActive : UInt64
  deriving DecidableEq, Repr

/-- Where a processor is in `run_tasks`: the atomic operation it does next, with the values it has
in hand. -/
inductive Worker where
  /-- `POST_TASK_READY.fetch_add(1)`. -/
  | start
  /-- `POST_EXPECTED_WORKERS.load()`. -/
  | seeded (seedTask : UInt64)
  /-- `POST_TASK_SUM.fetch_add(seed_task)`. -/
  | adding (seedTask expectedWorkers : UInt64)
  /-- `POST_ACTIVE.fetch_add(1)`. -/
  | entering (seedTask expectedWorkers : UInt64)
  /-- `POST_MAX_ACTIVE.load()`, in `observe_max`. -/
  | observing (seedTask expectedWorkers candidate : UInt64)
  /-- `POST_MAX_ACTIVE.compare_exchange_weak(observed, candidate)`, in `observe_max`. -/
  | raising (seedTask expectedWorkers candidate observed : UInt64)
  /-- `POST_TASK_GATE.store(1)`. -/
  | opening
  /-- `POST_TASK_GATE.load()`. -/
  | waiting
  /-- `POST_NEXT_TASK.fetch_add(1)`. -/
  | claiming
  /-- `POST_TASK_SUM.fetch_add(task)`. -/
  | working (task : UInt64)
  /-- `POST_ACTIVE.fetch_sub(1)`. -/
  | leaving
  | returned
  deriving DecidableEq, Repr

namespace Worker

/-- What follows `observe_max`: the last processor opens the gate. -/
def entered (seedTask expectedWorkers : UInt64) : Worker :=
  if seedTask + 1 = expectedWorkers then .opening else .waiting

/-- The condition of the loop in `observe_max`. -/
def observed (seedTask expectedWorkers candidate current : UInt64) : Worker :=
  if candidate > current then .raising seedTask expectedWorkers candidate current
  else entered seedTask expectedWorkers

/-- One atomic operation of a processor.  A weak exchange may fail for no reason. -/
def step (spurious : Bool) (self : TaskCounters) : Worker → TaskCounters × Worker
  | .start => ({ self with taskReady := self.taskReady + 1 }, .seeded self.taskReady)
  | .seeded seedTask =>
      (self, if seedTask ≥ self.expectedWorkers then .returned
        else .adding seedTask self.expectedWorkers)
  | .adding seedTask expectedWorkers =>
      ({ self with taskSum := self.taskSum + seedTask }, .entering seedTask expectedWorkers)
  | .entering seedTask expectedWorkers =>
      ({ self with active := self.active + 1 },
        .observing seedTask expectedWorkers (self.active + 1))
  | .observing seedTask expectedWorkers candidate =>
      (self, observed seedTask expectedWorkers candidate self.maxActive)
  | .raising seedTask expectedWorkers candidate current =>
      if self.maxActive = current ∧ spurious = false then
        ({ self with maxActive := candidate }, entered seedTask expectedWorkers)
      else (self, observed seedTask expectedWorkers candidate self.maxActive)
  | .opening => ({ self with taskGate := 1 }, .waiting)
  | .waiting => (self, if self.taskGate = 0 then .waiting else .claiming)
  | .claiming =>
      ({ self with nextTask := self.nextTask + 1 },
        if self.nextTask ≥ postTasks then .leaving else .working self.nextTask)
  | .working task => ({ self with taskSum := self.taskSum + task }, .claiming)
  | .leaving => ({ self with active := self.active - 1 }, .returned)
  | .returned => (self, .returned)

/-- The task that the next operation adds to `POST_TASK_SUM`. -/
def adds : Worker → Option UInt64
  | .adding seedTask _ => some seedTask
  | .working task => some task
  | _ => none

/-- The processor has passed the gate. -/
def passed : Worker → Bool
  | .claiming => true
  | .working _ => true
  | .leaving => true
  | .returned => true
  | _ => false

end Worker

/-- The state of all processors. -/
abbrev Workers (workers : ℕ) : Type := Interleaved workers TaskCounters Worker

namespace Workers

variable {workers : ℕ}

/-- The counters as the scheduler phase sets them up, and every processor about to begin. -/
def boot (workers : ℕ) : Workers workers where
  shared := {
    taskReady := 0, expectedWorkers := .ofNat workers, taskGate := 0, nextTask := .ofNat workers
    taskSum := 0, active := 0, maxActive := 0 }
  own := fun _ => .start

/-- A processor does its next operation. -/
def perform (turn : Fin workers × Bool) : Call (Workers workers) Empty Unit := do
  let self ← get
  let moved := (self.own turn.1).step turn.2 self.shared
  set (self.put turn.1 moved.1 moved.2)

abbrev TaskEvent (workers : ℕ) : Type :=
  Rust.Event (Workers workers) (Fin workers × Bool) Empty Unit

/-- The task that an operation has added to `POST_TASK_SUM`. -/
def addedTask (occurred : TaskEvent workers) : Option UInt64 :=
  (occurred.before.own occurred.input.1).adds

end Workers

namespace Worker

/-- Has taken a seed task. -/
def taken : Worker → ℕ
  | .start => 0
  | _ => 1

/-- Tasks that are taken and not yet added. -/
def held : Worker → Multiset ℕ
  | .seeded seedTask => {seedTask.toNat}
  | .adding seedTask _ => {seedTask.toNat}
  | .working task => {task.toNat}
  | _ => 0

/-- Counts in `POST_ACTIVE`. -/
def inside : Worker → ℕ
  | .start => 0
  | .seeded _ => 0
  | .adding _ _ => 0
  | .entering _ _ => 0
  | .observing _ _ _ => 1
  | .raising _ _ _ _ => 1
  | .opening => 1
  | .waiting => 1
  | .claiming => 1
  | .working _ => 1
  | .leaving => 1
  | .returned => 0

/-- Has found the queue empty. -/
def done : Worker → ℕ
  | .leaving => 1
  | .returned => 1
  | _ => 0

/-- What a processor knows from where it is. -/
def Fits (self : TaskCounters) : Worker → Prop
  | .start => True
  | .seeded seedTask => seedTask.toNat < self.taskReady.toNat
  | .adding seedTask expectedWorkers => seedTask.toNat < self.taskReady.toNat ∧
      expectedWorkers = self.expectedWorkers
  | .entering seedTask expectedWorkers => seedTask.toNat < self.taskReady.toNat ∧
      expectedWorkers = self.expectedWorkers
  | .observing seedTask expectedWorkers _ => seedTask.toNat < self.taskReady.toNat ∧
      expectedWorkers = self.expectedWorkers
  | .raising seedTask expectedWorkers _ _ => seedTask.toNat < self.taskReady.toNat ∧
      expectedWorkers = self.expectedWorkers
  | .opening => self.taskReady = self.expectedWorkers
  | .waiting => True
  | .claiming => self.taskReady = self.expectedWorkers
  | .working _ => self.taskReady = self.expectedWorkers
  | .leaving => self.taskReady = self.expectedWorkers ∧ postTasks ≤ self.nextTask
  | .returned => self.taskReady = self.expectedWorkers ∧ postTasks ≤ self.nextTask

/-- The tasks that the next operation adds, as a collection. -/
def added (self : Worker) : Multiset ℕ := self.adds.toList.map UInt64.toNat

/-- What an operation of one processor does to the counters, balanced with what it does to the
processor. -/
structure Conserves (before after : TaskCounters) (worker moved : Worker) : Prop where
  expected : after.expectedWorkers = before.expectedWorkers
  ready : after.taskReady.toNat + worker.taken = before.taskReady.toNat + moved.taken
  ready_mono : before.taskReady.toNat ≤ after.taskReady.toNat
  tasks : worker.added + moved.held + (.range before.taskReady.toNat +
      .range (min before.nextTask.toNat postTasks.toNat)) =
    worker.held + (.range after.taskReady.toNat +
      .range (min after.nextTask.toNat postTasks.toNat))
  active : after.active + .ofNat worker.inside = before.active + .ofNat moved.inside
  sum : after.taskSum = before.taskSum + worker.adds.getD 0
  queue_mono : before.nextTask.toNat ≤ after.nextTask.toNat
  queue : after.nextTask.toNat ≤ postTasks.toNat ∨
    after.nextTask.toNat + worker.done ≤ before.nextTask.toNat + moved.done

/-- Holds no task, between entering and leaving. -/
structure Underway (worker : Worker) : Prop where
  taken : worker.taken = 1
  held : worker.held = 0
  inside : worker.inside = 1
  done : worker.done = 0

theorem underway_entered (seedTask expectedWorkers : UInt64) :
    (entered seedTask expectedWorkers).Underway := by
  unfold entered
  split <;> exact ⟨rfl, rfl, rfl, rfl⟩

theorem underway_observed (seedTask expectedWorkers candidate current : UInt64) :
    (observed seedTask expectedWorkers candidate current).Underway := by
  unfold observed
  split
  · exact ⟨rfl, rfl, rfl, rfl⟩
  · exact underway_entered seedTask expectedWorkers

theorem conserves_underway {before : TaskCounters} {worker moved : Worker}
    (underway : worker.Underway) (moved_underway : moved.Underway) (silent : worker.adds = none)
    (taskGate maxActive : UInt64) :
    Conserves before { before with taskGate, maxActive } worker moved := by
  constructor <;> simp [added, silent, underway.taken, underway.held, underway.inside,
    underway.done, moved_underway.taken, moved_underway.held, moved_underway.inside,
    moved_underway.done]

theorem seed_below {self : TaskCounters} {seedTask : UInt64}
    (fits : (Worker.seeded seedTask).Fits self)
    (ready_le : self.taskReady.toNat ≤ self.expectedWorkers.toNat) :
    ¬seedTask ≥ self.expectedWorkers := by
  have seed_lt : seedTask.toNat < self.taskReady.toNat := fits
  rw [ge_iff_le, UInt64.le_iff_toNat_le]
  omega

theorem conserves_step {self : TaskCounters} {worker : Worker} (spurious : Bool)
    (fits : worker.Fits self) (ready_le : self.taskReady.toNat ≤ self.expectedWorkers.toNat)
    (ready_lt : self.taskReady.toNat + 1 < 2 ^ 64) (queue_lt : self.nextTask.toNat + 1 < 2 ^ 64) :
    Conserves self (worker.step spurious self).1 worker (worker.step spurious self).2 := by
  cases worker with
  | start =>
      constructor <;> simp [step, taken, held, added, adds, inside, done, toNat_add_one ready_lt]
  | seeded seedTask =>
      have below := seed_below fits ready_le
      constructor <;> simp [step, taken, held, added, adds, inside, done, below]
  | adding seedTask expectedWorkers =>
      constructor <;> simp [step, taken, held, added, adds, inside, done]
  | entering seedTask expectedWorkers =>
      constructor <;> simp [step, taken, held, added, adds, inside, done]
  | observing seedTask expectedWorkers candidate =>
      exact conserves_underway ⟨rfl, rfl, rfl, rfl⟩ (underway_observed _ _ _ _) rfl _ _
  | raising seedTask expectedWorkers candidate current =>
      simp only [step]
      split
      · exact conserves_underway ⟨rfl, rfl, rfl, rfl⟩ (underway_entered _ _) rfl _ _
      · exact conserves_underway ⟨rfl, rfl, rfl, rfl⟩ (underway_observed _ _ _ _) rfl _ _
  | opening => exact conserves_underway ⟨rfl, rfl, rfl, rfl⟩ ⟨rfl, rfl, rfl, rfl⟩ rfl _ _
  | waiting =>
      refine conserves_underway ⟨rfl, rfl, rfl, rfl⟩ ?_ rfl _ _
      simp only [step]
      split <;> exact ⟨rfl, rfl, rfl, rfl⟩
  | claiming =>
      have next_eq := toNat_add_one queue_lt
      by_cases empty : self.nextTask ≥ postTasks
      · have above : postTasks.toNat ≤ self.nextTask.toNat := UInt64.le_iff_toNat_le.mp empty
        have min_eq : min self.nextTask.toNat postTasks.toNat = postTasks.toNat := by omega
        have min_next : min (self.nextTask.toNat + 1) postTasks.toNat = postTasks.toNat := by omega
        constructor <;>
          simp [step, taken, held, added, adds, inside, done, empty, next_eq, min_eq, min_next]
      · have below : self.nextTask.toNat < postTasks.toNat := by
          rw [ge_iff_le, UInt64.le_iff_toNat_le] at empty
          omega
        have min_eq : min self.nextTask.toNat postTasks.toNat = self.nextTask.toNat := by omega
        have min_next :
            min (self.nextTask.toNat + 1) postTasks.toNat = self.nextTask.toNat + 1 := by
          omega
        constructor <;>
          simp [step, taken, held, added, adds, inside, done, empty, next_eq, min_eq, min_next]
        · exact below
  | working task => constructor <;> simp [step, taken, held, added, adds, inside, done]
  | leaving => constructor <;> simp [step, taken, held, added, adds, inside, done]
  | returned => constructor <;> simp [step, taken, held, added, adds, inside, done]

/-- What a processor knows stays true while the others go on. -/
theorem Fits.mono {before after : TaskCounters} {worker : Worker} (fits : worker.Fits before)
    (expected : after.expectedWorkers = before.expectedWorkers)
    (ready_mono : before.taskReady.toNat ≤ after.taskReady.toNat)
    (ready_le : after.taskReady.toNat ≤ after.expectedWorkers.toNat)
    (queue_mono : before.nextTask.toNat ≤ after.nextTask.toNat) : worker.Fits after := by
  have full (all : before.taskReady = before.expectedWorkers) :
      after.taskReady = after.expectedWorkers := by
    rw [← UInt64.toNat_inj] at all ⊢
    rw [expected] at ready_le ⊢
    omega
  have emptied (empty : postTasks ≤ before.nextTask) : postTasks ≤ after.nextTask := by
    rw [UInt64.le_iff_toNat_le] at empty ⊢
    omega
  cases worker with
  | start => trivial
  | seeded seedTask => exact lt_of_lt_of_le fits ready_mono
  | adding | entering | observing | raising =>
      exact ⟨fits.1.trans_le ready_mono, fits.2.trans expected.symm⟩
  | opening => exact full fits
  | waiting => trivial
  | claiming => exact full fits
  | working task => exact full fits
  | leaving => exact ⟨full fits.1, emptied fits.2⟩
  | returned => exact ⟨full fits.1, emptied fits.2⟩

theorem fits_entered {self : TaskCounters} {seedTask expectedWorkers : UInt64}
    (seed_lt : seedTask.toNat < self.taskReady.toNat)
    (expected : expectedWorkers = self.expectedWorkers)
    (ready_le : self.taskReady.toNat ≤ self.expectedWorkers.toNat) :
    (entered seedTask expectedWorkers).Fits self := by
  unfold entered
  split
  · next last =>
    have ready_lt := self.taskReady.toNat_lt
    have next_eq : (seedTask + 1).toNat = seedTask.toNat + 1 := toNat_add_one (by omega)
    rw [expected] at last
    rw [last] at next_eq
    exact UInt64.toNat_inj.mp (by omega)
  · trivial

theorem fits_observed {self : TaskCounters} {seedTask expectedWorkers candidate current : UInt64}
    (seed_lt : seedTask.toNat < self.taskReady.toNat)
    (expected : expectedWorkers = self.expectedWorkers)
    (ready_le : self.taskReady.toNat ≤ self.expectedWorkers.toNat) :
    (observed seedTask expectedWorkers candidate current).Fits self := by
  unfold observed
  split
  · exact ⟨seed_lt, expected⟩
  · exact fits_entered seed_lt expected ready_le

theorem fits_step {self : TaskCounters} {worker : Worker} (spurious : Bool)
    (fits : worker.Fits self) (ready_le : self.taskReady.toNat ≤ self.expectedWorkers.toNat)
    (gate : self.taskGate ≠ 0 → self.taskReady = self.expectedWorkers)
    (ready_lt : self.taskReady.toNat + 1 < 2 ^ 64) (queue_lt : self.nextTask.toNat + 1 < 2 ^ 64) :
    (worker.step spurious self).2.Fits (worker.step spurious self).1 := by
  cases worker with
  | start =>
      show self.taskReady.toNat < (self.taskReady + 1).toNat
      rw [toNat_add_one ready_lt]
      exact Nat.lt_succ_self _
  | seeded seedTask =>
      simp only [step]
      split
      · next late =>
        have seed_lt : seedTask.toNat < self.taskReady.toNat := fits
        rw [ge_iff_le, UInt64.le_iff_toNat_le] at late
        omega
      · exact ⟨fits, rfl⟩
  | adding seedTask expectedWorkers => exact fits
  | entering seedTask expectedWorkers => exact fits
  | observing seedTask expectedWorkers candidate => exact fits_observed fits.1 fits.2 ready_le
  | raising seedTask expectedWorkers candidate current =>
      simp only [step]
      split
      · exact fits_entered fits.1 fits.2 ready_le
      · exact fits_observed fits.1 fits.2 ready_le
  | opening => trivial
  | waiting =>
      simp only [step]
      split
      · trivial
      · next opened => exact gate opened
  | claiming =>
      simp only [step]
      split
      · next empty =>
        refine ⟨fits, ?_⟩
        rw [ge_iff_le, UInt64.le_iff_toNat_le] at empty
        rw [UInt64.le_iff_toNat_le, toNat_add_one queue_lt]
        omega
      · exact fits
  | working task => exact fits
  | leaving => exact fits
  | returned => exact fits

end Worker

namespace Workers

variable {workers : ℕ} {past : List (TaskEvent workers)} {system : Workers workers}

/-- The tasks that were added, in order. -/
def addedTasks (past : List (TaskEvent workers)) : List ℕ :=
  (past.filterMap addedTask).map UInt64.toNat

/-- How the counters agree with where the processors are. -/
structure Balanced (past : List (TaskEvent workers)) (system : Workers workers) : Prop where
  expected : system.shared.expectedWorkers.toNat = workers
  ready : system.shared.taskReady.toNat = system.tally Worker.taken
  tasks : (addedTasks past : Multiset ℕ) + system.tally Worker.held + .range workers =
    .range system.shared.taskReady.toNat +
      .range (min system.shared.nextTask.toNat postTasks.toNat)
  active : system.shared.active = .ofNat (system.tally Worker.inside)
  sum : system.shared.taskSum = .ofNat (addedTasks past).sum
  queue : system.shared.nextTask.toNat ≤ postTasks.toNat + system.tally Worker.done
  gate : system.shared.taskGate ≠ 0 → system.shared.taskReady = system.shared.expectedWorkers
  fits : ∀ cpu, (system.own cpu).Fits system.shared

theorem balanced_boot (fits : workers ≤ postTasks.toNat) : Balanced [] (boot workers) := by
  have small : postTasks.toNat < 2 ^ 64 := postTasks.toNat_lt
  have workers_eq : (UInt64.ofNat workers).toNat = workers :=
    UInt64.toNat_ofNat_of_lt' (fits.trans_lt small)
  constructor
  · exact workers_eq
  · simp [boot, Interleaved.tally, Worker.taken]
  · simp [boot, Interleaved.tally, Worker.held, addedTasks, workers_eq, fits]
  · simp [boot, Interleaved.tally, Worker.inside]
  · rfl
  · simp [boot, workers_eq]
    omega
  · simp [boot]
  · exact fun _ => trivial

theorem taken_le_one (worker : Worker) : worker.taken ≤ 1 := by
  cases worker <;> simp [Worker.taken]

theorem done_le_one (worker : Worker) : worker.done ≤ 1 := by
  cases worker <;> simp [Worker.done]

theorem Balanced.ready_le (balanced : Balanced past system) :
    system.shared.taskReady.toNat ≤ system.shared.expectedWorkers.toNat := by
  rw [balanced.expected, balanced.ready]
  exact Interleaved.tally_le taken_le_one

theorem Balanced.queue_lt (balanced : Balanced past system) (fits : workers ≤ postTasks.toNat) :
    system.shared.nextTask.toNat + 1 < 2 ^ 64 := by
  have done_le : system.tally Worker.done ≤ workers := Interleaved.tally_le done_le_one
  have queue := balanced.queue
  have tasks_eq : postTasks.toNat = 4096 := rfl
  omega

theorem Balanced.ready_lt (balanced : Balanced past system) (fits : workers ≤ postTasks.toNat) :
    system.shared.taskReady.toNat + 1 < 2 ^ 64 := by
  have ready_le := balanced.ready_le
  have expected := balanced.expected
  have tasks_eq : postTasks.toNat = 4096 := rfl
  omega

/-- The gate is opened by a processor that knows that all have a seed task. -/
theorem gate_step {self : TaskCounters} {worker : Worker} (spurious : Bool)
    (fits : worker.Fits self) (gate : self.taskGate ≠ 0 → self.taskReady = self.expectedWorkers)
    (starting : worker = .start → self.taskReady ≠ self.expectedWorkers) :
    (worker.step spurious self).1.taskGate ≠ 0 →
      (worker.step spurious self).1.taskReady = (worker.step spurious self).1.expectedWorkers := by
  cases worker with
  | start => exact fun opened => (starting rfl (gate opened)).elim
  | opening => exact fun _ => fits
  | raising seedTask expectedWorkers candidate current =>
      simp only [Worker.step]
      split <;> exact gate
  | _ => exact gate

theorem addedTasks_snoc (cpu : Fin workers) (spurious : Bool) :
    addedTasks (past ++ [event perform system (cpu, spurious)]) =
      addedTasks past ++ (system.own cpu).adds.toList.map UInt64.toNat := by
  rw [addedTasks, filterMap_snoc, List.map_append]
  rfl

/-- The balance of one processor is the balance of all. -/
theorem Balanced.put (balanced : Balanced past system) {occurred : TaskEvent workers}
    {cpu : Fin workers} {after : TaskCounters} {moved : Worker}
    (conserves : Worker.Conserves system.shared after (system.own cpu) moved)
    (added_eq : addedTasks (past ++ [occurred]) =
      addedTasks past ++ (system.own cpu).adds.toList.map UInt64.toNat)
    (here : moved.Fits after)
    (gate : after.taskGate ≠ 0 → after.taskReady = after.expectedWorkers) :
    Balanced (past ++ [occurred]) (system.put cpu after moved) := by
  have taken_put := Interleaved.tally_put Worker.taken system cpu after moved
  have held_put := Interleaved.tally_put Worker.held system cpu after moved
  have inside_put := Interleaved.tally_put Worker.inside system cpu after moved
  have done_put := Interleaved.tally_put Worker.done system cpu after moved
  have ready_eq : after.taskReady.toNat = (system.put cpu after moved).tally Worker.taken := by
    have balance := conserves.ready
    rw [balanced.ready] at balance
    omega
  have ready_le : after.taskReady.toNat ≤ after.expectedWorkers.toNat := by
    rw [ready_eq, conserves.expected, balanced.expected]
    exact Interleaved.tally_le taken_le_one
  constructor
  · exact (congrArg UInt64.toNat conserves.expected).trans balanced.expected
  · exact ready_eq
  · apply add_left_cancel (a := (system.own cpu).held)
    rw [added_eq, ← Multiset.coe_add]
    calc (system.own cpu).held + ((addedTasks past : Multiset ℕ) + (system.own cpu).added +
          (system.put cpu after moved).tally Worker.held + .range workers)
        = addedTasks past + (system.own cpu).added + .range workers +
          ((system.put cpu after moved).tally Worker.held + (system.own cpu).held) := by abel
      _ = (addedTasks past + system.tally Worker.held + .range workers) +
          ((system.own cpu).added + moved.held) := by rw [held_put]; abel
      _ = (system.own cpu).held + _ := by rw [balanced.tasks, add_comm, conserves.tasks]; rfl
  · apply (UInt64.add_left_inj (.ofNat (system.own cpu).inside)).mp
    rw [← UInt64.ofNat_add, inside_put, UInt64.ofNat_add, ← balanced.active]
    exact conserves.active
  · have sum_eq := conserves.sum
    rw [balanced.sum] at sum_eq
    rw [added_eq, List.sum_append, UInt64.ofNat_add]
    refine sum_eq.trans (congrArg _ ?_)
    cases (system.own cpu).adds <;> simp
  · have queue := balanced.queue
    simp only [Interleaved.put_shared]
    rcases conserves.queue with below | balance
    · omega
    · omega
  · exact gate
  · refine Interleaved.forall_own_put balanced.fits here fun own fits => ?_
    exact fits.mono conserves.expected conserves.ready_mono ready_le conserves.queue_mono

theorem Balanced.step (balanced : Balanced past system) (fits : workers ≤ postTasks.toNat)
    (turn : Fin workers × Bool) :
    Balanced (past ++ [event perform system turn]) (event perform system turn).after := by
  obtain ⟨cpu, spurious⟩ := turn
  have ready_le := balanced.ready_le
  have ready_lt := balanced.ready_lt fits
  have queue_lt := balanced.queue_lt fits
  have starting (start : system.own cpu = .start) :
      system.shared.taskReady ≠ system.shared.expectedWorkers := by
    have untaken : (system.own cpu).taken = 0 := by
      rw [start]
      rfl
    have fewer : system.tally Worker.taken < workers := Interleaved.tally_lt taken_le_one untaken
    rw [Ne, ← UInt64.toNat_inj, balanced.ready, balanced.expected]
    exact fewer.ne
  refine balanced.put
    (Worker.conserves_step spurious (balanced.fits cpu) ready_le ready_lt queue_lt)
    (addedTasks_snoc cpu spurious) ?_ ?_
  · exact Worker.fits_step spurious (balanced.fits cpu) ready_le balanced.gate ready_lt queue_lt
  · exact gate_step spurious (balanced.fits cpu) balanced.gate starting

end Workers

end Bulla.Platform
