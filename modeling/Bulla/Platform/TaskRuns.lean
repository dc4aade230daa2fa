import Bulla.Platform.Tasks
import Mathlib.Algebra.BigOperators.Intervals

/-!
# Runs of the boot tasks

Every task is added once, in whichever order the processors are scheduled.  No schedule leads to a
state from which the processors cannot all return.
-/

namespace Bulla.Platform

open Rust

namespace Worker

/-- Will open the gate. -/
def opener (workers : ℕ) : Worker → ℕ
  | .seeded seedTask => if seedTask.toNat + 1 = workers then 1 else 0
  | .adding seedTask _ => if seedTask.toNat + 1 = workers then 1 else 0
  | .entering seedTask _ => if seedTask.toNat + 1 = workers then 1 else 0
  | .observing seedTask _ _ => if seedTask.toNat + 1 = workers then 1 else 0
  | .raising seedTask _ _ _ => if seedTask.toNat + 1 = workers then 1 else 0
  | .opening => 1
  | _ => 0

theorem opener_entered {self : TaskCounters} {workers : ℕ} {seedTask expectedWorkers : UInt64}
    (seed_lt : seedTask.toNat < self.taskReady.toNat) (expected : expectedWorkers.toNat = workers) :
    (entered seedTask expectedWorkers).opener workers =
      if seedTask.toNat + 1 = workers then 1 else 0 := by
  have ready_lt := self.taskReady.toNat_lt
  have last_iff : seedTask + 1 = expectedWorkers ↔ seedTask.toNat + 1 = workers := by
    rw [← UInt64.toNat_inj, toNat_add_one (by omega), expected]
  unfold entered
  simp only [last_iff]
  split <;> rfl

theorem opener_observed {self : TaskCounters} {workers : ℕ}
    {seedTask expectedWorkers candidate current : UInt64}
    (seed_lt : seedTask.toNat < self.taskReady.toNat) (expected : expectedWorkers.toNat = workers) :
    (observed seedTask expectedWorkers candidate current).opener workers =
      if seedTask.toNat + 1 = workers then 1 else 0 := by
  unfold observed
  split
  · rfl
  · exact opener_entered seed_lt expected

/-- As long as the gate stays closed, who will open it goes on to do so. -/
theorem opener_step {self : TaskCounters} {workers : ℕ} {worker : Worker} {spurious : Bool}
    (fits : worker.Fits self) (expected : self.expectedWorkers.toNat = workers)
    (ready_le : self.taskReady.toNat ≤ self.expectedWorkers.toNat)
    (closed : (worker.step spurious self).1.taskGate = 0) (begun : worker ≠ .start) :
    (worker.step spurious self).2.opener workers = worker.opener workers ∧
      (worker.step spurious self).1.taskReady = self.taskReady ∧ self.taskGate = 0 := by
  cases worker with
  | start => exact (begun rfl).elim
  | seeded seedTask =>
      simp only [step, if_neg (seed_below fits ready_le)]
      exact ⟨rfl, trivial, closed⟩
  | adding seedTask expectedWorkers => exact ⟨rfl, rfl, closed⟩
  | entering seedTask expectedWorkers => exact ⟨rfl, rfl, closed⟩
  | observing seedTask expectedWorkers candidate =>
      exact ⟨opener_observed fits.1 (by rw [fits.2, expected]), rfl, closed⟩
  | raising seedTask expectedWorkers candidate current =>
      simp only [step] at closed ⊢
      split at closed
      · next exchanged =>
        rw [if_pos exchanged]
        exact ⟨opener_entered fits.1 (by rw [fits.2, expected]), rfl, closed⟩
      · next failed =>
        rw [if_neg failed]
        exact ⟨opener_observed fits.1 (by rw [fits.2, expected]), rfl, closed⟩
  | opening => cases closed
  | waiting =>
      simp only [step]
      exact ⟨by split <;> rfl, trivial, closed⟩
  | claiming =>
      simp only [step]
      exact ⟨by split <;> rfl, trivial, closed⟩
  | working task => exact ⟨rfl, rfl, closed⟩
  | leaving => exact ⟨rfl, rfl, closed⟩
  | returned => exact ⟨rfl, rfl, closed⟩

/-- How far a processor is from its return, each task of the queue counted for two more. -/
def rank : Worker → ℕ
  | .start => 10
  | .seeded _ => 9
  | .adding _ _ => 8
  | .entering _ _ => 7
  | .observing _ _ _ => 6
  | .raising _ _ _ _ => 5
  | .opening => 4
  | .waiting => 3
  | .working _ => 3
  | .claiming => 2
  | .leaving => 1
  | .returned => 0

/-- What is left to do for one processor, and in the queue. -/
def remaining (self : TaskCounters) (worker : Worker) : ℕ :=
  worker.rank + 2 * (postTasks.toNat - self.nextTask.toNat)

theorem rank_entered_lt (seedTask expectedWorkers : UInt64) :
    (entered seedTask expectedWorkers).rank < 5 := by
  unfold entered
  split <;> simp [rank]

theorem rank_observed_lt (seedTask expectedWorkers candidate current : UInt64) :
    (observed seedTask expectedWorkers candidate current).rank < 6 := by
  unfold observed
  split
  · simp [rank]
  · have lower := rank_entered_lt seedTask expectedWorkers
    omega

/-- Every operation brings its processor closer to its return, apart from waiting at the closed gate
and from an exchange that fails. -/
theorem remaining_step {self : TaskCounters} {worker : Worker}
    (queue_lt : self.nextTask.toNat + 1 < 2 ^ 64) (busy : worker ≠ .returned)
    (unblocked : worker = .waiting → self.taskGate ≠ 0)
    (exchanges : ∀ seedTask expectedWorkers candidate current,
      worker = .raising seedTask expectedWorkers candidate current → self.maxActive = current) :
    remaining (worker.step false self).1 (worker.step false self).2 < remaining self worker := by
  cases worker with
  | returned => exact (busy rfl).elim
  | start => simp [remaining, step, rank]
  | seeded seedTask =>
      simp only [step]
      split <;> simp [remaining, rank]
  | adding seedTask expectedWorkers => simp [remaining, step, rank]
  | entering seedTask expectedWorkers => simp [remaining, step, rank]
  | observing seedTask expectedWorkers candidate =>
      have lower := rank_observed_lt seedTask expectedWorkers candidate self.maxActive
      simpa [remaining, step, rank] using lower
  | raising seedTask expectedWorkers candidate current =>
      have lower := rank_entered_lt seedTask expectedWorkers
      simpa [remaining, step, rank, exchanges _ _ _ _ rfl] using lower
  | opening => simp [remaining, step, rank]
  | waiting => simp [remaining, step, rank, unblocked rfl]
  | claiming =>
      simp only [step, remaining, toNat_add_one queue_lt]
      split
      · simp only [rank]
        omega
      · next more =>
        rw [ge_iff_le, UInt64.le_iff_toNat_le] at more
        simp only [rank]
        omega
  | working task => simp [remaining, step, rank]
  | leaving => simp [remaining, step, rank]

end Worker

namespace Workers

variable {workers : ℕ} {past : List (TaskEvent workers)} {system : Workers workers}

theorem balanced_run (fits : workers ≤ postTasks.toNat) (schedule : List (Fin workers × Bool)) :
    Balanced (history perform (boot workers) schedule) (final perform (boot workers) schedule) :=
  run_induction perform (motive := Balanced) (balanced_boot fits)
    (fun _ _ turn balanced => balanced.step fits turn) schedule

/-- Nobody is past the gate before everybody has taken a seed task. -/
theorem Balanced.ne_start (balanced : Balanced past system) {cpu : Fin workers}
    (passed : (system.own cpu).passed = true) (other : Fin workers) :
    system.own other ≠ .start := by
  intro start
  have all : system.shared.taskReady = system.shared.expectedWorkers := by
    have fits := balanced.fits cpu
    generalize system.own cpu = worker at passed fits
    cases worker with
    | claiming => exact fits
    | working => exact fits
    | leaving => exact fits.1
    | returned => exact fits.1
    | _ => cases passed
  have untaken : (system.own other).taken = 0 := by
    rw [start]
    rfl
  have fewer : system.tally Worker.taken < workers := Interleaved.tally_lt taken_le_one untaken
  rw [← balanced.ready, all, balanced.expected] at fewer
  exact lt_irrefl _ fewer

/-- The counters when all have returned. -/
theorem Balanced.returned (balanced : Balanced past system) (positive : 1 ≤ workers)
    (returned : ∀ cpu, system.own cpu = .returned) :
    (addedTasks past).Perm (List.range postTasks.toNat) ∧ system.shared.active = 0 := by
  have tally_eq {M : Type} [AddCommMonoid M] {count : Worker → M} (none : count .returned = 0) :
      system.tally count = 0 := by
    rw [Interleaved.tally]
    exact Finset.sum_eq_zero fun cpu _ => by rw [returned cpu, none]
  have empty : postTasks ≤ system.shared.nextTask ∧
      system.shared.taskReady = system.shared.expectedWorkers := by
    have fits := balanced.fits ⟨0, positive⟩
    rw [returned] at fits
    exact ⟨fits.2, fits.1⟩
  have tasks := balanced.tasks
  rw [tally_eq rfl, add_zero, empty.2, balanced.expected,
    min_eq_right (UInt64.le_iff_toNat_le.mp empty.1), add_comm] at tasks
  constructor
  · exact Multiset.coe_eq_coe.mp (add_left_cancel tasks)
  · rw [balanced.active, tally_eq rfl]
    rfl

theorem after_event (system : Workers workers) (cpu : Fin workers) (spurious : Bool) :
    (event perform system (cpu, spurious)).after =
      system.put cpu ((system.own cpu).step spurious system.shared).1
        ((system.own cpu).step spurious system.shared).2 := rfl

/-- A closed gate will be opened once everybody has taken a seed task. -/
def Openable (system : Workers workers) : Prop :=
  system.shared.taskGate = 0 → system.shared.taskReady.toNat = workers →
    0 < system.tally (Worker.opener workers)

theorem Openable.step (openable : Openable system) (balanced : Balanced past system)
    (fits : workers ≤ postTasks.toNat) (turn : Fin workers × Bool) :
    Openable (event perform system turn).after := by
  obtain ⟨cpu, spurious⟩ := turn
  rw [after_event]
  intro closed all
  rw [Interleaved.put_shared] at closed all
  have balance := Interleaved.tally_put (Worker.opener workers) system cpu
    ((system.own cpu).step spurious system.shared).1
    ((system.own cpu).step spurious system.shared).2
  by_cases begun : system.own cpu = .start
  · have last : ((system.own cpu).step spurious system.shared).2.opener workers = 1 := by
      rw [begun] at all ⊢
      refine if_pos ?_
      rw [← toNat_add_one (balanced.ready_lt fits)]
      exact all
    have untaken : (system.own cpu).opener workers = 0 := by rw [begun]; rfl
    omega
  · obtain ⟨same, ready_eq, was_closed⟩ := Worker.opener_step (balanced.fits cpu) balanced.expected
      balanced.ready_le closed begun
    have positive := openable was_closed (by rw [← ready_eq]; exact all)
    omega

theorem openable_boot (positive : 1 ≤ workers) : Openable (boot workers) := by
  intro _ all
  have none : 0 = workers := all
  omega

theorem openable_run (positive : 1 ≤ workers) (fits : workers ≤ postTasks.toNat)
    (schedule : List (Fin workers × Bool)) :
    Openable (final perform (boot workers) schedule) := by
  refine run_induction_reached perform (motive := fun _ system => Openable system)
    (openable_boot positive) ?_ schedule
  intro turns turn openable
  exact openable.step (balanced_run fits turns) fits turn

/-- Unless all have returned, there is a processor that can go on. -/
theorem exists_unblocked (openable : Openable system) (balanced : Balanced past system)
    (busy : ∃ cpu, system.own cpu ≠ .returned) :
    ∃ cpu, system.own cpu ≠ .returned ∧
      (system.own cpu = .waiting → system.shared.taskGate ≠ 0) := by
  by_contra blocked
  simp only [not_exists, not_and, Classical.not_imp, not_not] at blocked
  obtain ⟨waiter, waiter_busy⟩ := busy
  have closed : system.shared.taskGate = 0 := (blocked waiter waiter_busy).2
  have idle (cpu : Fin workers) : system.own cpu = .returned ∨ system.own cpu = .waiting := by
    by_cases returned : system.own cpu = .returned
    · exact .inl returned
    · exact .inr (blocked cpu returned).1
  have all : system.tally Worker.taken = workers := by
    have taken (cpu : Fin workers) : (system.own cpu).taken = 1 := by
      rcases idle cpu with own | own <;> rw [own] <;> rfl
    simp [Interleaved.tally, taken]
  have nobody : system.tally (Worker.opener workers) = 0 :=
    Finset.sum_eq_zero fun cpu _ => by rcases idle cpu with own | own <;> rw [own] <;> rfl
  have somebody := openable closed (balanced.ready.trans all)
  omega

/-- What is left to do for all processors, and in the queue. -/
def remaining (system : Workers workers) : ℕ :=
  system.tally Worker.rank + 2 * (postTasks.toNat - system.shared.nextTask.toNat)

theorem remaining_lt {cpu : Fin workers}
    (less : ((system.own cpu).step false system.shared).2.remaining
      ((system.own cpu).step false system.shared).1 < (system.own cpu).remaining system.shared) :
    remaining (event perform system (cpu, false)).after < remaining system := by
  have balance := Interleaved.tally_put Worker.rank system cpu
    ((system.own cpu).step false system.shared).1 ((system.own cpu).step false system.shared).2
  rw [after_event]
  unfold Worker.remaining at less
  unfold remaining
  rw [Interleaved.put_shared]
  omega

/-- An exchange that fails is tried again with the value that is there. -/
theorem exists_progress_raising (queue_lt : system.shared.nextTask.toNat + 1 < 2 ^ 64)
    {cpu : Fin workers} {seedTask expectedWorkers candidate current : UInt64}
    (own_eq : system.own cpu = .raising seedTask expectedWorkers candidate current)
    (failed : system.shared.maxActive ≠ current) :
    ∃ turns, remaining (final perform system turns) < remaining system := by
  have step_eq : (system.own cpu).step false system.shared = (system.shared,
      Worker.observed seedTask expectedWorkers candidate system.shared.maxActive) := by
    rw [own_eq]
    exact if_neg fun exchanged => failed exchanged.1
  by_cases higher : candidate > system.shared.maxActive
  · have after_eq : (event perform system (cpu, false)).after = system.put cpu system.shared
        (.raising seedTask expectedWorkers candidate system.shared.maxActive) := by
      rw [after_event, step_eq]
      exact congrArg _ (if_pos higher)
    have same : remaining (event perform system (cpu, false)).after = remaining system := by
      have balance := Interleaved.tally_put Worker.rank system cpu system.shared
        (.raising seedTask expectedWorkers candidate system.shared.maxActive)
      rw [own_eq] at balance
      simp only [Worker.rank] at balance
      rw [after_eq]
      unfold remaining
      rw [Interleaved.put_shared]
      omega
    refine ⟨[(cpu, false), (cpu, false)], ?_⟩
    rw [← same]
    refine remaining_lt (Worker.remaining_step ?_ ?_ ?_ ?_)
    all_goals rw [after_eq]
    · exact queue_lt
    · simp
    · simp
    · rw [Interleaved.put_own]
      rintro _ _ _ _ ⟨⟩
      rfl
  · refine ⟨[(cpu, false)], remaining_lt ?_⟩
    rw [step_eq, own_eq]
    have lower := Worker.rank_entered_lt seedTask expectedWorkers
    simpa [Worker.remaining, Worker.rank, Worker.observed, higher] using lower

theorem exists_progress (openable : Openable system) (balanced : Balanced past system)
    (fits : workers ≤ postTasks.toNat) (busy : ∃ cpu, system.own cpu ≠ .returned) :
    ∃ turns, remaining (final perform system turns) < remaining system := by
  have queue_lt := balanced.queue_lt fits
  obtain ⟨cpu, cpu_busy, unblocked⟩ := exists_unblocked openable balanced busy
  by_cases retries : ∃ seedTask expectedWorkers candidate current,
      system.own cpu = .raising seedTask expectedWorkers candidate current ∧
        system.shared.maxActive ≠ current
  · obtain ⟨seedTask, expectedWorkers, candidate, current, own_eq, failed⟩ := retries
    exact exists_progress_raising queue_lt own_eq failed
  · refine ⟨[(cpu, false)], remaining_lt (Worker.remaining_step queue_lt cpu_busy unblocked ?_)⟩
    intro seedTask expectedWorkers candidate current own_eq
    by_contra failed
    exact retries ⟨seedTask, expectedWorkers, candidate, current, own_eq, failed⟩

/-- All processors can return, whatever has happened so far. -/
theorem exists_returned (positive : 1 ≤ workers) (fits : workers ≤ postTasks.toNat)
    (schedule : List (Fin workers × Bool)) :
    ∃ later, ∀ cpu, (final perform (boot workers) (schedule ++ later)).own cpu = .returned := by
  refine exists_final_of_progress perform (fun system => ∀ cpu, system.own cpu = .returned)
    remaining (fun turns busy => ?_) schedule
  exact exists_progress (openable_run positive fits turns) (balanced_run fits turns) fits
    (not_forall.mp busy)

theorem ofNat_sum_range : UInt64.ofNat (List.range postTasks.toNat).sum =
    postTasks * (postTasks - 1) / 2 := by
  have sum_eq : (List.range postTasks.toNat).sum = postTasks.toNat * (postTasks.toNat - 1) / 2 := by
    rw [← Finset.sum_range_id, Finset.sum, Finset.range_val, Multiset.range, Multiset.map_coe,
      Multiset.sum_coe, List.map_id']
  rw [sum_eq]
  decide

/-- In every schedule, no processor passes the gate before all have taken a seed task, and when all
have returned every task has been added once.  Every schedule can be continued until then. -/
theorem tasks_added_once (positive : 1 ≤ workers) (fits : workers ≤ postTasks.toNat)
    (schedule : List (Fin workers × Bool)) :
    (∀ cpu, ((final perform (boot workers) schedule).own cpu).passed = true →
      ∀ other, (final perform (boot workers) schedule).own other ≠ .start) ∧
    ((∀ cpu, (final perform (boot workers) schedule).own cpu = .returned) →
      (addedTasks (history perform (boot workers) schedule)).Perm (List.range postTasks.toNat) ∧
        (final perform (boot workers) schedule).shared.taskSum =
          postTasks * (postTasks - 1) / 2 ∧
        (final perform (boot workers) schedule).shared.active = 0) ∧
    ∃ later, ∀ cpu, (final perform (boot workers) (schedule ++ later)).own cpu = .returned := by
  have balanced := balanced_run fits schedule
  refine ⟨fun cpu passed => balanced.ne_start passed, fun returned => ?_,
    exists_returned positive fits schedule⟩
  obtain ⟨added, inactive⟩ := balanced.returned positive returned
  refine ⟨added, ?_, inactive⟩
  rw [balanced.sum, added.sum_eq]
  exact ofNat_sum_range

/-- Two processors can return, and have then added every task once. -/
theorem tasks_added_once_two :
    ∃ schedule, (∀ cpu, (final perform (boot 2) schedule).own cpu = .returned) ∧
      (addedTasks (history perform (boot 2) schedule)).Perm (List.range postTasks.toNat) ∧
      (final perform (boot 2) schedule).shared.taskSum = postTasks * (postTasks - 1) / 2 ∧
      (final perform (boot 2) schedule).shared.active = 0 := by
  obtain ⟨_, _, schedule, returned⟩ :=
    tasks_added_once (show 1 ≤ 2 by decide) (by decide) []
  exact ⟨schedule, returned, (tasks_added_once (by decide) (by decide) schedule).2.1 returned⟩

end Workers

end Bulla.Platform
