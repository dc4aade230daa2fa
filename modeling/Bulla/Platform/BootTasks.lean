import Bulla.Platform.BootOrder
import Bulla.Platform.LockRefinement
import Bulla.Platform.TaskRuns

/-!
# Tasks and lock in the boot protocol

Whatever else the processors do, what they do in `run_tasks` is a run of the task distribution, and
what they do in `lock_once` is a run of the boot lock.  So what is known of those holds here, where
the processors come to them one after the other and are interrupted in between.
-/

namespace Bulla.Platform

open Rust Outcome

namespace Statement

variable {cpus : ℕ}

/-- How far a processor is in `run_tasks`. -/
def worker : Statement cpus → Option Worker
  | .tasks worker => some worker
  | .enlist seedTask expectedWorkers => some (.entering seedTask expectedWorkers)
  | _ => none

/-- How far a processor is in `lock_once`. -/
def locker : Statement cpus → Option Locker
  | .lock locker => some locker
  | _ => none

/-- The counters after the stores of the scheduler phase that are left. -/
def settle (counters : TaskCounters) : Statement cpus → TaskCounters
  | .setTask field value => field.store value counters
  | _ => counters

variable {statement next : Statement cpus}

theorem worker_eq_none (other : statement.kind ≠ .tasks) : statement.worker = none := by
  cases statement with
  | tasks | enlist => exact absurd rfl other
  | _ => rfl

theorem locker_eq_none (other : statement.kind ≠ .lock) : statement.locker = none := by
  cases statement with
  | lock => exact absurd rfl other
  | _ => rfl

theorem settle_eq_self (other : ∀ field, statement.kind ≠ .setTask field)
    (counters : TaskCounters) : statement.settle counters = counters := by
  cases statement with
  | setTask field => exact absurd rfl (other field)
  | _ => rfl

/-- What follows an operation of `run_tasks` shows how far the processor is. -/
theorem worker_afterTask (worker : Worker) (spurious : Bool) (counters : TaskCounters) :
    ((worker.step spurious counters).2 = .returned ∧
        (afterTask worker (worker.step spurious counters).2 : Next cpus) = .done) ∨
      ∃ next : Statement cpus,
        afterTask worker (worker.step spurious counters).2 = .stay next ∧
          next.worker = some (worker.step spurious counters).2 := by
  cases worker with
  | adding seedTask expectedWorkers => exact .inr ⟨_, rfl, rfl⟩
  | _ =>
      generalize (Worker.step spurious counters _).2 = moved
      cases moved with
      | returned => exact .inl ⟨rfl, rfl⟩
      | _ => exact .inr ⟨_, rfl, rfl⟩

end Statement

namespace Boot

open Statement (Kind)

variable {roster : Roster} {system : Boot roster} {cpu : Fin roster.cpus}
  {statement : Statement roster.cpus} {rest program : List (Statement roster.cpus)}
  {memory : BootMemory roster.cpus} {core : Core roster.cpus} {machine : Machine}
  {next : Next roster.cpus}

/-- The distribution of the tasks that a boot contains. -/
def tasksOf (system : Boot roster) : Workers roster.cpus where
  shared := (system.own roster.bsp).program.foldl Statement.settle system.shared.tasks
  own := fun cpu => Agenda.part Statement.worker .returned (system.own cpu).program

/-- The lock that a boot contains. -/
def locksOf (system : Boot roster) : Lockers roster.cpus where
  shared := system.shared.locks
  own := fun cpu => Agenda.part Statement.locker .returned (system.own cpu).program

section Follow

variable {β : Type} {view : Statement roster.cpus → Option β} {absent : β}

/-- A statement that is not part of something leaves it where it is. -/
theorem Runs.part_follow (runs : Runs system cpu statement rest memory machine next)
    (unseen : ∀ other : Statement roster.cpus, other.kind = statement.kind → view other = none) :
    Agenda.part view absent ((system.own cpu).follow machine next).program =
      Agenda.part view absent (system.own cpu).program := by
  have before := unseen statement rfl
  cases next with
  | stay next =>
      have after := unseen next (runs.confined.kind next rfl)
      rw [Core.follow, runs.front, List.tail_cons, Agenda.part_cons_of_none after,
        Agenda.part_cons_of_none before]
  | done => rw [Core.follow, runs.front, List.tail_cons, Agenda.part_cons_of_none before]
  | stop error => rfl

/-- When a statement is done, nothing more of its kind comes. -/
theorem Runs.part_done (runs : Runs system cpu statement rest memory machine .done)
    (unseen : ∀ other : Statement roster.cpus, other.kind ≠ statement.kind → view other = none)
    (single : statement.kind ∉ rest.map Statement.kind) :
    Agenda.part view absent ((system.own cpu).follow machine .done).program = absent := by
  rw [Core.follow, runs.front, List.tail_cons]
  refine Agenda.part_of_forall_none fun other member => unseen other fun same => single ?_
  exact same ▸ List.mem_map_of_mem member

end Follow

/-- `run_tasks` and `lock_once` are called once. -/
theorem Reached.called_once (reached : Reached system)
    (runs : Runs system cpu statement rest memory machine next)
    (called : statement.kind = .tasks ∨ statement.kind = .lock) :
    statement.kind ∉ rest.map Statement.kind := by
  have suffix : (left system cpu).head? = some statement.kind →
      statement.kind ∉ (left system cpu).tail := by
    by_cases boots : cpu = roster.bsp
    · subst boots
      rcases called with kind_eq | kind_eq <;> rw [kind_eq] <;>
        exact reached.bsp_left (motive := fun kinds => kinds.head? = some _ → _ ∉ kinds.tail)
          (by decide)
    · rcases called with kind_eq | kind_eq <;> rw [kind_eq] <;>
        exact reached.ap_left boots (motive := fun kinds => kinds.head? = some _ → _ ∉ kinds.tail)
          (by decide)
  rw [runs.left_eq] at suffix
  exact suffix rfl

/-- The counters of the tasks are set up when a processor comes to them. -/
theorem Reached.settled (reached : Reached system)
    (runs : Runs system cpu statement rest memory machine next) (called : statement.kind = .tasks)
    (field : TaskField) : Kind.setTask field ∉ left system roster.bsp := by
  by_cases boots : cpu = roster.bsp
  · subst boots
    have suffix := reached.bsp_left (motive := fun kinds => kinds.head? = some Kind.tasks →
      ∀ kind ∈ kinds, ∀ field ∈ [TaskField.nextTask, .taskReady, .taskGate, .expectedWorkers,
        .taskSum, .active, .maxActive], kind ≠ .setTask field) (by decide)
    rw [runs.left_eq, called] at suffix
    rw [runs.left_eq, called]
    intro todo
    exact suffix rfl _ todo field (by cases field <;> decide) rfl
  · have passed := reached.ap_left boots (motive := fun kinds => kinds.head? = some Kind.tasks →
      Kind.await .phase 1 ∉ kinds) (by decide) (by rw [runs.left_eq, called]; rfl)
    have released := (reached.past_await boots).1 passed
    have suffix := reached.bsp_left (motive := fun kinds => ∀ kind ∈ kinds,
      ∀ field ∈ [TaskField.nextTask, .taskReady, .taskGate, .expectedWorkers, .taskSum, .active,
        .maxActive], kind = .setTask field → Kind.store .phase 1 ∈ kinds) (by decide)
    exact fun todo => released (suffix _ todo field (by cases field <;> decide) rfl)

theorem foldl_settle {counters : TaskCounters}
    (settled : ∀ field, Kind.setTask field ∉ program.map Statement.kind) :
    program.foldl Statement.settle counters = counters := by
  induction program with
  | nil => rfl
  | cons statement program induction =>
      rw [List.map_cons] at settled
      rw [List.foldl_cons, Statement.settle_eq_self fun field same =>
        settled field (same ▸ List.mem_cons_self)]
      exact induction fun field todo => settled field (List.mem_cons_of_mem _ todo)

theorem Runs.foldl_settle_follow (runs : Runs system cpu statement rest memory machine next)
    (unset : ∀ field, statement.kind ≠ .setTask field) (counters : TaskCounters) :
    ((system.own cpu).follow machine next).program.foldl Statement.settle counters =
      (system.own cpu).program.foldl Statement.settle counters := by
  have before := Statement.settle_eq_self unset counters
  cases next with
  | stay next =>
      have same := runs.confined.kind next rfl
      have after := Statement.settle_eq_self (fun field => same ▸ unset field) counters
      rw [Core.follow, runs.front, List.tail_cons, List.foldl_cons, List.foldl_cons, before, after]
  | done => rw [Core.follow, runs.front, List.tail_cons, List.foldl_cons, before]
  | stop error => rfl

/-- A processor's move, seen from the tasks. -/
theorem tasksOf_put {counters : TaskCounters} {worker : Worker}
    (shared_eq : ((system.put cpu memory core).own roster.bsp).program.foldl Statement.settle
      memory.tasks = counters)
    (own_eq : Agenda.part Statement.worker .returned core.program = worker) :
    tasksOf (system.put cpu memory core) = (tasksOf system).put cpu counters worker := by
  rw [Interleaved.put, ← own_eq, ← shared_eq]
  exact congrArg (Interleaved.mk _) (Interleaved.view_own_put fun core : Core roster.cpus =>
    Agenda.part Statement.worker .returned core.program)

/-- The stores that are left are not touched by a move that leaves the counters as they will be. -/
theorem shared_tasksOf_put {counters : TaskCounters}
    (here : cpu = roster.bsp → core.program.foldl Statement.settle memory.tasks = counters)
    (elsewhere : cpu ≠ roster.bsp →
      (system.own roster.bsp).program.foldl Statement.settle memory.tasks = counters) :
    ((system.put cpu memory core).own roster.bsp).program.foldl Statement.settle memory.tasks =
      counters := by
  by_cases boots : cpu = roster.bsp
  · subst boots
    rw [Interleaved.put_own]
    exact here rfl
  · rw [Interleaved.put_own_of_ne (Ne.symm boots)]
    exact elsewhere boots

theorem tasksOf_put_same (tasks_eq : memory.tasks = system.shared.tasks)
    (settles : core.program.foldl Statement.settle system.shared.tasks =
      (system.own cpu).program.foldl Statement.settle system.shared.tasks)
    (own_eq : Agenda.part Statement.worker .returned core.program =
      Agenda.part Statement.worker .returned (system.own cpu).program) :
    tasksOf (system.put cpu memory core) = tasksOf system := by
  have shared_eq : ((system.put cpu memory core).own roster.bsp).program.foldl Statement.settle
      memory.tasks = (tasksOf system).shared := by
    refine shared_tasksOf_put ?_ fun _ => by rw [tasks_eq]; rfl
    rintro rfl
    rw [tasks_eq, settles]
    rfl
  rw [tasksOf_put shared_eq own_eq]
  exact Interleaved.put_self _ _

/-- An operation of `run_tasks` is one of the distribution of the tasks. -/
theorem Reached.tasks_step (reached : Reached system) {worker : Worker}
    (runs : Runs system cpu (.tasks worker) rest memory machine next) :
    ∃ spurious, tasksOf (system.put cpu memory ((system.own cpu).follow machine next)) =
      (event Workers.perform (tasksOf system) (cpu, spurious)).after := by
  have settled := reached.settled runs rfl
  have single := reached.called_once runs (.inl rfl)
  have still_settled (field : TaskField) : Kind.setTask field ∉
      left (system.put cpu memory ((system.own cpu).follow machine next)) roster.bsp :=
    fun todo => settled field ((Moves.ran runs).left_subset _ todo)
  have own_eq : (tasksOf system).own cpu = worker := by
    change Agenda.part Statement.worker .returned (system.own cpu).program = worker
    rw [runs.front]
    exact Agenda.part_cons_of_some rfl
  have shared_eq : (tasksOf system).shared = system.shared.tasks := foldl_settle settled
  obtain ⟨chance, stepped⟩ := runs.stepped
  refine ⟨chance.spurious, ?_⟩
  rw [Workers.after_event, own_eq, shared_eq]
  cases stepped
  refine tasksOf_put (foldl_settle still_settled) ?_
  rcases Statement.worker_afterTask worker chance.spurious system.shared.tasks with
    ⟨returned, done⟩ | ⟨next, stays, shows⟩
  · rw [done] at runs ⊢
    rw [returned]
    exact runs.part_done (fun _ => Statement.worker_eq_none) single
  · rw [stays]
    exact Agenda.part_cons_of_some shows

/-- Everything else that happens leaves the tasks alone. -/
theorem Reached.tasks_kept (reached : Reached system)
    (runs : Runs system cpu statement rest memory machine next)
    (other : ∀ worker, statement ≠ .tasks worker) :
    tasksOf (system.put cpu memory ((system.own cpu).follow machine next)) = tasksOf system := by
  by_cases sets : ∃ field, statement.kind = .setTask field
  · obtain ⟨field, kind_eq⟩ := sets
    obtain rfl := reached.eq_bsp runs (by rw [kind_eq]; cases field <;> decide)
    cases statement with
    | setTask field value =>
        obtain ⟨chance, stepped⟩ := runs.stepped
        cases stepped
        have shared_eq : (tasksOf system).shared =
            rest.foldl Statement.settle (field.store value system.shared.tasks) := by
          change (system.own roster.bsp).program.foldl _ _ = _
          rw [runs.front]
          rfl
        rw [tasksOf_put (shared_tasksOf_put (fun _ => ?_) fun other => absurd rfl other)
          (runs.part_follow fun other same =>
            Statement.worker_eq_none (by rw [same]; simp [Statement.kind]))]
        · exact Interleaved.put_self _ _
        · rw [shared_eq, Core.follow, runs.front, List.tail_cons]
    | _ => cases kind_eq
  · have unset (field : TaskField) : statement.kind ≠ .setTask field := fun same =>
      sets ⟨field, same⟩
    have settled := runs.foldl_settle_follow unset system.shared.tasks
    by_cases lists : statement.kind = .tasks
    · cases statement with
      | tasks worker => exact absurd rfl (other worker)
      | enlist seedTask expectedWorkers =>
          obtain ⟨chance, stepped⟩ := runs.stepped
          cases stepped
          refine tasksOf_put_same rfl settled ?_
          rw [runs.front]
          rfl
      | _ => cases lists
    · refine tasksOf_put_same (runs.confined.tasks lists unset) settled ?_
      exact runs.part_follow fun other same => Statement.worker_eq_none (same ▸ lists)

/-- What the processors do in `run_tasks` is a run of the distribution of the tasks. -/
theorem Reached.tasks_run (reached : Reached system) :
    ∃ schedule, tasksOf system = final Workers.perform (Workers.boot roster.cpus) schedule := by
  refine reached.invariant (motive := fun system => ∃ schedule, tasksOf system =
    final Workers.perform (Workers.boot roster.cpus) schedule) ⟨[], ?_⟩ ?_
  · have own_eq (cpu : Fin roster.cpus) :
        Agenda.part Statement.worker .returned (programOf roster cpu) = .start := by
      unfold programOf
      split <;> rfl
    have shared_eq : (programOf roster roster.bsp).foldl Statement.settle ⟨0, 0, 0, 0, 0, 0, 0⟩ =
        (Workers.boot roster.cpus).shared := by
      rw [programOf_bsp]
      rfl
    exact congrArg₂ Interleaved.mk shared_eq (funext own_eq)
  · rintro system mover memory core reached ⟨schedule, tasks_eq⟩ moves
    rcases moves.runs_or_aside with ⟨statement, rest, machine, next, runs, rfl⟩ | aside
    · by_cases called : ∃ worker, statement = .tasks worker
      · obtain ⟨worker, rfl⟩ := called
        obtain ⟨spurious, after_eq⟩ := reached.tasks_step runs
        refine ⟨schedule ++ [(mover, spurious)], ?_⟩
        rw [after_eq, tasks_eq, final_append]
        rfl
      · refine ⟨schedule, (reached.tasks_kept runs ?_).trans tasks_eq⟩
        exact fun worker same => called ⟨worker, same⟩
    · refine ⟨schedule, (tasksOf_put_same aside.tasks ?_ ?_).trans tasks_eq⟩ <;> rw [aside.program]

section Locks

theorem locksOf_put {counters : LockCounters} {locker : Locker}
    (shared_eq : memory.locks = counters)
    (own_eq : Agenda.part Statement.locker .returned core.program = locker) :
    locksOf (system.put cpu memory core) = (locksOf system).put cpu counters locker := by
  rw [Interleaved.put, ← own_eq, ← shared_eq]
  exact congrArg (Interleaved.mk _) (Interleaved.view_own_put fun core : Core roster.cpus =>
    Agenda.part Statement.locker .returned core.program)

theorem locksOf_put_same (shared_eq : memory.locks = system.shared.locks)
    (own_eq : Agenda.part Statement.locker .returned core.program =
      Agenda.part Statement.locker .returned (system.own cpu).program) :
    locksOf (system.put cpu memory core) = locksOf system := by
  rw [locksOf_put shared_eq own_eq]
  exact Interleaved.put_self (locksOf system) cpu

/-- An operation of `lock_once` is one of the boot lock. -/
theorem Reached.locks_step (reached : Reached system) {locker : Locker}
    (runs : Runs system cpu (.lock locker) rest memory machine next) :
    locksOf (system.put cpu memory ((system.own cpu).follow machine next)) =
      (event (Lockers.perform roster.id) (locksOf system) cpu).after := by
  have single := reached.called_once runs (.inr rfl)
  have own_eq : (locksOf system).own cpu = locker := by
    change Agenda.part Statement.locker .returned (system.own cpu).program = locker
    rw [runs.front]
    exact Agenda.part_cons_of_some rfl
  obtain ⟨chance, stepped⟩ := runs.stepped
  obtain ⟨⟨counters, moved⟩, moved_eq, stepped⟩ := bind_eq_ok.mp stepped
  cases stepped
  have performed : Lockers.perform roster.id cpu (locksOf system) =
      (.ok (), (locksOf system).put cpu counters moved) := by
    simpa [Lockers.perform, own_eq] using ⟨counters, moved, moved_eq, rfl⟩
  rw [event, performed]
  refine locksOf_put rfl ?_
  cases moved with
  | returned => exact runs.part_done (fun _ => Statement.locker_eq_none) single
  | _ => exact Agenda.part_cons_of_some rfl

/-- What the processors do in `lock_once` is a run of the boot lock. -/
theorem Reached.locks_run (reached : Reached system) :
    ∃ schedule, locksOf system =
      final (Lockers.perform roster.id) (Lockers.boot roster.cpus) schedule := by
  refine reached.invariant (motive := fun system => ∃ schedule, locksOf system =
    final (Lockers.perform roster.id) (Lockers.boot roster.cpus) schedule) ⟨[], ?_⟩ ?_
  · have own_eq (cpu : Fin roster.cpus) :
        Agenda.part Statement.locker .returned (programOf roster cpu) = .start := by
      unfold programOf
      split <;> rfl
    exact congrArg (Interleaved.mk _) (funext own_eq)
  · rintro system mover memory core reached ⟨schedule, locks_eq⟩ moves
    rcases moves.runs_or_aside with ⟨statement, rest, machine, next, runs, rfl⟩ | aside
    · by_cases called : statement.kind = .lock
      · cases statement with
        | lock locker =>
            refine ⟨schedule ++ [mover], ?_⟩
            rw [reached.locks_step runs, locks_eq, final_append]
            rfl
        | _ => cases called
      · refine ⟨schedule, (locksOf_put_same (runs.confined.locks called) ?_).trans locks_eq⟩
        exact runs.part_follow fun other same => Statement.locker_eq_none (same ▸ called)
    · refine ⟨schedule, (locksOf_put_same aside.locks ?_).trans locks_eq⟩
      rw [aside.program]

end Locks

section Results

/-- Nobody comes too late for a seed task. -/
theorem Reached.seeded (reached : Reached system) {seedTask : UInt64}
    (runs : Runs system cpu (.tasks (.seeded seedTask)) rest memory machine next) :
    ¬seedTask ≥ system.shared.tasks.expectedWorkers := by
  obtain ⟨schedule, tasks_eq⟩ := reached.tasks_run
  have fits : roster.cpus ≤ postTasks.toNat := roster.facts.length_le.trans (by decide)
  have balanced := Workers.balanced_run fits schedule
  rw [← tasks_eq] at balanced
  have shared_eq : (tasksOf system).shared = system.shared.tasks :=
    foldl_settle (reached.settled runs rfl)
  have own_eq : (tasksOf system).own cpu = .seeded seedTask := by
    change Agenda.part Statement.worker .returned (system.own cpu).program = _
    rw [runs.front]
    exact Agenda.part_cons_of_some rfl
  rw [← shared_eq]
  exact Worker.seed_below (own_eq ▸ balanced.fits cpu) balanced.ready_le

/-- The counters of the tasks once everybody has left `run_tasks`. -/
theorem Reached.taskSum (reached : Reached system)
    (settled : ∀ field, Kind.setTask field ∉ left system roster.bsp)
    (returned : ∀ cpu, Kind.tasks ∉ left system cpu) :
    system.shared.tasks.taskSum = postTasks * (postTasks - 1) / 2 := by
  obtain ⟨schedule, tasks_eq⟩ := reached.tasks_run
  have fits : roster.cpus ≤ postTasks.toNat := roster.facts.length_le.trans (by decide)
  have balanced := Workers.balanced_run fits schedule
  rw [← tasks_eq] at balanced
  have all_returned (cpu : Fin roster.cpus) : (tasksOf system).own cpu = .returned :=
    Agenda.part_of_forall_none fun statement member => Statement.worker_eq_none fun same =>
      returned cpu (List.mem_map.mpr ⟨statement, member, same⟩)
  have shared_eq : (tasksOf system).shared = system.shared.tasks := foldl_settle settled
  rw [← shared_eq, balanced.sum, (balanced.returned Roster.one_le_cpus all_returned).1.sum_eq]
  exact Workers.ofNat_sum_range

/-- The counters of the lock once everybody has left `lock_once`. -/
theorem Reached.locked (reached : Reached system) (returned : ∀ cpu, Kind.lock ∉ left system cpu) :
    system.shared.locks.lockEntries = .ofNat roster.cpus ∧ system.shared.locks.once ≠ 0 := by
  obtain ⟨schedule, locks_eq⟩ := reached.locks_run
  have all_returned (cpu : Fin roster.cpus) : (locksOf system).own cpu = .returned :=
    Agenda.part_of_forall_none fun statement member => Statement.locker_eq_none fun same =>
      returned cpu (List.mem_map.mpr ⟨statement, member, same⟩)
  have queued := Lockers.queued_run roster.id Roster.cpus_lt schedule
  have elected := Lockers.elected_run roster.id Roster.cpus_lt schedule
  rw [← locks_eq] at queued elected
  constructor
  · rw [← UInt64.toNat_inj, UInt64.toNat_ofNat_of_lt' Roster.cpus_lt]
    refine queued.entries.trans ?_
    simp [Interleaved.tally, all_returned, Locker.counted]
  · rcases elected with ⟨_, _, busy⟩ | ⟨winner, _, once_eq⟩
    · exact absurd (all_returned roster.bsp) (busy roster.bsp)
    · have signed : system.shared.locks.once = (roster.id winner).toUInt64 + 1 := once_eq
      rw [signed, Ne, ← UInt64.toNat_inj, toNat_add_one (Lockers.apicId_lt roster.id winner)]
      simp

end Results

end Boot

end Bulla.Platform
