import Mathlib.Algebra.Notation.Pi.Basic
import Bulla.Kernel.Scheduler

/-!
# Every task is in one place

A task occurs in a run queue or on a processor.  How often it occurs in each place is a function
that the state of the task determines up to the choice of one queue, and every call moves one task
from one place to another.
-/

namespace Bulla.Kernel.Scheduler

open Rust Outcome

/-- A place a task can be in. -/
inductive Home where
  | queue (cpu : CpuId)
  | processor (cpu : CpuId)
  deriving DecidableEq, Repr

/-- How often a task occurs in each place. -/
def occupancy (queues : BTreeMap CpuId (List TaskId)) (current : BTreeMap CpuId (Option TaskId))
    (task : TaskId) : Home → Nat
  | .queue cpu => ((queues[cpu]?).getD []).count task
  | .processor cpu => if current[cpu]? = some (some task) then 1 else 0

/-- A runnable task is in one queue once, a running task is current on its processor, and every
other task is nowhere. -/
def Owned (places : Home → Nat) : Option TaskState → Prop
  | some .runnable => ∃ cpu, places = Pi.single (.queue cpu) 1
  | some (.running cpu) => places = Pi.single (.processor cpu) 1
  | _ => places = 0

/-- Like `Owned`, but a running task may also be nowhere: a `yield_current` that runs out of
generations takes it off its processor and leaves its state. -/
def Placed (places : Home → Nat) : Option TaskState → Prop
  | some .runnable => ∃ cpu, places = Pi.single (.queue cpu) 1
  | some (.running cpu) => places = Pi.single (.processor cpu) 1 ∨ places = 0
  | _ => places = 0

/-- Queues and current tasks are kept for the same processors, and every task is where its state
says. -/
structure Sound (state : Scheduler) : Prop where
  cpus : ∀ cpu, cpu ∈ state.queues ↔ cpu ∈ state.current
  owned : ∀ task, Owned (occupancy state.queues state.current task) (state.taskState task)

/-- The same, but tasks may be lost. -/
structure Tidy (state : Scheduler) : Prop where
  cpus : ∀ cpu, cpu ∈ state.queues ↔ cpu ∈ state.current
  placed : ∀ task, Placed (occupancy state.queues state.current task) (state.taskState task)

theorem Owned.placed {places : Home → Nat} {status : Option TaskState}
    (owned : Owned places status) : Placed places status := by
  unfold Owned at owned
  split at owned
  · exact owned
  · exact .inl owned
  · unfold Placed
    split <;> simp_all

theorem Sound.tidy {state : Scheduler} (sound : Sound state) : Tidy state :=
  ⟨sound.cpus, fun task => (sound.owned task).placed⟩

section Occupancy

variable {queues : BTreeMap CpuId (List TaskId)} {current : BTreeMap CpuId (Option TaskId)}
  {task : TaskId} {cpu : CpuId}

theorem occupancy_queue {queue : List TaskId} (present : queues[cpu]? = some queue) :
    occupancy queues current task (.queue cpu) = queue.count task := by
  simp [occupancy, present]

theorem occupancy_insert_queue (queue : List TaskId) :
    occupancy (queues.insert cpu queue) current task =
      Function.update (occupancy queues current task) (.queue cpu) (queue.count task) := by
  funext home
  cases home with
  | queue other =>
      by_cases same : cpu = other
      · subst same
        simp [occupancy]
      · rw [Function.update_of_ne (by simpa using Ne.symm same)]
        simp [occupancy, BTreeMap.getElem?_insert_of_ne _ _ same]
  | processor other => rfl

theorem occupancy_insert_current (occupant : Option TaskId) :
    occupancy queues (current.insert cpu occupant) task =
      Function.update (occupancy queues current task) (.processor cpu)
        (if occupant = some task then 1 else 0) := by
  funext home
  cases home with
  | queue other => rfl
  | processor other =>
      by_cases same : cpu = other
      · subst same
        simp [occupancy]
      · rw [Function.update_of_ne (by simpa using Ne.symm same)]
        simp [occupancy, BTreeMap.getElem?_insert_of_ne _ _ same]

/-- A queue that changes without gaining or losing a task. -/
theorem occupancy_of_count_eq {queue changed : List TaskId} (present : queues[cpu]? = some queue)
    (same : changed.count task = queue.count task) :
    occupancy (queues.insert cpu changed) current task = occupancy queues current task := by
  rw [occupancy_insert_queue, same, ← occupancy_queue present, Function.update_eq_self]

/-- A processor that changes its task for another. -/
theorem occupancy_of_current_ne {occupant replaced : Option TaskId}
    (present : current[cpu]? = some replaced) (old : replaced ≠ some task)
    (new : occupant ≠ some task) :
    occupancy queues (current.insert cpu occupant) task = occupancy queues current task := by
  have unoccupied : occupancy queues current task (.processor cpu) = 0 := by
    simp [occupancy, present, old]
  rw [occupancy_insert_current, if_neg new, ← unoccupied, Function.update_eq_self]

end Occupancy

/-- A task that occurs in a queue is runnable and occurs nowhere else. -/
theorem Placed.of_queue {places : Home → Nat} {status : Option TaskState} {cpu : CpuId}
    (placed : Placed places status) (occurs : places (.queue cpu) ≠ 0) :
    status = some .runnable ∧ places = Pi.single (.queue cpu) 1 := by
  unfold Placed at placed
  split at placed
  · obtain ⟨other, rfl⟩ := placed
    obtain rfl : cpu = other := by
      by_contra distinct
      simp [distinct] at occurs
    exact ⟨rfl, rfl⟩
  · rcases placed with rfl | rfl <;> simp at occurs
  · simp [placed] at occurs

/-- A task that occurs on a processor is running there and occurs nowhere else. -/
theorem Placed.of_processor {places : Home → Nat} {status : Option TaskState} {cpu : CpuId}
    (placed : Placed places status) (occurs : places (.processor cpu) ≠ 0) :
    status = some (.running cpu) ∧ places = Pi.single (.processor cpu) 1 := by
  unfold Placed at placed
  split at placed
  · obtain ⟨other, rfl⟩ := placed
    simp at occurs
  · rename_i other
    rcases placed with rfl | rfl
    · obtain rfl : cpu = other := by
        by_contra distinct
        simp [distinct] at occurs
      exact ⟨rfl, rfl⟩
    · simp at occurs
  · simp [placed] at occurs

/-- A task that `dispatch` has taken off a queue: the front of the processor's own queue, or the
back of another one. -/
inductive Taken (before : Scheduler) (cpu : CpuId) : CpuId → TaskId → List TaskId → UInt64 → Prop
  | own {task : TaskId} {rest : List TaskId} (queued : before.queues[cpu]? = some (task :: rest)) :
      Taken before cpu cpu task rest before.steals
  | stolen {source : CpuId} {task : TaskId} {rest : List TaskId}
      (idle : before.queues[cpu]? = some []) (chosen : victim before.queues cpu = some source)
      (queued : before.queues[source]? = some (rest ++ [task])) :
      Taken before cpu source task rest (saturatingAdd before.steals 1)

theorem Taken.queue {before : Scheduler} {cpu source : CpuId} {task : TaskId} {rest : List TaskId}
    {steals : UInt64} (taken : Taken before cpu source task rest steals) :
    ∃ queue, before.queues[source]? = some queue ∧ queue.Perm (task :: rest) := by
  cases taken with
  | own queued => exact ⟨_, queued, .refl _⟩
  | stolen idle chosen queued => exact ⟨_, queued, List.perm_append_singleton _ _⟩

/-- The reasons for which each call can be refused while every task is in its place. -/
def refusals : Request → List SchedulerError
  | .createTask _ _ => [.unknownCpu, .duplicateTask]
  | .wake _ _ => [.unknownCpu, .unknownTask, .wrongState]
  | _ => [.unknownCpu, .wrongState]

/-- The effect of each way a call can end while every task is in its place. -/
inductive Step (before : Scheduler) : Request → Outcome SchedulerError Reply → Scheduler → Prop
  | rejected {request : Request} {reason : SchedulerError} (possible : reason ∈ refusals request) :
      Step before request (.err reason) before
  | exhausted {cpu : CpuId} {task : TaskId} (occupied : before.current[cpu]? = some (some task)) :
      Step before (.yieldCurrent cpu) (.err .generationOverflow)
        { before with current := before.current.insert cpu none }
  | created {task : TaskId} {cpu : CpuId} {queue : List TaskId}
      (present : before.queues[cpu]? = some queue) (unknown : before.tasks[task]? = none) :
      Step before (.createTask task cpu) (.ok .done)
        { before with
          tasks := before.tasks.insert task ⟨.runnable, 0⟩
          queues := before.queues.insert cpu (queue ++ [task]) }
  | idled {cpu : CpuId} (free : before.current[cpu]? = some none)
      (idle : before.queues[cpu]? = some []) (alone : victim before.queues cpu = none) :
      Step before (.dispatch cpu) (.ok (.dispatched none)) before
  | dispatched {cpu source : CpuId} {task : TaskId} {rest : List TaskId} {steals : UInt64}
      {record : Task} (free : before.current[cpu]? = some none)
      (taken : Taken before cpu source task rest steals)
      (known : before.tasks[task]? = some record) (runnable : record.state = .runnable) :
      Step before (.dispatch cpu) (.ok (.dispatched (some task)))
        { queues := before.queues.insert source rest
          tasks := before.tasks.insert task { record with state := .running cpu }
          current := before.current.insert cpu (some task)
          completedDispatches := saturatingAdd before.completedDispatches 1
          steals }
  | yielded {cpu : CpuId} {task : TaskId} {record : Task} {generation : UInt64}
      {queue : List TaskId} (occupied : before.current[cpu]? = some (some task))
      (known : before.tasks[task]? = some record) (running : record.state = .running cpu)
      (advanced : generation.toNat = record.generation.toNat + 1)
      (present : before.queues[cpu]? = some queue) :
      Step before (.yieldCurrent cpu) (.ok (.task task))
        { before with
          current := before.current.insert cpu none
          tasks := before.tasks.insert task ⟨.runnable, generation⟩
          queues := before.queues.insert cpu (queue ++ [task]) }
  | left {request : Request} {cpu : CpuId} {task : TaskId} {record : Task} {next : TaskState}
      (request_eq : (request = .blockCurrent cpu ∧ next = .blocked) ∨
        ∃ code, request = .exitCurrent cpu code ∧ next = .exited code)
      (occupied : before.current[cpu]? = some (some task))
      (known : before.tasks[task]? = some record) (running : record.state = .running cpu) :
      Step before request (.ok (.task task))
        { before with
          current := before.current.insert cpu none
          tasks := before.tasks.insert task { record with state := next } }
  | woken {task : TaskId} {cpu : CpuId} {record : Task} {queue : List TaskId}
      (present : before.queues[cpu]? = some queue) (known : before.tasks[task]? = some record)
      (blocked : record.state = .blocked) :
      Step before (.wake task cpu) (.ok .done)
        { before with
          tasks := before.tasks.insert task { record with state := .runnable }
          queues := before.queues.insert cpu (queue ++ [task]) }

theorem victim_spec {queues : BTreeMap CpuId (List TaskId)} {requester source : CpuId}
    (chosen : victim queues requester = some source) :
    ∃ rest task, queues[source]? = some (rest ++ [task]) := by
  rw [victim, Option.bind_eq_some_iff] at chosen
  obtain ⟨⟨cpu, queue⟩, longest, nonempty⟩ := chosen
  have member := (List.mem_filter.mp (List.argmax_mem longest)).1
  rw [BTreeMap.mem_toList] at member
  rcases List.eq_nil_or_concat queue with rfl | ⟨rest, task, rfl⟩
  · simp at nonempty
  · obtain rfl : cpu = source := by simpa using nonempty
    exact ⟨rest, task, by simpa using member⟩

/-- `dispatch` finds a task, or its own queue is empty and there is no one to steal from. -/
theorem nextTask_spec {before : Scheduler} {cpu : CpuId} {queue : List TaskId}
    (present : before.queues[cpu]? = some queue) :
    (nextTask cpu before = (.ok none, before) ∧ queue = [] ∧ victim before.queues cpu = none) ∨
      ∃ source task rest steals, Taken before cpu source task rest steals ∧
        nextTask cpu before =
          (.ok (some task),
            { before with queues := before.queues.insert source rest, steals }) := by
  cases queue with
  | cons task rest =>
      refine .inr ⟨cpu, task, rest, before.steals, .own present, ?_⟩
      simp [nextTask, present]
  | nil =>
      have unchanged := BTreeMap.insert_of_present present
      rcases chosen : victim before.queues cpu with _ | source
      · refine .inl ⟨?_, rfl, rfl⟩
        simp [nextTask, steal, present, unchanged, chosen]
      · obtain ⟨rest, task, queued⟩ := victim_spec chosen
        refine .inr ⟨source, task, rest, _, .stolen present chosen queued, ?_⟩
        simp [nextTask, steal, present, unchanged, chosen, queued]

section Tidy

variable {state : Scheduler} {task : TaskId} {cpu : CpuId}

theorem Tidy.runnable_of_queue (tidy : Tidy state) {queue : List TaskId}
    (present : state.queues[cpu]? = some queue) (member : task ∈ queue) :
    ∃ record, state.tasks[task]? = some record ∧ record.state = .runnable := by
  have occurs : occupancy state.queues state.current task (.queue cpu) ≠ 0 := by
    rw [occupancy_queue present]
    exact (List.count_pos_iff.mpr member).ne'
  exact Option.map_eq_some_iff.mp ((tidy.placed task).of_queue occurs).1

/-- A current task occurs on its processor and nowhere else. -/
theorem Tidy.alone_of_current (tidy : Tidy state)
    (occupied : state.current[cpu]? = some (some task)) :
    occupancy state.queues state.current task = Pi.single (.processor cpu) 1 := by
  refine ((tidy.placed task).of_processor ?_).2
  simp [occupancy, occupied]

theorem Tidy.running_of_current (tidy : Tidy state)
    (occupied : state.current[cpu]? = some (some task)) :
    ∃ record, state.tasks[task]? = some record ∧ record.state = .running cpu := by
  have occurs : occupancy state.queues state.current task (.processor cpu) ≠ 0 := by
    simp [occupancy, occupied]
  exact Option.map_eq_some_iff.mp ((tidy.placed task).of_processor occurs).1

/-- Only runnable tasks are in queues. -/
theorem Tidy.not_mem_of_not_runnable (tidy : Tidy state) {record : Task} {queue : List TaskId}
    (known : state.tasks[task]? = some record) (other : record.state ≠ .runnable)
    (present : state.queues[cpu]? = some queue) : task ∉ queue := by
  intro member
  obtain ⟨found, found_eq, runnable⟩ := tidy.runnable_of_queue present member
  rw [known] at found_eq
  cases found_eq
  exact other runnable

theorem Tidy.exists_queue (tidy : Tidy state) {occupant : Option TaskId}
    (present : state.current[cpu]? = some occupant) : ∃ queue, state.queues[cpu]? = some queue := by
  have member : cpu ∈ state.current := BTreeMap.mem_of_present present
  rw [← tidy.cpus, Std.ExtTreeMap.mem_iff_isSome_getElem?] at member
  exact Option.isSome_iff_exists.mp member

end Tidy

section Calls

variable {before : Scheduler} {task : TaskId} {cpu : CpuId}

theorem start_eq (before : Scheduler) {record : Task} {occupant : Option TaskId}
    (known : before.tasks[task]? = some record) (runnable : record.state = .runnable)
    (present : before.current[cpu]? = some occupant) :
    start cpu task before =
      (.ok (), { before with
        tasks := before.tasks.insert task { record with state := .running cpu }
        current := before.current.insert cpu (some task)
        completedDispatches := saturatingAdd before.completedDispatches 1 }) := by
  simp [start, known, runnable, present]

theorem takeCurrent_eq (occupied : before.current[cpu]? = some (some task)) :
    takeCurrent cpu before =
      (.ok task, { before with current := before.current.insert cpu none }) := by
  simp [takeCurrent, occupied]

/-- A processor without a current task, known or not, refuses to give one up. -/
theorem takeCurrent_refused (unoccupied : ∀ task, before.current[cpu]? ≠ some (some task)) :
    ∃ reason, reason ∈ [SchedulerError.unknownCpu, .wrongState] ∧
      takeCurrent cpu before = (.err reason, before) := by
  rcases present : before.current[cpu]? with _ | _ | task
  · have absent : cpu ∉ before.current := by simpa using present
    exact ⟨.unknownCpu, by simp, by simp [takeCurrent, absent]⟩
  · refine ⟨.wrongState, by simp, ?_⟩
    simp [takeCurrent, present, BTreeMap.insert_of_present present]
  · exact absurd present (unoccupied task)

end Calls

theorem step_createTask (before : Scheduler) (task : TaskId) (cpu : CpuId) :
    Call.Ensures (perform (.createTask task cpu)) (Step before (.createTask task cpu)) before := by
  simp only [perform, createTask]
  simp
  refine ⟨fun queue present => ⟨fun unknown => ?_, fun _ => ?_⟩, fun _ => ?_⟩
  · exact .created present (Std.ExtTreeMap.getElem?_eq_none unknown)
  · exact .rejected (by simp [refusals])
  · exact .rejected (by simp [refusals])

theorem step_wake {before : Scheduler} (tidy : Tidy before) (task : TaskId) (cpu : CpuId) :
    Call.Ensures (perform (.wake task cpu)) (Step before (.wake task cpu)) before := by
  simp only [perform, wake]
  simp
  refine ⟨fun queue present => ⟨fun record known => ⟨fun blocked =>
    ⟨fun _ => .woken present known blocked, fun member => ?_⟩, fun _ => ?_⟩, fun _ => ?_⟩,
      fun _ => ?_⟩
  · have outside : task ∉ queue := tidy.not_mem_of_not_runnable known (by simp [blocked]) present
    exact absurd member outside
  · exact .rejected (by simp [refusals])
  · exact .rejected (by simp [refusals])
  · exact .rejected (by simp [refusals])

theorem step_dispatch {before : Scheduler} (tidy : Tidy before) (cpu : CpuId) :
    Call.Ensures (perform (.dispatch cpu)) (Step before (.dispatch cpu)) before := by
  simp only [perform, dispatch]
  simp
  refine ⟨fun current free => ⟨?_, fun _ => .rejected (by simp [refusals])⟩,
    fun _ => .rejected (by simp [refusals])⟩
  rintro rfl
  obtain ⟨queue, present⟩ := tidy.exists_queue free
  rcases nextTask_spec present with ⟨next_eq, rfl, alone⟩ |
    ⟨source, task, rest, steals, taken, next_eq⟩
  · rw [Call.ensures_bind_ok next_eq]
    exact .idled free present alone
  · obtain ⟨full, queued, perm⟩ := taken.queue
    obtain ⟨record, known, runnable⟩ :=
      tidy.runnable_of_queue queued (perm.mem_iff.mpr List.mem_cons_self)
    have started := start_eq
      { before with queues := before.queues.insert source rest, steals } known runnable free
    simp only [Call.ensures_bind_ok next_eq, Call.ensures_bind_bind, Call.ensures_bind_ok started]
    exact .dispatched free taken known runnable

theorem step_yieldCurrent {before : Scheduler} (tidy : Tidy before) (cpu : CpuId) :
    Call.Ensures (perform (.yieldCurrent cpu)) (Step before (.yieldCurrent cpu)) before := by
  simp only [perform, yieldCurrent, Call.ensures_bind_bind]
  by_cases occupied : ∃ task, before.current[cpu]? = some (some task)
  · obtain ⟨task, occupied⟩ := occupied
    obtain ⟨record, known, running⟩ := tidy.running_of_current occupied
    obtain ⟨queue, present⟩ := tidy.exists_queue occupied
    simp [Call.ensures_bind_ok (takeCurrent_eq occupied), known, running, present]
    refine ⟨fun generation advanced => ?_, fun _ => .exhausted occupied⟩
    exact .yielded occupied known running advanced present
  · obtain ⟨reason, possible, refused⟩ := takeCurrent_refused (not_exists.mp occupied)
    rw [Call.ensures_bind_err refused]
    exact .rejected possible

theorem step_leaveCurrent {before : Scheduler} (tidy : Tidy before) {request : Request}
    {cpu : CpuId} {next : TaskState}
    (request_eq : (request = .blockCurrent cpu ∧ next = .blocked) ∨
      ∃ code, request = .exitCurrent cpu code ∧ next = .exited code) :
    Call.Ensures (perform request) (Step before request) before := by
  have performs : perform request = return .task (← leaveCurrent next cpu) := by
    rcases request_eq with ⟨rfl, rfl⟩ | ⟨code, rfl, rfl⟩ <;> rfl
  simp only [performs, leaveCurrent, Call.ensures_bind_bind]
  by_cases occupied : ∃ task, before.current[cpu]? = some (some task)
  · obtain ⟨task, occupied⟩ := occupied
    obtain ⟨record, known, running⟩ := tidy.running_of_current occupied
    simp [Call.ensures_bind_ok (takeCurrent_eq occupied), known, running]
    exact .left request_eq occupied known running
  · obtain ⟨reason, possible, refused⟩ := takeCurrent_refused (not_exists.mp occupied)
    rw [Call.ensures_bind_err refused]
    refine .rejected ?_
    rcases request_eq with ⟨rfl, -⟩ | ⟨code, rfl, -⟩ <;> exact possible

/-- Every call is one of the steps. -/
theorem step_perform {before : Scheduler} (tidy : Tidy before) (request : Request) :
    Step before request (perform request before).1 (perform request before).2 := by
  cases request with
  | createTask task cpu => exact step_createTask before task cpu
  | dispatch cpu => exact step_dispatch tidy cpu
  | yieldCurrent cpu => exact step_yieldCurrent tidy cpu
  | blockCurrent cpu => exact step_leaveCurrent tidy (.inl ⟨rfl, rfl⟩)
  | wake task cpu => exact step_wake tidy task cpu
  | exitCurrent cpu code => exact step_leaveCurrent tidy (.inr ⟨code, rfl, rfl⟩)

/-- A task that was nowhere is put at the end of a queue. -/
theorem occupancy_enqueue {queues : BTreeMap CpuId (List TaskId)}
    {current : BTreeMap CpuId (Option TaskId)} {task : TaskId} {cpu : CpuId} {queue : List TaskId}
    (present : queues[cpu]? = some queue) (nowhere : occupancy queues current task = 0) :
    occupancy (queues.insert cpu (queue ++ [task])) current task = Pi.single (.queue cpu) 1 := by
  have outside : queue.count task = 0 := by
    rw [← occupancy_queue present, nowhere]
    rfl
  rw [occupancy_insert_queue, nowhere, List.count_append, outside, List.count_singleton_self]
  rfl

theorem count_enqueue {queue : List TaskId} {task other : TaskId} (distinct : other ≠ task) :
    (queue ++ [task]).count other = queue.count other := by
  simp [Ne.symm distinct]

/-- A task that was on a processor and nowhere else is taken off it. -/
theorem occupancy_take {queues : BTreeMap CpuId (List TaskId)}
    {current : BTreeMap CpuId (Option TaskId)} {task : TaskId} {cpu : CpuId}
    (alone : occupancy queues current task = Pi.single (.processor cpu) 1) :
    occupancy queues (current.insert cpu none) task = 0 := by
  rw [occupancy_insert_current, alone, if_neg nofun]
  exact (Function.update_idem _ _ _).trans (Function.update_eq_self _ _)

/-- A task that is taken from a queue was there once and nowhere else. -/
theorem Tidy.occupancy_taken {before : Scheduler} (tidy : Tidy before) {source : CpuId}
    {task : TaskId} {queue rest : List TaskId} (queued : before.queues[source]? = some queue)
    (perm : queue.Perm (task :: rest)) :
    occupancy (before.queues.insert source rest) before.current task = 0 := by
  have alone : occupancy before.queues before.current task = Pi.single (.queue source) 1 := by
    refine ((tidy.placed task).of_queue ?_).2
    rw [occupancy_queue queued, perm.count_eq, List.count_cons_self]
    exact Nat.succ_ne_zero _
  have once : rest.count task = 0 := by
    have count_eq := (occupancy_queue queued).symm.trans (congrFun alone (.queue source))
    rw [perm.count_eq, List.count_cons_self, Pi.single_eq_same] at count_eq
    omega
  rw [occupancy_insert_queue, alone, once]
  exact (Function.update_idem _ _ _).trans (Function.update_eq_self _ _)

/-- A step keeps the processors.  A task it does not move is as it was, one it moves is where its
state says, and one that has run out of generations is lost. -/
structure Moves (before : Scheduler) (outcome : Outcome SchedulerError Reply) (after : Scheduler) :
    Prop where
  queue_cpus : ∀ cpu, cpu ∈ after.queues ↔ cpu ∈ before.queues
  current_cpus : ∀ cpu, cpu ∈ after.current ↔ cpu ∈ before.current
  tasks : ∀ task,
    (occupancy after.queues after.current task = occupancy before.queues before.current task ∧
      after.taskState task = before.taskState task) ∨
    Owned (occupancy after.queues after.current task) (after.taskState task) ∨
    outcome = .err .generationOverflow ∧ occupancy after.queues after.current task = 0 ∧
      ∃ cpu, after.taskState task = some (.running cpu)

/-- One task moves and every other task stays where it is. -/
theorem moves_of_moved {before after : Scheduler} {outcome : Outcome SchedulerError Reply}
    {task : TaskId} {record : Task} (tasks_eq : after.tasks = before.tasks.insert task record)
    (queue_cpus : ∀ cpu, cpu ∈ after.queues ↔ cpu ∈ before.queues)
    (current_cpus : ∀ cpu, cpu ∈ after.current ↔ cpu ∈ before.current)
    (task_owned : Owned (occupancy after.queues after.current task) (some record.state))
    (others_kept : ∀ other, other ≠ task →
      occupancy after.queues after.current other = occupancy before.queues before.current other) :
    Moves before outcome after := by
  refine ⟨queue_cpus, current_cpus, fun other => ?_⟩
  by_cases same : other = task
  · subst same
    exact .inr (.inl (by simpa [taskState, tasks_eq] using task_owned))
  · refine .inl ⟨others_kept other same, ?_⟩
    rw [taskState, tasks_eq, BTreeMap.getElem?_insert_of_ne _ _ (Ne.symm same), taskState]

theorem moves_refl (before : Scheduler) (outcome : Outcome SchedulerError Reply) :
    Moves before outcome before :=
  ⟨fun _ => .rfl, fun _ => .rfl, fun _ => .inl ⟨rfl, rfl⟩⟩

theorem moves_enqueued {before : Scheduler} {outcome : Outcome SchedulerError Reply}
    {task : TaskId} {cpu : CpuId} {queue : List TaskId} {record : Task}
    (present : before.queues[cpu]? = some queue)
    (nowhere : occupancy before.queues before.current task = 0)
    (runnable : record.state = .runnable) :
    Moves before outcome
      { before with
        tasks := before.tasks.insert task record
        queues := before.queues.insert cpu (queue ++ [task]) } := by
  refine moves_of_moved rfl (BTreeMap.mem_insert_of_present _ present) (fun _ => .rfl) ?_ ?_
  · rw [runnable]
    exact ⟨cpu, occupancy_enqueue present nowhere⟩
  · intro other distinct
    exact occupancy_of_count_eq present (count_enqueue distinct)

theorem moves_of_step {before after : Scheduler} {request : Request}
    {outcome : Outcome SchedulerError Reply} (tidy : Tidy before)
    (step : Step before request outcome after) : Moves before outcome after := by
  cases step with
  | rejected possible => exact moves_refl before _
  | @exhausted cpu task occupied =>
      refine ⟨fun _ => .rfl, BTreeMap.mem_insert_of_present _ occupied, fun other => ?_⟩
      by_cases same : other = task
      · subst same
        obtain ⟨record, known, running⟩ := tidy.running_of_current occupied
        refine .inr (.inr ⟨rfl, occupancy_take (tidy.alone_of_current occupied), cpu, ?_⟩)
        simp [taskState, known, running]
      · refine .inl ⟨?_, rfl⟩
        exact occupancy_of_current_ne occupied (by simpa using Ne.symm same) nofun
  | @created task cpu queue present unknown =>
      refine moves_enqueued present ?_ rfl
      simpa [taskState, unknown, Placed] using tidy.placed task
  | idled free idle alone => exact moves_refl before _
  | @dispatched cpu source task rest steals record free taken known runnable =>
      obtain ⟨queue, queued, perm⟩ := taken.queue
      refine moves_of_moved rfl (BTreeMap.mem_insert_of_present _ queued)
        (BTreeMap.mem_insert_of_present _ free) ?_ ?_
      · show occupancy _ _ task = Pi.single (.processor cpu) 1
        rw [occupancy_insert_current, tidy.occupancy_taken queued perm, if_pos rfl]
        rfl
      · intro other distinct
        rw [occupancy_of_current_ne free nofun (by simpa using Ne.symm distinct)]
        refine occupancy_of_count_eq queued ?_
        rw [perm.count_eq, List.count_cons_of_ne (Ne.symm distinct)]
  | @yielded cpu task record generation queue occupied known running advanced present =>
      have alone := tidy.alone_of_current occupied
      refine moves_of_moved rfl (BTreeMap.mem_insert_of_present _ present)
        (BTreeMap.mem_insert_of_present _ occupied)
        ⟨cpu, occupancy_enqueue present (occupancy_take alone)⟩ ?_
      intro other distinct
      rw [occupancy_of_count_eq present (count_enqueue distinct)]
      exact occupancy_of_current_ne occupied (by simpa using Ne.symm distinct) nofun
  | @left request cpu task record next request_eq occupied known running =>
      have gone := occupancy_take (tidy.alone_of_current occupied)
      refine moves_of_moved rfl (fun _ => .rfl) (BTreeMap.mem_insert_of_present _ occupied) ?_ ?_
      · rcases request_eq with ⟨-, rfl⟩ | ⟨code, -, rfl⟩ <;> exact gone
      · intro other distinct
        exact occupancy_of_current_ne occupied (by simpa using Ne.symm distinct) nofun
  | @woken task cpu record queue present known blocked =>
      refine moves_enqueued present ?_ rfl
      simpa [taskState, known, blocked, Placed] using tidy.placed task

theorem sound_step {before after : Scheduler} {request : Request}
    {outcome : Outcome SchedulerError Reply} (sound : Sound before)
    (step : Step before request outcome after) (room : outcome ≠ .err .generationOverflow) :
    Sound after := by
  obtain ⟨queue_cpus, current_cpus, tasks⟩ := moves_of_step sound.tidy step
  constructor
  · intro cpu
    rw [queue_cpus, current_cpus]
    exact sound.cpus cpu
  · intro task
    rcases tasks task with ⟨same, status_eq⟩ | owned | ⟨exhausted, _⟩
    · rw [same, status_eq]
      exact sound.owned task
    · exact owned
    · exact absurd exhausted room

theorem tidy_step {before after : Scheduler} {request : Request}
    {outcome : Outcome SchedulerError Reply} (tidy : Tidy before)
    (step : Step before request outcome after) : Tidy after := by
  obtain ⟨queue_cpus, current_cpus, tasks⟩ := moves_of_step tidy step
  constructor
  · intro cpu
    rw [queue_cpus, current_cpus]
    exact tidy.cpus cpu
  · intro task
    rcases tasks task with ⟨same, status_eq⟩ | owned | ⟨_, nowhere, cpu, running⟩
    · rw [same, status_eq]
      exact tidy.placed task
    · exact owned.placed
    · rw [nowhere, running]
      exact .inr rfl

end Bulla.Kernel.Scheduler
