import Mathlib.Data.List.Pairwise
import Bulla.Kernel.SchedulerOwnership

/-!
# The scheduler's own invariant check

`invariant_holds` walks every queue and every current task with a set of the tasks already seen.
The walk succeeds exactly if every task is in its one place, which is so in every state that calls
reach before the generation of a task is exhausted.
-/

namespace Bulla.Kernel.Scheduler

open Rust Outcome

/-- A scan of distinct tasks in their expected states sees each of them. -/
theorem scan_spec {state : Scheduler} {entries : List (TaskId × TaskState)}
    (seen : BTreeSet TaskId) (distinct : (entries.map Prod.fst).Nodup)
    (fresh : ∀ entry ∈ entries, entry.1 ∉ seen)
    (expected : ∀ entry ∈ entries, state.taskState entry.1 = some entry.2) :
    ∃ result, entries.foldlM state.visit seen = some result ∧
      ∀ task, task ∈ result ↔ task ∈ seen ∨ task ∈ entries.map Prod.fst := by
  induction entries generalizing seen with
  | nil => exact ⟨seen, rfl, by simp⟩
  | cons entry entries induction =>
      rw [List.map_cons, List.nodup_cons] at distinct
      have visited : state.visit seen entry = some (seen.insert entry.1) := by
        have unseen := fresh entry List.mem_cons_self
        simp [visit, unseen, expected entry List.mem_cons_self]
      have still_fresh : ∀ later ∈ entries, later.1 ∉ seen.insert entry.1 := by
        intro later member inserted
        rw [Std.ExtTreeSet.mem_insert, Std.LawfulEqCmp.compare_eq_iff_eq] at inserted
        rcases inserted with same | old
        · exact distinct.1 (List.mem_map.mpr ⟨later, member, same.symm⟩)
        · exact fresh later (List.mem_cons_of_mem _ member) old
      obtain ⟨result, scanned, result_mem⟩ := induction _ distinct.2 still_fresh
        (fun later member => expected later (List.mem_cons_of_mem _ member))
      refine ⟨result, by simp [visited, scanned], ?_⟩
      intro task
      rw [result_mem, Std.ExtTreeSet.mem_insert, Std.LawfulEqCmp.compare_eq_iff_eq, List.map_cons,
        List.mem_cons, eq_comm]
      tauto

/-- A scan that succeeds has found distinct tasks in their expected states. -/
theorem scan_inv {state : Scheduler} {entries : List (TaskId × TaskState)}
    {seen result : BTreeSet TaskId} (scanned : entries.foldlM state.visit seen = some result) :
    (entries.map Prod.fst).Nodup ∧
      (∀ entry ∈ entries, entry.1 ∉ seen ∧ state.taskState entry.1 = some entry.2) ∧
      ∀ task ∈ result, task ∈ seen ∨ task ∈ entries.map Prod.fst := by
  induction entries generalizing seen with
  | nil =>
      obtain rfl : seen = result := by simpa using scanned
      simp
  | cons entry entries induction =>
      rw [List.foldlM_cons, Option.bind_eq_bind, Option.bind_eq_some_iff] at scanned
      obtain ⟨next, visited, rest⟩ := scanned
      rw [visit, ite_eq_iff] at visited
      obtain ⟨_, ⟨⟩⟩ | ⟨passed, next_eq⟩ := visited
      obtain rfl := Option.some.inj next_eq
      obtain ⟨unseen, expected⟩ := not_or.mp passed
      obtain ⟨distinct, found, result_mem⟩ := induction rest
      simp only [Std.ExtTreeSet.mem_insert, Std.LawfulEqCmp.compare_eq_iff_eq,
        not_or] at found result_mem
      refine ⟨?_, ?_, ?_⟩
      · rw [List.map_cons, List.nodup_cons]
        refine ⟨fun again => ?_, distinct⟩
        obtain ⟨later, member, later_eq⟩ := List.mem_map.mp again
        exact (found later member).1.1 later_eq.symm
      · rw [List.forall_mem_cons]
        refine ⟨⟨by simpa using unseen, not_not.mp expected⟩, fun later member => ?_⟩
        exact ⟨(found later member).1.2, (found later member).2⟩
      · intro task member
        rw [List.map_cons, List.mem_cons]
        rcases result_mem task member with (same | old) | later
        · exact .inr (.inl same.symm)
        · exact .inl old
        · exact .inr (.inr later)

/-- The nested walk is one scan of everything visited, in order. -/
theorem foldlM_visits (state : Scheduler) (entries : List (CpuId × List TaskId))
    (seen : BTreeSet TaskId) :
    entries.foldlM (fun seen entry => (state.visits entry).foldlM state.visit seen) seen =
      (entries.flatMap state.visits).foldlM state.visit seen := by
  induction entries generalizing seen with
  | nil => rfl
  | cons entry entries induction =>
      simp only [List.foldlM_cons, List.flatMap_cons, List.foldlM_append, induction]

/-- What a walk finds that succeeds: distinct tasks, each in its expected state, and every task that
is runnable or running. -/
structure Walked (state : Scheduler) : Prop where
  distinct : ((state.queues.toList.flatMap state.visits).map Prod.fst).Nodup
  expected : ∀ entry ∈ state.queues.toList.flatMap state.visits,
    state.taskState entry.1 = some entry.2
  complete : ∀ (task : TaskId) (record : Task), state.tasks[task]? = some record →
    (record.state = .runnable ∨ ∃ cpu, record.state = .running cpu) →
    task ∈ (state.queues.toList.flatMap state.visits).map Prod.fst

theorem invariantHolds_iff_walked {state : Scheduler} :
    state.invariantHolds = true ↔ Walked state := by
  constructor
  · intro holds
    rw [invariantHolds, foldlM_visits] at holds
    split at holds
    · cases holds
    · rename_i seen scanned
      obtain ⟨distinct, found, seen_mem⟩ := scan_inv scanned
      refine ⟨distinct, fun entry member => (found entry member).2, ?_⟩
      intro task record known active
      have checked := List.all_eq_true.mp holds (task, record) (BTreeMap.mem_toList.mpr known)
      have member : task ∈ seen := by
        rcases active with runnable | ⟨cpu, running⟩
        · simpa [runnable] using checked
        · simpa [running] using checked
      exact (seen_mem task member).resolve_left Std.ExtTreeSet.not_mem_empty
  · intro walked
    obtain ⟨seen, scanned, seen_mem⟩ := scan_spec ∅ walked.distinct
      (fun _ _ => Std.ExtTreeSet.not_mem_empty) walked.expected
    rw [invariantHolds, foldlM_visits, scanned, List.all_eq_true]
    rintro ⟨task, record⟩ member
    have complete (active : record.state = .runnable ∨ ∃ cpu, record.state = .running cpu) :
        seen.contains task = true :=
      Std.ExtTreeSet.mem_iff_contains.mp ((seen_mem task).mpr
        (.inr (walked.complete task record (BTreeMap.mem_toList.mp member) active)))
    rcases status : record.state with _ | cpu | _ | code
    · simpa [status] using complete (.inl status)
    · simpa [status] using complete (.inr ⟨cpu, status⟩)
    · simp
    · simp

/-- A task is in at most one place. -/
theorem Placed.unique {places : Home → Nat} {status : Option TaskState} {left right : Home}
    (placed : Placed places status) (left_occurs : places left ≠ 0)
    (right_occurs : places right ≠ 0) : left = right := by
  have single : places = Pi.single right 1 := by
    cases right with
    | queue cpu => exact (placed.of_queue right_occurs).2
    | processor cpu => exact (placed.of_processor right_occurs).2
  by_contra distinct
  exact left_occurs (by rw [single, Pi.single_eq_of_ne distinct])

/-- The processor a place belongs to. -/
def Home.cpu : Home → CpuId
  | .queue cpu => cpu
  | .processor cpu => cpu

section Sound

variable {state : Scheduler} {cpu : CpuId} {queue : List TaskId}

/-- Everything the walk visits at a processor has its expected state and a place there. -/
theorem Sound.visited (sound : Sound state) (present : state.queues[cpu]? = some queue)
    {task : TaskId} {status : TaskState} (member : (task, status) ∈ state.visits (cpu, queue)) :
    state.taskState task = some status ∧
      ∃ home : Home, home.cpu = cpu ∧ occupancy state.queues state.current task home ≠ 0 := by
  simp only [visits, List.mem_append, List.mem_map, Option.mem_toList, Prod.mk.injEq] at member
  rcases member with ⟨found, queued, rfl, rfl⟩ | ⟨found, occupied, rfl, rfl⟩
  · have occurs : occupancy state.queues state.current found (.queue cpu) ≠ 0 := by
      rw [occupancy_queue present]
      exact (List.count_pos_iff.mpr queued).ne'
    exact ⟨((sound.owned found).placed.of_queue occurs).1, .queue cpu, rfl, occurs⟩
  · have occurs : occupancy state.queues state.current found (.processor cpu) ≠ 0 := by
      simp [occupancy, Option.join_eq_some_iff.mp occupied]
    exact ⟨((sound.owned found).placed.of_processor occurs).1, .processor cpu, rfl, occurs⟩

theorem Sound.nodup_queue (sound : Sound state) (present : state.queues[cpu]? = some queue) :
    queue.Nodup := by
  rw [List.nodup_iff_count_le_one]
  intro task
  have count_eq : occupancy state.queues state.current task (.queue cpu) = queue.count task :=
    occupancy_queue present
  by_cases outside : queue.count task = 0
  · omega
  · have single := ((sound.owned task).placed.of_queue (count_eq.trans_ne outside)).2
    rw [single, Pi.single_eq_same] at count_eq
    omega

theorem map_fst_visits : (state.visits (cpu, queue)).map Prod.fst =
    queue ++ (state.current[cpu]?).join.toList := by
  simp [visits, Function.comp_def]

theorem Sound.nodup_visits (sound : Sound state) (present : state.queues[cpu]? = some queue) :
    ((state.visits (cpu, queue)).map Prod.fst).Nodup := by
  rw [map_fst_visits, List.nodup_append]
  refine ⟨sound.nodup_queue present, ?_, ?_⟩
  · rcases (state.current[cpu]?).join with _ | task <;> simp
  · rintro task queued _ occupied rfl
    rw [Option.mem_toList, Option.join_eq_some_iff] at occupied
    obtain ⟨record, known, runnable⟩ := sound.tidy.runnable_of_queue present queued
    obtain ⟨same, same_known, running⟩ := sound.tidy.running_of_current occupied
    obtain rfl : record = same := Option.some.inj (known.symm.trans same_known)
    exact TaskState.noConfusion (runnable.symm.trans running)

/-- No task is visited twice. -/
theorem Sound.nodup_walk (sound : Sound state) :
    ((state.queues.toList.flatMap state.visits).map Prod.fst).Nodup := by
  rw [List.map_flatMap, List.nodup_flatMap]
  constructor
  · rintro ⟨cpu, queue⟩ member
    exact sound.nodup_visits (BTreeMap.mem_toList.mp member)
  · refine state.queues.distinct_keys_toList.imp_of_mem ?_
    rintro ⟨cpu, queue⟩ ⟨other, other_queue⟩ member other_member distinct task here there
    obtain ⟨⟨_, status⟩, visited, rfl⟩ := List.mem_map.mp here
    obtain ⟨⟨_, other_status⟩, other_visited, rfl⟩ := List.mem_map.mp there
    obtain ⟨-, home, rfl, occurs⟩ := sound.visited (BTreeMap.mem_toList.mp member) visited
    obtain ⟨-, other_home, rfl, other_occurs⟩ :=
      sound.visited (BTreeMap.mem_toList.mp other_member) other_visited
    obtain rfl := (sound.owned _).placed.unique occurs other_occurs
    exact distinct Std.ReflCmp.compare_self

/-- Every task that is runnable or running is visited. -/
theorem Sound.walk_complete (sound : Sound state) {task : TaskId} {record : Task}
    (known : state.tasks[task]? = some record)
    (active : record.state = .runnable ∨ ∃ cpu, record.state = .running cpu) :
    task ∈ (state.queues.toList.flatMap state.visits).map Prod.fst := by
  have owned := sound.owned task
  rw [taskState, known, Option.map_some] at owned
  rcases active with runnable | ⟨cpu, running⟩
  · rw [runnable] at owned
    obtain ⟨cpu, places⟩ := owned
    have count_eq := congrFun places (.queue cpu)
    rw [Pi.single_eq_same] at count_eq
    rcases present : state.queues[cpu]? with _ | queue
    · simp [occupancy, present] at count_eq
    · rw [occupancy_queue present] at count_eq
      have queued : task ∈ queue := List.count_pos_iff.mp (by omega)
      refine List.mem_map.mpr ⟨(task, .runnable), List.mem_flatMap.mpr ⟨(cpu, queue), ?_, ?_⟩, rfl⟩
      · exact BTreeMap.mem_toList.mpr present
      · simp [visits, queued]
  · rw [running] at owned
    have occurs := congrFun owned (.processor cpu)
    rw [Pi.single_eq_same] at occurs
    have occupied : state.current[cpu]? = some (some task) := by
      by_contra elsewhere
      simp [occupancy, elsewhere] at occurs
    obtain ⟨queue, present⟩ := sound.tidy.exists_queue occupied
    refine List.mem_map.mpr
      ⟨(task, .running cpu), List.mem_flatMap.mpr ⟨(cpu, queue), ?_, ?_⟩, rfl⟩
    · exact BTreeMap.mem_toList.mpr present
    · simp [visits, occupied]

theorem Sound.walked (sound : Sound state) : Walked state := by
  refine ⟨sound.nodup_walk, ?_, fun _ _ => sound.walk_complete⟩
  rintro ⟨task, status⟩ member
  obtain ⟨⟨cpu, queue⟩, listed, visited⟩ := List.mem_flatMap.mp member
  exact (sound.visited (BTreeMap.mem_toList.mp listed) visited).1

end Sound

section Walked

variable {state : Scheduler} {cpu other : CpuId} {queue : List TaskId} {task : TaskId}

/-- What the walk visits at a processor is part of the walk. -/
theorem mem_walk {status : TaskState} (present : state.queues[cpu]? = some queue)
    (visited : (task, status) ∈ state.visits (cpu, queue)) :
    (task, status) ∈ state.queues.toList.flatMap state.visits :=
  List.mem_flatMap.mpr ⟨(cpu, queue), BTreeMap.mem_toList.mpr present, visited⟩

theorem Walked.runnable_of_queue (walked : Walked state) (present : state.queues[cpu]? = some queue)
    (member : task ∈ queue) : state.taskState task = some .runnable :=
  walked.expected _ (mem_walk present (by simp [visits, member]))

theorem Walked.running_of_current (walked : Walked state)
    (cpus : ∀ cpu, cpu ∈ state.queues ↔ cpu ∈ state.current)
    (occupied : state.current[cpu]? = some (some task)) :
    state.taskState task = some (.running cpu) := by
  have known : cpu ∈ state.queues := (cpus cpu).mpr (BTreeMap.mem_of_present occupied)
  rw [Std.ExtTreeMap.mem_iff_isSome_getElem?] at known
  obtain ⟨queue, present⟩ := Option.isSome_iff_exists.mp known
  exact walked.expected _ (mem_walk present (by simp [visits, occupied]))

/-- The walk visits a queue once. -/
theorem Walked.nodup_queue (walked : Walked state) (present : state.queues[cpu]? = some queue) :
    queue.Nodup := by
  have distinct := walked.distinct
  rw [List.map_flatMap, List.nodup_flatMap] at distinct
  have here := distinct.1 (cpu, queue) (BTreeMap.mem_toList.mpr present)
  rw [map_fst_visits] at here
  exact (List.nodup_append.mp here).1

/-- A task is in one queue only. -/
theorem Walked.eq_of_mem (walked : Walked state) {otherQueue : List TaskId}
    (present : state.queues[cpu]? = some queue) (member : task ∈ queue)
    (other_present : state.queues[other]? = some otherQueue) (other_member : task ∈ otherQueue) :
    cpu = other := by
  by_contra distinct
  have nodup := walked.distinct
  rw [List.map_flatMap, List.nodup_flatMap] at nodup
  have : Std.Symm (Function.onFun List.Disjoint fun entry => (state.visits entry).map Prod.fst) :=
    ⟨fun _ _ apart _ here there => apart there here⟩
  have listed : (cpu, queue) ∈ state.queues.toList := BTreeMap.mem_toList.mpr present
  have other_listed : (other, otherQueue) ∈ state.queues.toList :=
    BTreeMap.mem_toList.mpr other_present
  have disjoint := nodup.2.forall listed other_listed (by simp [distinct])
  exact disjoint (a := task) (by simp [visits, member]) (by simp [visits, other_member])

/-- A task is queued only while it is runnable. -/
theorem Walked.occupancy_queue_eq_zero (walked : Walked state) (cpu : CpuId)
    (other : state.taskState task ≠ some .runnable) :
    occupancy state.queues state.current task (.queue cpu) = 0 := by
  rcases present : state.queues[cpu]? with _ | queue
  · simp [occupancy, present]
  · rw [occupancy_queue present, List.count_eq_zero]
    exact fun member => other (walked.runnable_of_queue present member)

/-- A task is current only while it is running. -/
theorem Walked.occupancy_processor_eq_zero (walked : Walked state)
    (cpus : ∀ cpu, cpu ∈ state.queues ↔ cpu ∈ state.current) (cpu : CpuId)
    (other : state.taskState task ≠ some (.running cpu)) :
    occupancy state.queues state.current task (.processor cpu) = 0 :=
  if_neg fun occupied => other (walked.running_of_current cpus occupied)

/-- A task that is runnable or running is visited in that state. -/
theorem Walked.exists_visit (walked : Walked state) {status : TaskState}
    (status_eq : state.taskState task = some status)
    (active : status = .runnable ∨ ∃ cpu, status = .running cpu) :
    ∃ cpu queue, state.queues[cpu]? = some queue ∧ (task, status) ∈ state.visits (cpu, queue) := by
  obtain ⟨record, known, rfl⟩ := Option.map_eq_some_iff.mp status_eq
  obtain ⟨⟨_, found⟩, member, rfl⟩ := List.mem_map.mp (walked.complete task record known active)
  obtain rfl : record.state = found :=
    Option.some.inj (status_eq.symm.trans (walked.expected _ member))
  obtain ⟨⟨cpu, queue⟩, listed, visited⟩ := List.mem_flatMap.mp member
  exact ⟨cpu, queue, BTreeMap.mem_toList.mp listed, visited⟩

theorem Walked.single_of_runnable (walked : Walked state)
    (cpus : ∀ cpu, cpu ∈ state.queues ↔ cpu ∈ state.current)
    (runnable : state.taskState task = some .runnable) :
    ∃ cpu, occupancy state.queues state.current task = Pi.single (.queue cpu) 1 := by
  obtain ⟨cpu, queue, present, visited⟩ := walked.exists_visit runnable (.inl rfl)
  have member : task ∈ queue := by simpa [visits] using visited
  refine ⟨cpu, funext fun home => ?_⟩
  cases home with
  | queue other =>
      by_cases same : other = cpu
      · subst same
        rw [occupancy_queue present, Pi.single_eq_same]
        exact List.count_eq_one_of_mem (walked.nodup_queue present) member
      · rw [Pi.single_eq_of_ne (by simpa using same)]
        rcases other_present : state.queues[other]? with _ | otherQueue
        · simp [occupancy, other_present]
        · rw [occupancy_queue other_present, List.count_eq_zero]
          exact fun again => same (walked.eq_of_mem other_present again present member)
  | processor other =>
      rw [Pi.single_eq_of_ne (by simp)]
      exact walked.occupancy_processor_eq_zero cpus other (by simp [runnable])

theorem Walked.single_of_running (walked : Walked state)
    (cpus : ∀ cpu, cpu ∈ state.queues ↔ cpu ∈ state.current)
    (running : state.taskState task = some (.running cpu)) :
    occupancy state.queues state.current task = Pi.single (.processor cpu) 1 := by
  obtain ⟨owner, queue, present, visited⟩ := walked.exists_visit running (.inr ⟨cpu, rfl⟩)
  obtain ⟨occupied, rfl⟩ : (state.current[owner]?).join = some task ∧ owner = cpu := by
    simpa [visits] using visited
  funext home
  cases home with
  | queue other =>
      rw [Pi.single_eq_of_ne (by simp)]
      exact walked.occupancy_queue_eq_zero other (by simp [running])
  | processor other =>
      by_cases same : other = owner
      · subst same
        rw [Pi.single_eq_same]
        exact if_pos (Option.join_eq_some_iff.mp occupied)
      · rw [Pi.single_eq_of_ne (by simpa using same)]
        exact walked.occupancy_processor_eq_zero cpus other (by simpa [running] using Ne.symm same)

theorem Walked.nowhere (walked : Walked state)
    (cpus : ∀ cpu, cpu ∈ state.queues ↔ cpu ∈ state.current)
    (not_runnable : state.taskState task ≠ some .runnable)
    (not_running : ∀ cpu, state.taskState task ≠ some (.running cpu)) :
    occupancy state.queues state.current task = 0 := by
  funext home
  cases home with
  | queue cpu => exact walked.occupancy_queue_eq_zero cpu not_runnable
  | processor cpu => exact walked.occupancy_processor_eq_zero cpus cpu (not_running cpu)

/-- Every task is in its place exactly if queues and current tasks are kept for the same processors
and the scheduler's own check succeeds. -/
theorem sound_iff_invariantHolds : Sound state ↔
    (∀ cpu, cpu ∈ state.queues ↔ cpu ∈ state.current) ∧ state.invariantHolds = true := by
  constructor
  · intro sound
    exact ⟨sound.cpus, invariantHolds_iff_walked.mpr sound.walked⟩
  · rintro ⟨cpus, holds⟩
    have walked := invariantHolds_iff_walked.mp holds
    refine ⟨cpus, fun task => ?_⟩
    rcases status : state.taskState task with _ | _ | cpu | _ | code
    · exact walked.nowhere cpus (by simp [status]) (by simp [status])
    · exact walked.single_of_runnable cpus status
    · exact walked.single_of_running cpus status
    · exact walked.nowhere cpus (by simp [status]) (by simp [status])
    · exact walked.nowhere cpus (by simp [status]) (by simp [status])

end Walked

/-- A scheduler without tasks has every task in its place. -/
theorem sound_withOnlineCpus (cpus : CpuSet) : Sound (withOnlineCpus cpus) := by
  have queues_eq (cpu : CpuId) : (withOnlineCpus cpus).queues[cpu]? =
      if cpu ∈ cpus.members then some [] else none :=
    BTreeMap.getElem?_ofList_const cpus.members [] cpu
  have current_eq (cpu : CpuId) : (withOnlineCpus cpus).current[cpu]? =
      if cpu ∈ cpus.members then some none else none :=
    BTreeMap.getElem?_ofList_const cpus.members none cpu
  constructor
  · intro cpu
    rw [Std.ExtTreeMap.mem_iff_isSome_getElem?, Std.ExtTreeMap.mem_iff_isSome_getElem?, queues_eq,
      current_eq]
    split <;> simp
  · intro task
    show occupancy _ _ task = 0
    funext home
    cases home with
    | queue cpu =>
        rw [occupancy, queues_eq]
        split <;> rfl
    | processor cpu =>
        rw [occupancy, current_eq]
        split <;> simp_all

theorem refusal_of_step {before after : Scheduler} {request : Request}
    {outcome : Outcome SchedulerError Reply} (step : Step before request outcome after)
    (room : outcome ≠ .err .generationOverflow) (reason : SchedulerError)
    (refused : outcome = .err reason) : reason ∈ refusals request := by
  cases step with
  | rejected possible =>
      cases refused
      exact possible
  | exhausted occupied => exact absurd rfl room
  | _ => cases refused

/-- As long as no generation is exhausted, every task is in the one place its state says, the
scheduler's own check confirms it, and no call is refused because a task is missing, foreign or
already queued. -/
theorem tasks_stay_in_place (cpus : CpuSet) (requests : List Request)
    (room : ∀ occurred ∈ history perform (withOnlineCpus cpus) requests,
      occurred.outcome ≠ .err .generationOverflow) :
    let state := final perform (withOnlineCpus cpus) requests
    (∀ task, Owned (occupancy state.queues state.current task) (state.taskState task)) ∧
      state.invariantHolds = true ∧
      ∀ occurred ∈ history perform (withOnlineCpus cpus) requests, ∀ reason,
        occurred.outcome = .err reason → reason ∈ refusals occurred.input := by
  have run := run_induction perform (motive := fun past state =>
    (∀ occurred ∈ past, occurred.outcome ≠ .err .generationOverflow) →
      Sound state ∧ ∀ occurred ∈ past, ∀ reason,
        occurred.outcome = .err reason → reason ∈ refusals occurred.input)
    (fun _ => ⟨sound_withOnlineCpus cpus, by simp⟩) ?_ requests room
  · exact ⟨run.1.owned, (sound_iff_invariantHolds.mp run.1).2, run.2⟩
  · intro past state request induction room
    rw [List.forall_mem_append, List.forall_mem_singleton] at room
    obtain ⟨sound, refused⟩ := induction room.1
    have step := step_perform sound.tidy request
    refine ⟨sound_step sound step room.2, ?_⟩
    rw [List.forall_mem_append, List.forall_mem_singleton]
    exact ⟨refused, refusal_of_step step room.2⟩

/-- Two tasks on two processors, with a steal, a block, a wake-up and a yield. -/
theorem tasks_stay_in_place_two_cpus :
    (final perform (withOnlineCpus (.fromIds [0, 1]))
      [.createTask 4 0, .createTask 5 0, .dispatch 1, .blockCurrent 1, .wake 5 0, .wake 5 1,
        .dispatch 0, .yieldCurrent 0, .dispatch 1]).invariantHolds = true :=
  (tasks_stay_in_place (.fromIds [0, 1])
    [.createTask 4 0, .createTask 5 0, .dispatch 1, .blockCurrent 1, .wake 5 0, .wake 5 1,
      .dispatch 0, .yieldCurrent 0, .dispatch 1] (by decide)).2.1

end Bulla.Kernel.Scheduler
