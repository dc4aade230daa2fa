import Bulla.Kernel.SchedulerInvariant

/-!
# What `dispatch` chooses

A processor without a task takes the front of its own queue, or else the back of the longest other
one, and of several longest ones that of the lowest processor.  It stays idle only if there is
nothing to run anywhere.  This is so in every state that calls reach, even when tasks have been
lost for want of a generation.
-/

namespace Bulla.Kernel.Scheduler

open Rust Outcome

/-- There is nothing to run. -/
def Idle (queues : BTreeMap CpuId (List TaskId)) : Prop :=
  ∀ (cpu : CpuId) (queue : List TaskId), queues[cpu]? = some queue → queue = []

/-- The queue that a processor takes its next task from, the task, and the rest of the queue. -/
inductive Chosen (queues : BTreeMap CpuId (List TaskId)) (cpu : CpuId) :
    CpuId → TaskId → List TaskId → Prop
  | own {task : TaskId} {rest : List TaskId} (queued : queues[cpu]? = some (task :: rest)) :
      Chosen queues cpu cpu task rest
  | stolen {source : CpuId} {task : TaskId} {rest : List TaskId}
      (idle : queues[cpu]? = some []) (foreign : source ≠ cpu)
      (queued : queues[source]? = some (rest ++ [task]))
      (longest : ∀ (other : CpuId) (queue : List TaskId), other ≠ cpu →
        queues[other]? = some queue → queue.length < (rest ++ [task]).length ∨
          queue.length = (rest ++ [task]).length ∧ source ≤ other) :
      Chosen queues cpu source task rest

section Victim

variable {queues : BTreeMap CpuId (List TaskId)} {cpu source : CpuId}

/-- The order in which queues are preferred. -/
theorem preference_le_iff {left right : CpuId × List TaskId} :
    toLex (left.2.length, OrderDual.toDual left.1.toNat) ≤
        toLex (right.2.length, OrderDual.toDual right.1.toNat) ↔
      left.2.length < right.2.length ∨ left.2.length = right.2.length ∧ right.1 ≤ left.1 := by
  rw [Prod.Lex.toLex_le_toLex, OrderDual.toDual_le_toDual, UInt16.le_iff_toNat_le]

/-- The queue that `steal` looks at, if there is another one at all. -/
theorem exists_preferred {other : CpuId} {queue : List TaskId} (foreign : other ≠ cpu)
    (present : queues[other]? = some queue) :
    ∃ best found, (queues.toList.filter fun entry => entry.1 ≠ cpu).argmax (fun entry =>
        toLex (entry.2.length, OrderDual.toDual entry.1.toNat)) = some (best, found) ∧
      (queue.length < found.length ∨ queue.length = found.length ∧ best ≤ other) := by
  have member : (other, queue) ∈ queues.toList.filter (fun entry => entry.1 ≠ cpu) := by
    simp [present, foreign]
  rcases preferred : (queues.toList.filter fun entry => entry.1 ≠ cpu).argmax (fun entry =>
      toLex (entry.2.length, OrderDual.toDual entry.1.toNat)) with _ | ⟨best, found⟩
  · rw [List.argmax_eq_none.mp preferred] at member
    cases member
  · have below := List.le_of_mem_argmax member preferred
    exact ⟨best, found, preferred, preference_le_iff.mp below⟩

/-- There is no one to steal from only if all other queues are empty. -/
theorem victim_eq_none (alone : victim queues cpu = none) {other : CpuId} {queue : List TaskId}
    (foreign : other ≠ cpu) (present : queues[other]? = some queue) : queue = [] := by
  obtain ⟨best, found, preferred, longer⟩ := exists_preferred foreign present
  rw [victim, preferred, Option.bind_some] at alone
  have empty : found = [] := by simpa using alone
  rw [empty, List.length_nil] at longer
  exact List.length_eq_zero_iff.mp (by omega)

/-- The one to steal from has the longest queue, and is the lowest of those that have it. -/
theorem victim_eq_some (chosen : victim queues cpu = some source) :
    source ≠ cpu ∧ ∃ found : List TaskId, queues[source]? = some found ∧
      ∀ (other : CpuId) (queue : List TaskId), other ≠ cpu → queues[other]? = some queue →
        queue.length < found.length ∨ queue.length = found.length ∧ source ≤ other := by
  rw [victim, Option.bind_eq_some_iff] at chosen
  obtain ⟨⟨best, found⟩, preferred, nonempty⟩ := chosen
  obtain rfl : best = source := by
    rw [ite_eq_iff] at nonempty
    rcases nonempty with ⟨_, ⟨⟩⟩ | ⟨_, same⟩
    exact Option.some.inj same
  obtain ⟨present, foreign⟩ : queues[best]? = some found ∧ best ≠ cpu := by
    simpa using List.argmax_mem preferred
  refine ⟨foreign, found, present, fun other queue other_foreign other_present => ?_⟩
  obtain ⟨_, _, same, longer⟩ := exists_preferred other_foreign other_present
  obtain ⟨rfl, rfl⟩ := Prod.mk.inj (Option.some.inj (preferred.symm.trans same))
  exact longer

end Victim

section Dispatch

variable {state : Scheduler} {cpu source : CpuId} {task : TaskId} {rest : List TaskId}
  {steals : UInt64}

theorem Taken.chosen (taken : Taken state cpu source task rest steals) :
    Chosen state.queues cpu source task rest := by
  cases taken with
  | own queued => exact .own queued
  | stolen idle chosen queued =>
      obtain ⟨foreign, found, present, longest⟩ := victim_eq_some chosen
      obtain rfl := Option.some.inj (queued.symm.trans present)
      exact .stolen idle foreign queued longest

theorem Chosen.not_idle (chosen : Chosen state.queues cpu source task rest) :
    ¬Idle state.queues := by
  intro idle
  cases chosen with
  | own queued => cases idle _ _ queued
  | stolen _ _ queued => simpa using idle _ _ queued

/-- `dispatch` on a processor without a task. -/
theorem Tidy.perform_dispatch (tidy : Tidy state) (free : state.current[cpu]? = some none) :
    (Idle state.queues ∧ perform (.dispatch cpu) state = (.ok (.dispatched none), state)) ∨
    ∃ source task rest record steals, Chosen state.queues cpu source task rest ∧
      state.tasks[task]? = some record ∧ record.state = .runnable ∧
      perform (.dispatch cpu) state = (.ok (.dispatched (some task)),
        { queues := state.queues.insert source rest
          tasks := state.tasks.insert task { record with state := .running cpu }
          current := state.current.insert cpu (some task)
          completedDispatches := saturatingAdd state.completedDispatches 1
          steals }) := by
  obtain ⟨queue, present⟩ := tidy.exists_queue free
  rcases nextTask_spec present with ⟨next_eq, rfl, alone⟩ |
    ⟨source, task, rest, steals, taken, next_eq⟩
  · refine .inl ⟨fun other queue other_present => ?_, ?_⟩
    · by_cases same : other = cpu
      · subst same
        exact Option.some.inj (other_present.symm.trans present)
      · exact victim_eq_none alone same other_present
    · simp [perform, dispatch, free, next_eq]
  · obtain ⟨full, queued, perm⟩ := taken.queue
    obtain ⟨record, known, runnable⟩ :=
      tidy.runnable_of_queue queued (perm.mem_iff.mpr List.mem_cons_self)
    have started := start_eq
      { state with queues := state.queues.insert source rest, steals } known runnable free
    refine .inr ⟨source, task, rest, record, steals, taken.chosen, known, runnable, ?_⟩
    simp [perform, dispatch, free, next_eq, started]

end Dispatch

/-- Every state that calls reach is tidy. -/
theorem tidy_run (cpus : CpuSet) (requests : List Request) :
    Tidy (final perform (withOnlineCpus cpus) requests) := by
  refine run_induction perform (motive := fun _ state => Tidy state)
    (sound_withOnlineCpus cpus).tidy ?_ requests
  intro _ state request tidy
  exact tidy_step tidy (step_perform tidy request)

/-- A known processor without a task stays idle exactly if every queue is empty.  Otherwise it takes
the task that is its turn off its queue, marks it running and makes it the current one, and leaves
everything else as it is. -/
theorem dispatch_work_conserving (cpus : CpuSet) (requests : List Request) (cpu : CpuId)
    (free : (final perform (withOnlineCpus cpus) requests).current[cpu]? = some none) :
    let state := final perform (withOnlineCpus cpus) requests
    ((perform (.dispatch cpu) state).1 = .ok (.dispatched none) ↔ Idle state.queues) ∧
      (Idle state.queues → (perform (.dispatch cpu) state).2 = state) ∧
      (¬Idle state.queues → ∃ source task rest record steals,
        Chosen state.queues cpu source task rest ∧ state.tasks[task]? = some record ∧
        record.state = .runnable ∧
        perform (.dispatch cpu) state = (.ok (.dispatched (some task)),
          { queues := state.queues.insert source rest
            tasks := state.tasks.insert task { record with state := .running cpu }
            current := state.current.insert cpu (some task)
            completedDispatches := saturatingAdd state.completedDispatches 1
            steals })) := by
  intro state
  rcases (tidy_run cpus requests).perform_dispatch free with ⟨idle, result⟩ |
    ⟨source, task, rest, record, steals, chosen, known, runnable, result⟩
  · rw [show perform (.dispatch cpu) state = _ from result]
    exact ⟨iff_of_true rfl idle, fun _ => rfl, fun busy => absurd idle busy⟩
  · have busy : ¬Idle state.queues := chosen.not_idle
    refine ⟨iff_of_false ?_ busy, fun idle => absurd idle busy, fun _ => ?_⟩
    · rw [show perform (.dispatch cpu) state = _ from result]
      simp
    · exact ⟨source, task, rest, record, steals, chosen, known, runnable, result⟩

/-- An idle processor steals the back of the only queue with work. -/
theorem dispatch_work_conserving_steal :
    let state := final perform (withOnlineCpus (.fromIds [0, 1])) [.createTask 4 0, .createTask 5 0]
    state.current[(1 : CpuId)]? = some none ∧ ∃ source task rest record steals,
      Chosen state.queues 1 source task rest ∧ state.tasks[task]? = some record ∧
      record.state = .runnable ∧
      perform (.dispatch 1) state = (.ok (.dispatched (some task)),
        { queues := state.queues.insert source rest
          tasks := state.tasks.insert task { record with state := .running 1 }
          current := state.current.insert 1 (some task)
          completedDispatches := saturatingAdd state.completedDispatches 1
          steals }) :=
  ⟨by decide, (dispatch_work_conserving (.fromIds [0, 1]) [.createTask 4 0, .createTask 5 0] 1
    (by decide)).2.2 fun idle => by cases idle 0 [4, 5] (by decide)⟩

end Bulla.Kernel.Scheduler
