import Bulla.Platform.BootReport
import Bulla.Platform.LockRefinement
import Bulla.Platform.TaskRuns

/-!
# How much of the boot is left

What is left of the programs, the handlers, the pending interrupts and the queue of the tasks is put
into one number.  Every operation of a processor that does not have to wait makes it smaller.
-/

namespace Bulla.Platform

open Rust Outcome

namespace Messenger

def rank : Messenger → ℕ
  | .polling => 4
  | .reading => 3
  | .reporting => 2
  | .marking => 1

end Messenger

namespace Prober

def rank : Prober → ℕ
  | .reading => 4
  | .storing _ => 3
  | .reporting => 2
  | .marking => 1

end Prober

namespace Armer

/-- The last operation leaves an interrupt behind. -/
def rank : Armer → ℕ
  | .arming => 8
  | .checking => 7
  | .counting => 6
  | .sending => 5

end Armer

namespace Handler

/-- The operations to the end of a handler. -/
def rank : Handler → ℕ
  | .flushing => 3
  | .acknowledging => 2
  | .signing => 2
  | .leaving => 1

end Handler

namespace Machine

def rank (machine : Machine) : ℕ := (machine.handler.map Handler.rank).getD 0

end Machine

namespace BootMemory

variable {cpus : ℕ} (memory : BootMemory cpus) (vector : Vector) (target : Fin cpus)

/-- How many processors have an interrupt pending. -/
def pendingCount : ℕ := ∑ cpu, (memory.pending vector cpu).toNat

/-- How many interrupts are pending. -/
def waiting : ℕ := memory.pendingCount .ipi + memory.pendingCount .timer

theorem pendingCount_setPending (value : Bool) :
    (memory.setPending vector target value).pendingCount vector +
      (memory.pending vector target).toNat = memory.pendingCount vector + value.toNat := by
  have balance := Interleaved.tally_put Bool.toNat
    (⟨(), memory.pending vector⟩ : Interleaved cpus Unit Bool) target () value
  rw [pendingCount, setPending_pending]
  exact balance

theorem pendingCount_setPending_of_ne {vector other : Vector} (distinct : other ≠ vector)
    (value : Bool) :
    (memory.setPending vector target value).pendingCount other = memory.pendingCount other := by
  rw [pendingCount, setPending_of_ne distinct, pendingCount]

theorem waiting_setPending (value : Bool) :
    (memory.setPending vector target value).waiting + (memory.pending vector target).toNat =
      memory.waiting + value.toNat := by
  have balance := memory.pendingCount_setPending vector target value
  cases vector with
  | ipi =>
      have other := memory.pendingCount_setPending_of_ne target
        (show Vector.timer ≠ .ipi by decide) value
      unfold waiting
      omega
  | timer =>
      have other := memory.pendingCount_setPending_of_ne target
        (show Vector.ipi ≠ .timer by decide) value
      unfold waiting
      omega

theorem waiting_interrupt_le : (memory.interrupt vector target).waiting ≤ memory.waiting + 1 := by
  have balance := memory.waiting_setPending vector target true
  rw [Bool.toNat_true] at balance
  rw [interrupt]
  omega

end BootMemory

namespace Statement

variable {cpus : ℕ}

/-- How much a statement has still to do.  An interrupt that it sends counts for four. -/
def cost : Statement cpus → ℕ
  | .start targets => targets.length + 1
  | .send targets => 5 * targets.length + 1
  | .broker missing targets => 5 * missing.toList.length + 6 * targets.length + 1
  | .message messenger => messenger.rank
  | .tasks worker => 2 * worker.rank + 2
  | .enlist seedTask expectedWorkers => 2 * (Worker.entering seedTask expectedWorkers).rank + 3
  | .lock locker => locker.rank + 1
  | .probe _ _ prober => prober.rank
  | .interrupt vector => vector.handler.rank + 1
  | .armTimer _ armer => armer.rank
  | _ => 1

/-- A statement that has to wait, or finds that something is wrong. -/
def Blocked (roster : Roster) (cpu : Fin roster.cpus) (memory : BootMemory roster.cpus) :
    Statement roster.cpus → Prop
  | .sleep => memory.started cpu = false
  | .await cell least => memory.cells cell < least
  | .waitForMask cell crew _ _ =>
      memory.cells cell &&& crew.mask roster.masks ≠ crew.mask roster.masks
  | .waitForCount cell _ _ => ¬memory.cells cell ≥ roster.masks.apCount
  | .check condition => ¬condition.Holds roster.masks memory
  | .swapStale => memory.cells .tlbStale ≠ 0
  | .message .polling => memory.cells .messageReady = 0
  | .tasks .waiting => memory.tasks.taskGate = 0
  | .lock (.waiting ticket) => ticket ≠ memory.locks.lockOwner
  | _ => False

/-- A wait that has not run out. -/
def Patient : Statement cpus → Prop
  | .waitForMask _ _ _ polls => polls ≠ 0
  | .waitForCount _ _ polls => polls ≠ 0
  | _ => True

end Statement

def Next.cost {cpus : ℕ} : Next cpus → ℕ
  | .stay statement => statement.cost
  | .done => 0
  | .stop _ => 0

namespace Statement

variable {roster : Roster} {cpu : Fin roster.cpus} {before after : BootMemory roster.cpus}
  {machine moved : Machine} {statement : Statement roster.cpus} {next : Next roster.cpus}

/-- What an operation does that brings its processor closer to its end. -/
structure Advances (statement : Statement roster.cpus) (before after : BootMemory roster.cpus)
    (machine moved : Machine) (next : Next roster.cpus) : Prop where
  goes_on : ∀ error, next ≠ .stop error
  patient : ∀ statement, next = .stay statement → statement.Patient
  closer : next.cost + moved.rank + 4 * after.waiting <
    statement.cost + machine.rank + 4 * before.waiting

/-- The statement is done. -/
theorem Advances.done (waiting_eq : after.waiting = before.waiting)
    (rank_eq : moved.rank = machine.rank) (costs : 0 < statement.cost) :
    Advances statement before after machine moved .done := by
  refine ⟨by simp, by rintro _ ⟨⟩, ?_⟩
  rw [waiting_eq, rank_eq, Next.cost]
  omega

theorem Advances.stay {statement next : Statement roster.cpus} (patient : next.Patient)
    (waiting_eq : after.waiting = before.waiting) (rank_eq : moved.rank = machine.rank)
    (costs : next.cost < statement.cost) :
    Advances statement before after machine moved (.stay next) := by
  refine ⟨by simp, ?_, ?_⟩
  · rintro _ ⟨⟩
    exact patient
  · rw [waiting_eq, rank_eq, Next.cost]
    omega

/-- An interrupt is on its way. -/
theorem Advances.interrupts (vector : Vector) (target : Fin roster.cpus)
    (goes_on : ∀ error, next ≠ .stop error)
    (patient : ∀ statement, next = .stay statement → statement.Patient)
    (costs : next.cost + 4 < statement.cost) :
    Advances statement before (before.interrupt vector target) machine machine next := by
  have sent := before.waiting_interrupt_le vector target
  exact ⟨goes_on, patient, by omega⟩

/-- An operation of a statement that does not have to wait, where the APIC accepts its commands. -/
def accepting : Chance := ⟨false, .accepts⟩

/-- The statement can do an operation that brings its processor closer to its end. -/
def CanAdvance (cpu : Fin roster.cpus) (before : BootMemory roster.cpus) (machine : Machine)
    (statement : Statement roster.cpus) : Prop :=
  ∃ after moved next,
    statement.step roster cpu accepting before machine = .ok (after, moved, next) ∧
      Advances statement before after machine moved next

theorem canAdvance_start (targets : List (Fin roster.cpus)) :
    CanAdvance cpu before machine (.start targets) := by
  cases targets with
  | nil => exact ⟨_, _, _, rfl, .done rfl rfl (by simp [cost])⟩
  | cons target targets => exact ⟨_, _, _, rfl, .stay trivial rfl rfl (by simp [cost])⟩

theorem canAdvance_send (targets : List (Fin roster.cpus)) :
    CanAdvance cpu before machine (.send targets) := by
  cases targets with
  | nil => exact ⟨_, _, _, rfl, .done rfl rfl (by simp [cost])⟩
  | cons target targets =>
      refine ⟨_, _, .stay (.send targets), rfl, .interrupts .ipi target (by simp) ?_ ?_⟩
      · rintro _ ⟨⟩
        trivial
      · simp only [Next.cost, cost, List.length_cons]
        omega

theorem canAdvance_broker (missing : Option (Fin roster.cpus)) (targets : List (Fin roster.cpus)) :
    CanAdvance cpu before machine (.broker missing targets) := by
  cases missing with
  | some missing =>
      refine ⟨_, _, .stay (.broker none targets), rfl, .interrupts .timer missing (by simp) ?_ ?_⟩
      · rintro _ ⟨⟩
        trivial
      · simp only [Next.cost, cost, Option.toList_some, Option.toList_none, List.length_cons,
          List.length_nil]
        omega
  | none =>
      cases targets with
      | nil => exact ⟨_, _, _, rfl, .done rfl rfl (by simp [cost])⟩
      | cons target targets =>
          refine ⟨_, _, _, rfl, .stay trivial rfl rfl ?_⟩
          simp only [cost, List.length_cons]
          split
          all_goals
            simp only [Option.toList_some, Option.toList_none, List.length_cons, List.length_nil]
            omega

theorem canAdvance_message {messenger : Messenger}
    (unblocked : ¬(message messenger).Blocked roster cpu before) :
    CanAdvance cpu before machine (.message messenger) := by
  cases messenger with
  | polling =>
      have ready : ¬before.cells .messageReady = 0 := unblocked
      refine ⟨_, _, _, rfl, .stay trivial rfl rfl ?_⟩
      rw [if_neg ready]
      exact (by decide : Messenger.rank .reading < Messenger.rank .polling)
  | reading =>
      refine ⟨_, _, _, rfl, .stay trivial rfl rfl ?_⟩
      split <;> simp [cost, Messenger.rank]
  | reporting => exact ⟨_, _, _, rfl, .stay trivial rfl rfl (by simp [cost, Messenger.rank])⟩
  | marking => exact ⟨_, _, _, rfl, .done rfl rfl (by simp [cost, Messenger.rank])⟩

theorem canAdvance_probe (expected : TestPage) (mask : Cell) (prober : Prober) :
    CanAdvance cpu before machine (.probe expected mask prober) := by
  cases prober with
  | reading => exact ⟨_, _, _, rfl, .stay trivial rfl rfl (by simp [cost, Prober.rank])⟩
  | storing observed =>
      refine ⟨_, _, _, rfl, .stay trivial rfl rfl ?_⟩
      split <;> simp [cost, Prober.rank]
  | reporting => exact ⟨_, _, _, rfl, .stay trivial rfl rfl (by simp [cost, Prober.rank])⟩
  | marking => exact ⟨_, _, _, rfl, .done rfl rfl (by simp [cost, Prober.rank])⟩

theorem canAdvance_armTimer (heeded : Bool) (armer : Armer) :
    CanAdvance cpu before machine (.armTimer heeded armer) := by
  cases armer with
  | arming => exact ⟨_, _, _, rfl, .stay trivial rfl rfl (by simp [cost, Armer.rank])⟩
  | checking =>
      simp only [CanAdvance, step]
      split
      · exact ⟨_, _, _, rfl, .stay trivial rfl rfl (by simp [cost, Armer.rank])⟩
      · exact ⟨_, _, _, rfl, .done rfl rfl (by simp [cost, Armer.rank])⟩
  | counting => exact ⟨_, _, _, rfl, .stay trivial rfl rfl (by simp [cost, Armer.rank])⟩
  | sending =>
      refine ⟨_, _, .done, ?_, .interrupts .timer cpu (by simp) (by simp) ?_⟩
      · simp [step, accepting, Icr.sends, Icr.fails]
      · simp [Next.cost, cost, Armer.rank]

theorem exists_advances (unblocked : ¬statement.Blocked roster cpu before)
    (patient : statement.Patient) (plain : ∀ worker, statement ≠ .tasks worker)
    (unlocked : statement.kind ≠ .lock) : CanAdvance cpu before machine statement := by
  cases statement with
  | tasks worker => exact absurd rfl (plain worker)
  | lock => exact absurd rfl unlocked
  | start targets => exact canAdvance_start targets
  | send targets => exact canAdvance_send targets
  | broker missing targets => exact canAdvance_broker missing targets
  | message => exact canAdvance_message unblocked
  | probe expected mask prober => exact canAdvance_probe expected mask prober
  | armTimer heeded armer => exact canAdvance_armTimer heeded armer
  | enlist => exact ⟨_, _, _, rfl, .stay trivial rfl rfl (by simp [cost])⟩
  | interrupt vector =>
      refine ⟨_, _, _, rfl, by simp, by simp, ?_⟩
      change 0 + vector.handler.rank + _ < vector.handler.rank + 1 + _ + _
      omega
  | sleep =>
      refine ⟨before, machine, .done, ?_, .done rfl rfl (by simp [cost])⟩
      simp [step, Bool.eq_true_of_not_eq_false unblocked]
  | await cell least =>
      refine ⟨before, machine, .done, ?_, .done rfl rfl (by simp [cost])⟩
      simp [step, show ¬before.cells cell < least from unblocked]
  | waitForMask cell crew error polls =>
      obtain ⟨polls, rfl⟩ := Nat.exists_eq_succ_of_ne_zero patient
      refine ⟨before, machine, .done, ?_, .done rfl rfl (by simp [cost])⟩
      simp [step, poll, not_not.mp unblocked]
  | waitForCount cell error polls =>
      obtain ⟨polls, rfl⟩ := Nat.exists_eq_succ_of_ne_zero patient
      refine ⟨before, machine, .done, ?_, .done rfl rfl (by simp [cost])⟩
      have enough : before.cells cell ≥ roster.masks.apCount := not_not.mp unblocked
      simp only [step, poll, if_pos enough]
      rfl
  | check condition =>
      refine ⟨before, machine, .done, ?_, .done rfl rfl (by simp [cost])⟩
      simp only [step, if_pos (not_not.mp unblocked)]
      rfl
  | swapStale =>
      refine ⟨before.put .tlbStale 0, machine, .done, ?_, .done rfl rfl (by simp [cost])⟩
      have clear : before.cells .tlbStale = 0 := not_not.mp unblocked
      simp [step, clear]
  | _ => exact ⟨_, _, _, rfl, .done rfl rfl (by simp [cost])⟩

end Statement

namespace Boot

open Statement (Kind)

variable {roster : Roster} {system : Boot roster} {cpu : Fin roster.cpus}
  {statement : Statement roster.cpus} {rest : List (Statement roster.cpus)}
  {memory : BootMemory roster.cpus} {core : Core roster.cpus} {machine : Machine}
  {next : Next roster.cpus}

/-- What a processor has left to do. -/
def work (core : Core roster.cpus) : ℕ := (core.program.map Statement.cost).sum + core.machine.rank

/-- The tasks that nobody has claimed. -/
def unclaimed (system : Boot roster) : ℕ := postTasks.toNat - (tasksOf system).shared.nextTask.toNat

/-- What is left to do for all processors. -/
def effort (system : Boot roster) : ℕ :=
  system.tally work + 4 * system.shared.waiting + 4 * unclaimed system

/-- The processor that boots has not given up, and no wait has run out. -/
structure Going (system : Boot roster) : Prop where
  running : (system.own roster.bsp).stopped = none
  patient : ∀ statement ∈ (system.own roster.bsp).program, statement.Patient

/-- The boot can be brought closer to its end. -/
def Approaches (system : Boot roster) : Prop :=
  ∃ turns, Going (final perform system turns) ∧ effort (final perform system turns) < effort system

theorem effort_put (system : Boot roster) (cpu : Fin roster.cpus) (memory : BootMemory roster.cpus)
    (core : Core roster.cpus) :
    effort (system.put cpu memory core) +
        (work (system.own cpu) + 4 * system.shared.waiting + 4 * unclaimed system) =
      effort system +
        (work core + 4 * memory.waiting + 4 * unclaimed (system.put cpu memory core)) := by
  have balance := Interleaved.tally_put work system cpu memory core
  unfold effort
  rw [Interleaved.put_shared]
  omega

theorem final_of_move {turn : Turn}
    (moved : move cpu system.shared (system.own cpu) turn = .ok (memory, core)) :
    final perform system [(cpu, turn)] = system.put cpu memory core := by
  have performed : perform (cpu, turn) system = (.ok (), system.put cpu memory core) := by
    simpa [perform] using ⟨memory, core, moved, rfl⟩
  exact congrArg Prod.snd performed

theorem Reached.continue (reached : Reached system) (turns : List (Fin roster.cpus × Turn)) :
    Reached (final perform system turns) := by
  obtain ⟨schedule, rfl⟩ := reached
  exact ⟨schedule ++ turns, final_append _ _ _ _⟩

theorem unclaimed_aside (aside : Aside system cpu memory core) :
    unclaimed (system.put cpu memory core) = unclaimed system := by
  rw [unclaimed, tasksOf_put_same aside.tasks, unclaimed] <;> rw [aside.program]

/-- What leaves the programs alone does not stop the boot. -/
theorem Going.aside (going : Going system) (aside : Aside system cpu memory core) :
    Going (system.put cpu memory core) := by
  by_cases boots : roster.bsp = cpu
  · subst boots
    refine ⟨?_, ?_⟩ <;> rw [Interleaved.put_own]
    · exact aside.stopped.trans going.running
    · rw [aside.program]
      exact going.patient
  · refine ⟨?_, ?_⟩ <;> rw [Interleaved.put_own_of_ne boots]
    · exact going.running
    · exact going.patient

theorem Going.run (going : Going system) (runs : Runs system cpu statement rest memory machine next)
    (goes_on : ∀ error, next ≠ .stop error)
    (patient : ∀ statement, next = .stay statement → statement.Patient) :
    Going (system.put cpu memory ((system.own cpu).follow machine next)) := by
  by_cases boots : roster.bsp = cpu
  · subst boots
    refine ⟨?_, ?_⟩ <;> rw [Interleaved.put_own]
    · cases next with
      | stay | done => exact going.running
      | stop error => exact absurd rfl (goes_on error)
    · exact runs.forall_follow going.patient patient
  · refine ⟨?_, ?_⟩ <;> rw [Interleaved.put_own_of_ne boots]
    · exact going.running
    · exact going.patient

/-- What leaves the programs alone, and brings a handler or an interrupt closer to its end. -/
theorem Going.approaches_aside (going : Going system) (aside : Aside system cpu memory core)
    {turn : Turn} (moved : move cpu system.shared (system.own cpu) turn = .ok (memory, core))
    (closer : core.machine.rank + 4 * memory.waiting <
      (system.own cpu).machine.rank + 4 * system.shared.waiting) : Approaches system := by
  refine ⟨[(cpu, turn)], ?_⟩
  rw [final_of_move moved]
  refine ⟨going.aside aside, ?_⟩
  have balance := effort_put system cpu memory core
  rw [unclaimed_aside aside, work, work, aside.program] at balance
  omega

/-- An operation of a handler. -/
theorem Going.handle (going : Going system) {handler : Handler}
    (entered : (system.own cpu).machine.handler = some handler) : Approaches system := by
  have moved : move cpu system.shared (system.own cpu) (.run Statement.accepting) =
      .ok ((handler.step roster cpu system.shared (system.own cpu).machine).1,
        { system.own cpu with
          machine := (handler.step roster cpu system.shared (system.own cpu).machine).2 }) := by
    simp only [move, entered]
    rfl
  refine going.approaches_aside (aside_handled handler) moved ?_
  have before : (system.own cpu).machine.rank = handler.rank := by rw [Machine.rank, entered]; rfl
  have after : (handler.step roster cpu system.shared (system.own cpu).machine).2.rank + 1 =
      handler.rank := by cases handler <;> rfl
  have waiting_eq : (handler.step roster cpu system.shared (system.own cpu).machine).1.waiting =
      system.shared.waiting := by cases handler <;> rfl
  change (handler.step roster cpu system.shared (system.own cpu).machine).2.rank + _ < _
  omega

/-- A processor takes an interrupt. -/
theorem Going.deliver (going : Going system) {vector : Vector}
    (pending : system.shared.pending vector cpu = true)
    (enabled : (system.own cpu).machine.interrupts = true)
    (free : (system.own cpu).machine.handler = none) : Approaches system := by
  have moved : move cpu system.shared (system.own cpu) (.deliver vector) =
      .ok (take system.shared cpu (system.own cpu) vector) := by
    simp only [move, pending, enabled, free, and_self, if_true]
    rfl
  refine going.approaches_aside (aside_take vector) moved ?_
  have fewer := system.shared.waiting_setPending vector cpu false
  rw [pending, Bool.toNat_true, Bool.toNat_false] at fewer
  have before : (system.own cpu).machine.rank = 0 := by rw [Machine.rank, free]; rfl
  have after : vector.handler.rank ≤ 3 := by cases vector <;> decide
  change vector.handler.rank + 4 * (system.shared.setPending vector cpu false).waiting < _
  omega

theorem work_follow (runs : Runs system cpu statement rest memory machine next)
    (goes_on : ∀ error, next ≠ .stop error) :
    work ((system.own cpu).follow machine next) + statement.cost + (system.own cpu).machine.rank =
      work (system.own cpu) + next.cost + machine.rank := by
  unfold work
  cases next with
  | stop error => exact absurd rfl (goes_on error)
  | stay | done =>
      simp only [Core.follow, runs.front, List.tail_cons, List.map_cons, List.sum_cons, Next.cost]
      omega

theorem effort_follow (runs : Runs system cpu statement rest memory machine next)
    (goes_on : ∀ error, next ≠ .stop error) :
    effort (system.put cpu memory ((system.own cpu).follow machine next)) + statement.cost +
        (system.own cpu).machine.rank + 4 * system.shared.waiting + 4 * unclaimed system =
      effort system + next.cost + machine.rank + 4 * memory.waiting +
        4 * unclaimed (system.put cpu memory ((system.own cpu).follow machine next)) := by
  have moved := effort_put system cpu memory ((system.own cpu).follow machine next)
  have balance := work_follow runs goes_on
  omega

section Programs

variable (free : (system.own cpu).machine.handler = none)
  (running : (system.own cpu).stopped = none) (front : (system.own cpu).program = statement :: rest)

include free running front

theorem final_run {chance : Chance}
    (stepped : statement.step roster cpu chance system.shared (system.own cpu).machine =
      .ok (memory, machine, next)) :
    final perform system [(cpu, .run chance)] =
      system.put cpu memory ((system.own cpu).follow machine next) := by
  refine final_of_move ?_
  simp only [move, free, running, front, stepped]
  rfl

/-- An operation of a program that goes on with less to do. -/
theorem Going.approaches (going : Going system)
    (stepped : statement.step roster cpu Statement.accepting system.shared
      (system.own cpu).machine = .ok (memory, machine, next))
    (goes_on : ∀ error, next ≠ .stop error)
    (patient : ∀ statement, next = .stay statement → statement.Patient)
    (closer : next.cost + machine.rank + 4 * memory.waiting +
        4 * unclaimed (system.put cpu memory ((system.own cpu).follow machine next)) <
      statement.cost + (system.own cpu).machine.rank + 4 * system.shared.waiting +
        4 * unclaimed system) : Approaches system := by
  have runs : Runs system cpu statement rest memory machine next :=
    ⟨free, running, front, Statement.accepting, stepped⟩
  refine ⟨[(cpu, .run Statement.accepting)], ?_⟩
  rw [final_run free running front stepped]
  refine ⟨going.run runs goes_on patient, ?_⟩
  have balance := effort_follow runs goes_on
  omega

/-- A statement other than the tasks and the lock, if it does not have to wait. -/
theorem Going.advance (going : Going system) (reached : Reached system)
    (unblocked : ¬statement.Blocked roster cpu system.shared) (patient : statement.Patient)
    (plain : ∀ worker, statement ≠ .tasks worker) (unlocked : statement.kind ≠ .lock) :
    Approaches system := by
  obtain ⟨memory, machine, next, stepped, advances⟩ :=
    Statement.exists_advances unblocked patient plain unlocked
  refine going.approaches free running front stepped advances.goes_on advances.patient ?_
  have runs : Runs system cpu statement rest memory machine next :=
    ⟨free, running, front, Statement.accepting, stepped⟩
  have closer := advances.closer
  rw [unclaimed, reached.tasks_kept runs plain, ← unclaimed]
  omega

end Programs

/-- The lock, if it does not have to wait. -/
theorem Going.advance_lock (going : Going system) (reached : Reached system)
    (free : (system.own cpu).machine.handler = none) (running : (system.own cpu).stopped = none)
    {locker : Locker} (front : (system.own cpu).program = .lock locker :: rest)
    (unblocked : ∀ ticket, locker = .waiting ticket → ticket = system.shared.locks.lockOwner) :
    Approaches system := by
  obtain ⟨schedule, locks_eq⟩ := reached.locks_run
  have queued := Lockers.queued_run roster.id Roster.cpus_lt schedule
  rw [← locks_eq] at queued
  have own_eq : (locksOf system).own cpu = locker := by
    change Agenda.part Statement.locker .returned (system.own cpu).program = locker
    rw [front]
    exact Agenda.part_cons_of_some rfl
  obtain ⟨counters, moved, moved_eq, moves⟩ : ∃ counters moved,
      locker.step (roster.id cpu).toUInt64 system.shared.locks = .ok (counters, moved) ∧
        Locker.Moves (roster.id cpu).toUInt64 system.shared.locks locker counters moved := by
    refine Locker.step_moves (Lockers.apicId_lt roster.id cpu) fun ticket held => ?_
    have ticket_lt := (queued.ticket_lt (own_eq ▸ held)).2
    have next_lt := (locksOf system).shared.lockNext.toNat_lt
    omega
  have stepped : (Statement.lock locker).step roster cpu Statement.accepting system.shared
      (system.own cpu).machine = .ok ({ system.shared with locks := counters },
        (system.own cpu).machine, Statement.afterLock moved) := by
    simp only [Statement.step, moved_eq]
    rfl
  have runs : Runs system cpu (.lock locker) rest _ _ _ :=
    ⟨free, running, front, Statement.accepting, stepped⟩
  refine going.approaches free running front stepped ?_ ?_ ?_
  · cases moved <;> simp [Statement.afterLock]
  · intro statement stays
    cases moved <;> cases stays <;> trivial
  · have waiting_eq : BootMemory.waiting { system.shared with locks := counters } =
        system.shared.waiting := rfl
    have cost_le : (Statement.afterLock moved : Next roster.cpus).cost ≤ moved.rank + 1 := by
      cases moved <;> simp [Statement.afterLock, Next.cost, Statement.cost]
    rw [unclaimed, reached.tasks_kept runs (by simp), ← unclaimed, waiting_eq, Statement.cost]
    by_cases busy : locker = .returned
    · subst busy
      cases moves
      simp [Statement.afterLock, Next.cost]
    · have closer := moves.rank_lt busy unblocked
      omega

section Tasks

variable {worker : Worker}

/-- The tasks that nobody has claimed before and after an operation of `run_tasks`. -/
theorem Reached.unclaimed_tasks (reached : Reached system)
    (runs : Runs system cpu (.tasks worker) rest memory machine next) :
    unclaimed system = postTasks.toNat - system.shared.tasks.nextTask.toNat ∧
      unclaimed (system.put cpu memory ((system.own cpu).follow machine next)) =
        postTasks.toNat - memory.tasks.nextTask.toNat := by
  have settled := reached.settled runs rfl
  have still_settled (field : TaskField) : Kind.setTask field ∉
      left (system.put cpu memory ((system.own cpu).follow machine next)) roster.bsp :=
    fun todo => settled field ((Moves.ran runs).left_subset _ todo)
  have before : (tasksOf system).shared = system.shared.tasks := foldl_settle settled
  have after : (tasksOf (system.put cpu memory ((system.own cpu).follow machine next))).shared =
    memory.tasks := foldl_settle still_settled
  rw [unclaimed, unclaimed, before, after]
  exact ⟨rfl, rfl⟩

theorem Reached.queue_lt (reached : Reached system)
    (runs : Runs system cpu (.tasks worker) rest memory machine next) :
    system.shared.tasks.nextTask.toNat + 1 < 2 ^ 64 := by
  have shared_eq : (tasksOf system).shared = system.shared.tasks :=
    foldl_settle (reached.settled runs rfl)
  obtain ⟨schedule, tasks_eq⟩ := reached.tasks_run
  have fits : roster.cpus ≤ postTasks.toNat := roster.facts.length_le.trans (by decide)
  have balanced := Workers.balanced_run fits schedule
  rw [← tasks_eq] at balanced
  rw [← shared_eq]
  exact balanced.queue_lt fits

theorem cost_afterTask (worker : Worker) (counters : TaskCounters) :
    (Statement.afterTask worker (worker.step false counters).2 : Next roster.cpus).cost ≤
      2 * (worker.step false counters).2.rank + 3 := by
  cases worker with
  | adding => simp [Worker.step, Statement.afterTask, Next.cost, Statement.cost]
  | _ =>
      generalize (Worker.step false counters _).2 = moved
      cases moved <;> simp [Statement.afterTask, Next.cost, Statement.cost]

theorem afterTask_goes_on (worker moved : Worker) (error : PostFirmwareError) :
    (Statement.afterTask worker moved : Next roster.cpus) ≠ .stop error := by
  cases worker <;> cases moved <;> simp [Statement.afterTask]

theorem patient_afterTask {worker moved : Worker}
    (stays : Statement.afterTask worker moved = .stay statement) : statement.Patient := by
  cases worker <;> cases moved <;> cases stays <;> trivial

/-- What an operation of the tasks does to a boot. -/
theorem exists_step_tasks (system : Boot roster) (cpu : Fin roster.cpus) (worker : Worker) :
    ∃ memory, (Statement.tasks worker).step roster cpu Statement.accepting system.shared
        (system.own cpu).machine = .ok (memory, (system.own cpu).machine,
          Statement.afterTask worker (worker.step false system.shared.tasks).2) ∧
      memory.tasks = (worker.step false system.shared.tasks).1 ∧
      memory.waiting = system.shared.waiting :=
  ⟨_, rfl, rfl, rfl⟩

section Run

variable (free : (system.own cpu).machine.handler = none)
  (running : (system.own cpu).stopped = none)
  (front : (system.own cpu).program = .tasks worker :: rest)

include free running front

/-- The tasks, if the processor does not have to wait at the gate, and no exchange fails. -/
theorem Going.advance_tasks_step (going : Going system) (reached : Reached system)
    (unblocked : worker = .waiting → system.shared.tasks.taskGate ≠ 0)
    (exchanges : ∀ seedTask expectedWorkers candidate current,
      worker = .raising seedTask expectedWorkers candidate current →
        system.shared.tasks.maxActive = current) : Approaches system := by
  obtain ⟨memory, stepped, tasks_eq, waiting_eq⟩ := exists_step_tasks system cpu worker
  have runs : Runs system cpu (.tasks worker) rest memory _ _ :=
    ⟨free, running, front, Statement.accepting, stepped⟩
  refine going.approaches free running front stepped (afterTask_goes_on _ _)
    (fun _ => patient_afterTask) ?_
  obtain ⟨before, after⟩ := reached.unclaimed_tasks runs
  rw [before, after, tasks_eq, waiting_eq, Statement.cost]
  by_cases busy : worker = .returned
  · subst busy
    simp [Worker.step, Statement.afterTask, Next.cost]
  · have cost_le : (Statement.afterTask worker (worker.step false system.shared.tasks).2 :
      Next roster.cpus).cost ≤ _ := cost_afterTask worker system.shared.tasks
    have closer := Worker.remaining_step (reached.queue_lt runs) busy unblocked exchanges
    unfold Worker.remaining at closer
    omega

/-- An exchange that is tried again with the value that is there is as far from the end, and
succeeds. -/
theorem Going.advance_retry {seedTask expectedWorkers candidate current : UInt64}
    (going : Going system) (reached : Reached system)
    (raises : worker = .raising seedTask expectedWorkers candidate current)
    (stepped : (Statement.tasks worker).step roster cpu Statement.accepting system.shared
      (system.own cpu).machine = .ok (memory, (system.own cpu).machine, .stay (.tasks
        (.raising seedTask expectedWorkers candidate system.shared.tasks.maxActive))))
    (tasks_eq : memory.tasks = system.shared.tasks)
    (waiting_eq : memory.waiting = system.shared.waiting) : Approaches system := by
  have runs : Runs system cpu _ rest memory _ _ :=
    ⟨free, running, front, Statement.accepting, stepped⟩
  obtain ⟨before, after⟩ := reached.unclaimed_tasks runs
  rw [tasks_eq] at after
  have retried := final_run free running front stepped
  have front_after : ((final perform system [(cpu, .run Statement.accepting)]).own cpu).program =
      .tasks (.raising seedTask expectedWorkers candidate system.shared.tasks.maxActive) ::
        rest := by
    rw [retried, Interleaved.put_own, Core.follow, front, List.tail_cons]
  have later : Approaches (final perform system [(cpu, .run Statement.accepting)]) := by
    refine Going.advance_tasks_step ?_ ?_ front_after ?_ (reached.continue _) (by simp) ?_ <;>
      rw [retried]
    · rwa [Interleaved.put_own]
    · rwa [Interleaved.put_own]
    · exact going.run runs (by simp) (by rintro _ ⟨⟩; trivial)
    · rintro _ _ _ _ ⟨⟩
      rw [Interleaved.put_shared, tasks_eq]
  obtain ⟨turns, goes_on, closer⟩ := later
  rw [← final_append] at goes_on closer
  refine ⟨_, goes_on, closer.trans_eq ?_⟩
  have same := effort_follow runs (by simp)
  simp only [raises, Next.cost, Statement.cost, Worker.rank] at same
  rw [retried]
  omega

/-- An exchange that fails is tried again, or it is not needed any more. -/
theorem Going.advance_raising {seedTask expectedWorkers candidate current : UInt64}
    (going : Going system) (reached : Reached system)
    (raises : worker = .raising seedTask expectedWorkers candidate current)
    (failed : system.shared.tasks.maxActive ≠ current) : Approaches system := by
  subst raises
  obtain ⟨memory, stepped, tasks_eq, waiting_eq⟩ :=
    exists_step_tasks system cpu (.raising seedTask expectedWorkers candidate current)
  have step_eq : Worker.step false system.shared.tasks
      (.raising seedTask expectedWorkers candidate current) = (system.shared.tasks,
        .observed seedTask expectedWorkers candidate system.shared.tasks.maxActive) :=
    if_neg fun exchanged => failed exchanged.1
  have tasks_eq : memory.tasks = system.shared.tasks := by rw [tasks_eq, step_eq]
  rw [step_eq] at stepped
  by_cases higher : candidate > system.shared.tasks.maxActive
  · have stays : Statement.afterTask (.raising seedTask expectedWorkers candidate current)
        (.observed seedTask expectedWorkers candidate system.shared.tasks.maxActive) =
          .stay (.tasks (.raising seedTask expectedWorkers candidate
            system.shared.tasks.maxActive) : Statement roster.cpus) := by
      rw [Worker.observed, if_pos higher]
      rfl
    simp only [stays] at stepped
    exact going.advance_retry free running front reached rfl stepped tasks_eq waiting_eq
  · refine going.approaches free running front stepped (afterTask_goes_on _ _)
      (fun _ => patient_afterTask) ?_
    obtain ⟨before, after⟩ :=
      reached.unclaimed_tasks ⟨free, running, front, Statement.accepting, stepped⟩
    rw [tasks_eq] at after
    have entered : Worker.observed seedTask expectedWorkers candidate
        system.shared.tasks.maxActive = .entered seedTask expectedWorkers := if_neg higher
    have lower := Worker.rank_entered_lt seedTask expectedWorkers
    rw [before, after, waiting_eq, entered, Statement.cost]
    have cost_le : (Statement.afterTask (.raising seedTask expectedWorkers candidate current)
        (.entered seedTask expectedWorkers) : Next roster.cpus).cost ≤
        2 * (Worker.entered seedTask expectedWorkers).rank + 2 := by
      unfold Worker.entered
      split <;> simp [Statement.afterTask, Next.cost, Statement.cost]
    simp only [Worker.rank]
    omega

/-- The tasks, if the processor does not have to wait at the gate. -/
theorem Going.advance_tasks (going : Going system) (reached : Reached system)
    (unblocked : worker = .waiting → system.shared.tasks.taskGate ≠ 0) : Approaches system := by
  by_cases fails : ∃ seedTask expectedWorkers candidate current,
      worker = .raising seedTask expectedWorkers candidate current ∧
        system.shared.tasks.maxActive ≠ current
  · obtain ⟨seedTask, expectedWorkers, candidate, current, raises, failed⟩ := fails
    exact going.advance_raising free running front reached raises failed
  · refine going.advance_tasks_step free running front reached unblocked ?_
    intro seedTask expectedWorkers candidate current raises
    by_contra failed
    exact fails ⟨seedTask, expectedWorkers, candidate, current, raises, failed⟩

end Run

end Tasks

end Boot

end Bulla.Platform
