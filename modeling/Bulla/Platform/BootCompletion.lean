import Bulla.Platform.BootProgress
import Bulla.Platform.TaskPeak

/-!
# What a boot comes to

The results on the whole protocol, over every roster and every order of steps: what `run` reports if
it gets to its end, why it gives up if it does not, that the test page is exchanged for everybody,
and that a boot that has not given up can be brought to its end.
-/

namespace Bulla.Platform

open Rust Outcome

/-- The part of `PostFirmwareReport` that comes out of the protocol. -/
structure BootReport where
  online : ℕ
  apWorkers : ℕ
  workerCpus : ℕ
  parallelCpus : UInt64
  taskSum : UInt64
  atomicMessageCpus : ℕ
  atomicMessageStale : UInt64
  cpuLocalCpus : ℕ
  lockEntries : UInt64
  ipiAcks : ℕ
  timerCpus : ℕ
  timerIpiFallbacks : UInt64
  tlbCpus : ℕ
  deriving DecidableEq, Repr

/-- The fields as `run` fills them in.  The mask of the workers is loaded before the checks, but
nobody signs it after them. -/
def BootMemory.report {cpus : ℕ} (masks : BootCpus) (memory : BootMemory cpus) : BootReport where
  online := countOnes (memory.cells .onlineMask)
  apWorkers := countOnes (memory.cells .taskWorkers &&& masks.apMask)
  workerCpus := countOnes (memory.cells .taskWorkers)
  parallelCpus := memory.tasks.maxActive
  taskSum := memory.tasks.taskSum
  atomicMessageCpus := countOnes (memory.cells .messageMask)
  atomicMessageStale := memory.cells .messageStale
  cpuLocalCpus := countOnes (memory.cells .cpuLocalMask)
  lockEntries := memory.locks.lockEntries
  ipiAcks := countOnes (memory.cells .ipiAckMask)
  timerCpus := countOnes (memory.cells .timerMask)
  timerIpiFallbacks := memory.cells .timerIpiFallbacks
  tlbCpus := countOnes (memory.cells .tlbPostMask)

/-- One while `arm_timer` may still count a fallback. -/
def Statement.fallback {cpus : ℕ} : Statement cpus → Option ℕ
  | .armTimer _ .sending => some 0
  | .armTimer _ _ => some 1
  | _ => none

theorem Statement.fallback_eq_none {cpus : ℕ} {statement : Statement cpus}
    (other : statement.kind ≠ .armTimer) : statement.fallback = none := by
  cases statement with
  | armTimer => exact absurd rfl other
  | _ => rfl

namespace Roster

variable {roster : Roster}

theorem countOnes_apMask : countOnes roster.masks.apMask = roster.cpus - 1 := by
  rw [roster.facts.apMask]
  refine countOnes_without roster.facts.mask roster.facts.bspId_mem fun index => ?_
  rw [bspBit_eq, bit_member, id_bsp]

theorem apMask_and_fullMask :
    roster.masks.apMask &&& roster.masks.fullMask = roster.masks.apMask := by
  rw [UInt64.and_comm]
  refine Boot.and_eq_right_of_bits fun index member => ?_
  obtain ⟨cpu, _, id_eq⟩ := (bit_apMask index).mp member
  exact (bit_fullMask index).mpr ⟨cpu, id_eq⟩

end Roster

namespace Boot

open Statement (Kind)

variable {roster : Roster} {system : Boot roster} {cpu : Fin roster.cpus}
  {statement : Statement roster.cpus} {rest : List (Statement roster.cpus)}
  {memory : BootMemory roster.cpus} {core : Core roster.cpus} {machine : Machine}
  {next : Next roster.cpus}

section Fallbacks

/-- How often a processor may still count a fallback. -/
def fallbacks (core : Core roster.cpus) : ℕ := Agenda.part Statement.fallback 0 core.program

/-- The timer is armed once. -/
theorem Reached.armed_once (reached : Reached system)
    (runs : Runs system cpu statement rest memory machine next)
    (arms : statement.kind = .armTimer) :
    statement.kind ∉ rest.map Statement.kind := by
  have suffix :
      (left system cpu).head? = some .armTimer → Kind.armTimer ∉ (left system cpu).tail := by
    by_cases boots : cpu = roster.bsp
    · subst boots
      exact reached.bsp_left (motive := fun kinds => kinds.head? = some .armTimer →
        Kind.armTimer ∉ kinds.tail) (by decide)
    · exact reached.ap_left boots (motive := fun kinds => kinds.head? = some .armTimer →
        Kind.armTimer ∉ kinds.tail) (by decide)
  rw [runs.left_eq, arms] at suffix
  rw [arms]
  exact suffix rfl

theorem Runs.fallbacks_eq {count : ℕ} (runs : Runs system cpu statement rest memory machine next)
    (shows : statement.fallback = some count) : fallbacks (system.own cpu) = count := by
  rw [fallbacks, runs.front]
  exact Agenda.part_cons_of_some shows

theorem fallbacks_stay {later : Statement roster.cpus} {count : ℕ}
    (shows : later.fallback = some count) :
    fallbacks (core.follow machine (.stay later)) = count :=
  Agenda.part_cons_of_some shows

/-- `arm_timer` counts a fallback before it sends the interrupt, and then no other. -/
theorem Runs.fallbacks_armTimer {heeded : Bool} {armer : Armer}
    (runs : Runs system cpu (.armTimer heeded armer) rest memory machine next)
    (once : Kind.armTimer ∉ rest.map Statement.kind) :
    memory.cells .timerIpiFallbacks = system.shared.cells .timerIpiFallbacks ∧
        fallbacks ((system.own cpu).follow machine next) ≤ fallbacks (system.own cpu) ∨
      memory.cells .timerIpiFallbacks = system.shared.cells .timerIpiFallbacks + 1 ∧
        fallbacks ((system.own cpu).follow machine next) + 1 = fallbacks (system.own cpu) := by
  have done (is_done : next = .done) : fallbacks ((system.own cpu).follow machine next) = 0 := by
    subst is_done
    exact runs.part_done (fun other distinct => Statement.fallback_eq_none distinct) once
  obtain ⟨chance, stepped⟩ := runs.stepped
  cases armer with
  | arming =>
      cases stepped
      exact .inl ⟨rfl, by rw [runs.fallbacks_eq rfl, fallbacks_stay rfl]⟩
  | checking =>
      have memory_eq : system.shared = memory := congrArg (·.1) (ok.inj stepped)
      have next_eq := congrArg (·.2.2) (ok.inj stepped)
      refine .inl ⟨by rw [memory_eq], ?_⟩
      simp only at next_eq
      split at next_eq
      · rw [runs.fallbacks_eq rfl, ← next_eq, fallbacks_stay rfl]
      · rw [done next_eq.symm]
        exact Nat.zero_le _
  | counting =>
      cases stepped
      exact .inr ⟨BootMemory.put_cells, by rw [runs.fallbacks_eq rfl, fallbacks_stay rfl]⟩
  | sending =>
      have memory_eq : (if chance.icr.sends then system.shared.interrupt .timer cpu
        else system.shared) = memory := congrArg (·.1) (ok.inj stepped)
      have next_eq := congrArg (·.2.2) (ok.inj stepped)
      left
      constructor
      · rw [← memory_eq]
        split <;> rfl
      · simp only at next_eq
        split at next_eq
        · rw [← next_eq]
          exact le_rfl
        · rw [done next_eq.symm]
          exact Nat.zero_le _

/-- A fallback that is counted is one that may not be counted again. -/
theorem Reached.fallbacks_run (reached : Reached system)
    (runs : Runs system cpu statement rest memory machine next) :
    memory.cells .timerIpiFallbacks = system.shared.cells .timerIpiFallbacks ∧
        fallbacks ((system.own cpu).follow machine next) ≤ fallbacks (system.own cpu) ∨
      memory.cells .timerIpiFallbacks = system.shared.cells .timerIpiFallbacks + 1 ∧
        fallbacks ((system.own cpu).follow machine next) + 1 = fallbacks (system.own cpu) := by
  by_cases arms : statement.kind = .armTimer
  swap
  · refine .inl ⟨runs.confined.cells _ ?_, (runs.part_follow fun other same => ?_).le⟩
    · have listed := reached.kind_mem runs
      by_contra writes
      exact arms ((by decide : ∀ kind ∈ apKinds ++ bspKinds,
        ¬kind.writes .timerIpiFallbacks = false → kind = .armTimer) _ listed writes)
    · exact Statement.fallback_eq_none (same ▸ arms)
  have once := reached.armed_once runs arms
  cases statement with
  | armTimer => exact runs.fallbacks_armTimer once
  | _ => cases arms

/-- No processor counts more than one fallback. -/
theorem Reached.fallbacks_le (reached : Reached system) :
    (system.shared.cells .timerIpiFallbacks).toNat + system.tally fallbacks ≤ roster.cpus := by
  refine reached.invariant (motive := fun system =>
    (system.shared.cells .timerIpiFallbacks).toNat + system.tally fallbacks ≤ roster.cpus) ?_ ?_
  · have one (cpu : Fin roster.cpus) :
        Agenda.part Statement.fallback 0 (programOf roster cpu) = 1 := by
      unfold programOf
      split <;> rfl
    simp [Interleaved.tally, start, fallbacks, one]
  · intro system mover memory core reached bounded moves
    have balance := Interleaved.tally_put fallbacks system mover memory core
    rw [Interleaved.put_shared]
    rcases moves.runs_or_aside with ⟨statement, rest, machine, next, runs, rfl⟩ | aside
    · rcases reached.fallbacks_run runs with ⟨same, fewer⟩ | ⟨counted, fewer⟩
      · rw [same]
        omega
      · have small := roster.cpus_lt
        have held := Interleaved.le_tally fallbacks system mover
        rw [counted, toNat_add_one (by omega)]
        omega
    · have same : fallbacks core = fallbacks (system.own mover) := by
        rw [fallbacks, fallbacks, aside.program]
      rw [aside.cells _ (by decide) (by decide)]
      omega

end Fallbacks

section Parallel

/-- The counters of the tasks are final when everybody has left them. -/
theorem Reached.tasks_final (reached : Reached system) (moves : Moves system cpu memory core)
    (done : Kind.waitForCount .taskDone ∉ left system roster.bsp) :
    memory.tasks = system.shared.tasks := by
  rcases moves.runs_or_aside with ⟨statement, rest, machine, next, runs, rfl⟩ | aside
  swap
  · exact aside.tasks
  refine runs.confined.tasks ?_ ?_
  · intro same
    exact (reached.returned done cpu).1 (runs.left_eq ▸ same ▸ List.mem_cons_self)
  · intro field same
    obtain rfl := reached.eq_bsp runs (by rw [same]; simp [apKinds, apProgram, Statement.kind])
    exact reached.settled_of_returned done field (runs.left_eq ▸ same ▸ List.mem_cons_self)

/-- What the last check has found stays so. -/
theorem Reached.parallel (reached : Reached system)
    (done : Kind.check .parallel ∉ left system roster.bsp) :
    Check.parallel.Holds roster.masks system.shared := by
  refine (reached.milestone (motive := fun system =>
    Kind.waitForCount .taskDone ∉ left system roster.bsp ∧
      Check.parallel.Holds roster.masks system.shared) ?_ ?_ ?_ done).2
  · rw [programOf_bsp]
    exact (by decide : Kind.check .parallel ∈ bspKinds)
  · intro system mover memory core reached moves ⟨returned, holds⟩
    refine ⟨fun todo => returned (moves.left_subset _ todo), ?_⟩
    rw [Interleaved.put_shared, Check.Holds, reached.tasks_final moves returned]
    exact holds
  · intro system statement rest memory machine reached runs kind_eq _
    have order := reached.bsp_left (motive := fun kinds => kinds.head? = some (.check .parallel) →
      Kind.waitForCount .taskDone ∉ kinds) (by decide)
    have returned : Kind.waitForCount .taskDone ∉ left system roster.bsp :=
      order (by rw [runs.left_eq, kind_eq]; rfl)
    refine ⟨fun todo => returned ((Moves.ran runs).left_subset _ todo), ?_⟩
    rw [Interleaved.put_shared, Check.Holds, reached.tasks_final (.ran runs) returned]
    cases statement with
    | check condition =>
        obtain rfl : condition = .parallel := by simpa [Statement.kind] using kind_eq
        obtain ⟨chance, stepped⟩ := runs.stepped
        have next_eq := congrArg (·.2.2) (ok.inj stepped)
        simp only at next_eq
        split at next_eq
        · assumption
        · cases next_eq
    | _ => cases kind_eq

/-- The maximum is a number of processors. -/
theorem Reached.parallel_le (reached : Reached system)
    (settled : ∀ field, Kind.setTask field ∉ left system roster.bsp) :
    system.shared.tasks.maxActive.toNat ≤ roster.cpus := by
  obtain ⟨schedule, tasks_eq⟩ := reached.tasks_run
  have fits : roster.cpus ≤ postTasks.toNat := roster.facts.length_le.trans (by decide)
  have shared_eq : (tasksOf system).shared = system.shared.tasks := foldl_settle settled
  rw [← shared_eq, tasks_eq]
  exact (Workers.peaked_run fits schedule).maximum.trans (Workers.peak_le schedule)

end Parallel

/-- A boot that has not given up can be continued until it is over. -/
theorem Reached.exists_over (reached : Reached system) (going : Going system) :
    ∃ later, Going (final perform system later) ∧ Over (final perform system later) := by
  have progress (inputs : List (Fin roster.cpus × Turn))
      (going : Going (final perform system inputs))
      (unstuck : ¬∀ cpu, Stuck (final perform system inputs) cpu) :
      Approaches (final perform system inputs) :=
    (going.approaches_or_stuck (reached.continue inputs)).resolve_right unstuck
  obtain ⟨later, going, stuck⟩ := exists_final_of_progress_while perform
    (fun system => ∀ cpu, Stuck system cpu) Going effort progress [] going
  exact ⟨later, going, (reached.continue later).ended stuck going.running⟩

theorem going_start (roster : Roster) : Going (start roster) := by
  refine ⟨rfl, ?_⟩
  change ∀ statement ∈ programOf roster roster.bsp, statement.Patient
  rw [programOf_bsp]
  simp [bspProgram, Statement.Patient, pollLimit]

/-- A processor that boots, and another one. -/
def pair : Roster where
  apicIds := [0, 1]
  bspId := 0
  failed := none
  effective := ⟨(Vector.replicate _ 0).set 1 1 (by decide), 2⟩
  masks := ⟨3, 1, 1, 2⟩
  effective_eq := by rfl
  accepted := by decide +kernel

section Results

variable (roster) (schedule : List (Fin roster.cpus × Turn))

/-- If `run` gets to the end of the protocol, then from there on the report has all processors
online, at work, in the lock, with the message, with the new page and with a timer interrupt, all
others have acknowledged the exchange, nothing stale was seen and every task was added once.  What
the order of the steps decides is how many processors worked at once and how many timers needed a
second interrupt. -/
theorem run_reports_every_cpu
    (finished : ((final perform (start roster) schedule).own roster.bsp).program = []) :
    ∃ parallelCpus timerIpiFallbacks,
      (final perform (start roster) schedule).shared.report roster.masks = {
        online := roster.cpus
        apWorkers := roster.cpus - 1
        workerCpus := roster.cpus
        parallelCpus
        taskSum := postTasks * (postTasks - 1) / 2
        atomicMessageCpus := roster.cpus
        atomicMessageStale := 0
        cpuLocalCpus := roster.cpus
        lockEntries := .ofNat roster.cpus
        ipiAcks := roster.cpus - 1
        timerCpus := roster.cpus
        timerIpiFallbacks
        tlbCpus := roster.cpus } ∧
      parallelCpus.toNat ≤ roster.cpus ∧ (3 ≤ roster.cpus → 2 ≤ parallelCpus.toNat) ∧
      timerIpiFallbacks.toNat ≤ roster.cpus := by
  have reached : Reached (final perform (start roster) schedule) := ⟨schedule, rfl⟩
  generalize final perform (start roster) schedule = system at finished reached
  have ended (kind : Kind) : kind ∉ left system roster.bsp := by
    rw [left, finished]
    exact List.not_mem_nil
  have all : countOnes roster.masks.fullMask = roster.cpus :=
    countOnes_expectedMask roster.facts.mask
  have full {cell : Cell} {error : PostFirmwareError} (register : cell.isRegister = true)
      (written : Kind.waitForMask cell .all error ∈ bspKinds) :
      countOnes (system.shared.cells cell) = roster.cpus := by
    rw [reached.full register (reached.all_signed register written (ended _)), all]
  have parallel := reached.parallel (ended _)
  have settled := reached.settled_of_returned (ended _)
  have locked := reached.locked fun cpu => (reached.returned (ended _) cpu).2
  have fallbacks_le := reached.fallbacks_le
  refine ⟨system.shared.tasks.maxActive, system.shared.cells .timerIpiFallbacks, ?_,
    reached.parallel_le settled, ?_, by omega⟩
  · rw [BootMemory.report,
      full rfl (by decide : Kind.waitForMask .onlineMask .all .apStartup ∈ bspKinds),
      full rfl (by decide : Kind.waitForMask .cpuLocalMask .all .apStartup ∈ bspKinds),
      full rfl (by decide : Kind.waitForMask .messageMask .all .scheduler ∈ bspKinds),
      full rfl (by decide : Kind.waitForMask .tlbPostMask .all .tlb ∈ bspKinds),
      reached.workers_full (ended _), UInt64.and_comm, Roster.apMask_and_fullMask, all,
      Roster.countOnes_apMask, reached.acks_full (ended _), Roster.countOnes_apMask,
      reached.timer_full (ended _), all, reached.stale.1, locked.1,
      reached.taskSum settled fun cpu => (reached.returned (ended _) cpu).1]
  · intro several
    have counted := roster.facts.apCount
    by_contra few
    refine parallel ⟨by omega, ?_⟩
    rw [UInt64.lt_iff_toNat_lt]
    exact Nat.lt_of_not_le few

/-- Two processors can get to the end, with this report. -/
theorem run_reports_pair : ∃ schedule parallelCpus timerIpiFallbacks,
    ((final perform (start pair) schedule).own pair.bsp).program = [] ∧
      (final perform (start pair) schedule).shared.report pair.masks =
        ⟨2, 1, 2, parallelCpus, 8386560, 2, 0, 2, 2, 1, 2, timerIpiFallbacks, 2⟩ := by
  obtain ⟨schedule, _, ended⟩ := Reached.exists_over ⟨[], rfl⟩ (going_start pair)
  have finished : ((final perform (start pair) schedule).own pair.bsp).program = [] := by
    rcases ended with all | ⟨_, several, _⟩
    · exact all pair.bsp
    · exact absurd several (by decide)
  obtain ⟨parallelCpus, timerIpiFallbacks, report_eq, _⟩ :=
    run_reports_every_cpu pair schedule finished
  exact ⟨schedule, parallelCpus, timerIpiFallbacks, finished, report_eq⟩

/-- Whatever the order of the steps, no processor reads another page than its phase expects, nothing
stale is counted, and once the second round of interrupts has been waited for nobody holds the old
page. -/
theorem shootdown_reaches_every_cpu (cpu : Fin roster.cpus) :
    (∀ expected mask prober rest,
      ((final perform (start roster) schedule).own cpu).program =
          .probe expected mask prober :: rest →
      ((final perform (start roster) schedule).own cpu).machine.handler = none →
      ((final perform (start roster) schedule).own cpu).machine.tlb.getD
        (final perform (start roster) schedule).shared.entry = expected) ∧
    (Kind.waitForMask .ipiAckMask .aps .tlb ∉
        left (final perform (start roster) schedule) roster.bsp →
      (final perform (start roster) schedule).shared.entry = .b ∧
        ((final perform (start roster) schedule).own cpu).machine.tlb ≠ some .a) ∧
    (final perform (start roster) schedule).shared.cells .messageStale = 0 ∧
    (final perform (start roster) schedule).shared.cells .tlbStale = 0 := by
  have reached : Reached (final perform (start roster) schedule) := ⟨schedule, rfl⟩
  generalize final perform (start roster) schedule = system at reached
  refine ⟨?_, ?_, reached.stale⟩
  · intro expected mask prober rest front free
    have running : (system.own cpu).stopped = none := by
      cases stopped : (system.own cpu).stopped with
      | none => rfl
      | some error =>
          obtain ⟨_, statement, _, stops, gives_up⟩ := reached.stopped stopped
          rw [front] at stops
          cases stops
          cases gives_up
    obtain ⟨memory, machine, next, stepped⟩ : ∃ memory machine next,
        (Statement.probe expected mask prober).step roster cpu Statement.accepting system.shared
          (system.own cpu).machine = .ok (memory, machine, next) := by
      cases prober <;> exact ⟨_, _, _, rfl⟩
    exact reached.probe_reads ⟨free, running, front, Statement.accepting, stepped⟩
  · intro collected
    refine ⟨reached.entry_new fun todo => collected ?_, reached.all_dropped collected cpu⟩
    exact reached.bsp_left (motive := fun kinds => Kind.remap .b ∈ kinds →
      Kind.waitForMask .ipiAckMask .aps .tlb ∈ kinds) (by decide) todo

/-- Few checks of the protocol can fail: only the processor that boots stops, and only because a
wait has run out, because its local APIC stays busy, or because no two processors have been counted
in `POST_ACTIVE` at once. -/
theorem run_gives_up_for_a_reason (cpu : Fin roster.cpus) (error : PostFirmwareError)
    (stopped : ((final perform (start roster) schedule).own cpu).stopped = some error) :
    cpu = roster.bsp ∧ ∃ statement rest,
      ((final perform (start roster) schedule).own cpu).program = statement :: rest ∧
        statement.GivesUp error :=
  Reached.stopped ⟨schedule, rfl⟩ stopped

/-- The processor that boots gives up when its local APIC does not send the first command. -/
theorem run_gives_up_pair :
    ((final perform (start pair) [(pair.bsp, .run Statement.accepting),
      (pair.bsp, .run Statement.accepting), (pair.bsp, .run ⟨false, .busyBefore⟩)]).own
        pair.bsp).stopped = some .ipi ∧
      ∃ statement rest, ((final perform (start pair) [(pair.bsp, .run Statement.accepting),
        (pair.bsp, .run Statement.accepting), (pair.bsp, .run ⟨false, .busyBefore⟩)]).own
          pair.bsp).program = statement :: rest ∧ statement.GivesUp .ipi :=
  ⟨rfl, (run_gives_up_for_a_reason pair _ pair.bsp .ipi rfl).2⟩

/-- A boot that has not given up can be brought to its end, whatever has happened so far: either
nobody has anything left to do, or two processors at least were started and no two of them were
counted in `POST_ACTIVE` at once. -/
theorem boot_can_be_finished (going : Going (final perform (start roster) schedule)) :
    ∃ later, Going (final perform (start roster) (schedule ++ later)) ∧
      Over (final perform (start roster) (schedule ++ later)) := by
  obtain ⟨later, ended⟩ := Reached.exists_over ⟨schedule, rfl⟩ going
  exact ⟨later, by rwa [final_append]⟩

/-- Two processors can get to the end. -/
theorem boot_can_be_finished_pair : ∃ later, Going (final perform (start pair) ([] ++ later)) ∧
    Over (final perform (start pair) ([] ++ later)) :=
  boot_can_be_finished pair [] (going_start pair)

/-- What the processors do in `run_tasks` and in `lock_once` during a boot, they could have done
without the rest of it. -/
theorem boot_refines_parts :
    (∃ turns, tasksOf (final perform (start roster) schedule) =
      final Workers.perform (Workers.boot roster.cpus) turns) ∧
    (∃ turns, locksOf (final perform (start roster) schedule) =
      final (Lockers.perform roster.id) (Lockers.boot roster.cpus) turns) ∧
    ((∀ field, Kind.setTask field ∉ left (final perform (start roster) schedule) roster.bsp) →
      (tasksOf (final perform (start roster) schedule)).shared =
        (final perform (start roster) schedule).shared.tasks) := by
  have reached : Reached (final perform (start roster) schedule) := ⟨schedule, rfl⟩
  exact ⟨reached.tasks_run, reached.locks_run, fun settled => foldl_settle settled⟩

end Results

end Boot

end Bulla.Platform
