import Bulla.Platform.BootEffort

/-!
# The boot does not get stuck

Whatever has happened so far, as long as the processor that boots has not given up there is a
processor that can go on, and so the boot can be brought to its end.  Every interrupt that is waited
for is on its way; every processor that is waited for can come.
-/

namespace Bulla.Platform

open Rust Outcome

namespace Vector

/-- The mask that the handler signs. -/
def mask : Vector → Cell
  | .ipi => .ipiAckMask
  | .timer => .timerMask

/-- A handler that has yet to sign the mask. -/
def serves : Vector → Handler → Bool
  | .ipi, .flushing => true
  | .ipi, .acknowledging => true
  | .timer, .signing => true
  | _, _ => false

theorem exists_signer (vector : Vector) : ∃ signer, vector.mask.signer = some signer := by
  cases vector <;> exact ⟨_, rfl⟩

end Vector

/-- A processor has been sent the interrupt of the round. -/
def Round.Sent {cpus : ℕ} (cpu : Fin cpus) : Round cpus → Prop
  | .sending targets => cpu ∉ targets
  | .collecting => True
  | _ => False

/-- Who is yet to be started. -/
def Statement.unstarted {cpus : ℕ} : Statement cpus → List (Fin cpus)
  | .start targets => targets
  | _ => []

/-- Whose timer the processor that boots has yet to look at. -/
def Statement.unbrokered {cpus : ℕ} : Statement cpus → List (Fin cpus)
  | .broker missing targets => missing.toList ++ targets
  | _ => []

namespace Boot

open Statement (Kind)

variable {roster : Roster} {system : Boot roster} {cpu other : Fin roster.cpus} {vector : Vector}
  {statement : Statement roster.cpus} {rest : List (Statement roster.cpus)}
  {memory : BootMemory roster.cpus} {core : Core roster.cpus} {machine : Machine}
  {next : Next roster.cpus}

section Answers

/-- A processor has signed the mask of an interrupt, or will. -/
def Answered (system : Boot roster) (vector : Vector) (cpu : Fin roster.cpus) : Prop :=
  bit (system.shared.cells vector.mask) (roster.id cpu).toNat = true ∨
    system.shared.pending vector cpu = true ∨
    ∃ handler, (system.own cpu).machine.handler = some handler ∧ vector.serves handler = true

/-- A handler goes on until it has signed. -/
theorem Moves.serving (moves : Moves system cpu memory core) {handler : Handler}
    (entered : (system.own cpu).machine.handler = some handler)
    (serves : vector.serves handler = true) :
    (∃ later, core.machine.handler = some later ∧ vector.serves later = true) ∨
      bit (memory.cells vector.mask) (roster.id cpu).toNat = true := by
  cases moves with
  | rested | ticked | cached => exact .inl ⟨handler, entered, serves⟩
  | delivered _ free =>
      rw [entered] at free
      cases free
  | ran runs =>
      have free := runs.free
      rw [entered] at free
      cases free
  | handled handles =>
      rw [entered] at handles
      cases handles
      have signed : bit (roster.member cpu) (roster.id cpu).toNat = true := by
        simp [Roster.bit_member]
      cases handler with
      | flushing =>
          cases vector with
          | ipi => exact .inl ⟨_, rfl, rfl⟩
          | timer => cases serves
      | acknowledging =>
          cases vector with
          | ipi =>
              right
              rw [Handler.step, Vector.mask, BootMemory.fetchOr_cells, bit_or, signed, Bool.or_true]
          | timer => cases serves
      | signing =>
          cases vector with
          | ipi => cases serves
          | timer =>
              right
              rw [Handler.step, Vector.mask, BootMemory.fetchOr_cells, bit_or, signed, Bool.or_true]
      | leaving => cases vector <;> cases serves

/-- An interrupt is not lost until its mask is cleared. -/
theorem Reached.answered_put (reached : Reached system) (moves : Moves system cpu memory core)
    (uncleared : (left system roster.bsp).head? ≠ some (.store vector.mask 0))
    (answered : Answered system vector other) :
    Answered (system.put cpu memory core) vector other := by
  rcases answered with signed | pending | ⟨handler, entered, serves⟩
  · obtain ⟨signer, mask⟩ := vector.exists_signer
    exact .inl (reached.bit_kept moves mask uncleared signed)
  · rcases moves.pending pending with pending | ⟨rfl, entered⟩
    · exact .inr (.inl pending)
    · refine .inr (.inr ⟨vector.handler, ?_, by cases vector <;> rfl⟩)
      rw [Interleaved.put_own]
      exact entered
  · by_cases same : other = cpu
    · subst same
      rcases moves.serving entered serves with ⟨later, entered, serves⟩ | signed
      · refine .inr (.inr ⟨later, ?_, serves⟩)
        rw [Interleaved.put_own]
        exact entered
      · exact .inl signed
    · refine .inr (.inr ⟨handler, ?_, serves⟩)
      rwa [Interleaved.put_own_of_ne same]

end Answers

section Orders

/-- Interrupts stay enabled. -/
theorem Reached.enabled (reached : Reached system)
    (todo : Kind.enableInterrupts ∈ (programOf roster cpu).map Statement.kind)
    (done : Kind.enableInterrupts ∉ left system cpu) :
    (system.own cpu).machine.interrupts = true := by
  refine reached.milestone (motive := fun system => (system.own cpu).machine.interrupts = true)
    todo ?_ ?_ done
  · intro system mover memory core reached moves enabled
    by_cases same : cpu = mover
    swap
    · rwa [Interleaved.put_own_of_ne same]
    subst same
    rw [Interleaved.put_own]
    cases moves with
    | rested | ticked | cached => exact enabled
    | delivered => exact enabled
    | @handled handler => cases handler <;> exact enabled
    | @ran statement rest memory machine next runs =>
        have kept := runs.confined.interrupts enabled
        cases next <;> exact kept
  · intro system statement rest memory machine reached runs kind_eq _
    rw [Interleaved.put_own]
    cases statement with
    | enableInterrupts =>
        obtain ⟨chance, stepped⟩ := runs.stepped
        cases stepped
        rfl
    | _ => cases kind_eq

/-- The message is ready once it is announced. -/
theorem Reached.ready (reached : Reached system)
    (done : Kind.store .messageReady 1 ∉ left system roster.bsp) :
    system.shared.cells .messageReady = 1 :=
  reached.stored (by decide) (by decide) (by decide) done

/-- The phase does not go back. -/
theorem Reached.phase_le {least : UInt64} (reached : Reached system)
    (written : Kind.store .phase least ∈ bspKinds)
    (last : ∀ kinds ∈ bspKinds.tails, Kind.store .phase least ∉ kinds →
      ∀ kind ∈ kinds, kind.writes .phase = true → kind = .store .phase 2)
    (low : least ≤ 2) (done : Kind.store .phase least ∉ left system roster.bsp) :
    least ≤ system.shared.cells .phase := by
  refine (reached.milestone (motive := fun system =>
    Kind.store .phase least ∉ left system roster.bsp ∧ least ≤ system.shared.cells .phase)
    ?_ ?_ ?_ done).2
  · rw [programOf_bsp]
    exact written
  · intro system mover memory core reached moves ⟨done, holds⟩
    refine ⟨fun todo => done (moves.left_subset _ todo), ?_⟩
    rw [Interleaved.put_shared]
    rcases moves.cells_cases .phase (by decide) (by decide) with
      same | ⟨statement, rest, machine, next, runs, rfl, writes⟩
    · rwa [same]
    · obtain rfl := reached.eq_bsp runs fun listed =>
        absurd writes ((by decide : ∀ kind ∈ apKinds, ¬kind.writes .phase = true) _ listed)
      have stores := reached.bsp_left last done _ (runs.left_eq ▸ List.mem_cons_self) writes
      obtain rfl := Statement.kind_eq_store.mp stores
      obtain ⟨chance, stepped⟩ := runs.stepped
      cases stepped
      rwa [BootMemory.put_cells]
  · intro system statement rest memory machine reached runs kind_eq once
    obtain rfl := Statement.kind_eq_store.mp kind_eq
    obtain ⟨chance, stepped⟩ := runs.stepped
    cases stepped
    rw [runs.left_done, Interleaved.put_shared, BootMemory.put_cells]
    exact ⟨once, UInt64.le_refl least⟩

/-- A processor that is started stays so. -/
theorem Moves.started (moves : Moves system cpu memory core)
    (started : system.shared.started other = true) : memory.started other = true := by
  rcases moves.runs_or_aside with ⟨statement, rest, machine, next, runs, rfl⟩ | aside
  swap
  · rwa [aside.started]
  by_cases starts : statement.kind = .start
  swap
  · rwa [runs.confined.started starts]
  cases statement with
  | start targets =>
      cases targets with
      | nil =>
          obtain ⟨chance, stepped⟩ := runs.stepped
          cases stepped
          exact started
      | cons target targets =>
          rcases runs.starts.memory_eq with rfl | rfl
          · simp [Function.update_apply, started]
          · exact started
  | _ => cases starts

/-- Every processor is started. -/
theorem Reached.all_started (reached : Reached system) (ap : cpu ≠ roster.bsp)
    (done : Kind.start ∉ left system roster.bsp) : system.shared.started cpu = true := by
  have started_or_due : system.shared.started cpu = true ∨
      ∃ statement ∈ (system.own roster.bsp).program, cpu ∈ statement.unstarted := by
    refine reached.invariant (motive := fun system => system.shared.started cpu = true ∨
      ∃ statement ∈ (system.own roster.bsp).program, cpu ∈ statement.unstarted) ?_ ?_
    · refine .inr ⟨.start roster.aps, ?_, Roster.mem_aps.mpr ap⟩
      change _ ∈ programOf roster roster.bsp
      rw [programOf_bsp]
      simp [bspProgram]
    · intro system mover memory core _ holds moves
      rcases holds with started | due
      · exact .inl (moves.started started)
      · rw [or_comm]
        refine moves.due due ?_
        intro statement rest machine next runs unstarted
        cases statement with
        | start targets =>
            cases targets with
            | nil => cases unstarted
            | cons target targets =>
                cases runs.starts with
                | accepted =>
                    rcases List.mem_cons.mp unstarted with rfl | later
                    · refine .inr (.inr ?_)
                      rw [Interleaved.put_shared]
                      exact Function.update_self _ _ _
                    · exact .inl ⟨.start targets, rfl, later⟩
                | failed => exact .inr (.inl ⟨_, rfl⟩)
        | _ => cases unstarted
  rcases started_or_due with started | ⟨statement, member, unstarted⟩
  · exact started
  · refine absurd (List.mem_map.mpr ⟨statement, member, ?_⟩) done
    cases statement <;> first | rfl | cases unstarted

end Orders

section Rounds

theorem uncleared_of_sent (sent : (round system).Sent cpu) :
    (left system roster.bsp).head? ≠ some (.store .ipiAckMask 0) := by
  intro clears
  obtain ⟨kinds, left_eq⟩ := List.head?_eq_some_iff.mp clears
  obtain ⟨statement, rest, front, kind_eq, _⟩ := List.map_eq_cons_iff.mp left_eq
  obtain rfl := Statement.kind_eq_store.mp kind_eq
  have clearing : round system = .clearing := round_eq front rfl
  rw [clearing] at sent
  exact sent

/-- The mask of the acknowledgements is cleared before anybody is sent an interrupt. -/
theorem Reached.unsent_clear {value : UInt64} (reached : Reached system)
    (runs : Runs system roster.bsp (.store .ipiAckMask value) rest memory machine next)
    (ap : cpu ≠ roster.bsp) : ¬(Agenda.part Statement.round .settled rest).Sent cpu := by
  have sends := reached.bsp_left (motive := fun kinds =>
    kinds.head?.any (Kind.writes .ipiAckMask) = true →
      kinds.tail.find? Kind.isRound = some .send) (by decide)
  rw [runs.left_eq] at sends
  obtain ⟨sender, member, kind_eq, part_eq⟩ := Statement.exists_part_round (sends rfl)
  have written := (reached.agenda roster.bsp).mem_program (by rw [runs.front]; exact member)
  rw [programOf_bsp] at written
  obtain rfl := (by simp [bspProgram, Statement.kind] : ∀ statement ∈ bspProgram roster.aps,
    statement.kind = .send → statement = .send roster.aps) sender written kind_eq
  rw [part_eq]
  exact fun sent => sent (Roster.mem_aps.mpr ap)

/-- Each command of a round adds its target to those who have been sent the interrupt. -/
theorem Runs.sent_cases {targets : List (Fin roster.cpus)}
    (runs : Runs system roster.bsp (.send targets) rest memory machine next)
    (sent : (Agenda.part Statement.round .settled
      ((system.own roster.bsp).follow machine next).program).Sent other) :
    (round system).Sent other ∨ memory.pending .ipi other = true := by
  have sending : round system = .sending targets := round_eq runs.front rfl
  cases targets with
  | nil =>
      rw [sending]
      exact .inl List.not_mem_nil
  | cons target targets =>
      cases runs.sends with
      | accepted =>
          have unsent : other ∉ targets := sent
          by_cases same : other = target
          · rw [same]
            exact .inr BootMemory.interrupt_pending_self
          · rw [sending]
            exact .inl fun member => (List.mem_cons.mp member).elim same unsent
      | failed => exact .inl sent

/-- Who has been sent the interrupt of the round was sent it before, or is now. -/
theorem Reached.sent_cases (reached : Reached system) (moves : Moves system cpu memory core)
    (ap : other ≠ roster.bsp) (sent : (round (system.put cpu memory core)).Sent other) :
    (round system).Sent other ∨ memory.pending .ipi other = true := by
  by_cases boots : roster.bsp = cpu
  swap
  · rw [round, Interleaved.put_own_of_ne boots] at sent
    exact .inl sent
  subst boots
  rw [round, Interleaved.put_own] at sent
  rcases moves.runs_or_aside with ⟨statement, rest, machine, next, runs, rfl⟩ | aside
  swap
  · rw [aside.program] at sent
    exact .inl sent
  cases isRound : statement.kind.isRound with
  | false =>
      rw [runs.part_follow fun other same => Statement.round_eq_none (same ▸ isRound)] at sent
      exact .inl sent
  | true =>
      cases statement with
      | store cell value =>
          obtain rfl : cell = .ipiAckMask := by cases cell <;> first | rfl | cases isRound
          obtain ⟨chance, stepped⟩ := runs.stepped
          cases stepped
          rw [Core.follow, runs.front, List.tail_cons] at sent
          exact absurd sent (reached.unsent_clear runs ap)
      | send => exact runs.sent_cases sent
      | waitForMask cell =>
          obtain rfl : cell = .ipiAckMask := by cases cell <;> first | rfl | cases isRound
          have collecting : round system = .collecting := round_eq runs.front rfl
          rw [collecting]
          exact .inl trivial
      | _ => cases isRound

/-- An interrupt that is waited for is on its way. -/
theorem Reached.answered_ipi (reached : Reached system) (ap : cpu ≠ roster.bsp)
    (sent : (round system).Sent cpu) : Answered system .ipi cpu := by
  refine reached.invariant (motive := fun system => (round system).Sent cpu →
    Answered system .ipi cpu) ?_ ?_ sent
  · intro sent
    change (Agenda.part Statement.round .settled (programOf roster roster.bsp)).Sent cpu at sent
    rw [programOf_bsp] at sent
    exact sent.elim
  · intro system mover memory core reached holds moves sent
    rcases reached.sent_cases moves ap sent with before | pending
    · exact reached.answered_put moves (uncleared_of_sent before) (holds before)
    · exact .inr (.inl pending)

end Rounds

section Timers

theorem and_member_eq_zero {word : UInt64} (unset : ¬word &&& roster.member cpu = 0) :
    bit word (roster.id cpu).toNat = true := by
  obtain ⟨index, set⟩ := ne_zero_iff_bit.mp unset
  rw [bit_and, Bool.and_eq_true, Roster.bit_member, decide_eq_true_eq] at set
  rw [set.2]
  exact set.1

/-- The timer interrupt of the processor that boots has come, or is on its way. -/
theorem Reached.answered_timer_bsp (reached : Reached system)
    (done : Kind.armTimer ∉ left system roster.bsp) : Answered system .timer roster.bsp := by
  refine (reached.milestone (motive := fun system =>
    Kind.store .timerMask 0 ∉ left system roster.bsp ∧ Answered system .timer roster.bsp)
    ?_ ?_ ?_ done).2
  · rw [programOf_bsp]
    exact (by decide : Kind.armTimer ∈ bspKinds)
  · intro system mover memory core reached moves ⟨cleared, answered⟩
    refine ⟨fun todo => cleared (moves.left_subset _ todo), reached.answered_put moves ?_ answered⟩
    exact fun clears => cleared (List.mem_of_mem_head? clears)
  · intro system statement rest memory machine reached runs kind_eq _
    have suffix := reached.bsp_left (motive := fun kinds => kinds.head? = some .armTimer →
      Kind.store .timerMask 0 ∉ kinds.tail) (by decide)
    rw [runs.left_eq, kind_eq] at suffix
    refine ⟨by rw [runs.left_done]; exact suffix rfl, ?_⟩
    cases statement with
    | armTimer heeded armer =>
        have heeds := reached.heeded roster.bsp _ (runs.front ▸ List.mem_cons_self) heeded armer rfl
        obtain rfl : heeded = true := by simpa using heeds
        obtain ⟨chance, stepped⟩ := runs.stepped
        cases armer with
        | arming | counting => cases stepped
        | checking =>
            have memory_eq : system.shared = memory := congrArg (·.1) (ok.inj stepped)
            have next_eq := congrArg (·.2.2) (ok.inj stepped)
            simp only at next_eq
            split at next_eq
            · cases next_eq
            · rename_i signed
              left
              rw [Interleaved.put_shared, ← memory_eq]
              exact and_member_eq_zero signed
        | sending =>
            have memory_eq : (if chance.icr.sends then system.shared.interrupt .timer roster.bsp
              else system.shared) = memory := congrArg (·.1) (ok.inj stepped)
            have next_eq := congrArg (·.2.2) (ok.inj stepped)
            simp only [and_true] at next_eq
            split at next_eq
            · cases next_eq
            · rename_i accepts
              right
              left
              rw [Interleaved.put_shared, ← memory_eq, if_pos (Icr.sends_of_not_fails accepts)]
              exact BootMemory.interrupt_pending_self
    | _ => cases kind_eq

/-- The processor that boots sends an interrupt to those whose timer has not fired. -/
theorem Runs.brokered (runs : Runs system roster.bsp statement rest memory machine next)
    (unbrokered : cpu ∈ statement.unbrokered) :
    (∃ later, next = .stay later ∧ cpu ∈ later.unbrokered) ∨ (∃ error, next = .stop error) ∨
      bit (memory.cells .timerMask) (roster.id cpu).toNat = true ∨
      memory.pending .timer cpu = true := by
  cases statement with
  | broker missing targets =>
      cases missing with
      | some missing =>
          cases runs.brokers with
          | accepted =>
              rcases List.mem_cons.mp unbrokered with rfl | later
              · exact .inr (.inr (.inr BootMemory.interrupt_pending_self))
              · exact .inl ⟨.broker none targets, rfl, later⟩
          | failed => exact .inr (.inl ⟨_, rfl⟩)
      | none =>
          cases targets with
          | nil => cases unbrokered
          | cons target targets =>
              obtain ⟨chance, stepped⟩ := runs.stepped
              cases stepped
              by_cases signed :
                cpu = target ∧ ¬system.shared.cells .timerMask &&& roster.member target = 0
              · obtain ⟨rfl, signed⟩ := signed
                exact .inr (.inr (.inl (and_member_eq_zero signed)))
              · refine .inl ⟨_, rfl, List.mem_append.mpr ?_⟩
                rcases List.mem_cons.mp unbrokered with rfl | later
                · have unsigned : system.shared.cells .timerMask &&& roster.member cpu = 0 := by
                    by_contra nonzero
                    exact signed ⟨rfl, nonzero⟩
                  rw [if_pos unsigned]
                  exact .inl List.mem_cons_self
                · exact .inr later
  | _ => cases unbrokered

/-- Who the processor that boots does not have to look at any more has a timer interrupt, or gets
one. -/
theorem Reached.answered_timer (reached : Reached system) (ap : cpu ≠ roster.bsp)
    (done : Kind.broker ∉ left system roster.bsp) : Answered system .timer cpu := by
  have cleared : Kind.store .timerMask 0 ∉ left system roster.bsp := fun todo =>
    done (reached.bsp_left (motive := fun kinds => Kind.store .timerMask 0 ∈ kinds →
      Kind.broker ∈ kinds) (by decide) todo)
  have tracked : Kind.store .timerMask 0 ∉ left system roster.bsp ∧
      (Answered system .timer cpu ∨
        ∃ statement ∈ (system.own roster.bsp).program, cpu ∈ statement.unbrokered) := by
    refine reached.milestone (motive := fun system =>
      Kind.store .timerMask 0 ∉ left system roster.bsp ∧ (Answered system .timer cpu ∨
        ∃ statement ∈ (system.own roster.bsp).program, cpu ∈ statement.unbrokered)) ?_ ?_ ?_ cleared
    · rw [programOf_bsp]
      exact (by decide : Kind.store .timerMask 0 ∈ bspKinds)
    · intro system mover memory core reached moves ⟨cleared, holds⟩
      refine ⟨fun todo => cleared (moves.left_subset _ todo), ?_⟩
      rcases holds with answered | due
      · refine .inl (reached.answered_put moves ?_ answered)
        exact fun clears => cleared (List.mem_of_mem_head? clears)
      · rw [or_comm]
        refine moves.due due fun statement rest machine next runs unbrokered => ?_
        rcases runs.brokered unbrokered with later | stops | signed | pending
        · exact .inl later
        · exact .inr (.inl stops)
        · exact .inr (.inr (.inl signed))
        · exact .inr (.inr (.inr (.inl pending)))
    · intro system statement rest memory machine reached runs kind_eq once
      have suffix := reached.bsp_left (motive := fun kinds =>
        kinds.head? = some (.store .timerMask 0) → Kind.broker ∈ kinds.tail) (by decide)
      rw [runs.left_eq, kind_eq] at suffix
      refine ⟨by rw [runs.left_done]; exact once, .inr ?_⟩
      obtain ⟨broker, member, broker_kind⟩ := List.mem_map.mp (suffix rfl)
      have written := (reached.agenda roster.bsp).mem_program (by rw [runs.front]; exact member)
      rw [programOf_bsp] at written
      obtain rfl := (by simp [bspProgram, Statement.kind] : ∀ statement ∈ bspProgram roster.aps,
        statement.kind = .broker → statement = .broker none roster.aps) broker written broker_kind
      refine ⟨.broker none roster.aps, ?_, Roster.mem_aps.mpr ap⟩
      rw [Interleaved.put_own, Core.follow, runs.front]
      exact member
  rcases tracked.2 with answered | ⟨statement, member, unbrokered⟩
  · exact answered
  · refine absurd (List.mem_map.mpr ⟨statement, member, ?_⟩) done
    cases statement <;> first | rfl | cases unbrokered

end Timers

/-- All processors are done, or the processor that boots is about to find that no two of them were
counted in `POST_ACTIVE` at once. -/
def Over (system : Boot roster) : Prop :=
  (∀ cpu, (system.own cpu).program = []) ∨
    (∃ rest, (system.own roster.bsp).program = .check .parallel :: rest) ∧
      2 ≤ roster.masks.apCount.toNat ∧ system.shared.tasks.maxActive < 2

/-- A processor that cannot go on. -/
structure Stuck (system : Boot roster) (cpu : Fin roster.cpus) : Prop where
  free : (system.own cpu).machine.handler = none
  calm : (system.own cpu).machine.interrupts = true → ∀ vector,
    system.shared.pending vector cpu = false
  blocked : ∀ statement rest, (system.own cpu).program = statement :: rest →
    statement.Blocked roster cpu system.shared

/-- The processors that are started have no waits that run out. -/
theorem Reached.patient_ap (reached : Reached system) (ap : cpu ≠ roster.bsp)
    (front : (system.own cpu).program = statement :: rest) : statement.Patient := by
  have listed : statement.kind ∈ apKinds :=
    reached.ap_left_mem ap (by rw [left, front]; exact List.mem_cons_self)
  cases statement with
  | waitForMask | waitForCount => simp [apKinds, apProgram, Statement.kind] at listed
  | _ => trivial

/-- A processor that can go on brings the boot closer to its end. -/
theorem Going.approaches_or_stuck (going : Going system) (reached : Reached system) :
    Approaches system ∨ ∀ cpu, Stuck system cpu := by
  by_contra neither
  rw [not_or] at neither
  obtain ⟨still, unstuck⟩ := neither
  refine unstuck fun cpu => ?_
  have free : (system.own cpu).machine.handler = none := by
    cases entered : (system.own cpu).machine.handler with
    | none => rfl
    | some handler => exact absurd (going.handle entered) still
  have running : (system.own cpu).stopped = none := by
    cases stopped : (system.own cpu).stopped with
    | none => rfl
    | some error =>
        obtain ⟨rfl, _⟩ := reached.stopped stopped
        rw [going.running] at stopped
        cases stopped
  refine ⟨free, ?_, ?_⟩
  · intro enabled vector
    by_contra pending
    exact still (going.deliver (Bool.eq_true_of_not_eq_false pending) enabled free)
  · intro statement rest front
    by_contra unblocked
    have patient : statement.Patient := by
      by_cases boots : cpu = roster.bsp
      · subst boots
        exact going.patient statement (front ▸ List.mem_cons_self)
      · exact reached.patient_ap boots front
    refine still ?_
    cases statement with
    | tasks worker =>
        refine going.advance_tasks free running front reached ?_
        rintro rfl closed
        exact unblocked closed
    | lock locker =>
        refine going.advance_lock reached free running front ?_
        rintro ticket rfl
        by_contra unserved
        exact unblocked unserved
    | _ =>
        exact going.advance free running front reached unblocked patient (by simp)
          (by simp [Statement.kind])

section Stuck

theorem Stuck.answered (stuck : Stuck system cpu) (answered : Answered system vector cpu)
    (enabled : (system.own cpu).machine.interrupts = true) :
    bit (system.shared.cells vector.mask) (roster.id cpu).toNat = true := by
  rcases answered with signed | pending | ⟨handler, entered, _⟩
  · exact signed
  · rw [stuck.calm enabled vector] at pending
    cases pending
  · rw [stuck.free] at entered
    cases entered

/-- The statement in front of a processor that cannot go on. -/
theorem Stuck.front (stuck : Stuck system cpu) {kind : Kind}
    (head : (left system cpu).head? = some kind) :
    ∃ statement rest, (system.own cpu).program = statement :: rest ∧ statement.kind = kind ∧
      statement.Blocked roster cpu system.shared := by
  obtain ⟨kinds, left_eq⟩ := List.head?_eq_some_iff.mp head
  obtain ⟨statement, rest, front, kind_eq, _⟩ := List.map_eq_cons_iff.mp left_eq
  exact ⟨statement, rest, front, kind_eq, stuck.blocked statement rest front⟩

/-- Where a processor that is started can be stuck. -/
theorem Reached.ap_stuck (reached : Reached system) (ap : cpu ≠ roster.bsp)
    (stuck : Stuck system cpu) (started : Kind.start ∉ left system roster.bsp) :
    (left system cpu).head?.all (fun kind => decide (kind ∈ [Kind.await .phase 1, .message, .tasks,
      .lock, .await .phase 2])) = true := by
  cases head : (left system cpu).head? with
  | none => rfl
  | some kind =>
      obtain ⟨statement, rest, front, kind_eq, blocked⟩ := stuck.front head
      have listed := reached.ap_left_mem ap (List.mem_of_mem_head? head)
      rw [← kind_eq] at listed ⊢
      cases statement with
      | sleep =>
          have asleep : system.shared.started cpu = false := blocked
          rw [reached.all_started ap started] at asleep
          cases asleep
      | await => simpa [apKinds, apProgram, Statement.kind] using listed
      | message | tasks | lock => rfl
      | waitForMask | waitForCount | check | swapStale =>
          simp [apKinds, apProgram, Statement.kind] at listed
      | _ => exact blocked.elim

section Phase

variable (reached : Reached system) (stuck : ∀ cpu, Stuck system cpu)
  (released : Kind.store .phase 1 ∉ left system roster.bsp)

include reached stuck released

/-- Nobody waits for the message. -/
theorem Reached.message_ready (cpu : Fin roster.cpus) :
    (left system cpu).head? ≠ some .message := by
  intro head
  obtain ⟨statement, rest, front, kind_eq, blocked⟩ := (stuck cpu).front head
  have ready : system.shared.cells .messageReady = 1 := by
    refine reached.ready fun todo => released ?_
    exact reached.bsp_left (motive := fun kinds => Kind.store .messageReady 1 ∈ kinds →
      Kind.store .phase 1 ∈ kinds) (by decide) todo
  cases statement with
  | message messenger =>
      cases messenger with
      | polling =>
          have unready : system.shared.cells .messageReady = 0 := blocked
          rw [ready] at unready
          cases unready
      | reading | reporting | marking => exact blocked
  | _ => cases kind_eq

/-- Where a processor can be stuck after the first phase. -/
theorem Reached.ap_stuck_released (ap : cpu ≠ roster.bsp) :
    (left system cpu).head?.all (fun kind => decide (kind ∈ [Kind.tasks, .lock, .await .phase 2])) =
      true := by
  have started : Kind.start ∉ left system roster.bsp := fun todo => released
    (reached.bsp_left (motive := fun kinds => Kind.start ∈ kinds → Kind.store .phase 1 ∈ kinds)
      (by decide) todo)
  have idle := reached.ap_stuck ap (stuck cpu) started
  have ready := reached.message_ready stuck released cpu
  cases head : (left system cpu).head? with
  | none => rfl
  | some kind =>
      have awaits : kind ≠ .await .phase 1 := by
        rintro rfl
        obtain ⟨statement, rest, front, kind_eq, blocked⟩ := (stuck cpu).front head
        obtain rfl := Statement.kind_eq_await.mp kind_eq
        have begun := reached.phase_le (by decide) (by decide) (by decide) released
        exact absurd blocked (UInt64.not_lt.mpr begun)
      rw [head] at idle ready
      simp_all

/-- Where a processor is stuck that has not left the tasks. -/
theorem Reached.stuck_tasks (todo : Kind.tasks ∈ left system cpu) :
    ∃ rest, (system.own cpu).program = .tasks .waiting :: rest ∧
      system.shared.tasks.taskGate = 0 := by
  have head : (left system cpu).head? = some .tasks := by
    by_cases boots : cpu = roster.bsp
    · subst boots
      have order := reached.bsp_left (motive := fun kinds => Kind.store .phase 1 ∉ kinds →
        Kind.tasks ∈ kinds → kinds.head? = some .message ∨ kinds.head? = some .tasks) (by decide)
      exact (order released todo).resolve_left (reached.message_ready stuck released _)
    · exact reached.ap_left boots (motive := fun kinds => kinds.head?.all (fun kind =>
        decide (kind ∈ [Kind.tasks, .lock, .await .phase 2])) = true → Kind.tasks ∈ kinds →
          kinds.head? = some .tasks) (by decide)
        (reached.ap_stuck_released stuck released boots) todo
  obtain ⟨statement, rest, front, kind_eq, blocked⟩ := (stuck cpu).front head
  cases statement with
  | tasks worker =>
      cases worker with
      | waiting => exact ⟨rest, front, blocked⟩
      | _ => exact blocked.elim
  | enlist => exact blocked.elim
  | _ => cases kind_eq

/-- If nobody can go on, everybody has left the tasks. -/
theorem Reached.tasks_over (cpu : Fin roster.cpus) : Kind.tasks ∉ left system cpu := by
  intro todo
  have settled (field : TaskField) : Kind.setTask field ∉ left system roster.bsp := by
    have order := reached.bsp_left (motive := fun kinds => ∀ kind ∈ kinds,
      ∀ field ∈ [TaskField.nextTask, .taskReady, .taskGate, .expectedWorkers, .taskSum, .active,
        .maxActive], kind = .setTask field → Kind.store .phase 1 ∈ kinds) (by decide)
    exact fun todo => released (order _ todo field (by cases field <;> decide) rfl)
  have shared_eq : (tasksOf system).shared = system.shared.tasks := foldl_settle settled
  have waits {cpu : Fin roster.cpus} (todo : Kind.tasks ∈ left system cpu) :
      (tasksOf system).own cpu = .waiting ∧ system.shared.tasks.taskGate = 0 := by
    obtain ⟨rest, front, closed⟩ := reached.stuck_tasks stuck released todo
    refine ⟨?_, closed⟩
    change Agenda.part Statement.worker .returned (system.own cpu).program = .waiting
    rw [front]
    exact Agenda.part_cons_of_some rfl
  obtain ⟨schedule, tasks_eq⟩ := reached.tasks_run
  have fits : roster.cpus ≤ postTasks.toNat := roster.facts.length_le.trans (by decide)
  have balanced := Workers.balanced_run fits schedule
  have openable := Workers.openable_run Roster.one_le_cpus fits schedule
  rw [← tasks_eq] at balanced openable
  obtain ⟨unblocked, busy, opened⟩ := Workers.exists_unblocked openable balanced
    ⟨cpu, by rw [(waits todo).1]; exact Worker.noConfusion⟩
  have unblocked_todo : Kind.tasks ∈ left system unblocked := by
    by_contra done
    refine busy (Agenda.part_of_forall_none fun statement member => Statement.worker_eq_none ?_)
    exact fun same => done (List.mem_map.mpr ⟨statement, member, same⟩)
  obtain ⟨waiting, closed⟩ := waits unblocked_todo
  refine opened waiting ?_
  rw [shared_eq]
  exact closed

/-- Where a processor is stuck that has not left the lock. -/
theorem Reached.stuck_lock (todo : Kind.lock ∈ left system cpu) :
    ∃ ticket rest, (system.own cpu).program = .lock (.waiting ticket) :: rest ∧
      ticket ≠ system.shared.locks.lockOwner := by
  have returned := reached.tasks_over stuck released cpu
  have head : (left system cpu).head? = some .lock := by
    by_cases boots : cpu = roster.bsp
    · subst boots
      have order := reached.bsp_left (motive := fun kinds => Kind.tasks ∉ kinds →
        Kind.lock ∈ kinds → kinds.head? = some .lock) (by decide)
      exact order returned todo
    · exact reached.ap_left boots (motive := fun kinds => Kind.tasks ∉ kinds →
        Kind.lock ∈ kinds → kinds.head? = some .lock) (by decide) returned todo
  obtain ⟨statement, rest, front, kind_eq, blocked⟩ := (stuck cpu).front head
  cases statement with
  | lock locker =>
      cases locker with
      | waiting ticket => exact ⟨ticket, rest, front, blocked⟩
      | _ => exact blocked.elim
  | _ => cases kind_eq

/-- If nobody can go on, everybody has left the lock. -/
theorem Reached.locks_over (cpu : Fin roster.cpus) : Kind.lock ∉ left system cpu := by
  intro todo
  have waits {cpu : Fin roster.cpus} (todo : Kind.lock ∈ left system cpu) :
      ∃ ticket, (locksOf system).own cpu = .waiting ticket ∧
        ticket ≠ (locksOf system).shared.lockOwner := by
    obtain ⟨ticket, rest, front, unserved⟩ := reached.stuck_lock stuck released todo
    refine ⟨ticket, ?_, unserved⟩
    change Agenda.part Statement.locker .returned (system.own cpu).program = .waiting ticket
    rw [front]
    exact Agenda.part_cons_of_some rfl
  obtain ⟨schedule, locks_eq⟩ := reached.locks_run
  have queued := Lockers.queued_run roster.id Roster.cpus_lt schedule
  rw [← locks_eq] at queued
  obtain ⟨_, waiting, _⟩ := waits todo
  obtain ⟨served, busy, unblocked⟩ := queued.exists_unblocked
    ⟨cpu, by rw [waiting]; exact Locker.noConfusion⟩
  have served_todo : Kind.lock ∈ left system served := by
    by_contra done
    refine busy (Agenda.part_of_forall_none fun statement member => Statement.locker_eq_none ?_)
    exact fun same => done (List.mem_map.mpr ⟨statement, member, same⟩)
  obtain ⟨ticket, waiting, unserved⟩ := waits served_todo
  exact unserved (unblocked ticket waiting)

/-- Where the processors that are started wait in the end. -/
theorem Reached.ap_idle (ap : cpu ≠ roster.bsp) :
    (left system cpu).head? = none ∨ (left system cpu).head? = some (.await .phase 2) := by
  have idle := reached.ap_stuck_released stuck released ap
  have tasks_over := reached.tasks_over stuck released cpu
  have locks_over := reached.locks_over stuck released cpu
  cases head : (left system cpu).head? with
  | none => exact .inl rfl
  | some kind =>
      have todo := List.mem_of_mem_head? head
      rw [head] at idle
      right
      simp only [Option.all_some, List.mem_cons, List.not_mem_nil, or_false,
        decide_eq_true_eq] at idle
      rcases idle with rfl | rfl | rfl
      · exact absurd todo tasks_over
      · exact absurd todo locks_over
      · rfl

end Phase

theorem and_eq_right_of_bits {word mask : UInt64}
    (bits : ∀ index, bit mask index = true → bit word index = true) : word &&& mask = mask := by
  refine eq_of_bit_eq fun index _ => ?_
  rw [bit_and]
  cases wanted : bit mask index with
  | false => rw [Bool.and_false]
  | true => rw [bits index wanted, Bool.and_true]

/-- A processor has signed a mask when no kind of statement that is left would sign it. -/
theorem signed_of_left {cell : Cell} (clear : ∀ kind ∈ left system cpu, kind.signs cell = false) :
    Signed system cell cpu := by
  intro statement member
  have unsigned := clear _ (List.mem_map_of_mem member)
  by_contra signs
  rw [Statement.kind_signs (Bool.eq_true_of_not_eq_false signs)] at unsigned
  cases unsigned

/-- A wait for a mask of all processors ends if everybody has signed. -/
theorem Reached.register_met {cell : Cell} (reached : Reached system)
    (register : cell.isRegister = true)
    (bsp : ∀ kind ∈ left system roster.bsp, kind.signs cell = false)
    (aps : ∀ cpu, cpu ≠ roster.bsp → ∀ kind ∈ left system cpu, kind.signs cell = false) :
    system.shared.cells cell &&& roster.masks.fullMask = roster.masks.fullMask := by
  rw [reached.full register, UInt64.and_self]
  intro cpu
  by_cases boots : cpu = roster.bsp
  · exact signed_of_left (boots ▸ bsp)
  · exact signed_of_left (aps cpu boots)

/-- A wait for a counter ends if everybody has counted themselves. -/
theorem Reached.count_met {cell : Cell} (reached : Reached system)
    (counter : cell = .ready ∨ cell = .taskDone)
    (valid : cell = .taskDone ∨ Kind.store cell 0 ∈ left system roster.bsp)
    (aps : ∀ cpu, cpu ≠ roster.bsp → Kind.fetchAdd cell ∉ left system cpu) :
    system.shared.cells cell ≥ roster.masks.apCount := by
  have all (cpu : Fin roster.cpus) : counted cell (system.own cpu) = 1 := by
    rw [counted_eq_one]
    by_cases boots : cpu = roster.bsp
    · rw [boots]
      exact reached.counted_bsp
    · exact aps cpu boots
  have counts := reached.counts counter valid
  have count_eq := roster.facts.apCount
  simp only [Interleaved.tally, all, Finset.sum_const, Finset.card_univ, Fintype.card_fin,
    smul_eq_mul, mul_one] at counts
  rw [ge_iff_le, UInt64.le_iff_toNat_le]
  omega

section Waits

variable (reached : Reached system) (stuck : ∀ cpu, Stuck system cpu)

include reached stuck

/-- The waits for the processors to come up end. -/
theorem Reached.started_waits (started : Kind.start ∉ left system roster.bsp)
    (ap : cpu ≠ roster.bsp) : ∀ kind ∈ left system cpu,
      kind ≠ .enableInterrupts ∧ kind.signs .onlineMask = false ∧
        kind.signs .cpuLocalMask = false ∧ kind ≠ .fetchAdd .ready :=
  reached.ap_left ap (motive := fun kinds => kinds.head?.all (fun kind => decide (kind ∈
    [Kind.await .phase 1, .message, .tasks, .lock, .await .phase 2])) = true → ∀ kind ∈ kinds,
      kind ≠ .enableInterrupts ∧ kind.signs .onlineMask = false ∧
        kind.signs .cpuLocalMask = false ∧ kind ≠ .fetchAdd .ready) (by decide)
    (reached.ap_stuck ap (stuck cpu) started)

theorem Reached.ap_enabled (started : Kind.start ∉ left system roster.bsp) (ap : cpu ≠ roster.bsp) :
    (system.own cpu).machine.interrupts = true := by
  refine reached.enabled ?_ fun todo => ?_
  · rw [programOf_ap ap]
    exact (by decide : Kind.enableInterrupts ∈ apKinds)
  · exact (reached.started_waits stuck started ap _ todo).1 rfl

/-- The waits for the work of the processors end. -/
theorem Reached.released_waits (released : Kind.store .phase 1 ∉ left system roster.bsp)
    (ap : cpu ≠ roster.bsp) : ∀ kind ∈ left system cpu,
      kind.signs .messageMask = false ∧ kind.signs .tlbPreMask = false ∧
        kind ≠ .fetchAdd .taskDone :=
  reached.ap_left ap (motive := fun kinds => kinds.head? = none ∨
    kinds.head? = some (.await .phase 2) → ∀ kind ∈ kinds,
      kind.signs .messageMask = false ∧ kind.signs .tlbPreMask = false ∧
        kind ≠ .fetchAdd .taskDone) (by decide) (reached.ap_idle stuck released ap)

/-- After the second phase nothing is left to do for the processors that are started. -/
theorem Reached.ap_over (released : Kind.store .phase 2 ∉ left system roster.bsp)
    (ap : cpu ≠ roster.bsp) : left system cpu = [] := by
  have before : Kind.store .phase 1 ∉ left system roster.bsp := fun todo => released
    (reached.bsp_left (motive := fun kinds => Kind.store .phase 1 ∈ kinds →
      Kind.store .phase 2 ∈ kinds) (by decide) todo)
  rcases reached.ap_idle stuck before ap with none | head
  · exact List.head?_eq_none_iff.mp none
  · obtain ⟨statement, rest, front, kind_eq, blocked⟩ := (stuck cpu).front head
    obtain rfl := Statement.kind_eq_await.mp kind_eq
    have begun := reached.phase_le (by decide) (by decide) (by decide) released
    exact absurd blocked (UInt64.not_lt.mpr begun)

/-- The waits for interrupts end. -/
theorem Reached.answers_met {crew : Crew} (started : Kind.start ∉ left system roster.bsp)
    (bsp : crew = .all → Answered system vector roster.bsp ∧
      Kind.enableInterrupts ∉ left system roster.bsp)
    (aps : ∀ cpu, cpu ≠ roster.bsp → Answered system vector cpu) :
    system.shared.cells vector.mask &&& crew.mask roster.masks = crew.mask roster.masks := by
  have signed {cpu : Fin roster.cpus} (ap : cpu ≠ roster.bsp) :
      bit (system.shared.cells vector.mask) (roster.id cpu).toNat = true :=
    (stuck cpu).answered (aps cpu ap) (reached.ap_enabled stuck started ap)
  refine and_eq_right_of_bits fun index wanted => ?_
  cases crew with
  | aps =>
      obtain ⟨cpu, ap, rfl⟩ := (Roster.bit_apMask _).mp wanted
      exact signed ap
  | all =>
      obtain ⟨cpu, rfl⟩ := (Roster.bit_fullMask _).mp wanted
      by_cases boots : cpu = roster.bsp
      · subst boots
        obtain ⟨answered, enabled⟩ := bsp rfl
        refine (stuck roster.bsp).answered answered (reached.enabled ?_ enabled)
        rw [programOf_bsp]
        exact (by decide : Kind.enableInterrupts ∈ bspKinds)
      · exact signed boots

/-- No wait for a mask lasts. -/
theorem Reached.mask_met {cell : Cell} {crew : Crew} {error : PostFirmwareError}
    (head : (left system roster.bsp).head? = some (.waitForMask cell crew error)) :
    system.shared.cells cell &&& crew.mask roster.masks = crew.mask roster.masks := by
  have order := reached.bsp_left (motive := fun kinds => ∀ cell ∈ registers,
    ∀ error ∈ [PostFirmwareError.apStartup, .scheduler, .tlb],
      kinds.head? = some (.waitForMask cell .all error) →
        Kind.start ∉ kinds ∧ (∀ kind ∈ kinds, kind.signs cell = false) ∧
        (cell = .messageMask ∨ cell = .tlbPreMask → Kind.store .phase 1 ∉ kinds) ∧
        (cell = .tlbPostMask → Kind.store .phase 2 ∉ kinds)) (by decide)
  have answers := reached.bsp_left (motive := fun kinds =>
    (∀ error ∈ [PostFirmwareError.ipi, .tlb],
      kinds.head? = some (.waitForMask .ipiAckMask .aps error) → Kind.start ∉ kinds) ∧
    (kinds.head? = some (.waitForMask .timerMask .all .timer) → Kind.start ∉ kinds ∧
      Kind.enableInterrupts ∉ kinds ∧ Kind.armTimer ∉ kinds ∧ Kind.broker ∉ kinds)) (by decide)
  have collects (acks : cell = .ipiAckMask) (cpu : Fin roster.cpus) : (round system).Sent cpu := by
    obtain ⟨statement, rest, front, kind_eq, _⟩ := (stuck roster.bsp).front head
    subst acks
    have collecting : round system = .collecting := by
      refine round_eq front ?_
      cases statement <;> simp_all [Statement.kind, Statement.round]
    rw [collecting]
    trivial
  have listed := reached.bsp_left_mem (List.mem_of_mem_head? head)
  simp only [bspKinds, bspProgram, List.map_cons, List.map_nil, Statement.kind, List.mem_cons,
    Kind.waitForMask.injEq, reduceCtorEq, false_or, or_false, List.not_mem_nil] at listed
  rcases listed with ⟨rfl, rfl, rfl⟩ | ⟨rfl, rfl, rfl⟩ | ⟨rfl, rfl, rfl⟩ | ⟨rfl, rfl, rfl⟩ |
    ⟨rfl, rfl, rfl⟩ | ⟨rfl, rfl, rfl⟩ | ⟨rfl, rfl, rfl⟩ | ⟨rfl, rfl, rfl⟩
  · obtain ⟨started, bsp, _⟩ := order _ (by decide) _ (by decide) head
    exact reached.register_met rfl bsp fun cpu ap kind todo =>
      (reached.started_waits stuck started ap kind todo).2.1
  · obtain ⟨started, bsp, _⟩ := order _ (by decide) _ (by decide) head
    exact reached.register_met rfl bsp fun cpu ap kind todo =>
      (reached.started_waits stuck started ap kind todo).2.2.1
  · change system.shared.cells (Vector.mask .ipi) &&& _ = _
    exact reached.answers_met stuck (answers.1 _ (by decide) head) (by rintro ⟨⟩)
      fun cpu ap => reached.answered_ipi ap (collects rfl cpu)
  · obtain ⟨_, bsp, released, _⟩ := order _ (by decide) _ (by decide) head
    exact reached.register_met rfl bsp fun cpu ap kind todo =>
      (reached.released_waits stuck (released (.inr rfl)) ap kind todo).2.1
  · obtain ⟨_, bsp, released, _⟩ := order _ (by decide) _ (by decide) head
    exact reached.register_met rfl bsp fun cpu ap kind todo =>
      (reached.released_waits stuck (released (.inl rfl)) ap kind todo).1
  · change system.shared.cells (Vector.mask .ipi) &&& _ = _
    exact reached.answers_met stuck (answers.1 _ (by decide) head) (by rintro ⟨⟩)
      fun cpu ap => reached.answered_ipi ap (collects rfl cpu)
  · obtain ⟨_, bsp, _, released⟩ := order _ (by decide) _ (by decide) head
    refine reached.register_met rfl bsp fun cpu ap kind todo => ?_
    rw [reached.ap_over stuck (released rfl) ap] at todo
    cases todo
  · obtain ⟨started, enabled, armed, brokered⟩ := answers.2 head
    change system.shared.cells (Vector.mask .timer) &&& _ = _
    exact reached.answers_met stuck started
      (fun _ => ⟨reached.answered_timer_bsp armed, enabled⟩)
      fun cpu ap => reached.answered_timer ap brokered

/-- No wait for a counter lasts. -/
theorem Reached.count_met_of_head {cell : Cell}
    (head : (left system roster.bsp).head? = some (.waitForCount cell)) :
    system.shared.cells cell ≥ roster.masks.apCount := by
  have order := reached.bsp_left (motive := fun kinds =>
    (kinds.head? = some (.waitForCount .ready) → Kind.start ∉ kinds ∧ Kind.store .ready 0 ∈ kinds) ∧
    (kinds.head? = some (.waitForCount .taskDone) → Kind.store .phase 1 ∉ kinds)) (by decide)
  have listed := reached.bsp_left_mem (List.mem_of_mem_head? head)
  obtain rfl | rfl : cell = .ready ∨ cell = .taskDone := by
    simpa [bspKinds, bspProgram, Statement.kind] using listed
  · obtain ⟨started, valid⟩ := order.1 head
    exact reached.count_met (.inl rfl) (.inr valid) fun cpu ap todo =>
      (reached.started_waits stuck started ap _ todo).2.2.2 rfl
  · exact reached.count_met (.inr rfl) (.inl rfl) fun cpu ap todo =>
      (reached.released_waits stuck (order.2 head) ap _ todo).2.2 rfl

/-- If nobody can go on, there is nothing left to do, or no two processors have been counted in
`POST_ACTIVE` at once. -/
theorem Reached.ended (running : (system.own roster.bsp).stopped = none) : Over system := by
  cases front : (system.own roster.bsp).program with
  | nil =>
      have left_eq : left system roster.bsp = [] := by rw [left, front]; rfl
      refine .inl fun cpu => ?_
      by_cases boots : cpu = roster.bsp
      · rw [boots, front]
      · refine List.map_eq_nil_iff.mp (reached.ap_over stuck ?_ boots)
        rw [left_eq]
        exact List.not_mem_nil
  | cons statement rest =>
      have blocked := (stuck roster.bsp).blocked statement rest front
      have head : (left system roster.bsp).head? = some statement.kind := by rw [left, front]; rfl
      have listed := reached.bsp_left_mem (List.mem_of_mem_head? head)
      have order := reached.bsp_left (motive := fun kinds =>
        kinds.head? = some .message ∨ kinds.head? = some .tasks ∨ kinds.head? = some .lock →
          Kind.store .phase 1 ∉ kinds) (by decide)
      cases statement with
      | sleep | await => simp [bspKinds, bspProgram, Statement.kind] at listed
      | waitForMask => exact absurd (reached.mask_met stuck head) blocked
      | waitForCount => exact absurd (reached.count_met_of_head stuck head) blocked
      | swapStale => exact absurd reached.stale.2 blocked
      | message =>
          exact absurd head (reached.message_ready stuck (order (.inl head)) _)
      | tasks =>
          exact absurd (List.mem_of_mem_head? head)
            (reached.tasks_over stuck (order (.inr (.inl head))) _)
      | lock =>
          exact absurd (List.mem_of_mem_head? head)
            (reached.locks_over stuck (order (.inr (.inr head))) _)
      | check condition =>
          by_cases parallel : condition = .parallel
          · subst parallel
            exact .inr ⟨⟨rest, front⟩, not_not.mp blocked⟩
          · have runs : Runs system roster.bsp (.check condition) rest system.shared _ _ :=
              ⟨(stuck roster.bsp).free, running, front, Statement.accepting, rfl⟩
            exact absurd (reached.check_holds runs parallel) blocked
      | _ => exact blocked.elim

end Waits

end Stuck

end Boot

end Bulla.Platform
