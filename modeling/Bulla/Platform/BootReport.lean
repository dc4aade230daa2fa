import Bulla.Platform.BootTranslation

/-!
# How a boot ends

If `run` comes to the end of the protocol, what it reports is the same in every run: every processor
is online, has the message, has worked, has read the new test page and has taken a timer interrupt.
If it gives up on the way, then because a wait has run out, the local APIC stayed busy, or no two
processors were counted in `POST_ACTIVE` at once; never because something stale was seen or a count
was wrong.
-/

namespace Bulla.Platform

open Rust Outcome

/-- The handler that signs a mask. -/
def Cell.signer : Cell → Option Handler
  | .ipiAckMask => some .acknowledging
  | .timerMask => some .signing
  | _ => none

namespace Boot

open Statement (Kind)

variable {roster : Roster} {system : Boot roster} {cpu other : Fin roster.cpus} {cell : Cell}
  {statement : Statement roster.cpus} {rest program : List (Statement roster.cpus)}
  {memory : BootMemory roster.cpus} {core : Core roster.cpus} {machine : Machine}
  {next : Next roster.cpus}

section Meeting

/-- A mask that everybody has signed is the mask of all processors. -/
theorem Reached.full (reached : Reached system) (register : cell.isRegister = true)
    (signed : ∀ cpu, Signed system cell cpu) :
    system.shared.cells cell = roster.masks.fullMask := by
  refine eq_of_bit_eq fun index _ => ?_
  rw [Bool.eq_iff_iff, reached.bits register, Roster.bit_fullMask]
  exact exists_congr fun cpu => and_iff_left (signed cpu)

/-- Nobody is left in the tasks or in the lock. -/
theorem Reached.returned (reached : Reached system)
    (done : Kind.waitForCount .taskDone ∉ left system roster.bsp) (cpu : Fin roster.cpus) :
    Kind.tasks ∉ left system cpu ∧ Kind.lock ∉ left system cpu := by
  by_cases boots : cpu = roster.bsp
  · subst boots
    have order := reached.bsp_left (motive := fun kinds =>
      Kind.tasks ∈ kinds ∨ Kind.lock ∈ kinds → Kind.waitForCount .taskDone ∈ kinds) (by decide)
    exact ⟨fun todo => done (order (.inl todo)), fun todo => done (order (.inr todo))⟩
  · have counted := reached.all_counted (.inr rfl) done cpu
    have order := reached.ap_left boots (motive := fun kinds =>
      Kind.tasks ∈ kinds ∨ Kind.lock ∈ kinds → Kind.fetchAdd .taskDone ∈ kinds) (by decide)
    exact ⟨fun todo => counted (order (.inl todo)), fun todo => counted (order (.inr todo))⟩

/-- Everybody is on the list of the workers. -/
theorem Reached.workers_full (reached : Reached system)
    (done : Kind.waitForCount .taskDone ∉ left system roster.bsp) :
    system.shared.cells .taskWorkers = roster.masks.fullMask := by
  refine reached.full rfl fun cpu statement member => ?_
  have todo : statement.kind ∈ left system cpu := List.mem_map_of_mem member
  by_contra signs
  have kind_eq := (by decide : ∀ kind ∈ apKinds ++ bspKinds, kind.signs .taskWorkers = true →
    kind = .tasks) _ (reached.left_mem todo)
      (Statement.kind_signs (Bool.eq_true_of_not_eq_false signs))
  rw [kind_eq] at todo
  exact (reached.returned done cpu).1 todo

/-- The counters of the tasks are set up before anybody is done. -/
theorem Reached.settled_of_returned (reached : Reached system)
    (done : Kind.waitForCount .taskDone ∉ left system roster.bsp) (field : TaskField) :
    Kind.setTask field ∉ left system roster.bsp := by
  have order := reached.bsp_left (motive := fun kinds => ∀ kind ∈ kinds,
    ∀ field ∈ [TaskField.nextTask, .taskReady, .taskGate, .expectedWorkers, .taskSum, .active,
      .maxActive], kind = .setTask field → Kind.waitForCount .taskDone ∈ kinds) (by decide)
  exact fun todo => done (order _ todo field (by cases field <;> decide) rfl)

end Meeting

section Handlers

variable {signer : Handler}

/-- A mask that handlers sign changes when one of them does, or when it is cleared. -/
theorem Reached.mask_cases (reached : Reached system) (moves : Moves system cpu memory core)
    (mask : cell.signer = some signer) :
    memory.cells cell = system.shared.cells cell ∨
      ((system.own cpu).machine.handler = some signer ∧
        memory.cells cell = system.shared.cells cell ||| roster.member cpu) ∨
      (cpu = roster.bsp ∧ (left system roster.bsp).head? = some (.store cell 0) ∧
        memory.cells cell = 0) := by
  cases moves with
  | rested | ticked | cached => exact .inl rfl
  | delivered => exact .inl rfl
  | @handled handler entered =>
      cases handler with
      | flushing | leaving => exact .inl rfl
      | acknowledging =>
          cases cell with
          | ipiAckMask =>
              cases mask
              exact .inr (.inl ⟨entered, BootMemory.fetchOr_cells⟩)
          | timerMask => exact .inl rfl
          | _ => cases mask
      | signing =>
          cases cell with
          | ipiAckMask => exact .inl rfl
          | timerMask =>
              cases mask
              exact .inr (.inl ⟨entered, BootMemory.fetchOr_cells⟩)
          | _ => cases mask
  | @ran statement rest memory machine next runs =>
      cases writes : statement.kind.writes cell with
      | false => exact .inl (runs.confined.cells cell writes)
      | true =>
          have stores : statement.kind = .store cell 0 := by
            have listed := reached.kind_mem runs
            cases cell with
            | ipiAckMask =>
                exact (by decide : ∀ kind ∈ apKinds ++ bspKinds, kind.writes .ipiAckMask = true →
                  kind = .store .ipiAckMask 0) _ listed writes
            | timerMask =>
                exact (by decide : ∀ kind ∈ apKinds ++ bspKinds, kind.writes .timerMask = true →
                  kind = .store .timerMask 0) _ listed writes
            | _ => cases mask
          obtain rfl := Statement.kind_eq_store.mp stores
          obtain rfl := reached.eq_bsp runs (by simp [apKinds, apProgram, Statement.kind])
          obtain ⟨chance, stepped⟩ := runs.stepped
          cases stepped
          exact .inr (.inr ⟨rfl, by rw [runs.left_eq]; rfl, BootMemory.put_cells⟩)

/-- A bit stays set until the mask is cleared. -/
theorem Reached.bit_kept (reached : Reached system) (moves : Moves system cpu memory core)
    (mask : cell.signer = some signer) {index : ℕ}
    (uncleared : (left system roster.bsp).head? ≠ some (.store cell 0))
    (set : bit (system.shared.cells cell) index = true) : bit (memory.cells cell) index = true := by
  rcases reached.mask_cases moves mask with same | ⟨_, signed⟩ | ⟨_, clears, _⟩
  · rwa [same]
  · rw [signed, bit_or, set, Bool.true_or]
  · exact absurd clears uncleared

/-- No interrupt of the first kind is sent to the processor that boots. -/
theorem Reached.unsent_bsp (reached : Reached system) (moves : Moves system cpu memory core)
    (pending : memory.pending .ipi roster.bsp = true) :
    system.shared.pending .ipi roster.bsp = true := by
  cases moves with
  | rested | cached => exact pending
  | ticked => rwa [BootMemory.interrupt, BootMemory.setPending_of_ne (by decide)] at pending
  | @handled handler => cases handler <;> exact pending
  | @delivered vector =>
      cases vector with
      | timer => rwa [take, BootMemory.setPending_of_ne (by decide)] at pending
      | ipi =>
          rw [take, BootMemory.setPending_pending, Function.update_apply] at pending
          split at pending
          · cases pending
          · exact pending
  | @ran statement rest memory machine next runs =>
      cases sends : statement.kind.sends .ipi with
      | false => rwa [runs.confined.pending .ipi sends] at pending
      | true =>
          cases statement with
          | send targets =>
              cases targets with
              | nil =>
                  obtain ⟨chance, stepped⟩ := runs.stepped
                  cases stepped
                  exact pending
              | cons target targets =>
                  obtain rfl := reached.eq_bsp runs (by simp [apKinds, apProgram, Statement.kind])
                  have elsewhere : roster.bsp ≠ target := (reached.send_target runs).1.symm
                  rcases runs.sends.memory_eq with rfl | rfl
                  · rwa [BootMemory.interrupt_pending_of_ne elsewhere] at pending
                  · exact pending
          | _ => cases sends

/-- The processor that boots gets no interrupt of the first kind. -/
theorem Reached.bsp_calm (reached : Reached system) : ¬Awaited system roster.bsp := by
  refine reached.invariant (motive := fun system => ¬Awaited system roster.bsp) ?_ ?_
  · simp [Awaited, Handling, start]
  · intro system mover memory core reached calm moves awaited
    have idle : ¬Handling (system.own roster.bsp) := fun handling => calm (.inr handling)
    rcases awaited with pending | handling
    · exact calm (.inl (reached.unsent_bsp moves pending))
    by_cases boots : roster.bsp = mover
    swap
    · rw [Interleaved.put_own_of_ne boots] at handling
      exact idle handling
    subst boots
    rw [Interleaved.put_own] at handling
    cases moves with
    | rested | ticked | cached => exact idle handling
    | @handled handler entered =>
        cases handler with
        | flushing => exact idle (.inl entered)
        | acknowledging => exact idle (.inr entered)
        | signing | leaving => simp [Handling, Handler.step] at handling
    | @delivered vector pending =>
        cases vector with
        | ipi => exact calm (.inl pending)
        | timer => simp [Handling, take, Vector.handler] at handling
    | @ran statement rest memory machine next runs =>
        have machine_eq : ((system.own roster.bsp).follow machine next).machine = machine := by
          cases next <;> rfl
        rw [Handling, machine_eq] at handling
        by_cases traps : ∃ vector, statement.kind = .interrupt vector
        · obtain ⟨vector, kind_eq⟩ := traps
          cases statement with
          | interrupt raised =>
              obtain rfl : raised = .timer := by
                simpa [bspKinds, bspProgram, Statement.kind] using reached.bsp_kind runs
              obtain ⟨chance, stepped⟩ := runs.stepped
              cases stepped
              simp [Vector.handler] at handling
          | _ => cases kind_eq
        · rw [runs.confined.handler fun vector same => traps ⟨vector, same⟩] at handling
          exact idle handling

/-- A mask that handlers sign has only bits of processors that get the interrupt. -/
theorem Reached.signers (reached : Reached system) (mask : cell.signer = some signer) {index : ℕ}
    (set : bit (system.shared.cells cell) index = true) :
    ∃ cpu, (roster.id cpu).toNat = index ∧ (cell = .ipiAckMask → cpu ≠ roster.bsp) := by
  refine reached.invariant (motive := fun system => bit (system.shared.cells cell) index = true →
    ∃ cpu, (roster.id cpu).toNat = index ∧ (cell = .ipiAckMask → cpu ≠ roster.bsp)) ?_ ?_ set
  · intro set
    change bit 0 index = true at set
    rw [bit_zero] at set
    cases set
  · intro system mover memory core reached holds moves set
    rw [Interleaved.put_shared] at set
    rcases reached.mask_cases moves mask with same | ⟨entered, signed⟩ | ⟨_, _, cleared⟩
    · rw [same] at set
      exact holds set
    · rw [signed, bit_or, Bool.or_eq_true, Roster.bit_member, decide_eq_true_eq] at set
      rcases set with set | id_eq
      · exact holds set
      · refine ⟨mover, id_eq, ?_⟩
        rintro rfl rfl
        cases mask
        exact reached.bsp_calm (.inr (.inr entered))
    · rw [cleared, bit_zero] at set
      cases set

/-- When the last wait for a mask that handlers sign has ended, the mask has all bits that were
waited for. -/
theorem Reached.all_bits (reached : Reached system) (mask : cell.signer = some signer) {crew : Crew}
    {error : PostFirmwareError} (written : Kind.waitForMask cell crew error ∈ bspKinds)
    (last : ∀ kinds ∈ bspKinds.tails, kinds.head? = some (.waitForMask cell crew error) →
      Kind.store cell 0 ∉ kinds)
    (done : Kind.waitForMask cell crew error ∉ left system roster.bsp) {index : ℕ}
    (wanted : bit (crew.mask roster.masks) index = true) :
    bit (system.shared.cells cell) index = true := by
  refine (reached.milestone (motive := fun system => Kind.store cell 0 ∉ left system roster.bsp ∧
    bit (system.shared.cells cell) index = true) ?_ ?_ ?_ done).2
  · rw [programOf_bsp]
    exact written
  · intro system mover memory core reached moves ⟨cleared, set⟩
    refine ⟨fun todo => cleared (moves.left_subset _ todo), reached.bit_kept moves mask ?_ set⟩
    exact fun clears => cleared (List.mem_of_mem_head? clears)
  · intro system statement rest memory machine reached runs kind_eq _
    have cleared := reached.bsp_left last (by rw [runs.left_eq, kind_eq]; rfl)
    refine ⟨fun todo => cleared ((Moves.ran runs).left_subset _ todo), ?_⟩
    cases statement with
    | waitForMask waited awaited _ polls =>
        obtain ⟨rfl, rfl, _⟩ : waited = cell ∧ awaited = crew ∧ _ = error := by
          simpa [Statement.kind] using kind_eq
        obtain ⟨chance, stepped⟩ := runs.stepped
        have full := Statement.poll_eq_done (congrArg (·.2.2) (ok.inj stepped))
        have memory_eq : system.shared = memory := congrArg (·.1) (ok.inj stepped)
        have both := congrArg (bit · index) full
        rw [bit_and, wanted, Bool.and_true] at both
        rw [Interleaved.put_shared, ← memory_eq]
        exact both
    | _ => cases kind_eq

theorem Reached.acks_full (reached : Reached system)
    (done : Kind.waitForMask .ipiAckMask .aps .tlb ∉ left system roster.bsp) :
    system.shared.cells .ipiAckMask = roster.masks.apMask := by
  refine eq_of_bit_eq fun index _ => ?_
  rw [Bool.eq_iff_iff]
  constructor
  · intro set
    obtain ⟨cpu, id_eq, ap⟩ := reached.signers rfl set
    exact (Roster.bit_apMask _).mpr ⟨cpu, ap rfl, id_eq⟩
  · exact reached.all_bits rfl (by decide) (by decide) done

theorem Reached.timer_full (reached : Reached system)
    (done : Kind.waitForMask .timerMask .all .timer ∉ left system roster.bsp) :
    system.shared.cells .timerMask = roster.masks.fullMask := by
  refine eq_of_bit_eq fun index _ => ?_
  rw [Bool.eq_iff_iff]
  constructor
  · intro set
    obtain ⟨cpu, id_eq, _⟩ := reached.signers rfl set
    exact (Roster.bit_fullMask _).mpr ⟨cpu, id_eq⟩
  · exact reached.all_bits rfl (by decide) (by decide) done

end Handlers

section Timer

/-- The handler of a timer interrupt signs the mask before the check of the gate. -/
theorem Reached.gated (reached : Reached system)
    (sent : Kind.interrupt .timer ∉ left system roster.bsp)
    (checks : Kind.check .timerGate ∈ left system roster.bsp) :
    (system.own roster.bsp).machine.handler = some .signing ∨
      bit (system.shared.cells .timerMask) (roster.id roster.bsp).toNat = true := by
  have order {system : Boot roster} (reached : Reached system) := reached.bsp_left
    (motive := fun kinds => Kind.interrupt .timer ∉ kinds → Kind.check .timerGate ∈ kinds →
      kinds.head? ≠ some (.store .timerMask 0)) (by decide)
  refine ((reached.milestone (motive := fun system =>
    Kind.interrupt .timer ∉ left system roster.bsp ∧
      (Kind.check .timerGate ∈ left system roster.bsp →
      (system.own roster.bsp).machine.handler = some .signing ∨
        bit (system.shared.cells .timerMask) (roster.id roster.bsp).toNat = true)) ?_ ?_ ?_ sent).2)
    checks
  · rw [programOf_bsp]
    exact (by decide : Kind.interrupt .timer ∈ bspKinds)
  · intro system mover memory core reached moves ⟨sent, holds⟩
    refine ⟨fun todo => sent (moves.left_subset _ todo), fun checks => ?_⟩
    have before := moves.left_subset _ checks
    rcases holds before with entered | signed
    · by_cases boots : roster.bsp = mover
      · subst boots
        rw [Interleaved.put_own, Interleaved.put_shared]
        cases moves with
        | rested | ticked | cached => exact .inl entered
        | handled handles =>
            rw [entered] at handles
            cases handles
            right
            rw [Handler.step, BootMemory.fetchOr_cells, bit_or, Roster.bit_member]
            simp
        | delivered _ free =>
            rw [entered] at free
            cases free
        | ran runs =>
            have free := runs.free
            rw [entered] at free
            cases free
      · rw [Interleaved.put_own_of_ne boots]
        exact .inl entered
    · exact .inr (reached.bit_kept moves rfl (order reached sent before) signed)
  · intro system statement rest memory machine reached runs kind_eq once
    refine ⟨by rw [runs.left_done]; exact once, fun _ => .inl ?_⟩
    cases statement with
    | interrupt vector =>
        obtain rfl : vector = .timer := by simpa [Statement.kind] using kind_eq
        obtain ⟨chance, stepped⟩ := runs.stepped
        cases stepped
        rw [Interleaved.put_own]
        rfl
    | _ => cases kind_eq

end Timer

/-- Every check of `run` but one succeeds. -/
theorem Reached.check_holds {condition : Check} (reached : Reached system)
    (runs : Runs system cpu (.check condition) rest memory machine next)
    (other : condition ≠ .parallel) : condition.Holds roster.masks system.shared := by
  obtain rfl := reached.eq_bsp runs (by simp [apKinds, apProgram, Statement.kind])
  have order := reached.bsp_left (motive := fun kinds => ∀ condition ∈ [Check.workers, .taskSum,
    .lockEntries, .once], kinds.head? = some (.check condition) →
      Kind.waitForCount .taskDone ∉ kinds) (by decide)
  have gate := reached.bsp_left (motive := fun kinds =>
    kinds.head? = some (.check .timerGate) → Kind.interrupt .timer ∉ kinds) (by decide)
  rw [runs.left_eq] at order gate
  have returned (listed : condition ∈ [Check.workers, .taskSum, .lockEntries, .once]) :
      Kind.waitForCount .taskDone ∉ left system roster.bsp := by
    rw [runs.left_eq]
    exact order condition listed rfl
  cases condition with
  | messageStale => exact reached.stale.1
  | tlbStale => exact reached.stale.2
  | parallel => exact absurd rfl other
  | workers =>
      have full := reached.workers_full (returned (by decide))
      have ones := countOnes_expectedMask roster.facts.mask
      have aps := roster.facts.apCount
      change 1 + requiredApWorkers roster.masks ≤ countOnes (system.shared.cells .taskWorkers)
      rw [full, ones, requiredApWorkers]
      change _ ≤ roster.cpus
      split <;> omega
  | taskSum =>
      have done := returned (by decide)
      exact reached.taskSum (reached.settled_of_returned done) fun cpu =>
        (reached.returned done cpu).1
  | lockEntries =>
      exact (reached.locked fun cpu => (reached.returned (returned (by decide)) cpu).2).1
  | once => exact (reached.locked fun cpu => (reached.returned (returned (by decide)) cpu).2).2
  | timerGate =>
      have sent : Kind.interrupt .timer ∉ left system roster.bsp := by
        rw [runs.left_eq]
        exact gate rfl
      rcases reached.gated sent (runs.left_eq ▸ List.mem_cons_self) with entered | signed
      · have free := runs.free
        rw [entered] at free
        cases free
      · change system.shared.cells .timerMask &&& roster.masks.bspBit ≠ 0
        rw [ne_zero_iff_bit]
        refine ⟨(roster.id roster.bsp).toNat, ?_⟩
        rw [bit_and, signed, Roster.bspBit_eq, Roster.bit_member]
        simp

end Boot

/-- How a statement gives up: a wait has run out, the local APIC stays busy, or no two processors
have been counted in `POST_ACTIVE` at once. -/
inductive Statement.GivesUp {cpus : ℕ} : Statement cpus → PostFirmwareError → Prop
  | mask (cell : Cell) (crew : Crew) (error : PostFirmwareError) :
      GivesUp (.waitForMask cell crew error 0) error
  | count (cell : Cell) (error : PostFirmwareError) : GivesUp (.waitForCount cell error 0) error
  | start (target : Fin cpus) (targets : List (Fin cpus)) :
      GivesUp (.start (target :: targets)) .ipi
  | send (target : Fin cpus) (targets : List (Fin cpus)) : GivesUp (.send (target :: targets)) .ipi
  | broker (missing : Fin cpus) (targets : List (Fin cpus)) :
      GivesUp (.broker (some missing) targets) .ipi
  | armTimer : GivesUp (.armTimer true .sending) .ipi
  | parallel : GivesUp (.check .parallel) .scheduler

theorem Statement.poll_eq_stop {cpus : ℕ} {holds : Prop} [Decidable holds]
    {error given : PostFirmwareError} {again : ℕ → Statement cpus} {polls : ℕ}
    (stops : poll holds error again polls = .stop given) : polls = 0 ∧ error = given := by
  cases polls with
  | zero =>
      cases stops
      exact ⟨rfl, rfl⟩
  | succ polls =>
      rw [poll] at stops
      split at stops <;> cases stops

namespace Boot

open Statement (Kind)

variable {roster : Roster} {system : Boot roster} {cpu : Fin roster.cpus}
  {statement : Statement roster.cpus} {rest : List (Statement roster.cpus)}
  {memory : BootMemory roster.cpus} {machine : Machine} {error : PostFirmwareError}

/-- Only the processor that boots heeds the error of `arm_timer`. -/
theorem Reached.heeded (reached : Reached system) (cpu : Fin roster.cpus) :
    ∀ statement ∈ (system.own cpu).program, ∀ heeded armer, statement = .armTimer heeded armer →
      heeded = decide (cpu = roster.bsp) := by
  refine reached.invariant (motive := fun system => ∀ statement ∈ (system.own cpu).program,
    ∀ heeded armer, statement = .armTimer heeded armer → heeded = decide (cpu = roster.bsp)) ?_ ?_
  · change ∀ statement ∈ programOf roster cpu, _
    by_cases boots : cpu = roster.bsp
    · subst boots
      rw [programOf_bsp]
      simp [bspProgram]
    · rw [programOf_ap boots]
      simp [apProgram, boots]
  · intro system mover memory core reached holds moves
    by_cases same : cpu = mover
    swap
    · rw [Interleaved.put_own_of_ne same]
      exact holds
    subst same
    rw [Interleaved.put_own]
    rcases moves.runs_or_aside with ⟨statement, rest, machine, next, runs, rfl⟩ | aside
    swap
    · rw [aside.program]
      exact holds
    refine runs.forall_follow holds ?_
    rintro next rfl heeded armer rfl
    have front := holds statement (runs.front ▸ List.mem_cons_self)
    have same := runs.confined.kind _ rfl
    cases statement with
    | armTimer current_heeded current =>
        refine (?_ : heeded = current_heeded).trans (front current_heeded current rfl)
        obtain ⟨chance, stepped⟩ := runs.stepped
        cases current with
        | arming | counting =>
            cases stepped
            rfl
        | checking =>
            have next_eq := congrArg (·.2.2) (ok.inj stepped)
            simp only at next_eq
            split at next_eq <;> cases next_eq
            rfl
        | sending =>
            have next_eq := congrArg (·.2.2) (ok.inj stepped)
            simp only at next_eq
            split at next_eq <;> cases next_eq
    | _ => cases same

theorem Reached.gives_up_check {condition : Check} (reached : Reached system)
    (runs : Runs system cpu (.check condition) rest memory machine (.stop error)) :
    (Statement.check condition : Statement roster.cpus).GivesUp error := by
  obtain ⟨chance, stepped⟩ := runs.stepped
  have next_eq := congrArg (·.2.2) (ok.inj stepped)
  by_cases parallel : condition = .parallel
  · subst parallel
    simp only at next_eq
    split at next_eq <;> cases next_eq
    exact .parallel
  · simp only [if_pos (reached.check_holds runs parallel)] at next_eq
    cases next_eq

theorem Runs.gives_up_armTimer {heeded : Bool} {armer : Armer}
    (runs : Runs system cpu (.armTimer heeded armer) rest memory machine (.stop error)) :
    (Statement.armTimer heeded armer : Statement roster.cpus).GivesUp error := by
  obtain ⟨chance, stepped⟩ := runs.stepped
  cases armer with
  | arming | counting => cases stepped
  | checking =>
      have next_eq := congrArg (·.2.2) (ok.inj stepped)
      simp only at next_eq
      split at next_eq <;> cases next_eq
  | sending =>
      have next_eq := congrArg (·.2.2) (ok.inj stepped)
      simp only at next_eq
      split at next_eq
      · rename_i fails
        obtain rfl : heeded = true := fails.2
        cases next_eq
        exact .armTimer
      · cases next_eq

/-- An operation that stops a processor is one of these. -/
theorem Reached.gives_up (reached : Reached system)
    (runs : Runs system cpu statement rest memory machine (.stop error)) :
    statement.GivesUp error := by
  obtain ⟨chance, stepped⟩ := runs.stepped
  cases statement with
  | waitForMask | waitForCount =>
      obtain ⟨rfl, rfl⟩ := Statement.poll_eq_stop (congrArg (·.2.2) (ok.inj stepped))
      first | exact .mask _ _ _ | exact .count _ _
  | check => exact reached.gives_up_check runs
  | armTimer => exact runs.gives_up_armTimer
  | swapStale =>
      have next_eq := congrArg (·.2.2) (ok.inj stepped)
      simp [reached.stale.2] at next_eq
  | sleep | await =>
      have next_eq := congrArg (·.2.2) (ok.inj stepped)
      simp only at next_eq
      split at next_eq <;> cases next_eq
  | start targets =>
      cases targets with
      | nil => cases stepped
      | cons target targets =>
          cases runs.starts
          exact .start _ _
  | send targets =>
      cases targets with
      | nil => cases stepped
      | cons target targets =>
          cases runs.sends
          exact .send _ _
  | broker missing targets =>
      cases missing with
      | some missing =>
          cases runs.brokers
          exact .broker _ _
      | none => cases targets <;> cases stepped
  | lock =>
      obtain ⟨⟨counters, moved⟩, _, stepped⟩ := bind_eq_ok.mp stepped
      cases moved <;> cases stepped
  | tasks worker =>
      have next_eq := congrArg (·.2.2) (ok.inj stepped)
      generalize (worker.step chance.spurious system.shared.tasks).2 = moved at next_eq
      cases worker <;> cases moved <;> cases next_eq
  | message messenger => cases messenger <;> cases stepped
  | probe expected mask prober => cases prober <;> cases stepped
  | _ => cases stepped

/-- Only the processor that boots stops, and for one of these reasons. -/
theorem Reached.stopped (reached : Reached system)
    (stopped : (system.own cpu).stopped = some error) :
    cpu = roster.bsp ∧ ∃ statement rest, (system.own cpu).program = statement :: rest ∧
      statement.GivesUp error := by
  refine reached.invariant (motive := fun system => (system.own cpu).stopped = some error →
    cpu = roster.bsp ∧ ∃ statement rest, (system.own cpu).program = statement :: rest ∧
      statement.GivesUp error) (by rintro ⟨⟩) ?_ stopped
  intro system mover memory core reached holds moves stopped
  by_cases same : cpu = mover
  swap
  · rw [Interleaved.put_own_of_ne same] at stopped ⊢
    exact holds stopped
  subst same
  rw [Interleaved.put_own] at stopped ⊢
  rcases moves.runs_or_aside with ⟨statement, rest, machine, next, runs, rfl⟩ | aside
  swap
  · rw [aside.stopped] at stopped
    rw [aside.program]
    exact holds stopped
  cases next with
  | stay | done =>
      have running := runs.running
      rw [Core.follow, running] at stopped
      cases stopped
  | stop reason =>
      obtain rfl : reason = error := by simpa [Core.follow] using stopped
      have gives_up := reached.gives_up runs
      refine ⟨?_, statement, rest, runs.front, gives_up⟩
      by_contra ap
      have listed := reached.ap_kind runs ap
      cases gives_up with
      | armTimer =>
          have heeded := reached.heeded cpu _ (runs.front ▸ List.mem_cons_self) true .sending rfl
          simp [ap] at heeded
      | _ => simp [apKinds, apProgram, Statement.kind] at listed

end Boot

end Bulla.Platform
