import Bulla.Platform.BootTasks

/-!
# How the processors of a boot meet

Processors sign the masks of the protocol with their own bits, and the processor that boots waits
for all of them.  At every moment a mask shows exactly those that have signed it.  So when a wait
for a mask ends, everybody is past the statement that signs it.
-/

namespace Bulla.Platform

open Rust Outcome

/-- The masks that every processor signs once. -/
def Cell.isRegister : Cell → Bool
  | .cpuLocalMask | .onlineMask | .messageMask | .taskWorkers | .tlbPreMask | .tlbPostMask => true
  | _ => false

namespace Worker

/-- Is not yet on the list of the workers. -/
def unlisted : Worker → Bool
  | .start | .seeded _ | .adding _ _ => true
  | _ => false

theorem listed_entered (seedTask expectedWorkers : UInt64) :
    (entered seedTask expectedWorkers).unlisted = false := by
  unfold entered
  split <;> rfl

theorem listed_observed (seedTask expectedWorkers candidate current : UInt64) :
    (observed seedTask expectedWorkers candidate current).unlisted = false := by
  unfold observed
  split
  · rfl
  · exact listed_entered seedTask expectedWorkers

/-- A processor stays on the list. -/
theorem listed_step {worker : Worker} (listed : worker.unlisted = false) (spurious : Bool)
    (counters : TaskCounters) : (worker.step spurious counters).2.unlisted = false := by
  cases worker with
  | start | seeded | adding => cases listed
  | observing => exact listed_observed _ _ _ _
  | raising =>
      simp only [step]
      split
      · exact listed_entered _ _
      · exact listed_observed _ _ _ _
  | waiting | claiming =>
      simp only [step]
      split <;> rfl
  | entering | opening | working | leaving | returned => rfl

end Worker

namespace Statement

variable {cpus : ℕ}

/-- Has yet to sign a mask. -/
def signs (cell : Cell) : Statement cpus → Bool
  | .fetchOr signed => signed = cell
  | .storeBit signed => signed = cell
  | .message _ => cell = .messageMask
  | .tasks worker => cell = .taskWorkers && worker.unlisted
  | .enlist _ _ => cell = .taskWorkers
  | .probe _ mask _ => mask = cell
  | _ => false

/-- A kind of statement that signs a mask. -/
def Kind.signs (cell : Cell) : Kind → Bool
  | .fetchOr signed => signed = cell
  | .storeBit signed => signed = cell
  | .message => cell = .messageMask
  | .tasks => cell = .taskWorkers
  | .probe _ mask => mask = cell
  | _ => false

theorem kind_signs {statement : Statement cpus} {cell : Cell}
    (signs : statement.signs cell = true) :
    statement.kind.signs cell = true := by
  cases statement <;> simp_all [Statement.signs, kind, Kind.signs]

end Statement

/-- What has yet to sign a mask after an operation. -/
def Next.signs {cpus : ℕ} (cell : Cell) (statement : Statement cpus) : Next cpus → Bool
  | .stay next => next.signs cell
  | .done => false
  | .stop _ => statement.signs cell

namespace Statement

variable {roster : Roster} {cpu : Fin roster.cpus} {chance : Chance}
  {before after : BootMemory roster.cpus} {machine moved : Machine}
  {statement : Statement roster.cpus} {next : Next roster.cpus} {cell : Cell}

theorem writes_of_signs (signs : statement.signs cell = true) :
    statement.kind.writes cell = true := by
  cases statement <;> simp_all [Statement.signs, kind, Kind.writes]

/-- How an operation leaves a mask and what has yet to sign it. -/
structure Signs (statement : Statement roster.cpus) (cpu : Fin roster.cpus) (cell : Cell)
    (before after : BootMemory roster.cpus) (next : Next roster.cpus) : Prop where
  was : statement.signs cell = true
  is : next.signs cell statement = false
  bits : after.cells cell = before.cells cell ||| roster.member cpu ∨
    statement = .storeBit cell ∧ after.cells cell = roster.member cpu

theorem signs_tasks {worker : Worker} {counters : TaskCounters} {spurious : Bool}
    (seeded : ∀ seedTask, worker = .seeded seedTask → ¬seedTask ≥ counters.expectedWorkers) :
    (afterTask worker (worker.step spurious counters).2 : Next roster.cpus).signs cell
        (.tasks worker) =
      (Statement.tasks worker : Statement roster.cpus).signs cell := by
  cases unlisted : worker.unlisted with
  | false =>
      have listed := Worker.listed_step unlisted spurious counters
      generalize (worker.step spurious counters).2 = moved at listed
      cases worker <;> cases moved <;> simp_all [afterTask, Next.signs, signs, Worker.unlisted]
  | true =>
      cases worker with
      | seeded seedTask =>
          simp [Worker.step, seeded seedTask rfl, afterTask, Next.signs, signs, Worker.unlisted]
      | start | adding => simp [Worker.step, afterTask, Next.signs, signs, Worker.unlisted]
      | _ => cases unlisted

theorem poll_eq_done {holds : Prop} [Decidable holds] {error : PostFirmwareError}
    {again : ℕ → Statement roster.cpus} {polls : ℕ} (ended : poll holds error again polls = .done) :
    holds := by
  cases polls with
  | zero => cases ended
  | succ polls =>
      by_contra unmet
      rw [poll, if_neg unmet] at ended
      cases ended

theorem kind_eq_fetchAdd : statement.kind = .fetchAdd cell ↔ statement = .fetchAdd cell := by
  cases statement <;> simp [kind]

theorem signs_of_unwritten
    (stepped : statement.step roster cpu chance before machine = .ok (after, moved, next))
    (writes : statement.kind.writes cell = false) :
    next.signs cell statement = statement.signs cell := by
  have quiet {other : Statement roster.cpus} (same : other.kind = statement.kind) :
      other.signs cell = false := by
    by_contra signs
    have written := writes_of_signs (Bool.eq_true_of_not_eq_false signs)
    rw [same, writes] at written
    cases written
  rw [quiet rfl]
  cases next with
  | stay next => exact quiet ((confined_step stepped).kind next rfl)
  | done => rfl
  | stop error => exact quiet rfl

theorem signs_message {messenger : Messenger}
    (stepped : (message messenger).step roster cpu chance before machine =
      .ok (after, moved, next)) :
    (after.cells .messageMask = before.cells .messageMask ∧
        next.signs .messageMask (message messenger) =
          (message messenger : Statement roster.cpus).signs .messageMask) ∨
      Signs (message messenger) cpu .messageMask before after next := by
  cases messenger with
  | polling | reading =>
      cases stepped
      exact .inl ⟨rfl, rfl⟩
  | reporting =>
      cases stepped
      exact .inl ⟨BootMemory.put_cells_of_ne (by decide), rfl⟩
  | marking =>
      cases stepped
      exact .inr ⟨rfl, rfl, .inl (by simp)⟩

theorem signs_probe {expected : TestPage} {mask : Cell} {prober : Prober}
    (stepped : (probe expected mask prober).step roster cpu chance before machine =
      .ok (after, moved, next))
    (register : mask.isRegister = true) :
    (after.cells mask = before.cells mask ∧
        next.signs mask (probe expected mask prober) =
          (probe expected mask prober : Statement roster.cpus).signs mask) ∨
      Signs (probe expected mask prober) cpu mask before after next := by
  cases prober with
  | reading | storing =>
      cases stepped
      exact .inl ⟨rfl, rfl⟩
  | reporting =>
      cases stepped
      refine .inl ⟨BootMemory.put_cells_of_ne ?_, rfl⟩
      rintro rfl
      cases register
  | marking =>
      cases stepped
      exact .inr ⟨by simp [signs], rfl, .inl (by simp)⟩

/-- An operation leaves a mask alone, or signs it. -/
theorem signs_step
    (stepped : statement.step roster cpu chance before machine = .ok (after, moved, next))
    (register : cell.isRegister = true) (adds : statement ≠ .fetchAdd cell)
    (stores : ∀ value, statement ≠ .store cell value)
    (seeded : ∀ seedTask, statement = .tasks (.seeded seedTask) →
      ¬seedTask ≥ before.tasks.expectedWorkers) :
    (after.cells cell = before.cells cell ∧ next.signs cell statement = statement.signs cell) ∨
      Signs statement cpu cell before after next := by
  cases writes : statement.kind.writes cell with
  | false =>
      exact .inl ⟨(confined_step stepped).cells cell writes, signs_of_unwritten stepped writes⟩
  | true =>
      cases statement with
      | fetchOr signed =>
          obtain rfl : signed = cell := by simpa [kind, Kind.writes] using writes
          cases stepped
          exact .inr ⟨by simp [signs], rfl, .inl (by simp)⟩
      | storeBit signed =>
          obtain rfl : signed = cell := by simpa [kind, Kind.writes] using writes
          cases stepped
          exact .inr ⟨by simp [signs], rfl, .inr ⟨rfl, by simp⟩⟩
      | fetchAdd added =>
          obtain rfl : added = cell := by simpa [kind, Kind.writes] using writes
          exact absurd rfl adds
      | store stored value =>
          obtain rfl : stored = cell := by simpa [kind, Kind.writes] using writes
          exact absurd rfl (stores value)
      | message messenger =>
          obtain rfl : cell = .messageMask := by
            cases cell <;> simp_all [kind, Kind.writes, Cell.isRegister]
          exact signs_message stepped
      | tasks worker =>
          cases stepped
          exact .inl ⟨rfl, signs_tasks fun seedTask same => seeded seedTask (by rw [same])⟩
      | enlist seedTask expectedWorkers =>
          obtain rfl : cell = .taskWorkers := by simpa [kind, Kind.writes] using writes
          cases stepped
          exact .inr ⟨rfl, rfl, .inl (by simp)⟩
      | probe expected mask prober =>
          obtain rfl : cell = mask := by
            cases cell <;> simp_all [kind, Kind.writes, Cell.isRegister]
          exact signs_probe stepped register
      | swapStale | armTimer => cases cell <;> simp_all [kind, Kind.writes, Cell.isRegister]
      | _ => cases writes

end Statement

namespace Boot

open Statement (Kind)

variable {roster : Roster} {system : Boot roster} {cpu other : Fin roster.cpus} {cell : Cell}
  {statement : Statement roster.cpus} {rest program : List (Statement roster.cpus)}
  {memory : BootMemory roster.cpus} {core : Core roster.cpus} {machine : Machine}
  {next : Next roster.cpus}

/-- A processor has signed a mask when nothing that is left would sign it. -/
def Signed (system : Boot roster) (cell : Cell) (cpu : Fin roster.cpus) : Prop :=
  ∀ statement ∈ (system.own cpu).program, statement.signs cell = false


theorem signed_put_of_ne (distinct : other ≠ cpu) :
    Signed (system.put cpu memory core) cell other ↔ Signed system cell other := by
  rw [Signed, Interleaved.put_own_of_ne distinct, Signed]

theorem Runs.signed_iff (runs : Runs system cpu statement rest memory machine next) :
    Signed system cell cpu ↔
      statement.signs cell = false ∧ ∀ other ∈ rest, other.signs cell = false := by
  rw [Signed, runs.front, List.forall_mem_cons]

theorem Runs.signed_put_iff (runs : Runs system cpu statement rest memory machine next) :
    Signed (system.put cpu memory ((system.own cpu).follow machine next)) cell cpu ↔
      next.signs cell statement = false ∧ ∀ other ∈ rest, other.signs cell = false := by
  rw [Signed, Interleaved.put_own]
  cases next with
  | stay next => rw [Core.follow, runs.front, List.tail_cons, List.forall_mem_cons, Next.signs]
  | done => simp [Core.follow, runs.front, Next.signs]
  | stop error => rw [Core.follow, runs.front, List.forall_mem_cons, Next.signs]

/-- The masks that every processor signs once. -/
def registers : List Cell :=
  [.cpuLocalMask, .onlineMask, .messageMask, .taskWorkers, .tlbPreMask, .tlbPostMask]

theorem mem_registers : cell ∈ registers ↔ cell.isRegister = true := by
  cases cell <;> decide

/-- No program signs a mask twice. -/
theorem Reached.signs_once (reached : Reached system) (register : cell.isRegister = true)
    (runs : Runs system cpu statement rest memory machine next)
    (signs : statement.signs cell = true) : ∀ later ∈ rest, later.signs cell = false := by
  have once : ∀ later ∈ (left system cpu).tail, later.signs cell = false := by
    have front : ((left system cpu).head?.any (Kind.signs cell)) = true := by
      rw [runs.left_eq]
      exact Statement.kind_signs signs
    by_cases boots : cpu = roster.bsp
    · subst boots
      exact reached.bsp_left (motive := fun kinds => ∀ cell ∈ registers,
        kinds.head?.any (Kind.signs cell) = true → ∀ later ∈ kinds.tail, later.signs cell = false)
        (by decide) cell (mem_registers.mpr register) front
    · exact reached.ap_left boots (motive := fun kinds => ∀ cell ∈ registers,
        kinds.head?.any (Kind.signs cell) = true → ∀ later ∈ kinds.tail, later.signs cell = false)
        (by decide) cell (mem_registers.mpr register) front
  intro later member
  rw [runs.left_eq, List.tail_cons] at once
  have quiet := once _ (List.mem_map_of_mem member)
  by_contra signs
  rw [Statement.kind_signs (Bool.eq_true_of_not_eq_false signs)] at quiet
  cases quiet

/-- A processor that still has to sign has not signed. -/
theorem not_signed {kind : Kind} (todo : kind ∈ left system cpu)
    (signs : ∀ statement : Statement roster.cpus, statement.kind = kind →
      statement.signs cell = true) : ¬Signed system cell cpu := by
  obtain ⟨statement, member, same⟩ := List.mem_map.mp todo
  intro signed
  have unsigned := signed statement member
  rw [signs statement same] at unsigned
  cases unsigned

/-- Nobody is online before the processor that boots has set up the mask. -/
theorem Reached.none_online (reached : Reached system)
    (todo : Kind.storeBit .onlineMask ∈ left system roster.bsp) (cpu : Fin roster.cpus) :
    ¬Signed system .onlineMask cpu := by
  by_cases boots : cpu = roster.bsp
  · subst boots
    refine not_signed todo fun statement same => ?_
    cases statement <;> simp_all [Statement.kind, Statement.signs]
  · have asleep : Kind.sleep ∈ left system cpu := by
      by_contra awake
      exact reached.past_sleep boots awake todo
    have online := reached.ap_left boots (motive := fun kinds => Kind.sleep ∈ kinds →
      Kind.fetchOr .onlineMask ∈ kinds) (by decide) asleep
    refine not_signed online fun statement same => ?_
    cases statement <;> simp_all [Statement.kind, Statement.signs]

/-- Nobody has begun with the tasks before their counters are set up. -/
theorem Reached.none_working (reached : Reached system)
    (todo : Kind.store .taskWorkers 0 ∈ left system roster.bsp) (cpu : Fin roster.cpus) :
    ¬Signed system .taskWorkers cpu := by
  have waits : Kind.tasks ∈ (left system cpu).tail := by
    by_cases boots : cpu = roster.bsp
    · subst boots
      exact reached.bsp_left (motive := fun kinds => Kind.store .taskWorkers 0 ∈ kinds →
        Kind.tasks ∈ kinds.tail) (by decide) todo
    · have phase := reached.bsp_left (motive := fun kinds => Kind.store .taskWorkers 0 ∈ kinds →
        Kind.store .phase 1 ∈ kinds) (by decide) todo
      have awaits : Kind.await .phase 1 ∈ left system cpu := by
        by_contra passed
        exact (reached.past_await boots).1 passed phase
      exact reached.ap_left boots (motive := fun kinds => Kind.await .phase 1 ∈ kinds →
        Kind.tasks ∈ kinds.tail) (by decide) awaits
  rw [left, ← List.map_tail] at waits
  obtain ⟨statement, member, same⟩ := List.mem_map.mp waits
  have written : statement ∈ programOf roster cpu := (reached.agenda cpu).mem_program member
  have begins : statement = .tasks .start := by
    unfold programOf at written
    split at written
    · exact (by simp [bspProgram, Statement.kind] : ∀ statement ∈ bspProgram roster.aps,
        statement.kind = .tasks → statement = .tasks .start) statement written same
    · exact (by simp [apProgram, Statement.kind] : ∀ statement ∈ apProgram roster.cpus,
        statement.kind = .tasks → statement = .tasks .start) statement written same
  intro signed
  have unsigned := signed statement (List.mem_of_mem_tail member)
  rw [begins] at unsigned
  cases unsigned

/-- A mask that nobody has signed is empty. -/
theorem cells_eq_zero (holds : ∀ index, bit (system.shared.cells cell) index = true ↔
      ∃ cpu, (roster.id cpu).toNat = index ∧ Signed system cell cpu)
    (none : ∀ cpu, ¬Signed system cell cpu) : system.shared.cells cell = 0 := by
  refine eq_of_bit_eq fun index _ => ?_
  rw [bit_zero, Bool.eq_false_iff, Ne, holds]
  rintro ⟨cpu, _, signed⟩
  exact none cpu signed

theorem Aside.signed_iff (aside : Aside system cpu memory core) :
    Signed (system.put cpu memory core) cell other ↔ Signed system cell other := by
  by_cases same : other = cpu
  · subst same
    rw [Signed, Interleaved.put_own, aside.program, Signed]
  · exact signed_put_of_ne same

/-- A statement leaves a mask alone, or signs it. -/
theorem Reached.signs_cases (reached : Reached system) (register : cell.isRegister = true)
    (runs : Runs system cpu statement rest memory machine next)
    (holds : ∀ index, bit (system.shared.cells cell) index = true ↔
      ∃ cpu, (roster.id cpu).toNat = index ∧ Signed system cell cpu) :
    (memory.cells cell = system.shared.cells cell ∧
        next.signs cell statement = statement.signs cell) ∨
      Statement.Signs statement cpu cell system.shared memory next := by
  obtain ⟨chance, stepped⟩ := runs.stepped
  by_cases stores : ∃ value, statement = .store cell value
  · -- The list of the workers is cleared when nobody is on it.
    obtain ⟨value, rfl⟩ := stores
    have foreign : (Statement.store cell value : Statement roster.cpus).kind ∉ apKinds := by
      intro listed
      simp [apKinds, apProgram, Statement.kind] at listed
    obtain rfl := reached.eq_bsp runs foreign
    have clears : cell = .taskWorkers ∧ value = 0 := by
      have listed := reached.bsp_kind runs
      cases cell <;> simp_all [bspKinds, bspProgram, Statement.kind, Cell.isRegister]
    obtain ⟨rfl, rfl⟩ := clears
    have todo : Kind.store .taskWorkers 0 ∈ left system roster.bsp := by
      rw [runs.left_eq]
      exact List.mem_cons_self
    have empty := cells_eq_zero holds (reached.none_working todo)
    cases stepped
    exact .inl ⟨by rw [empty, BootMemory.put_cells], rfl⟩
  · refine Statement.signs_step stepped register ?_ (fun value same => stores ⟨value, same⟩) ?_
    · rintro rfl
      have listed : Kind.fetchAdd cell ∈ apKinds ++ bspKinds := reached.kind_mem runs
      revert listed
      cases cell <;> first | decide | cases register
    · rintro seedTask rfl
      exact reached.seeded runs

/-- The mask of the processors that are online is set up when nobody is. -/
theorem Reached.empty_of_storeBit (reached : Reached system) (register : cell.isRegister = true)
    (runs : Runs system cpu (.storeBit cell) rest memory machine next)
    (holds : ∀ index, bit (system.shared.cells cell) index = true ↔
      ∃ cpu, (roster.id cpu).toNat = index ∧ Signed system cell cpu) :
    system.shared.cells cell = 0 := by
  have foreign : (Statement.storeBit cell : Statement roster.cpus).kind ∉ apKinds := by
    intro listed
    simp [apKinds, apProgram, Statement.kind] at listed
  obtain rfl := reached.eq_bsp runs foreign
  obtain rfl : cell = .onlineMask := by
    have listed := reached.bsp_kind runs
    cases cell <;> simp_all [bspKinds, bspProgram, Statement.kind, Cell.isRegister]
  have todo : Kind.storeBit .onlineMask ∈ left system roster.bsp := by
    rw [runs.left_eq]
    exact List.mem_cons_self
  exact cells_eq_zero holds (reached.none_online todo)

/-- A mask shows exactly who has signed it. -/
theorem Reached.bits (reached : Reached system) (register : cell.isRegister = true) (index : ℕ) :
    bit (system.shared.cells cell) index = true ↔
      ∃ cpu, (roster.id cpu).toNat = index ∧ Signed system cell cpu := by
  refine reached.invariant (motive := fun system => ∀ index,
    bit (system.shared.cells cell) index = true ↔
      ∃ cpu, (roster.id cpu).toNat = index ∧ Signed system cell cpu) ?_ ?_ index
  · intro index
    have unsigned (cpu : Fin roster.cpus) : ¬Signed (start roster) cell cpu := by
      intro signed
      have signs : (programOf roster cpu).any (Statement.signs cell) = true := by
        unfold programOf
        split <;> cases cell <;> first | rfl | cases register
      obtain ⟨statement, member, signs⟩ := List.any_eq_true.mp signs
      rw [signed statement member] at signs
      cases signs
    have empty : (start roster).shared.cells cell = 0 := rfl
    simp [empty, unsigned]
  · intro system mover memory core reached holds moves index
    rw [Interleaved.put_shared]
    rcases moves.runs_or_aside with ⟨statement, rest, machine, next, runs, rfl⟩ | aside
    · rcases reached.signs_cases register runs holds with ⟨cells_eq, signs_eq⟩ | signs
      · have same (cpu : Fin roster.cpus) :
            Signed (system.put mover memory ((system.own mover).follow machine next)) cell cpu ↔
              Signed system cell cpu := by
          by_cases moved : cpu = mover
          · subst moved
            rw [runs.signed_put_iff, runs.signed_iff, signs_eq]
          · exact signed_put_of_ne moved
        simp only [cells_eq, holds, same]
      · have bits_eq : memory.cells cell = system.shared.cells cell ||| roster.member mover := by
          rcases signs.bits with bits_eq | ⟨rfl, bits_eq⟩
          · exact bits_eq
          · rw [bits_eq, reached.empty_of_storeBit register runs holds, UInt64.zero_or]
        have signed_iff (cpu : Fin roster.cpus) :
            Signed (system.put mover memory ((system.own mover).follow machine next)) cell cpu ↔
              Signed system cell cpu ∨ cpu = mover := by
          by_cases moved : cpu = mover
          · subst moved
            rw [runs.signed_put_iff]
            exact iff_of_true ⟨signs.is, reached.signs_once register runs signs.was⟩ (.inr rfl)
          · rw [signed_put_of_ne moved, or_iff_left moved]
        simp only [bits_eq, bit_or, Roster.bit_member, Bool.or_eq_true, decide_eq_true_eq, holds,
          signed_iff]
        constructor
        · rintro (⟨cpu, id_eq, signed⟩ | id_eq)
          · exact ⟨cpu, id_eq, .inl signed⟩
          · exact ⟨mover, id_eq, .inr rfl⟩
        · rintro ⟨cpu, id_eq, signed | rfl⟩
          · exact .inl ⟨cpu, id_eq, signed⟩
          · exact .inr id_eq
    · have plain : cell ≠ .ipiAckMask ∧ cell ≠ .timerMask := by
        constructor <;> rintro rfl <;> cases register
      simp only [aside.cells cell plain.1 plain.2, holds, aside.signed_iff]

/-- Who has signed a mask has signed it for good. -/
theorem Reached.signed_put (reached : Reached system) (register : cell.isRegister = true)
    {mover : Fin roster.cpus} (moves : Moves system mover memory core)
    (signed : Signed system cell cpu) : Signed (system.put mover memory core) cell cpu := by
  rcases moves.runs_or_aside with ⟨statement, rest, machine, next, runs, rfl⟩ | aside
  · by_cases moved : cpu = mover
    · subst moved
      rw [runs.signed_put_iff]
      rw [runs.signed_iff] at signed
      refine ⟨?_, signed.2⟩
      rcases reached.signs_cases register runs (reached.bits register) with ⟨_, same⟩ | signs
      · exact same.trans signed.1
      · exact signs.is
    · exact (signed_put_of_ne moved).mpr signed
  · exact aside.signed_iff.mpr signed

/-- When a wait for a mask of all processors ends, all have signed it. -/
theorem Reached.all_signed (reached : Reached system) (register : cell.isRegister = true)
    {error : PostFirmwareError} (written : Kind.waitForMask cell .all error ∈ bspKinds)
    (done : Kind.waitForMask cell .all error ∉ left system roster.bsp) (cpu : Fin roster.cpus) :
    Signed system cell cpu := by
  refine reached.milestone (motive := fun system => Signed system cell cpu) ?_ ?_ ?_ done
  · rw [programOf_bsp]
    exact written
  · exact fun _ _ _ _ reached moves signed => reached.signed_put register moves signed
  · intro system statement rest memory machine reached runs kind_eq _
    refine reached.signed_put register (.ran runs) ?_
    cases statement with
    | waitForMask waited crew _ polls =>
        obtain ⟨rfl, rfl, _⟩ : waited = cell ∧ crew = .all ∧ _ = error := by
          simpa [Statement.kind] using kind_eq
        obtain ⟨chance, stepped⟩ := runs.stepped
        have full := Statement.poll_eq_done (congrArg (·.2.2) (ok.inj stepped))
        have bit_full : bit (system.shared.cells waited) (roster.id cpu).toNat = true := by
          have wanted : bit roster.masks.fullMask (roster.id cpu).toNat = true :=
            (Roster.bit_fullMask _).mpr ⟨cpu, rfl⟩
          have both := congrArg (bit · (roster.id cpu).toNat) full
          rw [Crew.mask, bit_and, wanted, Bool.and_true] at both
          exact both
        obtain ⟨signer, id_eq, signed⟩ := (reached.bits register _).mp bit_full
        rwa [Roster.id_inj.mp (UInt32.toNat_inj.mp id_eq)] at signed
    | _ => cases kind_eq

section Counters

/-- One for a processor that has counted itself. -/
def counted (cell : Cell) (core : Core roster.cpus) : ℕ :=
  if Kind.fetchAdd cell ∈ core.program.map Statement.kind then 0 else 1

theorem counted_le_one (core : Core roster.cpus) : counted cell core ≤ 1 := by
  unfold counted
  split <;> omega

theorem counted_eq_one :
    counted cell (system.own cpu) = 1 ↔ Kind.fetchAdd cell ∉ left system cpu := by
  rw [counted, ← left]
  split <;> simp_all

/-- The processor that boots does not count itself. -/
theorem Reached.counted_bsp (reached : Reached system) :
    Kind.fetchAdd cell ∉ left system roster.bsp := by
  refine reached.bsp_left (motive := fun kinds => Kind.fetchAdd cell ∉ kinds) ?_
  cases cell <;> decide

theorem Reached.tally_eq_one (reached : Reached system)
    (todo : ∀ cpu, cpu ≠ roster.bsp → Kind.fetchAdd cell ∈ left system cpu) :
    system.tally (counted cell) = 1 := by
  have others (cpu : Fin roster.cpus) (ap : cpu ≠ roster.bsp) :
      counted cell (system.own cpu) = 0 := if_pos (todo cpu ap)
  rw [Interleaved.tally, Finset.sum_eq_single roster.bsp (fun cpu _ ap => others cpu ap)
    (fun absent => absurd (Finset.mem_univ _) absent)]
  exact counted_eq_one.mpr reached.counted_bsp

/-- Nobody is done before the counters are set up. -/
theorem Reached.none_done (reached : Reached system)
    (todo : Kind.store .taskDone 0 ∈ left system roster.bsp) :
    system.tally (counted .taskDone) = 1 := by
  refine reached.tally_eq_one fun cpu ap => ?_
  have phase := reached.bsp_left (motive := fun kinds => Kind.store .taskDone 0 ∈ kinds →
    Kind.store .phase 1 ∈ kinds) (by decide) todo
  have awaits : Kind.await .phase 1 ∈ left system cpu := by
    by_contra passed
    exact (reached.past_await ap).1 passed phase
  exact reached.ap_left ap (motive := fun kinds => Kind.await .phase 1 ∈ kinds →
    Kind.fetchAdd .taskDone ∈ kinds) (by decide) awaits

/-- A processor counts itself. -/
theorem Reached.counted_fetchAdd (reached : Reached system)
    (runs : Runs system cpu (.fetchAdd cell) rest memory machine next) :
    counted cell (system.own cpu) = 0 ∧
      counted cell ((system.own cpu).follow machine next) = 1 ∧
      memory.cells cell = system.shared.cells cell + 1 := by
  have ap : cpu ≠ roster.bsp := by
    rintro rfl
    exact reached.counted_bsp (runs.left_eq ▸ List.mem_cons_self)
  have once := reached.ap_left ap (motive := fun kinds =>
    kinds.head? = some (.fetchAdd cell) → Kind.fetchAdd cell ∉ kinds.tail)
    (by cases cell <;> decide)
  rw [runs.left_eq] at once
  obtain ⟨chance, stepped⟩ := runs.stepped
  cases stepped
  refine ⟨if_pos (by rw [← left, runs.left_eq]; exact List.mem_cons_self), if_neg ?_, by simp⟩
  rw [Core.follow, runs.front, List.tail_cons]
  exact once rfl

/-- Any other statement leaves the count alone. -/
theorem Runs.counted_follow (runs : Runs system cpu statement rest memory machine next)
    (other : statement.kind ≠ .fetchAdd cell) :
    counted cell ((system.own cpu).follow machine next) = counted cell (system.own cpu) := by
  have same : Kind.fetchAdd cell ∈
        ((system.own cpu).follow machine next).program.map Statement.kind ↔
      Kind.fetchAdd cell ∈ (system.own cpu).program.map Statement.kind := by
    cases next with
    | stay next =>
        rw [Core.follow, runs.front, List.tail_cons, List.map_cons, List.map_cons,
          runs.confined.kind next rfl]
    | done => simp [Core.follow, runs.front, Ne.symm other]
    | stop error => rfl
  simp only [counted, same]

/-- Only the processor that boots resets the counters. -/
theorem Reached.resets (reached : Reached system) (counter : cell = .ready ∨ cell = .taskDone)
    (runs : Runs system cpu statement rest memory machine next)
    (other : statement.kind ≠ .fetchAdd cell) (writes : statement.kind.writes cell = true) :
    statement = .store cell 0 ∧ cpu = roster.bsp := by
  by_cases boots : cpu = roster.bsp
  · subst boots
    have resets : statement.kind = .store cell 0 := by
      have listed := reached.bsp_kind runs
      rcases counter with rfl | rfl
      · exact (by decide : ∀ kind ∈ bspKinds, kind.writes .ready = true →
          kind = .store .ready 0) _ listed writes
      · exact (by decide : ∀ kind ∈ bspKinds, kind.writes .taskDone = true →
          kind = .store .taskDone 0) _ listed writes
    exact ⟨Statement.kind_eq_store.mp resets, rfl⟩
  · have listed := reached.ap_kind runs boots
    rcases counter with rfl | rfl
    · exact absurd ((by decide : ∀ kind ∈ apKinds, kind.writes .ready = true →
        kind = .fetchAdd .ready) _ listed writes) other
    · exact absurd ((by decide : ∀ kind ∈ apKinds, kind.writes .taskDone = true →
        kind = .fetchAdd .taskDone) _ listed writes) other

/-- The counters show how many processors have counted themselves, `POST_READY` until it is used
no more. -/
theorem Reached.counts (reached : Reached system) (counter : cell = .ready ∨ cell = .taskDone)
    (valid : cell = .taskDone ∨ Kind.store cell 0 ∈ left system roster.bsp) :
    (system.shared.cells cell).toNat + 1 = system.tally (counted cell) := by
  refine reached.invariant (motive := fun system =>
    cell = .taskDone ∨ Kind.store cell 0 ∈ left system roster.bsp →
      (system.shared.cells cell).toNat + 1 = system.tally (counted cell)) ?_ ?_ valid
  · intro _
    refine (Reached.tally_eq_one ⟨[], rfl⟩ fun cpu ap => ?_).symm
    change _ ∈ (programOf roster cpu).map Statement.kind
    rw [programOf_ap ap]
    rcases counter with rfl | rfl
    · exact (by decide : Kind.fetchAdd .ready ∈ apKinds)
    · exact (by decide : Kind.fetchAdd .taskDone ∈ apKinds)
  · intro system mover memory core reached holds moves valid
    have before := holds (valid.imp_right (moves.left_subset _ ·))
    have balance := Interleaved.tally_put (counted cell) system mover memory core
    rw [Interleaved.put_shared]
    rcases moves.runs_or_aside with ⟨statement, rest, machine, next, runs, rfl⟩ | aside
    · by_cases kind_eq : statement.kind = .fetchAdd cell
      · obtain rfl := Statement.kind_eq_fetchAdd.mp kind_eq
        obtain ⟨uncounted, counts, cells_eq⟩ := reached.counted_fetchAdd runs
        have bound : system.tally (counted cell) ≤ roster.cpus :=
          Interleaved.tally_le counted_le_one
        have small := roster.cpus_lt
        rw [cells_eq, toNat_add_one (by omega)]
        omega
      · have same := runs.counted_follow kind_eq
        cases writes : statement.kind.writes cell with
        | false =>
            rw [runs.confined.cells cell writes]
            omega
        | true =>
            obtain ⟨rfl, rfl⟩ := reached.resets counter runs kind_eq writes
            obtain ⟨chance, stepped⟩ := runs.stepped
            cases stepped
            rcases counter with rfl | rfl
            · -- `POST_READY` is cleared when nobody waits for it any more.
              have once := reached.bsp_left (motive := fun kinds =>
                kinds.head? = some (.store .ready 0) → Kind.store .ready 0 ∉ kinds.tail) (by decide)
              rw [runs.left_eq] at once
              rw [runs.left_done] at valid
              exact absurd (valid.resolve_left (by decide)) (once rfl)
            · -- `POST_TASK_DONE` is cleared when nobody is done.
              have none := reached.none_done (runs.left_eq ▸ List.mem_cons_self)
              rw [BootMemory.put_cells, UInt64.toNat_zero]
              omega
    · have plain : cell ≠ .ipiAckMask ∧ cell ≠ .timerMask := by
        rcases counter with rfl | rfl <;> decide
      have same : counted cell core = counted cell (system.own mover) := by
        rw [counted, counted, aside.program]
      rw [aside.cells cell plain.1 plain.2]
      omega

/-- When a wait for a counter ends, all have counted themselves. -/
theorem Reached.all_counted (reached : Reached system) (counter : cell = .ready ∨ cell = .taskDone)
    (done : Kind.waitForCount cell ∉ left system roster.bsp) (cpu : Fin roster.cpus) :
    Kind.fetchAdd cell ∉ left system cpu := by
  refine reached.milestone (motive := fun system => Kind.fetchAdd cell ∉ left system cpu) ?_ ?_ ?_
    done
  · rw [programOf_bsp]
    rcases counter with rfl | rfl
    · exact (by decide : Kind.waitForCount .ready ∈ bspKinds)
    · exact (by decide : Kind.waitForCount .taskDone ∈ bspKinds)
  · exact fun _ _ _ _ _ moves counted todo => counted (moves.left_subset _ todo)
  · intro system statement rest memory machine reached runs kind_eq _ todo
    have uncounted : counted cell (system.own cpu) = 0 :=
      if_pos ((Moves.ran runs).left_subset cpu todo)
    have fewer : system.tally (counted cell) < roster.cpus :=
      Interleaved.tally_lt counted_le_one uncounted
    have valid : cell = .taskDone ∨ Kind.store cell 0 ∈ left system roster.bsp := by
      rcases counter with rfl | rfl
      · right
        have waits := reached.bsp_left (motive := fun kinds => Kind.waitForCount .ready ∈ kinds →
          Kind.store .ready 0 ∈ kinds) (by decide)
        exact waits (by rw [runs.left_eq, kind_eq]; exact List.mem_cons_self)
      · exact .inl rfl
    have counts := reached.counts counter valid
    cases statement with
    | waitForCount waited error polls =>
        obtain rfl : waited = cell := by simpa [Statement.kind] using kind_eq
        obtain ⟨chance, stepped⟩ := runs.stepped
        have enough := Statement.poll_eq_done (congrArg (·.2.2) (ok.inj stepped))
        rw [ge_iff_le, UInt64.le_iff_toNat_le] at enough
        have aps := roster.facts.apCount
        omega
    | _ => cases kind_eq

end Counters

end Boot

end Bulla.Platform
