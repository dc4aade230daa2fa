import Bulla.Platform.BootProtocol

/-!
# In which order the boot proceeds

What a turn can do is said once, for every statement and every processor.  From it follows where
processors wait for each other: no processor is past a wait before the one that boots has made the
store it waits for.
-/

namespace Bulla.Platform

open Rust Outcome

namespace Roster

variable (roster : Roster)

/-- What `run` has checked of the processors, and computed from them. -/
structure Facts : Prop where
  mask : expectedMask roster.ids = .ok roster.masks.fullMask
  bspId_mem : roster.bspId ∈ roster.ids
  length_le : roster.cpus ≤ maxCpus.toNat
  bspBit : roster.masks.bspBit = 1 <<< roster.bspId.toUInt64
  apMask : roster.masks.apMask = roster.masks.fullMask &&& ~~~roster.masks.bspBit
  apCount : roster.masks.apCount.toNat + 1 = roster.cpus

theorem facts : roster.Facts := by
  have accepted := roster.accepted
  simp only [bootCpus, bind_eq_ok, roster.effective_eq, ok.injEq, exists_eq_left'] at accepted
  obtain ⟨_, admitted, _, _, fullMask, mask, _⟩ := accepted
  obtain ⟨fits, present, starts, -⟩ := checkIds_eq_ok.mp admitted
  obtain ⟨effective, effective_eq, slice_eq, count_eq⟩ := exists_effectiveIds fits roster.failed
  obtain rfl : effective = roster.effective := by
    simpa [roster.effective_eq] using effective_eq.symm
  have bsp_kept : roster.bspId ∈ roster.effective.slice := by
    rw [slice_eq, List.mem_filter, decide_eq_true_eq]
    exact ⟨present, starts.symm⟩
  obtain ⟨cpus, cpus_eq, full_eq, bsp_eq, ap_eq, ap_count⟩ :=
    exists_bootCpus admitted roster.effective_eq count_eq bsp_kept mask
  obtain rfl : cpus = roster.masks := by simpa [roster.accepted] using cpus_eq.symm
  refine ⟨by rw [full_eq]; exact mask, bsp_kept, ?_, bsp_eq, by rw [ap_eq, full_eq], ap_count⟩
  rw [cpus, ids, slice_eq]
  exact (List.length_filter_le _ _).trans fits

theorem ids_nodup : roster.ids.Nodup := (expectedMask_eq_ok.mp roster.facts.mask).1.1

variable {roster}

theorem one_le_cpus : 1 ≤ roster.cpus := by
  have counted := roster.facts.apCount
  omega

theorem cpus_lt : roster.cpus < 2 ^ 64 := by
  have fits := roster.facts.length_le
  have limit : maxCpus.toNat = 64 := rfl
  omega

theorem id_lt (cpu : Fin roster.cpus) : (roster.id cpu).toNat < 64 :=
  (expectedMask_eq_ok.mp roster.facts.mask).1.2 _ (List.get_mem _ _)

theorem id_inj {cpu other : Fin roster.cpus} : roster.id cpu = roster.id other ↔ cpu = other :=
  roster.ids_nodup.injective_get.eq_iff

/-- The processor that boots. -/
def bsp (roster : Roster) : Fin roster.cpus :=
  ⟨roster.ids.idxOf roster.bspId, List.idxOf_lt_length_of_mem roster.facts.bspId_mem⟩

theorem id_bsp : roster.id roster.bsp = roster.bspId := List.idxOf_get _

theorem id_eq_bspId {cpu : Fin roster.cpus} : roster.id cpu = roster.bspId ↔ cpu = roster.bsp := by
  rw [← id_bsp, id_inj]

theorem mem_aps {cpu : Fin roster.cpus} : cpu ∈ roster.aps ↔ cpu ≠ roster.bsp := by
  simp [aps, id_eq_bspId]

theorem aps_nodup : roster.aps.Nodup := (List.nodup_finRange _).filter _

theorem bit_member (cpu : Fin roster.cpus) (index : ℕ) :
    bit (roster.member cpu) index = decide ((roster.id cpu).toNat = index) := by
  have shift_eq : (roster.id cpu).toUInt64.toNat = (roster.id cpu).toNat :=
    UInt32.toNat_toUInt64 _
  rw [member, bit_one_shiftLeft (shift_eq ▸ id_lt cpu), shift_eq]

theorem bspBit_eq : roster.masks.bspBit = roster.member roster.bsp := by
  rw [member, id_bsp, roster.facts.bspBit]

theorem bit_fullMask (index : ℕ) :
    bit roster.masks.fullMask index = true ↔ ∃ cpu, (roster.id cpu).toNat = index := by
  rw [bit_expectedMask roster.facts.mask, List.mem_map, List.exists_mem_iff_get]
  rfl

theorem bit_apMask (index : ℕ) :
    bit roster.masks.apMask index = true ↔
      ∃ cpu, cpu ≠ roster.bsp ∧ (roster.id cpu).toNat = index := by
  rw [roster.facts.apMask, bit_and_not, bspBit_eq, bit_member, Bool.and_eq_true, bit_fullMask]
  simp only [Bool.not_eq_true', decide_eq_false_iff_not]
  constructor
  · rintro ⟨⟨cpu, rfl⟩, other⟩
    exact ⟨cpu, fun same => other (by rw [same]), rfl⟩
  · rintro ⟨cpu, other, rfl⟩
    exact ⟨⟨cpu, rfl⟩, fun same => other (id_inj.mp (UInt32.toNat_inj.mp same.symm))⟩

end Roster

namespace BootMemory

variable {cpus : ℕ} {memory : BootMemory cpus} {cell other : Cell} {value : UInt64}

@[simp] theorem put_cells : (memory.put cell value).cells cell = value := Function.update_self _ _ _

theorem put_cells_of_ne (distinct : other ≠ cell) :
    (memory.put cell value).cells other = memory.cells other := Function.update_of_ne distinct _ _

@[simp] theorem fetchOr_cells :
    (memory.fetchOr cell value).cells cell = memory.cells cell ||| value :=
  put_cells

@[simp] theorem fetchAdd_cells : (memory.fetchAdd cell).cells cell = memory.cells cell + 1 :=
  put_cells

section Pending

variable {vector another : Vector} {target : Fin cpus} {sent : Bool}

@[simp] theorem setPending_pending : (memory.setPending vector target sent).pending vector =
    Function.update (memory.pending vector) target sent := Function.update_self _ _ _

theorem setPending_of_ne (distinct : another ≠ vector) :
    (memory.setPending vector target sent).pending another = memory.pending another :=
  Function.update_of_ne distinct _ _

theorem interrupt_pending_self : (memory.interrupt vector target).pending vector target = true := by
  rw [interrupt, setPending_pending, Function.update_self]

theorem interrupt_pending_of_ne {other : Fin cpus} (distinct : other ≠ target) :
    (memory.interrupt vector target).pending vector other = memory.pending vector other := by
  rw [interrupt, setPending_pending, Function.update_of_ne distinct]

end Pending

end BootMemory

namespace Statement

variable {roster : Roster}

/-- A kind of statement that may change a cell. -/
def Kind.writes (cell : Cell) : Kind → Bool
  | .fetchOr written => written = cell
  | .fetchAdd written => written = cell
  | .store written _ => written = cell
  | .storeBit written => written = cell
  | .swapStale => cell = .tlbStale
  | .message => cell = .messageStale || cell = .messageMask
  | .tasks => cell = .taskWorkers
  | .probe _ mask => cell = .tlbStale || cell = mask
  | .armTimer => cell = .timerIpiFallbacks
  | _ => false

/-- A kind of statement that may send an interrupt. -/
def Kind.sends (vector : Vector) : Kind → Bool
  | .send => vector = .ipi
  | .broker => vector = .timer
  | .armTimer => vector = .timer
  | _ => false

/-- What an operation leaves alone, by the kind of its statement. -/
structure Confined (kind : Kind) (before after : BootMemory roster.cpus) (machine moved : Machine)
    (next : Next roster.cpus) : Prop where
  cells : ∀ cell, kind.writes cell = false → after.cells cell = before.cells cell
  tasks : kind ≠ .tasks → (∀ field, kind ≠ .setTask field) → after.tasks = before.tasks
  locks : kind ≠ .lock → after.locks = before.locks
  entry : (∀ page, kind ≠ .remap page) → after.entry = before.entry
  started : kind ≠ .start → after.started = before.started
  pending : ∀ vector, kind.sends vector = false → after.pending vector = before.pending vector
  handler : (∀ vector, kind ≠ .interrupt vector) → moved.handler = machine.handler
  interrupts : machine.interrupts = true → moved.interrupts = true
  tlb : kind ≠ .invlpg → moved.tlb = machine.tlb
  kind : ∀ statement, next = .stay statement → statement.kind = kind

section Kind

variable {kind : Kind}

/-- An operation after which the statement is over, or stays with what is left of it. -/
theorem kind_done {statement : Statement roster.cpus} (stays : Next.done = .stay statement) :
    statement.kind = kind := by
  cases stays

theorem kind_stop {error : PostFirmwareError} {statement : Statement roster.cpus}
    (stays : Next.stop error = .stay statement) : statement.kind = kind := by
  cases stays

theorem kind_stay {rest : Statement roster.cpus} (same : rest.kind = kind)
    {statement : Statement roster.cpus} (stays : Next.stay rest = .stay statement) :
    statement.kind = kind := by
  cases stays
  exact same

theorem kind_ite {holds : Prop} [Decidable holds] {left right : Next roster.cpus}
    (left_kind : ∀ statement, left = .stay statement → statement.kind = kind)
    (right_kind : ∀ statement, right = .stay statement → statement.kind = kind)
    (statement : Statement roster.cpus)
    (stays : (if holds then left else right) = .stay statement) : statement.kind = kind := by
  split at stays
  · exact left_kind statement stays
  · exact right_kind statement stays

theorem kind_poll {holds : Prop} [Decidable holds] {error : PostFirmwareError}
    {again : ℕ → Statement roster.cpus} {polls : ℕ} (same : ∀ polls, (again polls).kind = kind)
    (statement : Statement roster.cpus) (stays : poll holds error again polls = .stay statement) :
    statement.kind = kind := by
  cases polls with
  | zero => exact kind_stop stays
  | succ polls =>
      exact kind_ite (fun _ => kind_done) (fun _ => kind_stay (same polls)) statement stays

theorem kind_afterTask {worker next : Worker} (statement : Statement roster.cpus)
    (stays : afterTask worker next = .stay statement) : statement.kind = .tasks := by
  cases next <;> cases worker <;> cases stays <;> rfl

theorem kind_afterLock {next : Locker} (statement : Statement roster.cpus)
    (stays : afterLock next = .stay statement) : statement.kind = .lock := by
  cases next <;> cases stays <;> rfl

end Kind

section Confined

variable {kind : Kind} (memory : BootMemory roster.cpus) (machine : Machine)
  {next : Next roster.cpus} (same : ∀ statement, next = .stay statement → statement.kind = kind)

include same

/-- An operation that only looks. -/
theorem Confined.look : Confined kind memory memory machine machine next :=
  ⟨fun _ _ => rfl, fun _ _ => rfl, fun _ => rfl, fun _ => rfl, fun _ => rfl, fun _ _ => rfl,
    fun _ => rfl, id, fun _ => rfl, same⟩

theorem Confined.put {cell : Cell} (writes : kind.writes cell = true) (value : UInt64) :
    Confined kind memory (memory.put cell value) machine machine next := by
  refine { Confined.look memory machine same with cells := ?_ }
  intro other spared
  refine Function.update_of_ne ?_ _ _
  rintro rfl
  rw [writes] at spared
  cases spared

theorem Confined.interrupt {vector : Vector} (sends : kind.sends vector = true)
    (target : Fin roster.cpus) (sent : Bool) :
    Confined kind memory (if sent then memory.interrupt vector target else memory) machine machine
      next := by
  cases sent with
  | false => exact .look _ _ same
  | true =>
      refine { Confined.look memory machine same with pending := ?_ }
      intro other spared
      refine Function.update_of_ne ?_ _ _
      rintro rfl
      rw [sends] at spared
      cases spared

end Confined

section Step

variable {cpu : Fin roster.cpus} {chance : Chance} {before after : BootMemory roster.cpus}
  {machine moved : Machine} {next : Next roster.cpus}

theorem confined_start {targets : List (Fin roster.cpus)}
    (stepped : (start targets).step roster cpu chance before machine = .ok (after, moved, next)) :
    Confined .start before after machine moved next := by
  cases targets with
  | nil =>
      cases stepped
      exact .look _ _ fun _ => kind_done
  | cons target targets =>
      cases stepped
      have same (statement) : (if chance.icr.fails then Next.stop .ipi
          else .stay (start targets)) = .stay statement → statement.kind = .start :=
        kind_ite (fun _ => kind_stop) (fun _ => kind_stay rfl) statement
      cases chance.icr.sends with
      | false => exact .look _ _ same
      | true =>
          refine { Confined.look before machine same with started := ?_ }
          exact fun other => absurd rfl other

theorem confined_send {targets : List (Fin roster.cpus)}
    (stepped : (send targets).step roster cpu chance before machine = .ok (after, moved, next)) :
    Confined .send before after machine moved next := by
  cases targets with
  | nil =>
      cases stepped
      exact .look _ _ fun _ => kind_done
  | cons target targets =>
      cases stepped
      refine .interrupt _ _ ?_ rfl target _
      exact kind_ite (fun _ => kind_stop) fun _ => kind_stay rfl

theorem confined_broker {missing : Option (Fin roster.cpus)} {targets : List (Fin roster.cpus)}
    (stepped : (broker missing targets).step roster cpu chance before machine =
      .ok (after, moved, next)) :
    Confined .broker before after machine moved next := by
  cases missing with
  | some missing =>
      cases stepped
      refine .interrupt _ _ ?_ rfl missing _
      exact kind_ite (fun _ => kind_stop) fun _ => kind_stay rfl
  | none =>
      cases targets with
      | nil =>
          cases stepped
          exact .look _ _ fun _ => kind_done
      | cons target targets =>
          cases stepped
          exact .look _ _ fun _ => kind_stay rfl

theorem confined_message {messenger : Messenger}
    (stepped : (message messenger).step roster cpu chance before machine =
      .ok (after, moved, next)) :
    Confined .message before after machine moved next := by
  cases messenger with
  | polling | reading =>
      cases stepped
      exact .look _ _ fun _ => kind_stay rfl
  | reporting =>
      cases stepped
      refine .put _ _ ?_ rfl _
      exact fun _ => kind_stay rfl
  | marking =>
      cases stepped
      exact .put _ _ (fun _ => kind_done) rfl _

theorem confined_probe {expected : TestPage} {mask : Cell} {prober : Prober}
    (stepped : (probe expected mask prober).step roster cpu chance before machine =
      .ok (after, moved, next)) :
    Confined (.probe expected mask) before after machine moved next := by
  cases prober with
  | reading =>
      cases stepped
      exact .look _ _ fun _ => kind_stay rfl
  | storing observed =>
      cases stepped
      refine { Confined.look before machine ?_ with }
      exact fun _ => kind_stay rfl
  | reporting =>
      cases stepped
      refine .put _ _ ?_ (by simp [Kind.writes]) _
      exact fun _ => kind_stay rfl
  | marking =>
      cases stepped
      exact .put _ _ (fun _ => kind_done) (by simp [Kind.writes]) _

theorem confined_armTimer {heeded : Bool} {armer : Armer}
    (stepped : (armTimer heeded armer).step roster cpu chance before machine =
      .ok (after, moved, next)) :
    Confined .armTimer before after machine moved next := by
  cases armer with
  | arming =>
      cases stepped
      refine { Confined.look before machine ?_ with }
      exact fun _ => kind_stay rfl
  | checking =>
      cases stepped
      exact .look _ _ (kind_ite (fun _ => kind_stay rfl) fun _ => kind_done)
  | counting =>
      cases stepped
      refine .put _ _ ?_ rfl _
      exact fun _ => kind_stay rfl
  | sending =>
      cases stepped
      exact .interrupt _ _ (kind_ite (fun _ => kind_stop) fun _ => kind_done) rfl cpu _

theorem confined_lock {locker : Locker}
    (stepped : (lock locker).step roster cpu chance before machine = .ok (after, moved, next)) :
    Confined .lock before after machine moved next := by
  obtain ⟨_, _, moved_eq⟩ := bind_eq_ok.mp stepped
  cases moved_eq
  refine { Confined.look before machine kind_afterLock with locks := ?_ }
  exact fun other => absurd rfl other

/-- No operation changes more than its kind of statement may. -/
theorem confined_step {statement : Statement roster.cpus}
    (stepped : statement.step roster cpu chance before machine = .ok (after, moved, next)) :
    Confined statement.kind before after machine moved next := by
  cases statement with
  | start => exact confined_start stepped
  | send => exact confined_send stepped
  | broker => exact confined_broker stepped
  | message => exact confined_message stepped
  | probe => exact confined_probe stepped
  | armTimer => exact confined_armTimer stepped
  | lock => exact confined_lock stepped
  | sleep =>
      cases stepped
      exact .look _ _ (kind_ite (fun _ => kind_done) fun _ => kind_stay rfl)
  | await =>
      cases stepped
      exact .look _ _ (kind_ite (fun _ => kind_stay rfl) fun _ => kind_done)
  | check =>
      cases stepped
      exact .look _ _ (kind_ite (fun _ => kind_done) fun _ => kind_stop)
  | waitForMask | waitForCount =>
      cases stepped
      exact .look _ _ (kind_poll fun _ => rfl)
  | fetchOr | fetchAdd | store | storeBit =>
      cases stepped
      exact .put _ _ (fun _ => kind_done) (by simp [kind, Kind.writes]) _
  | swapStale =>
      cases stepped
      exact .put _ _ (kind_ite (fun _ => kind_stop) fun _ => kind_done) rfl _
  | enlist =>
      cases stepped
      refine .put _ _ ?_ rfl _
      exact fun _ => kind_stay rfl
  | setTask =>
      cases stepped
      refine { Confined.look before machine (fun _ => kind_done) with tasks := ?_ }
      exact fun _ other => absurd rfl (other _)
  | tasks =>
      cases stepped
      refine { Confined.look before machine kind_afterTask with tasks := ?_ }
      exact fun other => absurd rfl other
  | enableInterrupts =>
      cases stepped
      exact { Confined.look before machine (fun _ => kind_done) with interrupts := fun _ => rfl }
  | remap =>
      cases stepped
      refine { Confined.look before machine (fun _ => kind_done) with entry := ?_ }
      exact fun other => absurd rfl (other _)
  | invlpg =>
      cases stepped
      refine { Confined.look before machine (fun _ => kind_done) with tlb := ?_ }
      exact fun other => absurd rfl other
  | interrupt =>
      cases stepped
      refine { Confined.look before machine (fun _ => kind_done) with handler := ?_ }
      exact fun other => absurd rfl (other _)

end Step

end Statement

namespace Boot

variable {roster : Roster}

/-- The statement in front of a processor's program does an operation. -/
structure Runs (system : Boot roster) (cpu : Fin roster.cpus) (statement : Statement roster.cpus)
    (rest : List (Statement roster.cpus)) (memory : BootMemory roster.cpus) (machine : Machine)
    (next : Next roster.cpus) : Prop where
  free : (system.own cpu).machine.handler = none
  running : (system.own cpu).stopped = none
  front : (system.own cpu).program = statement :: rest
  stepped : ∃ chance, statement.step roster cpu chance system.shared (system.own cpu).machine =
    .ok (memory, machine, next)

theorem Runs.confined {system : Boot roster} {cpu : Fin roster.cpus}
    {statement : Statement roster.cpus} {rest : List (Statement roster.cpus)}
    {memory : BootMemory roster.cpus} {machine : Machine} {next : Next roster.cpus}
    (runs : Runs system cpu statement rest memory machine next) :
    Statement.Confined statement.kind system.shared memory (system.own cpu).machine machine
      next := by
  obtain ⟨chance, stepped⟩ := runs.stepped
  exact Statement.confined_step stepped

/-- How a command to the local APIC ends: it is sent and the program goes on, or the processor gives
up, whether the command was sent or not. -/
inductive Commanded {cpus : ℕ} (before sent : BootMemory cpus) (later : Next cpus) :
    BootMemory cpus → Next cpus → Prop
  | accepted : Commanded before sent later sent later
  | failed {memory : BootMemory cpus} (either : memory = sent ∨ memory = before) :
      Commanded before sent later memory (.stop .ipi)

section Commands

variable {system : Boot roster} {cpu target : Fin roster.cpus}
  {targets : List (Fin roster.cpus)} {rest : List (Statement roster.cpus)}
  {before sent memory : BootMemory roster.cpus} {machine : Machine}
  {later next : Next roster.cpus}

theorem Commanded.of_icr (icr : Icr) :
    Commanded before sent later (if icr.sends then sent else before)
      (if icr.fails then .stop .ipi else later) := by
  cases icr with
  | accepts => exact .accepted
  | busyBefore => exact .failed (.inr rfl)
  | busyAfter => exact .failed (.inl rfl)

theorem Commanded.memory_eq (commanded : Commanded before sent later memory next) :
    memory = sent ∨ memory = before := by
  cases commanded with
  | accepted => exact .inl rfl
  | failed either => exact either

theorem Runs.starts (runs : Runs system cpu (.start (target :: targets)) rest memory machine next) :
    Commanded system.shared { system.shared with
        started := Function.update system.shared.started target true }
      (.stay (.start targets)) memory next := by
  obtain ⟨chance, stepped⟩ := runs.stepped
  cases stepped
  exact .of_icr chance.icr

theorem Runs.sends (runs : Runs system cpu (.send (target :: targets)) rest memory machine next) :
    Commanded system.shared (system.shared.interrupt .ipi target) (.stay (.send targets)) memory
      next := by
  obtain ⟨chance, stepped⟩ := runs.stepped
  cases stepped
  exact .of_icr chance.icr

theorem Runs.brokers
    (runs : Runs system cpu (.broker (some target) targets) rest memory machine next) :
    Commanded system.shared (system.shared.interrupt .timer target)
      (.stay (.broker none targets)) memory next := by
  obtain ⟨chance, stepped⟩ := runs.stepped
  cases stepped
  exact .of_icr chance.icr

end Commands

/-- What a turn can do to a processor and to what is shared. -/
inductive Moves (system : Boot roster) (cpu : Fin roster.cpus) :
    BootMemory roster.cpus → Core roster.cpus → Prop
  | rested : Moves system cpu system.shared (system.own cpu)
  | ran {statement : Statement roster.cpus} {rest : List (Statement roster.cpus)}
      {memory : BootMemory roster.cpus} {machine : Machine} {next : Next roster.cpus}
      (runs : Runs system cpu statement rest memory machine next) :
      Moves system cpu memory ((system.own cpu).follow machine next)
  | handled {handler : Handler} (entered : (system.own cpu).machine.handler = some handler) :
      Moves system cpu (handler.step roster cpu system.shared (system.own cpu).machine).1
        { system.own cpu with
          machine := (handler.step roster cpu system.shared (system.own cpu).machine).2 }
  | delivered {vector : Vector} (pending : system.shared.pending vector cpu = true)
      (free : (system.own cpu).machine.handler = none) :
      Moves system cpu (take system.shared cpu (system.own cpu) vector).1
        (take system.shared cpu (system.own cpu) vector).2
  | ticked : Moves system cpu (system.shared.interrupt .timer cpu)
      { system.own cpu with machine := { (system.own cpu).machine with armed := false } }
  | cached {tlb : Option TestPage} (walked : ∀ page, tlb = some page → page = system.shared.entry) :
      Moves system cpu system.shared
        { system.own cpu with machine := { (system.own cpu).machine with tlb } }

/-- What everything but the programs leaves alone. -/
structure Aside (system : Boot roster) (cpu : Fin roster.cpus) (memory : BootMemory roster.cpus)
    (core : Core roster.cpus) : Prop where
  program : core.program = (system.own cpu).program
  stopped : core.stopped = (system.own cpu).stopped
  tasks : memory.tasks = system.shared.tasks
  locks : memory.locks = system.shared.locks
  entry : memory.entry = system.shared.entry
  started : memory.started = system.shared.started
  cells : ∀ cell, cell ≠ .ipiAckMask → cell ≠ .timerMask →
    memory.cells cell = system.shared.cells cell

theorem aside_handled {system : Boot roster} {cpu : Fin roster.cpus} (handler : Handler) :
    Aside system cpu (handler.step roster cpu system.shared (system.own cpu).machine).1
      { system.own cpu with
        machine := (handler.step roster cpu system.shared (system.own cpu).machine).2 } := by
  cases handler with
  | acknowledging =>
      exact ⟨rfl, rfl, rfl, rfl, rfl, rfl, fun _ other _ => Function.update_of_ne other _ _⟩
  | signing =>
      exact ⟨rfl, rfl, rfl, rfl, rfl, rfl, fun _ _ other => Function.update_of_ne other _ _⟩
  | flushing | leaving => exact ⟨rfl, rfl, rfl, rfl, rfl, rfl, fun _ _ _ => rfl⟩

theorem aside_take {system : Boot roster} {cpu : Fin roster.cpus} (vector : Vector) :
    Aside system cpu (take system.shared cpu (system.own cpu) vector).1
      (take system.shared cpu (system.own cpu) vector).2 :=
  ⟨rfl, rfl, rfl, rfl, rfl, rfl, fun _ _ _ => rfl⟩

/-- A move is an operation of a program, or it leaves the programs alone. -/
theorem Moves.runs_or_aside {system : Boot roster} {cpu : Fin roster.cpus}
    {memory : BootMemory roster.cpus} {core : Core roster.cpus}
    (moves : Moves system cpu memory core) :
    (∃ statement rest machine next, Runs system cpu statement rest memory machine next ∧
      core = (system.own cpu).follow machine next) ∨ Aside system cpu memory core := by
  cases moves with
  | ran runs => exact .inl ⟨_, _, _, _, runs, rfl⟩
  | @handled handler => exact .inr (aside_handled handler)
  | @delivered vector => exact .inr (aside_take vector)
  | _ => exact .inr ⟨rfl, rfl, rfl, rfl, rfl, rfl, fun _ _ _ => rfl⟩

theorem moves_of_move {system : Boot roster} {cpu : Fin roster.cpus} {turn : Turn}
    {memory : BootMemory roster.cpus} {core : Core roster.cpus}
    (moved : move cpu system.shared (system.own cpu) turn = .ok (memory, core)) :
    Moves system cpu memory core := by
  cases turn with
  | run chance =>
      simp only [move] at moved
      split at moved
      · rename_i handler _ _ entered
        cases moved
        exact .handled entered
      · rename_i statement rest free running front
        simp only [bind_eq_ok] at moved
        obtain ⟨⟨memory, machine, next⟩, stepped, moved⟩ := moved
        cases moved
        exact .ran ⟨free, running, front, chance, stepped⟩
      · cases moved
        exact .rested
  | deliver vector =>
      simp only [move] at moved
      split at moved
      · rename_i taken
        cases moved
        exact .delivered taken.1 taken.2.2
      · cases moved
        exact .rested
  | tick =>
      simp only [move] at moved
      split at moved
      · cases moved
        exact .ticked
      · cases moved
        exact .rested
  | fill =>
      cases moved
      exact .cached fun page walked => (Option.some.inj walked).symm
  | evict =>
      cases moved
      exact .cached (by rintro _ ⟨⟩)

/-- Every turn does one of these things, if not, nothing. -/
theorem exists_moves (system : Boot roster) (turn : Fin roster.cpus × Turn) :
    ∃ memory core, (event perform system turn).after = system.put turn.1 memory core ∧
      Moves system turn.1 memory core := by
  cases moved : move turn.1 system.shared (system.own turn.1) turn.2 with
  | ok result =>
      obtain ⟨memory, core⟩ := result
      have performed : perform turn system = (.ok (), system.put turn.1 memory core) := by
        simpa [perform] using ⟨memory, core, moved, rfl⟩
      exact ⟨memory, core, congrArg Prod.snd performed, moves_of_move moved⟩
  | err reason => exact reason.elim
  | overflow =>
      have performed : perform turn system = (.overflow, system) := by
        simp [perform, moved]
      refine ⟨_, _, ?_, .rested⟩
      rw [Interleaved.put_self]
      exact congrArg Prod.snd performed

/-- A state that some schedule leads to. -/
def Reached (system : Boot roster) : Prop :=
  ∃ schedule, final perform (start roster) schedule = system

/-- What holds at the start and survives every move holds of every state that is reached. -/
theorem Reached.invariant {system : Boot roster} (reached : Reached system)
    {motive : Boot roster → Prop} (initially : motive (start roster))
    (moves : ∀ system cpu memory core, Reached system → motive system →
      Moves system cpu memory core → motive (system.put cpu memory core)) : motive system := by
  obtain ⟨schedule, rfl⟩ := reached
  refine run_induction_reached perform (motive := fun _ system => motive system) initially ?_
    schedule
  intro earlier turn holds
  obtain ⟨memory, core, after_eq, moved⟩ :=
    exists_moves (final perform (start roster) earlier) turn
  rw [after_eq]
  exact moves _ _ _ _ ⟨earlier, rfl⟩ holds moved

end Boot

namespace Boot

open Statement (Kind)

variable {roster : Roster}

/-- The kinds of the statements of `thermite_ap_rust_entry`. -/
def apKinds : List Kind := (apProgram 0).map Statement.kind

/-- The kinds of the statements of `run`. -/
def bspKinds : List Kind :=
  (bspProgram ([] : List (Fin 0))).map Statement.kind

/-- The kinds of the statements that a processor has not done yet. -/
def left (system : Boot roster) (cpu : Fin roster.cpus) : List Kind :=
  (system.own cpu).program.map Statement.kind

theorem programOf_bsp : programOf roster roster.bsp = bspProgram roster.aps :=
  if_pos Roster.id_bsp

theorem programOf_ap {cpu : Fin roster.cpus} (ap : cpu ≠ roster.bsp) :
    programOf roster cpu = apProgram roster.cpus :=
  if_neg fun same => ap (Roster.id_eq_bspId.mp same)

section Left

variable {system : Boot roster} {cpu other : Fin roster.cpus} {memory : BootMemory roster.cpus}
  {core : Core roster.cpus} {kind : Kind}

theorem left_put_self :
    left (system.put cpu memory core) cpu = core.program.map Statement.kind := by
  rw [left, Interleaved.put_own]

theorem left_put_of_ne (distinct : other ≠ cpu) :
    left (system.put cpu memory core) other = left system other := by
  rw [left, Interleaved.put_own_of_ne distinct, left]

/-- A move either leaves the kinds of what is left alone, or it is the last one of the statement in
front. -/
theorem Moves.left_cases (moves : Moves system cpu memory core) :
    core.program.map Statement.kind = left system cpu ∨
      ∃ statement rest machine, Runs system cpu statement rest memory machine .done ∧
        core = (system.own cpu).follow machine .done := by
  rcases moves.runs_or_aside with ⟨statement, rest, machine, next, runs, rfl⟩ | aside
  · cases next with
    | stay next =>
        left
        have same := runs.confined.kind next rfl
        simp [Core.follow, left, runs.front, same]
    | done => exact .inr ⟨statement, rest, machine, runs, rfl⟩
    | stop error => exact .inl rfl
  · exact .inl (by rw [aside.program, left])

theorem Moves.agenda (moves : Moves system cpu memory core)
    (agenda : Agenda Statement.kind (programOf roster cpu) (system.own cpu).program) :
    Agenda Statement.kind (programOf roster cpu) core.program := by
  rcases moves.runs_or_aside with ⟨statement, rest, machine, next, runs, rfl⟩ | aside
  · rw [runs.front] at agenda
    cases next with
    | stay next => simpa [Core.follow, runs.front] using agenda.stay (runs.confined.kind next rfl)
    | done => simpa [Core.follow, runs.front] using agenda.done
    | stop error => simpa [Core.follow, runs.front] using agenda
  · rw [aside.program]
    exact agenda

/-- What is done stays done. -/
theorem Moves.left_subset (moves : Moves system cpu memory core) (other : Fin roster.cpus) :
    left (system.put cpu memory core) other ⊆ left system other := by
  by_cases same : other = cpu
  · subst same
    rw [left_put_self]
    rcases moves.left_cases with kept | ⟨statement, rest, _, runs, rfl⟩
    · rw [kept]
      exact List.Subset.refl _
    · rw [left, runs.front, Core.follow, runs.front]
      exact List.subset_cons_self _ _
  · rw [left_put_of_ne same]
    exact List.Subset.refl _

theorem Reached.agenda (reached : Reached system) (cpu : Fin roster.cpus) :
    Agenda Statement.kind (programOf roster cpu) (system.own cpu).program := by
  refine reached.invariant (motive := fun system => Agenda Statement.kind (programOf roster cpu)
    (system.own cpu).program) .start ?_
  intro system mover memory core _ agenda moves
  by_cases same : cpu = mover
  · subst same
    rw [Interleaved.put_own]
    exact moves.agenda agenda
  · rw [Interleaved.put_own_of_ne same]
    exact agenda

/-- What is left of `run` is a suffix of it. -/
theorem Reached.bsp_left (reached : Reached system) {motive : List Kind → Prop}
    (holds : ∀ kinds ∈ bspKinds.tails, motive kinds) : motive (left system roster.bsp) := by
  have remaining := reached.agenda roster.bsp
  rw [programOf_bsp] at remaining
  exact remaining.of_tails holds

/-- What is left of `thermite_ap_rust_entry` is a suffix of it. -/
theorem Reached.ap_left (reached : Reached system) (ap : cpu ≠ roster.bsp)
    {motive : List Kind → Prop} (holds : ∀ kinds ∈ apKinds.tails, motive kinds) :
    motive (left system cpu) := by
  have remaining := reached.agenda cpu
  rw [programOf_ap ap] at remaining
  exact remaining.of_tails holds

/-- What the last operation of a statement brings about, and no move undoes, holds once the
statement is done. -/
theorem Reached.milestone (reached : Reached system) {motive : Boot roster → Prop}
    (todo : kind ∈ (programOf roster cpu).map Statement.kind)
    (kept : ∀ system mover memory core, Reached system → Moves system mover memory core →
      motive system → motive (system.put mover memory core))
    (made : ∀ system statement rest memory machine, Reached system →
      Runs system cpu statement rest memory machine .done → statement.kind = kind →
      kind ∉ rest.map Statement.kind →
      motive (system.put cpu memory ((system.own cpu).follow machine .done))) :
    kind ∉ left system cpu → motive system := by
  refine reached.invariant (motive := fun system => kind ∉ left system cpu → motive system)
    (fun done => (done todo).elim) ?_
  intro system mover memory core reached holds moves done
  by_cases before : kind ∈ left system cpu
  · have same : cpu = mover := by
      by_contra distinct
      rw [left_put_of_ne distinct] at done
      exact done before
    subst same
    rw [left_put_self] at done
    rcases moves.left_cases with unchanged | ⟨statement, rest, machine, runs, rfl⟩
    · rw [unchanged] at done
      exact (done before).elim
    · rw [left, runs.front, List.map_cons, List.mem_cons] at before
      rw [Core.follow, runs.front] at done
      exact made system statement rest memory machine reached runs
        (before.resolve_right done).symm done
  · exact kept system mover memory core reached moves (holds before)

/-- What the processor that boots has done when a wait ends is done ever after. -/
theorem Reached.past (reached : Reached system) {done : Kind}
    (todo : kind ∈ (programOf roster cpu).map Statement.kind)
    (made : ∀ system statement rest memory machine, Reached system →
      Runs system cpu statement rest memory machine .done → statement.kind = kind →
      done ∉ left system roster.bsp) :
    kind ∉ left system cpu → done ∉ left system roster.bsp := by
  refine reached.milestone (motive := fun system => done ∉ left system roster.bsp) todo ?_ ?_
  · exact fun _ _ _ _ _ moves done todo => done (moves.left_subset _ todo)
  · intro system statement rest memory machine reached runs kind_eq _ todo
    exact made system statement rest memory machine reached runs kind_eq
      ((Moves.ran runs).left_subset _ todo)

end Left

end Boot

namespace Statement

variable {cpus : ℕ} {statement : Statement cpus}

theorem kind_eq_store {cell : Cell} {value : UInt64} :
    statement.kind = .store cell value ↔ statement = .store cell value := by
  cases statement <;> simp [kind]

theorem kind_eq_await {cell : Cell} {least : UInt64} :
    statement.kind = .await cell least ↔ statement = .await cell least := by
  cases statement <;> simp [kind]

theorem kind_eq_sleep : statement.kind = .sleep ↔ statement = .sleep := by
  cases statement <;> simp [kind]

end Statement

namespace Boot

open Statement (Kind)

variable {roster : Roster} {system : Boot roster} {cpu : Fin roster.cpus}
  {statement : Statement roster.cpus} {rest : List (Statement roster.cpus)}
  {memory : BootMemory roster.cpus} {core : Core roster.cpus} {machine : Machine}
  {next : Next roster.cpus}

theorem Runs.left_eq (runs : Runs system cpu statement rest memory machine next) :
    left system cpu = statement.kind :: rest.map Statement.kind := by
  rw [left, runs.front, List.map_cons]

theorem Runs.left_done (runs : Runs system cpu statement rest memory machine next) :
    left (system.put cpu memory ((system.own cpu).follow machine .done)) cpu =
      rest.map Statement.kind := by
  rw [left_put_self, Core.follow, runs.front, List.tail_cons]

/-- What holds of every statement that is left goes on to hold if it holds of the statement in
front. -/
theorem Runs.forall_follow {property : Statement roster.cpus → Prop}
    (runs : Runs system cpu statement rest memory machine next)
    (holds : ∀ statement ∈ (system.own cpu).program, property statement)
    (front : ∀ statement, next = .stay statement → property statement) :
    ∀ statement ∈ ((system.own cpu).follow machine next).program, property statement := by
  rw [runs.front, List.forall_mem_cons] at holds
  cases next with
  | stay next =>
      rw [Core.follow, runs.front, List.tail_cons, List.forall_mem_cons]
      exact ⟨front next rfl, holds.2⟩
  | done =>
      rw [Core.follow, runs.front, List.tail_cons]
      exact holds.2
  | stop error =>
      rw [Core.follow, runs.front, List.forall_mem_cons]
      exact holds

theorem Reached.ap_left_mem (reached : Reached system) (ap : cpu ≠ roster.bsp) {kind : Kind}
    (todo : kind ∈ left system cpu) : kind ∈ apKinds :=
  reached.ap_left ap (motive := fun kinds => kind ∈ kinds → kind ∈ apKinds)
    (fun _ member => fun todo => ((List.mem_tails _ _).mp member).subset todo) todo

theorem Reached.bsp_left_mem (reached : Reached system) {kind : Kind}
    (todo : kind ∈ left system roster.bsp) : kind ∈ bspKinds :=
  reached.bsp_left (motive := fun kinds => kind ∈ kinds → kind ∈ bspKinds)
    (fun _ member => fun todo => ((List.mem_tails _ _).mp member).subset todo) todo

/-- Only statements of the two programs are left. -/
theorem Reached.left_mem (reached : Reached system) {kind : Kind} (todo : kind ∈ left system cpu) :
    kind ∈ apKinds ++ bspKinds := by
  by_cases boots : cpu = roster.bsp
  · subst boots
    exact List.mem_append_right _ (reached.bsp_left_mem todo)
  · exact List.mem_append_left _ (reached.ap_left_mem boots todo)

/-- Only statements of `thermite_ap_rust_entry` are run by the processors that are started. -/
theorem Reached.ap_kind (reached : Reached system)
    (runs : Runs system cpu statement rest memory machine next) (ap : cpu ≠ roster.bsp) :
    statement.kind ∈ apKinds :=
  reached.ap_left_mem ap (runs.left_eq ▸ List.mem_cons_self)

/-- Only statements of `run` are run by the processor that boots. -/
theorem Reached.bsp_kind (reached : Reached system)
    (runs : Runs system roster.bsp statement rest memory machine next) :
    statement.kind ∈ bspKinds :=
  reached.bsp_left_mem (runs.left_eq ▸ List.mem_cons_self)

theorem Reached.kind_mem (reached : Reached system)
    (runs : Runs system cpu statement rest memory machine next) :
    statement.kind ∈ apKinds ++ bspKinds :=
  reached.left_mem (runs.left_eq ▸ List.mem_cons_self)

/-- A statement that only `run` has is run by the processor that boots. -/
theorem Reached.eq_bsp (reached : Reached system)
    (runs : Runs system cpu statement rest memory machine next)
    (foreign : statement.kind ∉ apKinds) :
    cpu = roster.bsp := by
  by_contra ap
  exact foreign (reached.ap_kind runs ap)

/-- A cell changes by a statement that writes to it, or by a handler. -/
theorem Moves.cells_cases (moves : Moves system cpu memory core) (cell : Cell)
    (acknowledged : cell ≠ .ipiAckMask) (signed : cell ≠ .timerMask) :
    memory.cells cell = system.shared.cells cell ∨
      ∃ statement rest machine next, Runs system cpu statement rest memory machine next ∧
        core = (system.own cpu).follow machine next ∧ statement.kind.writes cell = true := by
  rcases moves.runs_or_aside with ⟨statement, rest, machine, next, runs, rfl⟩ | aside
  · cases writes : statement.kind.writes cell with
    | false => exact .inl (runs.confined.cells cell writes)
    | true => exact .inr ⟨statement, rest, machine, next, runs, rfl, writes⟩
  · exact .inl (aside.cells cell acknowledged signed)

/-- The phase follows the stores of the processor that boots. -/
theorem Reached.phase (reached : Reached system) :
    (1 ≤ system.shared.cells .phase → Kind.store .phase 1 ∉ left system roster.bsp) ∧
      (2 ≤ system.shared.cells .phase → Kind.store .phase 2 ∉ left system roster.bsp) := by
  refine reached.invariant (motive := fun system =>
    (1 ≤ system.shared.cells .phase → Kind.store .phase 1 ∉ left system roster.bsp) ∧
      (2 ≤ system.shared.cells .phase → Kind.store .phase 2 ∉ left system roster.bsp))
    ⟨fun (first : 1 ≤ (0 : UInt64)) => absurd first (by decide),
      fun (second : 2 ≤ (0 : UInt64)) => absurd second (by decide)⟩ ?_
  intro system mover memory core reached holds moves
  have fewer := moves.left_subset roster.bsp
  rcases moves.cells_cases .phase (by decide) (by decide) with
    same | ⟨statement, rest, machine, next, runs, rfl, writes⟩
  · rw [Interleaved.put_shared, same]
    exact ⟨fun first todo => holds.1 first (fewer todo),
      fun second todo => holds.2 second (fewer todo)⟩
  · obtain rfl : mover = roster.bsp := reached.eq_bsp runs fun listed =>
      absurd writes ((by decide : ∀ kind ∈ apKinds, ¬kind.writes .phase = true) _ listed)
    have stores := (by decide : ∀ kind ∈ bspKinds, kind.writes .phase = true →
      kind = .store .phase 1 ∨ kind = .store .phase 2) _ (reached.bsp_kind runs) writes
    have suffix := reached.bsp_left (motive := fun kinds =>
      (kinds.head? = some (.store .phase 1) → Kind.store .phase 1 ∉ kinds.tail) ∧
        (kinds.head? = some (.store .phase 2) →
          Kind.store .phase 1 ∉ kinds.tail ∧ Kind.store .phase 2 ∉ kinds.tail)) (by decide)
    rw [runs.left_eq] at suffix
    rcases stores with kind_eq | kind_eq
    all_goals
      rw [kind_eq] at suffix
      obtain rfl := Statement.kind_eq_store.mp kind_eq
      obtain ⟨chance, stepped⟩ := runs.stepped
      cases stepped
      rw [runs.left_done]
    · exact ⟨fun _ => suffix.1 rfl, fun second => absurd second (by
        rw [Interleaved.put_shared, BootMemory.put_cells]
        decide)⟩
    · exact ⟨fun _ => (suffix.2 rfl).1, fun _ => (suffix.2 rfl).2⟩

/-- Nobody is past the first wait before the first phase, nor past the second before the second. -/
theorem Reached.past_await (reached : Reached system) (ap : cpu ≠ roster.bsp) :
    (Kind.await .phase 1 ∉ left system cpu → Kind.store .phase 1 ∉ left system roster.bsp) ∧
      (Kind.await .phase 2 ∉ left system cpu → Kind.store .phase 2 ∉ left system roster.bsp) := by
  have passed {system : Boot roster} {least : UInt64} {statement : Statement roster.cpus}
      {rest : List (Statement roster.cpus)} {memory : BootMemory roster.cpus} {machine : Machine}
      (runs : Runs system cpu statement rest memory machine .done)
      (kind_eq : statement.kind = .await .phase least) : least ≤ system.shared.cells .phase := by
    obtain rfl := Statement.kind_eq_await.mp kind_eq
    obtain ⟨chance, stepped⟩ := runs.stepped
    by_contra early
    simp [Statement.step, UInt64.not_le.mp early] at stepped
  constructor
  · refine reached.past ?_ fun _ _ _ _ _ reached runs kind_eq =>
      reached.phase.1 (passed runs kind_eq)
    rw [programOf_ap ap]
    exact (by decide : Kind.await .phase 1 ∈ apKinds)
  · refine reached.past ?_ fun _ _ _ _ _ reached runs kind_eq =>
      reached.phase.2 (passed runs kind_eq)
    rw [programOf_ap ap]
    exact (by decide : Kind.await .phase 2 ∈ apKinds)

/-- A processor is started after the mask of the processors that are online is set up. -/
theorem Reached.started (reached : Reached system) (started : system.shared.started cpu = true) :
    Kind.storeBit .onlineMask ∉ left system roster.bsp := by
  refine reached.invariant (motive := fun system => system.shared.started cpu = true →
    Kind.storeBit .onlineMask ∉ left system roster.bsp) (by rintro ⟨⟩) ?_ started
  intro system mover memory core reached holds moves started todo
  have before := moves.left_subset roster.bsp todo
  rcases moves.runs_or_aside with ⟨statement, rest, machine, next, runs, rfl⟩ | aside
  · by_cases kind_eq : statement.kind = .start
    swap
    · rw [Interleaved.put_shared, runs.confined.started kind_eq] at started
      exact holds started before
    obtain rfl := reached.eq_bsp runs (by rw [kind_eq]; decide)
    have suffix := reached.bsp_left (motive := fun kinds => kinds.head? = some Kind.start →
      Kind.storeBit .onlineMask ∉ kinds) (by decide)
    rw [runs.left_eq, kind_eq] at suffix before
    exact suffix rfl before
  · rw [Interleaved.put_shared, aside.started] at started
    exact holds started before

theorem Reached.past_sleep (reached : Reached system) (ap : cpu ≠ roster.bsp) :
    Kind.sleep ∉ left system cpu → Kind.storeBit .onlineMask ∉ left system roster.bsp := by
  refine reached.past ?_ ?_
  · rw [programOf_ap ap]
    exact (by decide : Kind.sleep ∈ apKinds)
  · intro system statement rest memory machine reached runs kind_eq
    obtain rfl := Statement.kind_eq_sleep.mp kind_eq
    obtain ⟨chance, stepped⟩ := runs.stepped
    have started : system.shared.started cpu = true := by
      by_contra asleep
      simp [Statement.step, asleep] at stepped
    exact reached.started started

end Boot

end Bulla.Platform
