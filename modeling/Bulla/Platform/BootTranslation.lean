import Bulla.Platform.BootShootdown

/-!
# What the processors see during the boot

A processor that may hold the old test page is due an interrupt, and drops the page before it
acknowledges.  So every processor reads the page that its phase expects, the message is the one that
was sent, and nothing stale is ever counted.
-/

namespace Bulla.Platform

open Rust Outcome

theorem Icr.sends_of_not_fails {icr : Icr} (accepts : ¬icr.fails = true) : icr.sends = true := by
  cases icr <;> simp_all [Icr.sends, Icr.fails]

theorem BootMemory.interrupt_pending {cpus : ℕ} {memory : BootMemory cpus} {vector : Vector}
    {cpu : Fin cpus} (pending : memory.pending vector cpu = true) (raised : Vector)
    (target : Fin cpus) : (memory.interrupt raised target).pending vector cpu = true := by
  by_cases same : vector = raised
  · subst same
    by_cases raised_here : cpu = target
    · rw [raised_here, interrupt_pending_self]
    · rwa [interrupt_pending_of_ne raised_here]
  · rw [interrupt, setPending_of_ne same]
    exact pending

namespace Statement

variable {cpus : ℕ} {statement : Statement cpus}

theorem kind_eq_remap {page : TestPage} :
    statement.kind = .remap page ↔ statement = .remap page := by
  cases statement <;> simp [kind]

theorem kind_eq_invlpg : statement.kind = .invlpg ↔ statement = .invlpg := by
  cases statement <;> simp [kind]

theorem kind_eq_send {cpu : Fin cpus} (unsent : cpu ∈ statement.unsent) :
    statement.kind = .send := by
  by_contra other
  rw [unsent_eq_nil other] at unsent
  cases unsent

end Statement

namespace Boot

open Statement (Kind)

variable {roster : Roster} {system : Boot roster} {cpu other : Fin roster.cpus}
  {statement : Statement roster.cpus} {rest program : List (Statement roster.cpus)}
  {memory : BootMemory roster.cpus} {core : Core roster.cpus} {machine : Machine}
  {next : Next roster.cpus}

/-- The test page is exchanged once. -/
theorem Reached.entry_cases (reached : Reached system) (moves : Moves system cpu memory core) :
    memory.entry = system.shared.entry ∨
      memory.entry = .b ∧ Kind.remap .b ∉ left (system.put cpu memory core) roster.bsp := by
  rcases moves.runs_or_aside with ⟨statement, rest, machine, next, runs, rfl⟩ | aside
  swap
  · exact .inl aside.entry
  by_cases maps : ∃ page, statement.kind = .remap page
  · obtain ⟨page, kind_eq⟩ := maps
    obtain rfl := Statement.kind_eq_remap.mp kind_eq
    obtain rfl := reached.eq_bsp runs (by simp [apKinds, apProgram, Statement.kind])
    obtain rfl : page = .b := by
      have listed := reached.bsp_kind runs
      simpa [bspKinds, bspProgram, Statement.kind] using listed
    have once := reached.bsp_left (motive := fun kinds =>
      kinds.head? = some (.remap .b) → Kind.remap .b ∉ kinds.tail) (by decide)
    rw [runs.left_eq] at once
    obtain ⟨chance, stepped⟩ := runs.stepped
    cases stepped
    rw [runs.left_done]
    exact .inr ⟨rfl, once rfl⟩
  · exact .inl (runs.confined.entry fun page same => maps ⟨page, same⟩)

theorem Reached.entry_old (reached : Reached system)
    (todo : Kind.remap .b ∈ left system roster.bsp) : system.shared.entry = .a := by
  refine reached.invariant (motive := fun system => Kind.remap .b ∈ left system roster.bsp →
    system.shared.entry = .a) (fun _ => rfl) ?_ todo
  intro system mover memory core reached holds moves todo
  rcases reached.entry_cases moves with same | ⟨_, done⟩
  · exact same.trans (holds (moves.left_subset _ todo))
  · exact absurd todo done

theorem Reached.entry_new (reached : Reached system)
    (done : Kind.remap .b ∉ left system roster.bsp) : system.shared.entry = .b := by
  refine reached.milestone (motive := fun system => system.shared.entry = .b) ?_ ?_ ?_ done
  · rw [programOf_bsp]
    exact (by decide : Kind.remap .b ∈ bspKinds)
  · intro system mover memory core reached moves old
    rcases reached.entry_cases moves with same | ⟨exchanged, _⟩
    · exact same.trans old
    · exact exchanged
  · intro system statement rest memory machine _ runs kind_eq _
    obtain rfl := Statement.kind_eq_remap.mp kind_eq
    obtain ⟨chance, stepped⟩ := runs.stepped
    cases stepped
    rfl

/-- A processor drops what it holds for the test page, or walks the tables. -/
theorem Moves.tlb_cases (moves : Moves system cpu memory core) :
    core.machine.tlb = (system.own cpu).machine.tlb ∨ core.machine.tlb = none ∨
      core.machine.tlb = some system.shared.entry := by
  cases moves with
  | rested | ticked => exact .inl rfl
  | delivered => exact .inl rfl
  | @handled handler =>
      cases handler with
      | flushing => exact .inr (.inl rfl)
      | acknowledging | signing | leaving => exact .inl rfl
  | @cached tlb walked =>
      cases tlb with
      | none => exact .inr (.inl rfl)
      | some page => exact .inr (.inr (congrArg some (walked page rfl)))
  | @ran statement rest memory machine next runs =>
      have machine_eq : ((system.own cpu).follow machine next).machine = machine := by
        cases next <;> rfl
      rw [machine_eq]
      by_cases flushes : statement.kind = .invlpg
      · obtain rfl := Statement.kind_eq_invlpg.mp flushes
        obtain ⟨chance, stepped⟩ := runs.stepped
        cases stepped
        exact .inr (.inl rfl)
      · exact .inl (runs.confined.tlb flushes)

/-- A page that the entry does not lead to is not held again. -/
theorem Moves.dropped {page : TestPage} (moves : Moves system cpu memory core)
    (entry_ne : system.shared.entry ≠ page) (dropped : (system.own other).machine.tlb ≠ some page) :
    ((system.put cpu memory core).own other).machine.tlb ≠ some page := by
  by_cases same : other = cpu
  · subst same
    rw [Interleaved.put_own]
    rcases moves.tlb_cases with tlb_eq | tlb_eq | tlb_eq <;> rw [tlb_eq]
    · exact dropped
    · exact (Option.some_ne_none _).symm
    · exact fun held => entry_ne (Option.some.inj held)
  · rw [Interleaved.put_own_of_ne same]
    exact dropped

/-- Before the exchange nobody holds the new page. -/
theorem Reached.tlb_old (reached : Reached system) (todo : Kind.remap .b ∈ left system roster.bsp)
    (cpu : Fin roster.cpus) : (system.own cpu).machine.tlb ≠ some .b := by
  refine reached.invariant (motive := fun system => Kind.remap .b ∈ left system roster.bsp →
    (system.own cpu).machine.tlb ≠ some .b) (fun _ => (Option.some_ne_none _).symm) ?_ todo
  intro system mover memory core reached holds moves todo
  have before := moves.left_subset _ todo
  refine moves.dropped ?_ (holds before)
  rw [reached.entry_old before]
  decide

/-- After the exchange, a processor that does not hold the old page will not hold it again. -/
theorem Reached.dropped (reached : Reached system) (moves : Moves system cpu memory core)
    (done : Kind.remap .b ∉ left system roster.bsp)
    (dropped : (system.own other).machine.tlb ≠ some .a) :
    ((system.put cpu memory core).own other).machine.tlb ≠ some .a := by
  refine moves.dropped ?_ dropped
  rw [reached.entry_new done]
  decide

section Reminders

/-- The processor that boots has yet to send a processor an interrupt. -/
def Owed (system : Boot roster) (cpu : Fin roster.cpus) : Prop :=
  ∃ statement ∈ (system.own roster.bsp).program, cpu ∈ statement.unsent

/-- A processor will drop what it holds for the test page before it acknowledges. -/
def Reminded (system : Boot roster) (cpu : Fin roster.cpus) : Prop :=
  Owed system cpu ∨ system.shared.pending .ipi cpu = true ∨
    (system.own cpu).machine.handler = some .flushing

/-- What a statement of the processor that boots is due to do for a processor stays due until it is
done. -/
theorem Moves.due {view : Statement roster.cpus → List (Fin roster.cpus)} {served : Prop}
    (moves : Moves system cpu memory core)
    (due : ∃ statement ∈ (system.own roster.bsp).program, other ∈ view statement)
    (serves : ∀ statement rest machine next,
      Runs system roster.bsp statement rest memory machine next → other ∈ view statement →
        (∃ later, next = .stay later ∧ other ∈ view later) ∨
          (∃ error, next = .stop error) ∨ served) :
    (∃ statement ∈ ((system.put cpu memory core).own roster.bsp).program, other ∈ view statement) ∨
      served := by
  by_cases boots : roster.bsp = cpu
  swap
  · rw [Interleaved.put_own_of_ne boots]
    exact .inl due
  subst boots
  rw [Interleaved.put_own]
  rcases moves.runs_or_aside with ⟨statement, rest, machine, next, runs, rfl⟩ | aside
  swap
  · rw [aside.program]
    exact .inl due
  obtain ⟨server, member, waits⟩ := due
  rw [runs.front, List.mem_cons] at member
  rcases member with rfl | behind
  · rcases serves server rest machine next runs waits with
      ⟨later, rfl, waits⟩ | ⟨error, rfl⟩ | served
    · exact .inl ⟨later, List.mem_cons_self, waits⟩
    · refine .inl ⟨server, ?_, waits⟩
      rw [Core.follow, runs.front]
      exact List.mem_cons_self
    · exact .inr served
  · refine .inl ⟨server, ?_, waits⟩
    cases next with
    | stay next =>
        rw [Core.follow, runs.front]
        exact List.mem_cons_of_mem _ behind
    | done =>
        rw [Core.follow, runs.front]
        exact behind
    | stop error =>
        rw [Core.follow, runs.front]
        exact List.mem_cons_of_mem _ behind

/-- What is owed stays owed until it is sent. -/
theorem Moves.owed (moves : Moves system cpu memory core) (owed : Owed system other) :
    Owed (system.put cpu memory core) other ∨ memory.pending .ipi other = true := by
  refine moves.due owed ?_
  intro statement rest machine next runs unsent
  cases statement with
  | send targets =>
      cases targets with
      | nil => cases unsent
      | cons target targets =>
          cases runs.sends with
          | accepted =>
              rcases List.mem_cons.mp unsent with rfl | later
              · exact .inr (.inr BootMemory.interrupt_pending_self)
              · exact .inl ⟨.send targets, rfl, later⟩
          | failed => exact .inr (.inl ⟨_, rfl⟩)
  | _ => cases unsent

/-- The statements that send interrupts take none back. -/
theorem Runs.pending {vector : Vector} (runs : Runs system cpu statement rest memory machine next)
    (pending : system.shared.pending vector other = true) :
    memory.pending vector other = true := by
  cases sends : statement.kind.sends vector with
  | false => rwa [runs.confined.pending vector sends]
  | true =>
      obtain ⟨chance, stepped⟩ := runs.stepped
      have sent (target : Fin roster.cpus) (raised : Vector) :
          (if chance.icr.sends then system.shared.interrupt raised target
            else system.shared).pending vector other = true := by
        split
        · exact BootMemory.interrupt_pending pending _ _
        · exact pending
      cases statement with
      | send targets =>
          cases targets with
          | nil =>
              cases stepped
              exact pending
          | cons target targets =>
              cases stepped
              exact sent _ _
      | broker missing targets =>
          cases missing with
          | some missing =>
              cases stepped
              exact sent _ _
          | none =>
              cases targets <;> cases stepped <;> exact pending
      | armTimer heeded armer =>
          cases armer with
          | sending =>
              cases stepped
              exact sent _ _
          | arming | checking | counting =>
              cases stepped
              exact pending
      | _ => cases sends

/-- An interrupt stays pending until it is taken. -/
theorem Moves.pending {vector : Vector} (moves : Moves system cpu memory core)
    (pending : system.shared.pending vector other = true) :
    memory.pending vector other = true ∨
      other = cpu ∧ core.machine.handler = some vector.handler := by
  cases moves with
  | rested | cached => exact .inl pending
  | ticked => exact .inl (BootMemory.interrupt_pending pending _ _)
  | @handled handler => cases handler <;> exact .inl pending
  | @delivered taken =>
      by_cases taken_eq : vector = taken
      · subst taken_eq
        by_cases same : other = cpu
        · exact .inr ⟨same, rfl⟩
        · left
          rw [take, BootMemory.setPending_pending, Function.update_of_ne same]
          exact pending
      · left
        rw [take, BootMemory.setPending_of_ne taken_eq]
        exact pending
  | ran runs => exact .inl (runs.pending pending)

/-- The handler of an interrupt drops what the processor holds for the test page. -/
theorem Moves.flushing (moves : Moves system cpu memory core)
    (entered : (system.own cpu).machine.handler = some .flushing) :
    core.machine.handler = some .flushing ∨ core.machine.tlb = none := by
  cases moves with
  | rested | ticked | cached => exact .inl entered
  | handled handles =>
      rw [entered] at handles
      cases handles
      exact .inr rfl
  | delivered _ free =>
      rw [entered] at free
      cases free
  | ran runs =>
      have free := runs.free
      rw [entered] at free
      cases free

/-- A reminder is not lost. -/
theorem Moves.reminded (moves : Moves system cpu memory core) (reminded : Reminded system other) :
    Reminded (system.put cpu memory core) other ∨
      ((system.put cpu memory core).own other).machine.tlb ≠ some .a := by
  rcases reminded with owed | pending | entered
  · rcases moves.owed owed with owed | pending
    · exact .inl (.inl owed)
    · exact .inl (.inr (.inl pending))
  · rcases moves.pending pending with pending | ⟨rfl, entered⟩
    · exact .inl (.inr (.inl pending))
    · refine .inl (.inr (.inr ?_))
      rw [Interleaved.put_own]
      exact entered
  · by_cases same : other = cpu
    · subst same
      rw [Reminded, Interleaved.put_own]
      rcases moves.flushing entered with entered | dropped
      · exact .inl (.inr (.inr entered))
      · right
        rw [dropped]
        exact (Option.some_ne_none _).symm
    · refine .inl (.inr (.inr ?_))
      rwa [Interleaved.put_own_of_ne same]

/-- After the exchange, whoever may hold the old page is due an interrupt. -/
theorem Reached.reminded (reached : Reached system) (ap : cpu ≠ roster.bsp)
    (done : Kind.remap .b ∉ left system roster.bsp) :
    Reminded system cpu ∨ (system.own cpu).machine.tlb ≠ some .a := by
  refine (reached.milestone (motive := fun system => Kind.remap .b ∉ left system roster.bsp ∧
    (Reminded system cpu ∨ (system.own cpu).machine.tlb ≠ some .a)) ?_ ?_ ?_ done).2
  · rw [programOf_bsp]
    exact (by decide : Kind.remap .b ∈ bspKinds)
  · intro system mover memory core reached moves ⟨done, holds⟩
    refine ⟨fun todo => done (moves.left_subset _ todo), ?_⟩
    rcases holds with reminded | dropped
    · exact moves.reminded reminded
    · exact .inr (reached.dropped moves done dropped)
  · intro system statement rest memory machine reached runs kind_eq once
    have suffix := reached.bsp_left (motive := fun kinds => kinds.head? = some (.remap .b) →
      Kind.send ∈ kinds.tail) (by decide)
    rw [runs.left_eq, kind_eq] at suffix
    refine ⟨by rw [runs.left_done]; exact once, .inl (.inl ?_)⟩
    -- The interrupts that come next are as they were written: one for each processor.
    obtain ⟨sender, member, sender_kind⟩ := List.mem_map.mp (suffix rfl)
    have written := (reached.agenda roster.bsp).mem_program (by rw [runs.front]; exact member)
    rw [programOf_bsp] at written
    obtain rfl := (by simp [bspProgram, Statement.kind] : ∀ statement ∈ bspProgram roster.aps,
      statement.kind = .send → statement = .send roster.aps) sender written sender_kind
    refine ⟨.send roster.aps, ?_, Roster.mem_aps.mpr ap⟩
    rw [Interleaved.put_own, Core.follow, runs.front]
    exact member

/-- The processor that boots drops the old page itself. -/
theorem Reached.bsp_dropped (reached : Reached system)
    (done : Kind.invlpg ∉ left system roster.bsp) :
    (system.own roster.bsp).machine.tlb ≠ some .a := by
  refine (reached.milestone (motive := fun system => Kind.remap .b ∉ left system roster.bsp ∧
    (system.own roster.bsp).machine.tlb ≠ some .a) ?_ ?_ ?_ done).2
  · rw [programOf_bsp]
    exact (by decide : Kind.invlpg ∈ bspKinds)
  · intro system mover memory core reached moves ⟨done, dropped⟩
    exact ⟨fun todo => done (moves.left_subset _ todo), reached.dropped moves done dropped⟩
  · intro system statement rest memory machine reached runs kind_eq _
    have suffix := reached.bsp_left (motive := fun kinds => kinds.head? = some .invlpg →
      Kind.remap .b ∉ kinds.tail) (by decide)
    rw [runs.left_eq, kind_eq] at suffix
    obtain rfl := Statement.kind_eq_invlpg.mp kind_eq
    obtain ⟨chance, stepped⟩ := runs.stepped
    cases stepped
    rw [runs.left_done, Interleaved.put_own]
    exact ⟨suffix rfl, (Option.some_ne_none _).symm⟩

/-- When the second round of interrupts has ended, nobody holds the old page. -/
theorem Reached.all_dropped (reached : Reached system)
    (done : Kind.waitForMask .ipiAckMask .aps .tlb ∉ left system roster.bsp)
    (cpu : Fin roster.cpus) : (system.own cpu).machine.tlb ≠ some .a := by
  refine (reached.milestone (motive := fun system => Kind.remap .b ∉ left system roster.bsp ∧
    (system.own cpu).machine.tlb ≠ some .a) ?_ ?_ ?_ done).2
  · rw [programOf_bsp]
    exact (by decide : Kind.waitForMask .ipiAckMask .aps .tlb ∈ bspKinds)
  · intro system mover memory core reached moves ⟨done, dropped⟩
    exact ⟨fun todo => done (moves.left_subset _ todo), reached.dropped moves done dropped⟩
  · intro system statement rest memory machine reached runs kind_eq _
    have suffix := reached.bsp_left (motive := fun kinds =>
      kinds.head? = some (.waitForMask .ipiAckMask .aps .tlb) →
        Kind.remap .b ∉ kinds ∧ Kind.invlpg ∉ kinds ∧ Kind.send ∉ kinds) (by decide)
    have head : (left system roster.bsp).head? = some (.waitForMask .ipiAckMask .aps .tlb) := by
      rw [runs.left_eq, kind_eq]
      rfl
    obtain ⟨mapped, flushed, sent⟩ := suffix head
    have moves := Moves.ran runs
    refine ⟨fun todo => mapped (moves.left_subset _ todo), reached.dropped moves mapped ?_⟩
    by_cases boots : cpu = roster.bsp
    · subst boots
      exact reached.bsp_dropped flushed
    · rcases reached.reminded boots mapped with reminded | dropped
      swap
      · exact dropped
      exfalso
      rcases reminded with ⟨sender, member, unsent⟩ | pending | entered
      · exact sent (List.mem_map.mpr ⟨sender, member, Statement.kind_eq_send unsent⟩)
      all_goals
        cases statement with
        | waitForMask cell crew error polls =>
            obtain ⟨rfl, rfl, rfl⟩ : cell = .ipiAckMask ∧ crew = .aps ∧ error = .tlb := by
              simpa [Statement.kind] using kind_eq
            refine reached.interrupts.collected reached runs boots ?_
            first | exact .inl pending | exact .inr (.inl entered)
        | _ => cases kind_eq

end Reminders

/-- Every processor sees the page that its phase expects. -/
theorem Reached.probe_reads {expected : TestPage} {mask : Cell} {prober : Prober}
    (reached : Reached system)
    (runs : Runs system cpu (.probe expected mask prober) rest memory machine next) :
    (system.own cpu).machine.tlb.getD system.shared.entry = expected := by
  have listed : (expected = .a ∧ mask = .tlbPreMask) ∨ (expected = .b ∧ mask = .tlbPostMask) := by
    by_cases boots : cpu = roster.bsp
    · subst boots
      simpa [bspKinds, bspProgram, Statement.kind] using reached.bsp_kind runs
    · simpa [apKinds, apProgram, Statement.kind] using reached.ap_kind runs boots
  rcases listed with ⟨rfl, rfl⟩ | ⟨rfl, rfl⟩
  · -- Nobody is past the wait for the mask that this processor has not signed.
    have todo : Kind.remap .b ∈ left system roster.bsp := by
      by_contra mapped
      have passed := reached.bsp_left (motive := fun kinds =>
        Kind.waitForMask .tlbPreMask .all .scheduler ∈ kinds → Kind.remap .b ∈ kinds) (by decide)
      have signed := reached.all_signed rfl (by decide) (fun waits => mapped (passed waits)) cpu
      rw [runs.signed_iff] at signed
      simp [Statement.signs] at signed
    have entry_eq := reached.entry_old todo
    have held := reached.tlb_old todo cpu
    cases tlb_eq : (system.own cpu).machine.tlb with
    | none => exact entry_eq
    | some page => cases page <;> simp_all
  · have done : Kind.waitForMask .ipiAckMask .aps .tlb ∉ left system roster.bsp := by
      by_cases boots : cpu = roster.bsp
      · subst boots
        refine reached.bsp_left (motive := fun kinds =>
          kinds.head? = some (.probe .b .tlbPostMask) →
            Kind.waitForMask .ipiAckMask .aps .tlb ∉ kinds) (by decide) ?_
        rw [runs.left_eq]
        rfl
      · have passed := reached.ap_left boots (motive := fun kinds =>
          kinds.head? = some (.probe .b .tlbPostMask) → Kind.await .phase 2 ∉ kinds) (by decide)
          (by rw [runs.left_eq]; rfl)
        have released := (reached.past_await boots).2 passed
        have order := reached.bsp_left (motive := fun kinds =>
          Kind.waitForMask .ipiAckMask .aps .tlb ∈ kinds → Kind.store .phase 2 ∈ kinds) (by decide)
        exact fun waits => released (order waits)
    have mapped : Kind.remap .b ∉ left system roster.bsp := fun todo =>
      done (reached.bsp_left (motive := fun kinds => Kind.remap .b ∈ kinds →
        Kind.waitForMask .ipiAckMask .aps .tlb ∈ kinds) (by decide) todo)
    have entry_eq := reached.entry_new mapped
    have held := reached.all_dropped done cpu
    cases tlb_eq : (system.own cpu).machine.tlb with
    | none => exact entry_eq
    | some page => cases page <;> simp_all

section Message

/-- A cell that is stored to once has the value from then on. -/
theorem Reached.stored {cell : Cell} {value : UInt64} (reached : Reached system)
    (written : Kind.store cell value ∈ bspKinds) (plain : cell ≠ .ipiAckMask ∧ cell ≠ .timerMask)
    (only : ∀ kind ∈ apKinds ++ bspKinds, kind.writes cell = true → kind = .store cell value)
    (done : Kind.store cell value ∉ left system roster.bsp) : system.shared.cells cell = value := by
  refine reached.milestone (motive := fun system => system.shared.cells cell = value) ?_ ?_ ?_ done
  · rw [programOf_bsp]
    exact written
  · intro system mover memory core reached moves holds
    rw [Interleaved.put_shared]
    rcases moves.cells_cases cell plain.1 plain.2 with
      same | ⟨statement, rest, machine, next, runs, rfl, writes⟩
    · exact same.trans holds
    · obtain rfl := Statement.kind_eq_store.mp (only _ (reached.kind_mem runs) writes)
      obtain ⟨chance, stepped⟩ := runs.stepped
      cases stepped
      exact BootMemory.put_cells
  · intro system statement rest memory machine _ runs kind_eq _
    obtain rfl := Statement.kind_eq_store.mp kind_eq
    obtain ⟨chance, stepped⟩ := runs.stepped
    cases stepped
    exact BootMemory.put_cells

/-- The word is in its place when it is announced. -/
theorem Reached.payload (reached : Reached system)
    (done : Kind.store .messagePayload Statement.released ∉ left system roster.bsp) :
    system.shared.cells .messagePayload = Statement.released :=
  reached.stored (by decide) (by decide) (by decide) done

/-- The word is announced by the processor that boots. -/
theorem Reached.announced (reached : Reached system)
    (ready : system.shared.cells .messageReady ≠ 0) :
    Kind.store .messageReady 1 ∉ left system roster.bsp := by
  refine reached.invariant (motive := fun system => system.shared.cells .messageReady ≠ 0 →
    Kind.store .messageReady 1 ∉ left system roster.bsp) (fun ready => absurd rfl ready) ?_ ready
  intro system mover memory core reached holds moves ready
  rcases moves.cells_cases .messageReady (by decide) (by decide) with
    same | ⟨statement, rest, machine, next, runs, rfl, writes⟩
  · rw [Interleaved.put_shared, same] at ready
    exact fun todo => holds ready (moves.left_subset _ todo)
  · obtain rfl := reached.eq_bsp runs fun listed =>
      absurd writes ((by decide : ∀ kind ∈ apKinds, ¬kind.writes .messageReady = true) _ listed)
    have stores := (by decide : ∀ kind ∈ bspKinds, kind.writes .messageReady = true →
      kind = .store .messageReady 1) _ (reached.bsp_kind runs) writes
    have once := reached.bsp_left (motive := fun kinds =>
      kinds.head? = some (.store .messageReady 1) → Kind.store .messageReady 1 ∉ kinds.tail)
      (by decide)
    rw [runs.left_eq, stores] at once
    obtain rfl := Statement.kind_eq_store.mp stores
    obtain ⟨chance, stepped⟩ := runs.stepped
    cases stepped
    rw [runs.left_done]
    exact once rfl

end Message

end Boot

namespace Statement

variable {cpus : ℕ} {statement : Statement cpus}

/-- A statement that is about to count nothing stale; the message is read once it is `announced`. -/
def Fresh (announced : Prop) : Statement cpus → Prop
  | .message .reading => announced
  | .message .reporting => False
  | .probe expected _ (.storing observed) => observed = expected.word
  | .probe _ _ .reporting => False
  | _ => True

theorem Fresh.mono {before after : Prop} (fresh : statement.Fresh before) (later : before → after) :
    statement.Fresh after := by
  cases statement with
  | message messenger => cases messenger <;> first | exact later fresh | exact fresh
  | probe expected mask prober => cases prober <;> exact fresh
  | _ => trivial

theorem fresh_of_kind {announced : Prop} (speaks : statement.kind ≠ .message)
    (looks : ∀ expected mask, statement.kind ≠ .probe expected mask) :
    statement.Fresh announced := by
  cases statement with
  | message => exact absurd rfl speaks
  | probe => exact absurd rfl (looks _ _)
  | _ => trivial

end Statement

namespace Boot

open Statement (Kind)

variable {roster : Roster} {system : Boot roster} {cpu : Fin roster.cpus}
  {statement : Statement roster.cpus} {rest : List (Statement roster.cpus)}
  {memory : BootMemory roster.cpus} {machine : Machine}

/-- The processor that boots has announced the message. -/
def Announced (system : Boot roster) : Prop := Kind.store .messageReady 1 ∉ left system roster.bsp

/-- A statement goes on without counting anything stale. -/
theorem Reached.fresh_next {next : Statement roster.cpus} (reached : Reached system)
    (runs : Runs system cpu statement rest memory machine (.stay next))
    (fresh : statement.Fresh (Announced system)) : next.Fresh (Announced system) := by
  obtain ⟨chance, stepped⟩ := runs.stepped
  cases statement with
  | message messenger =>
      cases messenger with
      | polling =>
          cases stepped
          by_cases ready : system.shared.cells .messageReady = 0
          · rw [if_pos ready]
            trivial
          · rw [if_neg ready]
            exact reached.announced ready
      | reading =>
          have written : Kind.store .messagePayload Statement.released ∉ left system roster.bsp :=
            fun todo => fresh (reached.bsp_left (motive := fun kinds =>
              Kind.store .messagePayload Statement.released ∈ kinds →
                Kind.store .messageReady 1 ∈ kinds) (by decide) todo)
          cases stepped
          rw [if_neg (not_not.mpr (reached.payload written))]
          trivial
      | reporting => cases fresh
      | marking => cases stepped
  | probe expected mask prober =>
      cases prober with
      | reading =>
          have reads := reached.probe_reads runs
          cases stepped
          exact congrArg TestPage.word reads
      | storing observed =>
          have reads : observed = expected.word := fresh
          cases stepped
          rw [if_neg (not_not.mpr reads)]
          trivial
      | reporting => cases fresh
      | marking => cases stepped
  | _ =>
      have same := runs.confined.kind next rfl
      refine Statement.fresh_of_kind ?_ ?_ <;> rw [same] <;> simp [Statement.kind]

theorem Reached.fresh (reached : Reached system) (cpu : Fin roster.cpus) :
    ∀ statement ∈ (system.own cpu).program, statement.Fresh (Announced system) := by
  refine reached.invariant (motive := fun system => ∀ statement ∈ (system.own cpu).program,
    statement.Fresh (Announced system)) ?_ ?_
  · change ∀ statement ∈ programOf roster cpu, statement.Fresh _
    unfold programOf
    split <;> simp [bspProgram, apProgram, Statement.Fresh]
  · intro system mover memory core reached holds moves
    have later : Announced system → Announced (system.put mover memory core) :=
      fun announced todo => announced (moves.left_subset _ todo)
    have kept : ∀ statement ∈ (system.own cpu).program,
        statement.Fresh (Announced (system.put mover memory core)) :=
      fun statement member => (holds statement member).mono later
    by_cases same : cpu = mover
    swap
    · rw [Interleaved.put_own_of_ne same]
      exact kept
    subst same
    rw [Interleaved.put_own]
    rcases moves.runs_or_aside with ⟨statement, rest, machine, next, runs, rfl⟩ | aside
    swap
    · rw [aside.program]
      exact kept
    refine runs.forall_follow kept ?_
    rintro next rfl
    have front := holds statement (runs.front ▸ List.mem_cons_self)
    exact (reached.fresh_next runs front).mono later

/-- Nothing stale is ever counted. -/
theorem Reached.stale (reached : Reached system) :
    system.shared.cells .messageStale = 0 ∧ system.shared.cells .tlbStale = 0 := by
  refine reached.invariant (motive := fun system =>
    system.shared.cells .messageStale = 0 ∧ system.shared.cells .tlbStale = 0) ⟨rfl, rfl⟩ ?_
  intro system mover memory core reached holds moves
  rw [Interleaved.put_shared]
  rcases moves.runs_or_aside with ⟨statement, rest, machine, next, runs, rfl⟩ | aside
  swap
  · rwa [aside.cells _ (by decide) (by decide), aside.cells _ (by decide) (by decide)]
  have fresh := reached.fresh mover statement (runs.front ▸ List.mem_cons_self)
  obtain ⟨chance, stepped⟩ := runs.stepped
  cases statement with
  | message messenger =>
      cases messenger with
      | polling | reading =>
          cases stepped
          exact holds
      | reporting => cases fresh
      | marking =>
          cases stepped
          exact ⟨(BootMemory.put_cells_of_ne (by decide)).trans holds.1,
            (BootMemory.put_cells_of_ne (by decide)).trans holds.2⟩
  | probe expected mask prober =>
      cases prober with
      | reading | storing =>
          cases stepped
          exact holds
      | reporting => cases fresh
      | marking =>
          have listed : Kind.probe expected mask ∈ apKinds ++ bspKinds := reached.kind_mem runs
          have plain : mask ≠ .messageStale ∧ mask ≠ .tlbStale := by
            constructor <;> rintro rfl <;> cases expected <;> revert listed <;> decide
          cases stepped
          exact ⟨(BootMemory.put_cells_of_ne plain.1.symm).trans holds.1,
            (BootMemory.put_cells_of_ne plain.2.symm).trans holds.2⟩
  | swapStale =>
      cases stepped
      exact ⟨(BootMemory.put_cells_of_ne (by decide)).trans holds.1, BootMemory.put_cells⟩
  | _ =>
      have listed := reached.kind_mem runs
      have plain := (by decide : ∀ kind ∈ apKinds ++ bspKinds,
        kind.writes .messageStale = true ∨ kind.writes .tlbStale = true →
          kind = .message ∨ kind = .swapStale ∨ kind = .probe .a .tlbPreMask ∨
            kind = .probe .b .tlbPostMask) _ listed
      have spared {cell : Cell} (stale : cell = .messageStale ∨ cell = .tlbStale) :
          memory.cells cell = system.shared.cells cell := by
        refine runs.confined.cells cell ?_
        by_contra writes
        rcases stale with rfl | rfl
        · simpa [Statement.kind] using plain (.inl (Bool.eq_true_of_not_eq_false writes))
        · simpa [Statement.kind] using plain (.inr (Bool.eq_true_of_not_eq_false writes))
      rw [spared (.inl rfl), spared (.inr rfl)]
      exact holds

end Boot

end Bulla.Platform
