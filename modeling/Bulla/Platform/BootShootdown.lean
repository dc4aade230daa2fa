import Bulla.Platform.BootMasks

/-!
# Interrupts and translations in the boot protocol

An interrupt is sent in a round: the mask of the acknowledgements is cleared, every other processor
is sent one interrupt, and the mask is waited for.  A processor drops what it holds for the test
page before it acknowledges.  So when the second round ends, which follows the exchange of the page,
no processor holds the old page, and none can get it again.
-/

namespace Bulla.Platform

open Rust Outcome

/-- Where the processor that boots is in a round of interrupts. -/
inductive Round (cpus : ℕ) where
  | clearing
  | sending (targets : List (Fin cpus))
  | collecting
  | settled

/-- No interrupt of a round is on its way to a processor. -/
def Round.Quiet {cpus : ℕ} (cpu : Fin cpus) : Round cpus → Prop
  | .sending targets => cpu ∈ targets
  | .collecting => False
  | _ => True

namespace Statement

variable {cpus : ℕ}

/-- What a statement has to do with a round. -/
def round : Statement cpus → Option (Round cpus)
  | .store .ipiAckMask _ => some .clearing
  | .send targets => some (.sending targets)
  | .waitForMask .ipiAckMask _ _ _ => some .collecting
  | _ => none

/-- Who is yet to be sent an interrupt. -/
def unsent : Statement cpus → List (Fin cpus)
  | .send targets => targets
  | _ => []

def Kind.isRound : Kind → Bool
  | .store .ipiAckMask _ | .send | .waitForMask .ipiAckMask _ _ => true
  | _ => false

theorem isSome_round (statement : Statement cpus) :
    statement.round.isSome = statement.kind.isRound := by
  cases statement with
  | store cell | waitForMask cell => cases cell <;> rfl
  | _ => rfl

theorem round_eq_none {statement : Statement cpus} (other : statement.kind.isRound = false) :
    statement.round = none := by
  rw [← Option.not_isSome_iff_eq_none, isSome_round, other]
  exact Bool.false_ne_true

theorem unsent_eq_nil {statement : Statement cpus} (other : statement.kind ≠ .send) :
    statement.unsent = [] := by
  cases statement with
  | send => exact absurd rfl other
  | _ => rfl

/-- The round is that of the first statement that has to do with one. -/
theorem exists_part_round {program : List (Statement cpus)} {kind : Kind}
    (first : (program.map Statement.kind).find? Kind.isRound = some kind) :
    ∃ statement ∈ program, statement.kind = kind ∧
      Agenda.part Statement.round .settled program = statement.round.getD .settled := by
  induction program with
  | nil => cases first
  | cons statement program induction =>
      rw [List.map_cons, List.find?_cons] at first
      cases other : statement.kind.isRound with
      | true =>
          rw [other, Option.some.injEq] at first
          obtain ⟨round, shown⟩ :=
            Option.isSome_iff_exists.mp ((isSome_round statement).trans other)
          refine ⟨statement, List.mem_cons_self, first, ?_⟩
          rw [shown]
          exact Agenda.part_cons_of_some shown
      | false =>
          rw [other] at first
          obtain ⟨later, member, kind_eq, part_eq⟩ := induction first
          refine ⟨later, List.mem_cons_of_mem _ member, kind_eq, ?_⟩
          rw [Agenda.part_cons_of_none (round_eq_none other)]
          exact part_eq

theorem part_round_of_find {program : List (Statement cpus)} {kind : Kind} {round : Round cpus}
    (first : (program.map Statement.kind).find? Kind.isRound = some kind)
    (shows : ∀ statement : Statement cpus, statement.kind = kind → statement.round = some round) :
    Agenda.part Statement.round .settled program = round := by
  obtain ⟨statement, _, kind_eq, part_eq⟩ := exists_part_round first
  rw [part_eq, shows statement kind_eq, Option.getD_some]

theorem part_round_of_find_none {program : List (Statement cpus)}
    (none : (program.map Statement.kind).find? Kind.isRound = none) :
    Agenda.part Statement.round .settled program = .settled := by
  refine Agenda.part_of_forall_none fun statement member => round_eq_none ?_
  have unseen := List.find?_eq_none.mp none _ (List.mem_map_of_mem member)
  simpa using unseen

end Statement

namespace Boot

open Statement (Kind)

variable {roster : Roster} {system : Boot roster} {cpu other : Fin roster.cpus}
  {statement : Statement roster.cpus} {rest program : List (Statement roster.cpus)}
  {memory : BootMemory roster.cpus} {core : Core roster.cpus} {machine : Machine}
  {next : Next roster.cpus}

/-- The round of interrupts that a boot is in. -/
def round (system : Boot roster) : Round roster.cpus :=
  Agenda.part Statement.round .settled (system.own roster.bsp).program

theorem round_eq {shown : Round roster.cpus}
    (front : (system.own roster.bsp).program = statement :: rest)
    (shows : statement.round = some shown) : round system = shown := by
  rw [round, front]
  exact Agenda.part_cons_of_some shows

/-- The handler of a processor has not acknowledged yet. -/
def Handling (core : Core roster.cpus) : Prop :=
  core.machine.handler = some .flushing ∨ core.machine.handler = some .acknowledging

/-- An interrupt is on its way to a processor and back. -/
def Awaited (system : Boot roster) (cpu : Fin roster.cpus) : Prop :=
  system.shared.pending .ipi cpu = true ∨ Handling (system.own cpu)

/-- A processor has acknowledged in this round. -/
def acknowledged (system : Boot roster) (cpu : Fin roster.cpus) : Bool :=
  bit (system.shared.cells .ipiAckMask) (roster.id cpu).toNat

/-- What is known of the interrupts at every moment. -/
structure Interrupts (system : Boot roster) : Prop where
  quiet : (system.own roster.bsp).stopped = none → ∀ cpu, cpu ≠ roster.bsp →
    (round system).Quiet cpu → ¬Awaited system cpu
  cleared : (system.own roster.bsp).stopped = none → ∀ targets, round system = .sending targets →
    ∀ cpu, cpu ≠ roster.bsp → cpu ∈ targets → acknowledged system cpu = false
  unacknowledged : ∀ cpu, cpu ≠ roster.bsp → Awaited system cpu → acknowledged system cpu = false
  single : ∀ cpu, cpu ≠ roster.bsp → Handling (system.own cpu) →
    system.shared.pending .ipi cpu = false

theorem interrupts_start : Interrupts (start roster) := by
  have calm (cpu : Fin roster.cpus) : ¬Awaited (start roster) cpu := by
    simp [Awaited, Handling, start]
  refine ⟨fun _ cpu _ _ => calm cpu, ?_, fun cpu _ awaited => absurd awaited (calm cpu), ?_⟩
  · intro _ targets _ cpu _ _
    exact bit_zero _
  · exact fun cpu _ _ => rfl

/-- What is left of `run` is what it was. -/
theorem round_put (program_eq : cpu = roster.bsp →
      Agenda.part Statement.round .settled core.program = round system) :
    round (system.put cpu memory core) = round system := by
  by_cases boots : roster.bsp = cpu
  · subst boots
    rw [round, Interleaved.put_own]
    exact program_eq rfl
  · rw [round, Interleaved.put_own_of_ne boots, round]

/-- Within a round, a move may help an interrupt along, but sends none and acknowledges only for a
processor that has one. -/
theorem Interrupts.within (holds : Interrupts system)
    (round_eq : round (system.put cpu memory core) = round system)
    (running : core.stopped = none → (system.own cpu).stopped = none)
    (calm : ∀ other, other ≠ roster.bsp → ¬Awaited system other →
      ¬Awaited (system.put cpu memory core) other ∧
        acknowledged (system.put cpu memory core) other = acknowledged system other)
    (kept : ∀ other, other ≠ roster.bsp → Awaited (system.put cpu memory core) other →
      acknowledged (system.put cpu memory core) other = acknowledged system other)
    (single : ∀ other, other ≠ roster.bsp → Handling ((system.put cpu memory core).own other) →
      memory.pending .ipi other = false) : Interrupts (system.put cpu memory core) := by
  have still_running (after : ((system.put cpu memory core).own roster.bsp).stopped = none) :
      (system.own roster.bsp).stopped = none := by
    by_cases boots : roster.bsp = cpu
    · subst boots
      rw [Interleaved.put_own] at after
      exact running after
    · rwa [Interleaved.put_own_of_ne boots] at after
  refine ⟨?_, ?_, ?_, single⟩
  · intro after other ap quiet
    exact (calm other ap (holds.quiet (still_running after) other ap (round_eq ▸ quiet))).1
  · intro after targets sending other ap member
    rw [round_eq] at sending
    have quiet : ¬Awaited system other :=
      holds.quiet (still_running after) other ap (by rw [sending]; exact member)
    rw [(calm other ap quiet).2]
    exact holds.cleared (still_running after) targets sending other ap member
  · intro other ap awaited
    rw [kept other ap awaited]
    refine holds.unacknowledged other ap ?_
    by_contra quiet
    exact (calm other ap quiet).1 awaited

/-- A move that has nothing to do with interrupts. -/
theorem Interrupts.aside (holds : Interrupts system)
    (round_eq : round (system.put cpu memory core) = round system)
    (running : core.stopped = none → (system.own cpu).stopped = none)
    (pending_eq : memory.pending .ipi = system.shared.pending .ipi)
    (mask_eq : memory.cells .ipiAckMask = system.shared.cells .ipiAckMask)
    (handling_iff : cpu ≠ roster.bsp → (Handling core ↔ Handling (system.own cpu))) :
    Interrupts (system.put cpu memory core) := by
  have handling_put {other : Fin roster.cpus} (ap : other ≠ roster.bsp) :
      Handling ((system.put cpu memory core).own other) ↔ Handling (system.own other) := by
    by_cases same : other = cpu
    · subst same
      rw [Interleaved.put_own, handling_iff ap]
    · rw [Interleaved.put_own_of_ne same]
  have acknowledged_eq (other : Fin roster.cpus) :
      acknowledged (system.put cpu memory core) other = acknowledged system other := by
    rw [acknowledged, Interleaved.put_shared, mask_eq, acknowledged]
  refine holds.within round_eq running ?_ (fun other _ _ => acknowledged_eq other) ?_
  · intro other ap calm
    rw [Awaited, Interleaved.put_shared, pending_eq, handling_put ap]
    exact ⟨calm, acknowledged_eq other⟩
  · intro other ap handling
    rw [pending_eq]
    exact holds.single other ap ((handling_put ap).mp handling)

/-- An interrupt that a processor takes stays on its way. -/
theorem Interrupts.deliver (holds : Interrupts system)
    (pending : system.shared.pending .ipi cpu = true) :
    Interrupts (system.put cpu (take system.shared cpu (system.own cpu) .ipi).1
      (take system.shared cpu (system.own cpu) .ipi).2) := by
  refine holds.within (round_put (by rintro rfl; rfl)) id ?_ (fun _ _ _ => rfl) ?_
  · intro other ap calm
    have distinct : other ≠ cpu := by
      rintro rfl
      exact calm (.inl pending)
    rw [Awaited, Interleaved.put_own_of_ne distinct, Interleaved.put_shared, take,
      BootMemory.setPending_pending, Function.update_of_ne distinct]
    exact ⟨calm, rfl⟩
  · intro other ap handling
    rw [take, BootMemory.setPending_pending]
    by_cases same : other = cpu
    · rw [same, Function.update_self]
    · rw [Interleaved.put_own_of_ne same] at handling
      rw [Function.update_of_ne same]
      exact holds.single other ap handling

/-- A processor acknowledges its interrupt. -/
theorem Interrupts.acknowledge (holds : Interrupts system)
    (entered : (system.own cpu).machine.handler = some .acknowledging) :
    Interrupts (system.put cpu (system.shared.fetchOr .ipiAckMask (roster.member cpu))
      { system.own cpu with
        machine := { (system.own cpu).machine with handler := some .leaving } }) := by
  have other_bits {other : Fin roster.cpus} (distinct : other ≠ cpu) :
      acknowledged (system.put cpu (system.shared.fetchOr .ipiAckMask (roster.member cpu))
        { system.own cpu with
          machine := { (system.own cpu).machine with handler := some .leaving } }) other =
        acknowledged system other := by
    have id_ne : (roster.id cpu).toNat ≠ (roster.id other).toNat := fun same =>
      distinct (Roster.id_inj.mp (UInt32.toNat_inj.mp same.symm))
    simp [acknowledged, Roster.bit_member, id_ne]
  refine holds.within (round_put (by rintro rfl; rfl)) id ?_ ?_ ?_
  · intro other ap calm
    have distinct : other ≠ cpu := by
      rintro rfl
      exact calm (.inr (.inr entered))
    refine ⟨?_, other_bits distinct⟩
    rw [Awaited, Interleaved.put_own_of_ne distinct]
    exact calm
  · intro other ap awaited
    refine other_bits ?_
    rintro rfl
    have unsent := holds.single other ap (.inr entered)
    rcases awaited with pending | handling
    · have pending : system.shared.pending .ipi other = true := pending
      rw [unsent] at pending
      cases pending
    · simp [Handling] at handling
  · intro other ap handling
    by_cases same : other = cpu
    · subst same
      simp [Handling] at handling
    · rw [Interleaved.put_own_of_ne same] at handling
      exact holds.single other ap handling

/-- The interrupts that are left go to processors that are left. -/
theorem Reached.unsent_suffix (reached : Reached system) :
    ∀ statement ∈ (system.own roster.bsp).program, statement.unsent <:+ roster.aps := by
  refine reached.invariant (motive := fun system =>
    ∀ statement ∈ (system.own roster.bsp).program, statement.unsent <:+ roster.aps) ?_ ?_
  · change ∀ statement ∈ programOf roster roster.bsp, statement.unsent <:+ roster.aps
    rw [programOf_bsp]
    simp [bspProgram, Statement.unsent]
  · intro system mover memory core reached holds moves
    by_cases boots : roster.bsp = mover
    · subst boots
      rw [Interleaved.put_own]
      rcases moves.runs_or_aside with ⟨statement, rest, machine, next, runs, rfl⟩ | aside
      · refine runs.forall_follow holds ?_
        rintro next rfl
        by_cases sends : statement.kind = .send
        · cases statement with
          | send targets =>
              cases targets with
              | nil =>
                  obtain ⟨chance, stepped⟩ := runs.stepped
                  cases stepped
              | cons target targets =>
                  have listed : target :: targets <:+ roster.aps :=
                    holds (.send (target :: targets)) (runs.front ▸ List.mem_cons_self)
                  cases runs.sends
                  exact (List.suffix_cons target targets).trans listed
          | _ => cases sends
        · rw [Statement.unsent_eq_nil (runs.confined.kind next rfl ▸ sends)]
          exact List.nil_suffix
      · rw [aside.program]
        exact holds
    · rw [Interleaved.put_own_of_ne boots]
      exact holds

section Sends

variable {target : Fin roster.cpus} {targets : List (Fin roster.cpus)}

/-- The interrupts of a round go to the other processors, to each of them once. -/
theorem Reached.send_target (reached : Reached system)
    (runs : Runs system roster.bsp (.send (target :: targets)) rest memory machine next) :
    target ≠ roster.bsp ∧ target ∉ targets := by
  have listed : target :: targets <:+ roster.aps :=
    reached.unsent_suffix (.send (target :: targets)) (runs.front ▸ List.mem_cons_self)
  exact ⟨Roster.mem_aps.mp (listed.subset List.mem_cons_self),
    (List.nodup_cons.mp (Roster.aps_nodup.sublist listed.sublist)).1⟩

/-- As long as the APIC takes the commands, the others are still to come. -/
theorem Runs.round_sends
    (runs : Runs system roster.bsp (.send (target :: targets)) rest memory machine next)
    (going : ((system.put roster.bsp memory
      ((system.own roster.bsp).follow machine next)).own roster.bsp).stopped = none) :
    round (system.put roster.bsp memory ((system.own roster.bsp).follow machine next)) =
      .sending targets := by
  rw [Interleaved.put_own] at going
  cases runs.sends with
  | accepted =>
      rw [round, Interleaved.put_own, Core.follow]
      exact Agenda.part_cons_of_some rfl
  | failed => cases going

end Sends

/-- What the processor that boots does to itself is no matter. -/
theorem awaited_put_bsp (ap : other ≠ roster.bsp) :
    Awaited (system.put roster.bsp memory core) other ↔
      memory.pending .ipi other = true ∨ Handling (system.own other) := by
  rw [Awaited, Interleaved.put_own_of_ne ap, Interleaved.put_shared]

section Run

variable (reached : Reached system) (holds : Interrupts system)

include reached holds

/-- A statement that has nothing to do with interrupts. -/
theorem Interrupts.run (runs : Runs system cpu statement rest memory machine next)
    (other : statement.kind.isRound = false) :
    Interrupts (system.put cpu memory ((system.own cpu).follow machine next)) := by
  have spared : statement.kind.writes .ipiAckMask = false :=
    (by decide : ∀ kind ∈ apKinds ++ bspKinds, kind.isRound = false →
      kind.writes .ipiAckMask = false) _ (reached.kind_mem runs) other
  have unsent : statement.kind.sends .ipi = false :=
    (by decide : ∀ kind ∈ apKinds ++ bspKinds, kind.isRound = false →
      kind.sends .ipi = false) _ (reached.kind_mem runs) other
  refine holds.aside (round_put ?_) (fun _ => runs.running) (runs.confined.pending .ipi unsent)
    (runs.confined.cells .ipiAckMask spared) ?_
  · rintro rfl
    exact runs.part_follow fun statement same => Statement.round_eq_none (same ▸ other)
  · intro ap
    have plain (vector : Vector) : statement.kind ≠ .interrupt vector := by
      have listed := reached.ap_kind runs ap
      rintro same
      rw [same] at listed
      revert listed
      cases vector <;> decide
    have handler_eq : ((system.own cpu).follow machine next).machine.handler =
        (system.own cpu).machine.handler := by
      rw [← runs.confined.handler plain]
      cases next <;> rfl
    rw [Handling, handler_eq, Handling]

/-- The mask of the acknowledgements is cleared between two rounds. -/
theorem Interrupts.clear {value : UInt64}
    (runs : Runs system cpu (.store .ipiAckMask value) rest memory machine next) :
    Interrupts (system.put cpu memory ((system.own cpu).follow machine next)) := by
  obtain rfl := reached.eq_bsp runs (by simp [apKinds, apProgram, Statement.kind])
  obtain rfl : value = 0 := by
    have listed := reached.bsp_kind runs
    simpa [bspKinds, bspProgram, Statement.kind] using listed
  have clearing : round system = .clearing := round_eq runs.front rfl
  obtain ⟨chance, stepped⟩ := runs.stepped
  cases stepped
  have cleared (other : Fin roster.cpus) :
      bit ((system.shared.put .ipiAckMask 0).cells .ipiAckMask) (roster.id other).toNat =
        false := by
    rw [BootMemory.put_cells, bit_zero]
  refine ⟨?_, fun _ _ _ other _ _ => cleared other, fun other _ _ => cleared other, ?_⟩
  · intro _ other ap _
    rw [awaited_put_bsp ap]
    exact holds.quiet runs.running other ap (by rw [clearing]; trivial)
  · intro other ap handling
    rw [Interleaved.put_own_of_ne ap] at handling
    exact holds.single other ap handling

/-- The last interrupt of a round is sent. -/
theorem Interrupts.sent (runs : Runs system cpu (.send []) rest memory machine next) :
    Interrupts (system.put cpu memory ((system.own cpu).follow machine next)) := by
  obtain rfl := reached.eq_bsp runs (by simp [apKinds, apProgram, Statement.kind])
  have collects := reached.bsp_left (motive := fun kinds => kinds.head? = some Kind.send →
    ∃ error ∈ [PostFirmwareError.ipi, .tlb],
      kinds.tail.find? Kind.isRound = some (.waitForMask .ipiAckMask .aps error)) (by decide)
  rw [runs.left_eq] at collects
  obtain ⟨error, _, first⟩ := collects rfl
  obtain ⟨chance, stepped⟩ := runs.stepped
  cases stepped
  have collecting : round (system.put roster.bsp system.shared
      ((system.own roster.bsp).follow (system.own roster.bsp).machine .done)) = .collecting := by
    rw [round, Interleaved.put_own, Core.follow, runs.front]
    refine Statement.part_round_of_find first fun statement same => ?_
    cases statement <;> simp_all [Statement.kind, Statement.round]
  refine ⟨?_, ?_, ?_, ?_⟩
  · intro _ other _ quiet
    rw [collecting] at quiet
    exact quiet.elim
  · intro _ targets sending
    rw [collecting] at sending
    cases sending
  · intro other ap awaited
    exact holds.unacknowledged other ap ((awaited_put_bsp ap).mp awaited)
  · intro other ap handling
    rw [Interleaved.put_own_of_ne ap] at handling
    exact holds.single other ap handling

/-- An interrupt is sent to a processor that has none and has not acknowledged. -/
theorem Interrupts.send {target : Fin roster.cpus} {targets : List (Fin roster.cpus)}
    (runs : Runs system cpu (.send (target :: targets)) rest memory machine next) :
    Interrupts (system.put cpu memory ((system.own cpu).follow machine next)) := by
  obtain rfl := reached.eq_bsp runs (by simp [apKinds, apProgram, Statement.kind])
  have sending : round system = .sending (target :: targets) := round_eq runs.front rfl
  have calm (other) (ap : other ≠ roster.bsp) (member : other ∈ target :: targets) :
      ¬Awaited system other ∧ acknowledged system other = false :=
    ⟨holds.quiet runs.running other ap (by rw [sending]; exact member),
      holds.cleared runs.running _ sending other ap member⟩
  have mask_eq : memory.cells = system.shared.cells := by
    rcases runs.sends.memory_eq with rfl | rfl <;> rfl
  have pending_eq {other : Fin roster.cpus} (distinct : other ≠ target) :
      memory.pending .ipi other = system.shared.pending .ipi other := by
    rcases runs.sends.memory_eq with rfl | rfl
    · exact BootMemory.interrupt_pending_of_ne distinct
    · rfl
  have awaited_iff {other : Fin roster.cpus} (ap : other ≠ roster.bsp) (distinct : other ≠ target) :
      Awaited (system.put roster.bsp memory ((system.own roster.bsp).follow machine next)) other ↔
        Awaited system other := by
    rw [awaited_put_bsp ap, pending_eq distinct, Awaited]
  have acknowledged_eq (other : Fin roster.cpus) :
      acknowledged (system.put roster.bsp memory
        ((system.own roster.bsp).follow machine next)) other = acknowledged system other := by
    rw [acknowledged, Interleaved.put_shared, mask_eq, acknowledged]
  refine ⟨?_, ?_, ?_, ?_⟩
  · intro going other ap quiet
    rw [runs.round_sends going] at quiet
    rw [awaited_iff ap (ne_of_mem_of_not_mem quiet (reached.send_target runs).2)]
    exact (calm other ap (List.mem_cons_of_mem _ quiet)).1
  · intro going others others_eq other ap member
    rw [runs.round_sends going] at others_eq
    cases others_eq
    rw [acknowledged_eq]
    exact (calm other ap (List.mem_cons_of_mem _ member)).2
  · intro other ap awaited
    rw [acknowledged_eq]
    by_cases same : other = target
    · subst same
      exact (calm other ap List.mem_cons_self).2
    · exact holds.unacknowledged other ap ((awaited_iff ap same).mp awaited)
  · intro other ap handling
    rw [Interleaved.put_own_of_ne ap] at handling
    have distinct : other ≠ target := by
      rintro rfl
      exact (calm other ap List.mem_cons_self).1 (.inr handling)
    rw [Interleaved.put_shared, pending_eq distinct]
    exact holds.single other ap handling

/-- When the wait for the acknowledgements ends, no interrupt is on its way. -/
theorem Interrupts.collected {crew : Crew} {error : PostFirmwareError} {polls : ℕ}
    (runs : Runs system cpu (.waitForMask .ipiAckMask crew error polls) rest memory machine .done)
    (ap : other ≠ roster.bsp) : ¬Awaited system other := by
  obtain rfl := reached.eq_bsp runs (by cases crew <;> simp [apKinds, apProgram, Statement.kind])
  obtain rfl : crew = .aps := by
    have listed := reached.bsp_kind runs
    cases crew with
    | aps => rfl
    | all => simp [bspKinds, bspProgram, Statement.kind] at listed
  obtain ⟨chance, stepped⟩ := runs.stepped
  have full := Statement.poll_eq_done (congrArg (·.2.2) (ok.inj stepped))
  have signed : acknowledged system other = true := by
    have wanted : bit roster.masks.apMask (roster.id other).toNat = true :=
      (Roster.bit_apMask _).mpr ⟨other, ap, rfl⟩
    have both := congrArg (bit · (roster.id other).toNat) full
    rw [Crew.mask, bit_and, wanted, Bool.and_true] at both
    exact both
  intro awaited
  rw [holds.unacknowledged other ap awaited] at signed
  cases signed

/-- The acknowledgements are waited for. -/
theorem Interrupts.collect {crew : Crew} {error : PostFirmwareError} {polls : ℕ}
    (runs : Runs system cpu (.waitForMask .ipiAckMask crew error polls) rest memory machine next) :
    Interrupts (system.put cpu memory ((system.own cpu).follow machine next)) := by
  obtain rfl := reached.eq_bsp runs (by cases crew <;> simp [apKinds, apProgram, Statement.kind])
  have collecting : round system = .collecting := round_eq runs.front rfl
  obtain ⟨chance, stepped⟩ := runs.stepped
  have memory_eq : system.shared = memory := congrArg (·.1) (ok.inj stepped)
  cases next with
  | stay statement =>
      refine holds.aside ?_ (fun _ => runs.running) (by rw [memory_eq]) (by rw [memory_eq])
        (fun ap => (ap rfl).elim)
      rw [collecting, round, Interleaved.put_own, Core.follow]
      refine Agenda.part_cons_of_some ?_
      have same := runs.confined.kind statement rfl
      cases statement <;> simp_all [Statement.kind, Statement.round]
  | stop error =>
      refine holds.aside ?_ (fun running => runs.running) (by rw [memory_eq]) (by rw [memory_eq])
        (fun ap => (ap rfl).elim)
      rw [round, Interleaved.put_own, Core.follow, round]
  | done =>
      have calm {other : Fin roster.cpus} (ap : other ≠ roster.bsp) : ¬Awaited
          (system.put roster.bsp memory ((system.own roster.bsp).follow machine .done)) other := by
        rw [awaited_put_bsp ap, ← memory_eq]
        exact holds.collected reached runs ap
      refine ⟨fun _ other ap _ => calm ap, ?_, fun other ap awaited => absurd awaited (calm ap), ?_⟩
      · intro _ targets sending
        exfalso
        have clears := reached.bsp_left (motive := fun kinds =>
          kinds.head?.any Kind.isRound = true → kinds.head? ≠ some Kind.send →
            kinds.head? ≠ some (Kind.store .ipiAckMask 0) →
            kinds.tail.find? Kind.isRound = none ∨
              kinds.tail.find? Kind.isRound = some (.store .ipiAckMask 0)) (by decide)
        rw [runs.left_eq] at clears
        rw [round, Interleaved.put_own, Core.follow, runs.front, List.tail_cons] at sending
        rcases clears rfl (by simp [Statement.kind]) (by simp [Statement.kind]) with none | first
        · rw [Statement.part_round_of_find_none none] at sending
          cases sending
        · have clearing (statement : Statement roster.cpus)
              (same : statement.kind = .store .ipiAckMask 0) :
              statement.round = some .clearing := by
            rw [Statement.kind_eq_store.mp same]
            rfl
          rw [Statement.part_round_of_find first clearing] at sending
          cases sending
      · intro other ap handling
        rw [Interleaved.put_own_of_ne ap] at handling
        rw [Interleaved.put_shared, ← memory_eq]
        exact holds.single other ap handling

end Run

/-- The rounds of interrupts do not get mixed up. -/
theorem Reached.interrupts (reached : Reached system) : Interrupts system := by
  refine reached.invariant interrupts_start ?_
  intro system mover memory core reached holds moves
  cases moves with
  | rested => simpa using holds
  | @ran statement rest memory machine next runs =>
      cases round : statement.kind.isRound with
      | false => exact holds.run reached runs round
      | true =>
          cases statement with
          | store cell value =>
              cases cell <;> first | exact holds.clear reached runs | cases round
          | send targets =>
              cases targets with
              | nil => exact holds.sent reached runs
              | cons target targets => exact holds.send reached runs
          | waitForMask cell =>
              cases cell <;> first | exact holds.collect reached runs | cases round
          | _ => cases round
  | @handled handler entered =>
      cases handler with
      | acknowledging => exact holds.acknowledge entered
      | flushing | signing | leaving =>
          refine holds.aside (round_put (by rintro rfl; rfl)) id rfl rfl ?_
          simp [Handling, Handler.step, entered]
  | @delivered vector pending free =>
      cases vector with
      | ipi => exact holds.deliver pending
      | timer =>
          refine holds.aside (round_put (by rintro rfl; rfl)) id
            (BootMemory.setPending_of_ne (by decide)) rfl ?_
          simp [Handling, take, Vector.handler, free]
  | ticked =>
      exact holds.aside (round_put (by rintro rfl; rfl)) id
        (BootMemory.setPending_of_ne (by decide)) rfl fun _ => Iff.rfl
  | cached => exact holds.aside (round_put (by rintro rfl; rfl)) id rfl rfl fun _ => Iff.rfl

end Boot

end Bulla.Platform
