import Bulla.Kernel.Sync
import Bulla.Platform.LockOnce

/-!
# The boot lock refines the ticket lock

To draw a ticket is to `enqueue` in a `TicketLock`, to load the owner is to `acquire`, and to store
it is to `release`.  In every schedule the processors see of their counters what they would see of a
`TicketLock`.  No schedule leads to a state from which the processors cannot all return.
-/

namespace Bulla.Platform

open Rust Outcome
open Kernel (TicketLock SyncError)

namespace Locker

/-- The call of the ticket lock that an operation amounts to, and how it ends. -/
def asks : Locker → Locker → Option (TicketLock.Request × Outcome SyncError TicketLock.Reply)
  | .start, .waiting ticket => some (.enqueue, .ok (.ticket ticket))
  | .waiting ticket, .waiting _ => some (.acquire ticket, .err .outOfOrderRelease)
  | .waiting ticket, .entering _ => some (.acquire ticket, .ok (.guard ⟨ticket⟩))
  | .leaving ticket, .electing => some (.release ⟨ticket⟩, .ok .done)
  | _, _ => none

/-- The calls that have succeeded for a processor: one of each kind, in order, with its own
ticket. -/
def Granted : Locker → List TicketLock.Request → Prop
  | .start, calls => calls = []
  | .waiting _, calls => calls = [.enqueue]
  | .entering ticket, calls => calls = [.enqueue, .acquire ticket]
  | .leaving ticket, calls => calls = [.enqueue, .acquire ticket]
  | .electing, calls => ∃ ticket, calls = [.enqueue, .acquire ticket, .release ⟨ticket⟩]
  | .returned, calls => ∃ ticket, calls = [.enqueue, .acquire ticket, .release ⟨ticket⟩]

/-- How far a processor is from its return. -/
def rank : Locker → ℕ
  | .start => 5
  | .waiting _ => 4
  | .entering _ => 3
  | .leaving _ => 2
  | .electing => 1
  | .returned => 0

/-- A processor that can go on comes closer to its return. -/
theorem Moves.rank_lt {cpu : UInt64} {before after : LockCounters} {locker moved : Locker}
    (moves : Moves cpu before locker after moved) (busy : locker ≠ .returned)
    (unblocked : ∀ ticket, locker = .waiting ticket → ticket = before.lockOwner) :
    moved.rank < locker.rank := by
  cases moves with
  | spun unserved => exact absurd (unblocked _ rfl).symm unserved
  | idle => exact absurd rfl busy
  | _ => simp [rank]

/-- A call, if it has succeeded. -/
def success : TicketLock.Request × Outcome SyncError TicketLock.Reply → Option TicketLock.Request
  | (request, .ok _) => some request
  | _ => none

theorem Granted.moves {cpu : UInt64} {before after : LockCounters} {locker moved : Locker}
    {calls : List TicketLock.Request} (granted : locker.Granted calls)
    (moves : Moves cpu before locker after moved) :
    moved.Granted (calls ++ ((locker.asks moved).bind success).toList) := by
  cases moves with
  | drew | spun | admitted | entered | left =>
      obtain rfl := granted
      simp [Granted, asks, success]
  | elected | outrun | idle =>
      obtain ⟨ticket, rfl⟩ := granted
      exact ⟨ticket, rfl⟩

end Locker

namespace Lockers

variable {cpus : ℕ}

/-- The call of the ticket lock that an event amounts to, and how it ends. -/
def asked (occurred : LockEvent cpus) :
    Option (TicketLock.Request × Outcome SyncError TicketLock.Reply) :=
  (occurred.before.own occurred.input).asks (occurred.after.own occurred.input)

def request (occurred : LockEvent cpus) : Option TicketLock.Request :=
  (asked occurred).map (·.1)

/-- A call, how it ended, and the two counters after it. -/
abbrev Observation : Type :=
  (TicketLock.Request × Outcome SyncError TicketLock.Reply) × UInt64 × UInt64

def observed (occurred : LockEvent cpus) : Option Observation :=
  (asked occurred).map fun call =>
    (call, occurred.after.shared.lockNext, occurred.after.shared.lockOwner)

/-- What a call shows of the ticket lock itself. -/
def shown (occurred : TicketLock.LockEvent) : Observation :=
  ((occurred.input, occurred.outcome), occurred.after.next, occurred.after.owner)

/-- The calls that have succeeded for one processor. -/
def granted (cpu : Fin cpus) (past : List (LockEvent cpus)) : List TicketLock.Request :=
  past.filterMap fun occurred =>
    if occurred.input = cpu then (asked occurred).bind Locker.success else none

/-- The processor that writes `POST_ONCE` in an event. -/
def signs (occurred : LockEvent cpus) : Option (Fin cpus) :=
  match occurred.before.own occurred.input with
  | .electing => if occurred.before.shared.once = 0 then some occurred.input else none
  | _ => none

/-- A ticket lock with the same counters. -/
structure Mirrors (system : Lockers cpus) (lock : TicketLock) : Prop where
  queued : Queued system
  next : lock.next = system.shared.lockNext
  owner : lock.owner = system.shared.lockOwner
  sound : ∃ past, TicketLock.Queued past lock

section Mirror

variable {system : Lockers cpus} {lock : TicketLock}

theorem Mirrors.waiting (mirrors : Mirrors system lock) {cpu : Fin cpus} {ticket : UInt64}
    (held : (system.own cpu).ticket = some ticket) : ticket ∈ lock.outstanding := by
  obtain ⟨past, sound⟩ := mirrors.sound
  have between := mirrors.queued.ticket_lt held
  rw [sound.outstanding, mirrors.next, mirrors.owner, UInt64.le_iff_toNat_le,
    UInt64.lt_iff_toNat_lt]
  exact between

/-- The ticket lock answers a call as the processor's operation ends, and its counters follow. -/
theorem Mirrors.moves (mirrors : Mirrors system lock) (fits : cpus < 2 ^ 64) {cpu : Fin cpus}
    {id : UInt64} {after : LockCounters} {locker moved : Locker}
    (own_eq : system.own cpu = locker)
    (moves : Locker.Moves id system.shared locker after moved) :
    (locker.asks moved = none → Mirrors (system.put cpu after moved) lock) ∧
    ∀ call, locker.asks moved = some call → (TicketLock.perform call.1 lock).1 = call.2 ∧
      Mirrors (system.put cpu after moved) (TicketLock.perform call.1 lock).2 := by
  have next_queued := mirrors.queued.moves fits own_eq moves
  have waiting (ticket : UInt64) (held : locker.ticket = some ticket) :
      ticket ∈ lock.outstanding := mirrors.waiting (by rw [own_eq, held])
  obtain ⟨past, sound⟩ := mirrors.sound
  have still (request : TicketLock.Request) :
      ∃ past, TicketLock.Queued past (TicketLock.perform request lock).2 :=
    ⟨_, sound.step (TicketLock.step_perform request lock)⟩
  cases moves with
  | drew =>
      refine ⟨by simp [Locker.asks], ?_⟩
      rintro _ ⟨⟩
      have advanced := mirrors.queued.next_succ fits own_eq
      rw [← mirrors.next] at advanced
      have sound_after := still .enqueue
      rw [TicketLock.perform_enqueue advanced] at sound_after ⊢
      exact ⟨by rw [mirrors.next], next_queued, by simp [mirrors.next], mirrors.owner, sound_after⟩
  | spun unserved =>
      refine ⟨by simp [Locker.asks], ?_⟩
      rintro _ ⟨⟩
      rw [← mirrors.owner] at unserved
      rw [TicketLock.perform_acquire_unserved (waiting _ rfl) unserved.symm]
      exact ⟨rfl, next_queued, mirrors.next, mirrors.owner, past, sound⟩
  | admitted =>
      refine ⟨by simp [Locker.asks], ?_⟩
      rintro _ ⟨⟩
      have served := waiting _ rfl
      rw [← mirrors.owner] at served next_queued ⊢
      rw [TicketLock.perform_acquire_served served]
      exact ⟨rfl, next_queued, mirrors.next, mirrors.owner, past, sound⟩
  | left advanced =>
      refine ⟨by simp [Locker.asks], ?_⟩
      rintro _ ⟨⟩
      have served := waiting _ rfl
      have sound_after := still (.release ⟨lock.owner⟩)
      rw [mirrors.queued.ticket_eq own_eq, ← mirrors.owner] at served advanced ⊢
      rw [TicketLock.perform_release served advanced] at sound_after ⊢
      exact ⟨rfl, next_queued, mirrors.next, rfl, sound_after⟩
  | entered | elected | outrun | idle =>
      exact ⟨fun _ => ⟨next_queued, mirrors.next, mirrors.owner, past, sound⟩,
        by simp [Locker.asks]⟩

end Mirror

section Run

variable (apicIds : Fin cpus → UInt32) {past : List (LockEvent cpus)} {system : Lockers cpus}

theorem mirrors_boot : Mirrors (boot cpus) TicketLock.new :=
  ⟨queued_boot, rfl, rfl, [], TicketLock.queued_new⟩

/-- The processors see what the ticket lock shows when it is called as they call it. -/
theorem observed_run (fits : cpus < 2 ^ 64) (schedule : List (Fin cpus)) :
    (history (perform apicIds) (boot cpus) schedule).filterMap observed =
        (history TicketLock.perform TicketLock.new
          ((history (perform apicIds) (boot cpus) schedule).filterMap request)).map shown ∧
      Mirrors (final (perform apicIds) (boot cpus) schedule)
        (final TicketLock.perform TicketLock.new
          ((history (perform apicIds) (boot cpus) schedule).filterMap request)) := by
  refine filterMap_eq_of_simulation (perform apicIds) ?_ ?_ mirrors_boot schedule
  · intro turn system lock mirrors unasked
    obtain ⟨after, moved, event_eq, moves⟩ := mirrors.queued.exists_moves apicIds turn
    rw [event_eq] at unasked ⊢
    have silent : asked ⟨system, turn, .ok (), system.put turn after moved⟩ = none :=
      Option.map_eq_none_iff.mp unasked
    refine ⟨by rw [observed, silent]; rfl, (mirrors.moves fits rfl moves).1 ?_⟩
    simpa [asked] using silent
  · intro turn system lock called mirrors made
    obtain ⟨after, moved, event_eq, moves⟩ := mirrors.queued.exists_moves apicIds turn
    rw [event_eq] at made ⊢
    obtain ⟨call, call_eq, rfl⟩ := Option.map_eq_some_iff.mp made
    obtain ⟨answered, next⟩ :=
      (mirrors.moves fits rfl moves).2 call (by simpa [asked] using call_eq)
    refine ⟨?_, next⟩
    rw [observed, call_eq, Option.map_some, shown, event, answered, next.next, next.owner]

/-- Each processor gets each kind of call once, in order. -/
theorem granted_run (fits : cpus < 2 ^ 64) (schedule : List (Fin cpus)) (cpu : Fin cpus) :
    ((final (perform apicIds) (boot cpus) schedule).own cpu).Granted
      (granted cpu (history (perform apicIds) (boot cpus) schedule)) := by
  refine run_induction_reached (perform apicIds)
    (motive := fun past system => (system.own cpu).Granted (granted cpu past)) ?_ ?_ schedule
  · rfl
  · intro turns turn so_far
    obtain ⟨after, moved, event_eq, moves⟩ :=
      (queued_run apicIds fits turns).exists_moves apicIds turn
    rw [event_eq, granted, filterMap_snoc, ← granted]
    by_cases same : turn = cpu
    · subst same
      simpa [asked] using so_far.moves moves
    · simpa [same, Interleaved.put_own_of_ne (Ne.symm same)] using so_far

/-- `POST_ONCE` is unwritten and nobody has returned, or one processor has written it. -/
def Elected (past : List (LockEvent cpus)) (system : Lockers cpus) : Prop :=
  (past.filterMap signs = [] ∧ system.shared.once = 0 ∧ ∀ cpu, system.own cpu ≠ .returned) ∨
    ∃ cpu, past.filterMap signs = [cpu] ∧ system.shared.once = (apicIds cpu).toUInt64 + 1

theorem elected_boot : Elected apicIds [] (boot cpus) :=
  .inl ⟨rfl, rfl, fun _ => Locker.noConfusion⟩

theorem Elected.step (elected : Elected apicIds past system) (queued : Queued system)
    (turn : Fin cpus) : Elected apicIds (past ++ [event (perform apicIds) system turn])
      (event (perform apicIds) system turn).after := by
  obtain ⟨after, moved, event_eq, moves⟩ := queued.exists_moves apicIds turn
  have id_lt := apicId_lt apicIds
  rw [event_eq, Elected, filterMap_snoc]
  generalize own_eq : system.own turn = locker at moves
  rcases elected with ⟨unsigned, once_eq, busy⟩ | ⟨winner, signed, once_eq⟩
  · have still_busy (busy_turn : moved ≠ .returned) (cpu : Fin cpus) :
        (system.put turn after moved).own cpu ≠ .returned := by
      by_cases same : cpu = turn
      · rw [same, Interleaved.put_own]
        exact busy_turn
      · rw [Interleaved.put_own_of_ne same]
        exact busy cpu
    cases moves with
    | drew | spun | admitted | entered | left =>
        exact .inl ⟨by simp [signs, own_eq, unsigned], once_eq, still_busy (by simp)⟩
    | @elected once _ value =>
        refine .inr ⟨turn, by simp [signs, own_eq, unsigned, once_eq], ?_⟩
        rw [Interleaved.put_shared, ← UInt64.toNat_inj, toNat_add_one (id_lt turn)]
        exact value
    | outrun taken => exact absurd once_eq taken
    | idle => exact absurd own_eq (busy turn)
  · have taken : system.shared.once ≠ 0 := by
      rw [once_eq, ← UInt64.toNat_inj.ne, toNat_add_one (id_lt winner)]
      simp
    cases moves with
    | elected unsigned => exact absurd unsigned taken
    | drew | spun | admitted | entered | left | outrun | idle =>
        exact .inr ⟨winner, by simp [signs, own_eq, signed, taken], once_eq⟩

theorem elected_run (fits : cpus < 2 ^ 64) (schedule : List (Fin cpus)) :
    Elected apicIds (history (perform apicIds) (boot cpus) schedule)
      (final (perform apicIds) (boot cpus) schedule) := by
  refine run_induction_reached (perform apicIds) (motive := Elected apicIds)
    (elected_boot apicIds) ?_ schedule
  intro turns turn elected
  exact elected.step apicIds (queued_run apicIds fits turns) turn

end Run

section Progress

variable (apicIds : Fin cpus → UInt32) {system : Lockers cpus}

/-- Unless all have returned, there is a processor that can go on: the one whose ticket is served,
if all others wait. -/
theorem Queued.exists_unblocked (queued : Queued system)
    (busy : ∃ cpu, system.own cpu ≠ .returned) :
    ∃ cpu, system.own cpu ≠ .returned ∧
      ∀ ticket, system.own cpu = .waiting ticket → ticket = system.shared.lockOwner := by
  by_contra blocked
  push Not at blocked
  obtain ⟨waiter, waiter_busy⟩ := busy
  obtain ⟨ticket, own_eq, _⟩ := blocked waiter waiter_busy
  have waits : (system.own waiter).ticket = some ticket := by rw [own_eq]; rfl
  have between := queued.ticket_lt waits
  obtain ⟨served, held⟩ := (queued.assigned.held_iff system.shared.lockOwner).mpr ⟨le_rfl, by omega⟩
  have served_busy : system.own served ≠ .returned := by
    intro returned
    rw [tickets, returned] at held
    cases held
  obtain ⟨other, served_eq, unserved⟩ := blocked served served_busy
  rw [tickets, served_eq] at held
  exact unserved (Option.some.inj held)

theorem Queued.exists_progress (queued : Queued system)
    (busy : ∃ cpu, system.own cpu ≠ .returned) :
    ∃ turns, (final (perform apicIds) system turns).tally Locker.rank <
      system.tally Locker.rank := by
  obtain ⟨cpu, cpu_busy, unblocked⟩ := queued.exists_unblocked busy
  obtain ⟨after, moved, event_eq, moves⟩ := queued.exists_moves apicIds cpu
  refine ⟨[cpu], ?_⟩
  have closer := moves.rank_lt cpu_busy unblocked
  have balance := Interleaved.tally_put Locker.rank system cpu after moved
  rw [final, event_eq, final]
  change (system.put cpu after moved).tally Locker.rank < _
  omega

/-- All processors can return, whatever has happened so far. -/
theorem exists_returned (fits : cpus < 2 ^ 64) (schedule : List (Fin cpus)) :
    ∃ later, ∀ cpu,
      (final (perform apicIds) (boot cpus) (schedule ++ later)).own cpu = .returned := by
  refine exists_final_of_progress (perform apicIds)
    (fun system => ∀ cpu, system.own cpu = .returned) (Interleaved.tally Locker.rank)
    (fun turns busy => ?_) schedule
  exact (queued_run apicIds fits turns).exists_progress apicIds (not_forall.mp busy)

end Progress

/-- What holds of the counters and the processors at every point of every schedule. -/
structure Refined (apicIds : Fin cpus → UInt32) (past : List (LockEvent cpus))
    (system : Lockers cpus) : Prop where
  /-- The processors see what a ticket lock shows that is called as they call it. -/
  calls : past.filterMap observed =
    (history TicketLock.perform TicketLock.new (past.filterMap request)).map shown
  next : system.shared.lockNext =
    (final TicketLock.perform TicketLock.new (past.filterMap request)).next
  owner : system.shared.lockOwner =
    (final TicketLock.perform TicketLock.new (past.filterMap request)).owner
  granted : ∀ cpu, (system.own cpu).Granted (granted cpu past)
  exclusive : ∀ cpu other, (system.own cpu).inside = true → (system.own other).inside = true →
    cpu = other
  entries : (∀ cpu, system.own cpu = .returned) → system.shared.lockEntries.toNat = cpus
  elected : Elected apicIds past system
  no_overflow : ∀ occurred ∈ past, occurred.outcome = .ok ()

/-- In every schedule of any number of processors the boot lock is a run of the ticket lock, one
processor at a time is inside, all are counted, and one of them signs `POST_ONCE`.  Every schedule
can be continued until all have returned. -/
theorem lock_once_refines (cpus : UInt64) (apicIds : Fin cpus.toNat → UInt32)
    (schedule : List (Fin cpus.toNat)) :
    Refined apicIds (history (perform apicIds) (boot cpus.toNat) schedule)
      (final (perform apicIds) (boot cpus.toNat) schedule) ∧
    ∃ later, ∀ cpu, (final (perform apicIds) (boot cpus.toNat) (schedule ++ later)).own cpu =
      .returned := by
  have fits := cpus.toNat_lt
  have queued := queued_run apicIds fits schedule
  obtain ⟨calls, mirrors⟩ := observed_run apicIds fits schedule
  refine ⟨⟨calls, mirrors.next.symm, mirrors.owner.symm, granted_run apicIds fits schedule,
    fun _ _ => queued.exclusive, ?_, elected_run apicIds fits schedule, ?_⟩,
    exists_returned apicIds fits schedule⟩
  · intro returned
    rw [queued.entries]
    simp [Interleaved.tally, returned, Locker.counted]
  · intro occurred member
    obtain ⟨earlier, later, _, occurred_eq⟩ := exists_split_of_mem_history _ member
    obtain ⟨after, moved, event_eq, _⟩ :=
      (queued_run apicIds fits earlier).exists_moves apicIds occurred.input
    rw [occurred_eq, event_eq]

end Lockers

end Bulla.Platform
