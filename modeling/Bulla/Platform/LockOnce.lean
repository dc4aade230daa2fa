import Bulla.Interleaving
import Bulla.Rust.History
import Bulla.Rust.Word

/-!
# The boot lock

Every processor runs `lock_once` once.  It draws a ticket, spins until the ticket is served, enters,
serves the next ticket, and then tries to be the first to sign `POST_ONCE`.  Processors are stopped
between any two atomic operations.
-/

namespace Bulla.Platform

open Rust Outcome

/-- The counters that `lock_once` works on. -/
structure LockCounters where
  lockNext : UInt64
  lockOwner : UInt64
  lockEntries : UInt64
  once : UInt64
  deriving DecidableEq, Repr

/-- Where a processor is in `lock_once`: the atomic operation it does next, with the ticket it has
in hand. -/
inductive Locker where
  /-- `POST_LOCK_NEXT.fetch_add(1)`. -/
  | start
  /-- `POST_LOCK_OWNER.load()`. -/
  | waiting (ticket : UInt64)
  /-- `POST_LOCK_ENTRIES.fetch_add(1)`. -/
  | entering (ticket : UInt64)
  /-- `POST_LOCK_OWNER.store(ticket + 1)`. -/
  | leaving (ticket : UInt64)
  /-- `POST_ONCE.compare_exchange(0, cpu + 1)`. -/
  | electing
  | returned
  deriving DecidableEq, Repr

namespace Locker

/-- One atomic operation of the processor `cpu`. -/
def step (cpu : UInt64) (self : LockCounters) : Locker → Outcome Empty (LockCounters × Locker)
  | .start => return ({ self with lockNext := self.lockNext + 1 }, .waiting self.lockNext)
  | .waiting ticket =>
      return (self, if self.lockOwner ≠ ticket then .waiting ticket else .entering ticket)
  | .entering ticket => return ({ self with lockEntries := self.lockEntries + 1 }, .leaving ticket)
  | .leaving ticket => do
      let lockOwner ← unchecked (checkedAdd ticket 1)
      return ({ self with lockOwner }, .electing)
  | .electing => do
      let once ← unchecked (checkedAdd cpu 1)
      return (if self.once = 0 then { self with once } else self, .returned)
  | .returned => return (self, .returned)

/-- The effect of each operation. -/
inductive Moves (cpu : UInt64) (before : LockCounters) : Locker → LockCounters → Locker → Prop
  | drew : Moves cpu before .start { before with lockNext := before.lockNext + 1 }
      (.waiting before.lockNext)
  | spun {ticket : UInt64} (unserved : before.lockOwner ≠ ticket) :
      Moves cpu before (.waiting ticket) before (.waiting ticket)
  | admitted : Moves cpu before (.waiting before.lockOwner) before (.entering before.lockOwner)
  | entered {ticket : UInt64} :
      Moves cpu before (.entering ticket) { before with lockEntries := before.lockEntries + 1 }
        (.leaving ticket)
  | left {ticket lockOwner : UInt64} (advanced : lockOwner.toNat = ticket.toNat + 1) :
      Moves cpu before (.leaving ticket) { before with lockOwner } .electing
  | elected {once : UInt64} (unsigned : before.once = 0) (signed : once.toNat = cpu.toNat + 1) :
      Moves cpu before .electing { before with once } .returned
  | outrun (signed : before.once ≠ 0) : Moves cpu before .electing before .returned
  | idle : Moves cpu before .returned before .returned

/-- The ticket in hand. -/
def ticket : Locker → Option UInt64
  | .waiting ticket => some ticket
  | .entering ticket => some ticket
  | .leaving ticket => some ticket
  | _ => none

/-- Between its successful wait and its store to the owner. -/
def inside : Locker → Bool
  | .entering _ => true
  | .leaving _ => true
  | _ => false

/-- Has drawn a ticket. -/
def drawn : Locker → ℕ
  | .start => 0
  | _ => 1

/-- Counts in `POST_LOCK_ENTRIES`. -/
def counted : Locker → ℕ
  | .start => 0
  | .waiting _ => 0
  | .entering _ => 0
  | .leaving _ => 1
  | .electing => 1
  | .returned => 1

theorem drawn_le_one (locker : Locker) : locker.drawn ≤ 1 := by
  cases locker <;> simp [drawn]

theorem counted_le_one (locker : Locker) : locker.counted ≤ 1 := by
  cases locker <;> simp [counted]

/-- Without overflow every operation is one of the moves. -/
theorem step_moves {cpu : UInt64} {before : LockCounters} {locker : Locker}
    (cpu_lt : cpu.toNat + 1 < 2 ^ 64)
    (ticket_lt : ∀ ticket, locker.ticket = some ticket → ticket.toNat + 1 < 2 ^ 64) :
    ∃ after moved, locker.step cpu before = .ok (after, moved) ∧
      Moves cpu before locker after moved := by
  cases locker with
  | start => exact ⟨_, _, rfl, .drew⟩
  | waiting ticket =>
      by_cases served : before.lockOwner = ticket
      · subst served
        exact ⟨before, .entering before.lockOwner, by simp [step], .admitted⟩
      · exact ⟨before, .waiting ticket, by simp [step, served], .spun served⟩
  | entering ticket => exact ⟨_, _, rfl, .entered⟩
  | leaving ticket =>
      obtain ⟨lockOwner, advanced⟩ := exists_toNat_eq (ticket_lt ticket rfl)
      have sum_eq : checkedAdd ticket 1 = some lockOwner := checkedAdd_eq_some.mpr advanced
      exact ⟨_, _, by rw [step, sum_eq]; rfl, .left advanced⟩
  | electing =>
      obtain ⟨once, signed⟩ := exists_toNat_eq cpu_lt
      have sum_eq : checkedAdd cpu 1 = some once := checkedAdd_eq_some.mpr signed
      by_cases unsigned : before.once = 0
      · exact ⟨{ before with once }, .returned, by simp [step, sum_eq, unsigned],
          .elected unsigned signed⟩
      · exact ⟨before, .returned, by simp [step, sum_eq, unsigned], .outrun unsigned⟩
  | returned => exact ⟨_, _, rfl, .idle⟩

end Locker

/-- The state of all processors. -/
abbrev Lockers (cpus : ℕ) : Type := Interleaved cpus LockCounters Locker

namespace Lockers

variable {cpus : ℕ}

/-- The counters as they are loaded, and every processor about to begin. -/
def boot (cpus : ℕ) : Lockers cpus where
  shared := ⟨0, 0, 0, 0⟩
  own := fun _ => .start

/-- A processor does its next operation.  The ids are those of the table `apic_ids: &[u32]`, widened
for the argument of `lock_once`. -/
def perform (apicIds : Fin cpus → UInt32) (turn : Fin cpus) : Call (Lockers cpus) Empty Unit := do
  let self ← get
  let moved ← (self.own turn).step (apicIds turn).toUInt64 self.shared
  set (self.put turn moved.1 moved.2)

abbrev LockEvent (cpus : ℕ) : Type := Rust.Event (Lockers cpus) (Fin cpus) Empty Unit

/-- Every ticket from `owner` up to `next` is in one hand, and no other ticket is. -/
structure Assigned (tickets : Fin cpus → Option UInt64) (owner next : ℕ) : Prop where
  held_iff : ∀ ticket, (∃ cpu, tickets cpu = some ticket) ↔
    owner ≤ ticket.toNat ∧ ticket.toNat < next
  distinct : ∀ cpu other ticket, tickets cpu = some ticket → tickets other = some ticket →
    cpu = other

namespace Assigned

variable {tickets : Fin cpus → Option UInt64} {owner next : ℕ} {cpu : Fin cpus}

theorem draw (assigned : Assigned tickets owner next) (ordered : owner ≤ next) {drawn : UInt64}
    (none : tickets cpu = none) (drawn_eq : drawn.toNat = next) :
    Assigned (Function.update tickets cpu (some drawn)) owner (next + 1) := by
  have below {ticket : UInt64} {other : Fin cpus} (held : tickets other = some ticket) :
      owner ≤ ticket.toNat ∧ ticket.toNat < next := (assigned.held_iff ticket).mp ⟨other, held⟩
  constructor
  · intro ticket
    constructor
    · rintro ⟨other, held⟩
      by_cases same : other = cpu
      · subst same
        obtain rfl : drawn = ticket := by simpa using held
        omega
      · rw [Function.update_of_ne same] at held
        have held_below := below held
        omega
    · rintro ⟨owner_le, less⟩
      by_cases last : ticket = drawn
      · exact ⟨cpu, by simp [last]⟩
      · rw [← UInt64.toNat_inj] at last
        obtain ⟨other, held⟩ := (assigned.held_iff ticket).mpr ⟨owner_le, by omega⟩
        refine ⟨other, ?_⟩
        rw [Function.update_of_ne, held]
        rintro rfl
        rw [none] at held
        cases held
  · intro left right ticket left_held right_held
    by_cases left_same : left = cpu <;> by_cases right_same : right = cpu
    · rw [left_same, right_same]
    · rw [Function.update_of_ne right_same] at right_held
      have held_below := below right_held
      obtain rfl : drawn = ticket := by simpa [left_same] using left_held
      omega
    · rw [Function.update_of_ne left_same] at left_held
      have held_below := below left_held
      obtain rfl : drawn = ticket := by simpa [right_same] using right_held
      omega
    · rw [Function.update_of_ne left_same] at left_held
      rw [Function.update_of_ne right_same] at right_held
      exact assigned.distinct _ _ _ left_held right_held

theorem retire (assigned : Assigned tickets owner next) {served : UInt64}
    (held : tickets cpu = some served) (served_eq : served.toNat = owner) :
    Assigned (Function.update tickets cpu none) (owner + 1) next := by
  constructor
  · intro ticket
    constructor
    · rintro ⟨other, other_held⟩
      have other_ne : other ≠ cpu := by
        rintro rfl
        simp at other_held
      rw [Function.update_of_ne other_ne] at other_held
      have between := (assigned.held_iff ticket).mp ⟨other, other_held⟩
      have unserved : ticket.toNat ≠ owner := by
        intro same
        obtain rfl : ticket = served := UInt64.toNat_inj.mp (same.trans served_eq.symm)
        exact other_ne (assigned.distinct _ _ _ other_held held)
      omega
    · rintro ⟨owner_lt, less⟩
      obtain ⟨other, other_held⟩ := (assigned.held_iff ticket).mpr ⟨by omega, less⟩
      refine ⟨other, ?_⟩
      rw [Function.update_of_ne, other_held]
      rintro rfl
      obtain rfl : served = ticket := Option.some.inj (held.symm.trans other_held)
      omega
  · intro left right ticket left_held right_held
    have left_ne : left ≠ cpu := by
      rintro rfl
      simp at left_held
    have right_ne : right ≠ cpu := by
      rintro rfl
      simp at right_held
    rw [Function.update_of_ne left_ne] at left_held
    rw [Function.update_of_ne right_ne] at right_held
    exact assigned.distinct _ _ _ left_held right_held

end Assigned

/-- The tickets in all hands. -/
def tickets (system : Lockers cpus) (cpu : Fin cpus) : Option UInt64 := (system.own cpu).ticket

theorem tickets_put (system : Lockers cpus) (cpu : Fin cpus) (shared : LockCounters)
    (moved : Locker) :
    tickets (system.put cpu shared moved) = Function.update (tickets system) cpu moved.ticket := by
  funext other
  by_cases same : other = cpu
  · subst same
    simp [tickets]
  · simp [tickets, Interleaved.put_own_of_ne same, same]

/-- What the counters say about the processors. -/
structure Queued (system : Lockers cpus) : Prop where
  next : system.shared.lockNext.toNat = system.tally Locker.drawn
  entries : system.shared.lockEntries.toNat = system.tally Locker.counted
  ordered : system.shared.lockOwner.toNat ≤ system.shared.lockNext.toNat
  assigned : Assigned (tickets system) system.shared.lockOwner.toNat system.shared.lockNext.toNat
  served : ∀ cpu, (system.own cpu).inside = true →
    (system.own cpu).ticket = some system.shared.lockOwner

theorem queued_boot : Queued (boot cpus) := by
  refine ⟨?_, ?_, Nat.le_refl 0, ⟨?_, ?_⟩, ?_⟩
  · simp [boot, Interleaved.tally, Locker.drawn]
  · simp [boot, Interleaved.tally, Locker.counted]
  · simp [boot, tickets, Locker.ticket]
  · simp [boot, tickets, Locker.ticket]
  · simp [boot, Locker.inside]

section Step

variable {system : Lockers cpus} {cpu other : Fin cpus} {after : LockCounters} {moved : Locker}

theorem Queued.ticket_lt (queued : Queued system) {ticket : UInt64}
    (held : (system.own cpu).ticket = some ticket) :
    system.shared.lockOwner.toNat ≤ ticket.toNat ∧
      ticket.toNat < system.shared.lockNext.toNat :=
  (queued.assigned.held_iff ticket).mp ⟨cpu, held⟩

/-- Nobody else is inside. -/
theorem Queued.exclusive (queued : Queued system) (inside : (system.own cpu).inside = true)
    (other_inside : (system.own other).inside = true) : cpu = other :=
  queued.assigned.distinct _ _ _ (queued.served cpu inside) (queued.served other other_inside)

/-- What one processor has to show so that its step keeps the queue. -/
theorem Queued.put (queued : Queued system)
    (next : after.lockNext.toNat + (system.own cpu).drawn =
      system.shared.lockNext.toNat + moved.drawn)
    (entries : after.lockEntries.toNat + (system.own cpu).counted =
      system.shared.lockEntries.toNat + moved.counted)
    (ordered : after.lockOwner.toNat ≤ after.lockNext.toNat)
    (assigned : Assigned (Function.update (tickets system) cpu moved.ticket)
      after.lockOwner.toNat after.lockNext.toNat)
    (served : moved.inside = true → moved.ticket = some after.lockOwner)
    (others : ∀ other, other ≠ cpu → (system.own other).inside = true →
      (system.own other).ticket = some after.lockOwner) : Queued (system.put cpu after moved) := by
  have drawn := Interleaved.tally_put Locker.drawn system cpu after moved
  have counted := Interleaved.tally_put Locker.counted system cpu after moved
  have all_drawn := queued.next
  have all_counted := queued.entries
  refine ⟨?_, ?_, ordered, ?_, ?_⟩
  · rw [Interleaved.put_shared]
    omega
  · rw [Interleaved.put_shared]
    omega
  · rw [tickets_put]
    exact assigned
  · intro other inside
    by_cases same : other = cpu
    · rw [same, Interleaved.put_own] at inside ⊢
      exact served inside
    · rw [Interleaved.put_own_of_ne same] at inside ⊢
      exact others other same inside

/-- A processor that keeps its ticket, or goes on without one, does not disturb the queue. -/
theorem Queued.stay (queued : Queued system) (next_eq : after.lockNext = system.shared.lockNext)
    (owner_eq : after.lockOwner = system.shared.lockOwner)
    (drawn_eq : moved.drawn = (system.own cpu).drawn)
    (ticket_eq : moved.ticket = (system.own cpu).ticket)
    (entries : after.lockEntries.toNat + (system.own cpu).counted =
      system.shared.lockEntries.toNat + moved.counted)
    (served : moved.inside = true → moved.ticket = some system.shared.lockOwner) :
    Queued (system.put cpu after moved) := by
  have unchanged : Function.update (tickets system) cpu moved.ticket = tickets system := by
    rw [ticket_eq]
    exact Function.update_eq_self cpu (tickets system)
  refine queued.put (by rw [next_eq, drawn_eq]) entries ?_ ?_ ?_ ?_
  · rw [next_eq, owner_eq]
    exact queued.ordered
  · rw [unchanged, next_eq, owner_eq]
    exact queued.assigned
  · rw [owner_eq]
    exact served
  · intro other _ inside
    rw [owner_eq]
    exact queued.served other inside

/-- There are fewer tickets than processors as long as one has none. -/
theorem Queued.next_succ (queued : Queued system) (fits : cpus < 2 ^ 64)
    (own_eq : system.own cpu = .start) :
    (system.shared.lockNext + 1).toNat = system.shared.lockNext.toNat + 1 := by
  have fewer : system.tally Locker.drawn < cpus :=
    Interleaved.tally_lt Locker.drawn_le_one (by rw [own_eq]; rfl)
  refine toNat_add_one ?_
  rw [queued.next]
  omega

theorem Queued.draw (queued : Queued system) (fits : cpus < 2 ^ 64)
    (own_eq : system.own cpu = .start) :
    Queued (system.put cpu { system.shared with lockNext := system.shared.lockNext + 1 }
      (.waiting system.shared.lockNext)) := by
  have next_eq := queued.next_succ fits own_eq
  refine queued.put ?_ ?_ ?_ ?_ (by simp [Locker.inside]) fun other _ => queued.served other
  · rw [own_eq]
    exact next_eq
  · rw [own_eq]
    rfl
  · rw [next_eq]
    exact Nat.le_succ_of_le queued.ordered
  · rw [next_eq]
    exact queued.assigned.draw queued.ordered (by rw [tickets, own_eq]; rfl) rfl

/-- The ticket of a processor inside is the one that is served. -/
theorem Queued.ticket_eq (queued : Queued system) {ticket : UInt64}
    (own_eq : system.own cpu = .leaving ticket) : ticket = system.shared.lockOwner := by
  have served := queued.served cpu (by rw [own_eq]; rfl)
  rw [own_eq] at served
  exact Option.some.inj served

theorem Queued.leave (queued : Queued system) {ticket lockOwner : UInt64}
    (own_eq : system.own cpu = .leaving ticket) (advanced : lockOwner.toNat = ticket.toNat + 1) :
    Queued (system.put cpu { system.shared with lockOwner } .electing) := by
  have inside : (system.own cpu).inside = true := by rw [own_eq]; rfl
  have held : (system.own cpu).ticket = some ticket := by rw [own_eq]; rfl
  have served := queued.ticket_eq own_eq
  refine queued.put ?_ ?_ ?_ ?_ (by simp [Locker.inside]) ?_
  · rw [own_eq]
    rfl
  · rw [own_eq]
    rfl
  · rw [advanced]
    exact (queued.ticket_lt held).2
  · rw [advanced, served]
    exact queued.assigned.retire held (by rw [served])
  · intro other other_ne other_inside
    exact absurd (queued.exclusive other_inside inside) other_ne

/-- Every move keeps the queue. -/
theorem Queued.moves (queued : Queued system) (fits : cpus < 2 ^ 64) {id : UInt64}
    {locker : Locker} (own_eq : system.own cpu = locker)
    (moves : Locker.Moves id system.shared locker after moved) :
    Queued (system.put cpu after moved) := by
  cases moves with
  | drew => exact queued.draw fits own_eq
  | spun => refine queued.stay rfl rfl ?_ ?_ ?_ (by simp [Locker.inside]) <;> rw [own_eq]
  | admitted =>
      refine queued.stay rfl rfl ?_ ?_ ?_ (fun _ => rfl) <;> rw [own_eq] <;> rfl
  | @entered ticket =>
      have fewer : system.tally Locker.counted < cpus :=
        Interleaved.tally_lt Locker.counted_le_one (by rw [own_eq]; rfl)
      have entries_eq : (system.shared.lockEntries + 1).toNat =
          system.shared.lockEntries.toNat + 1 := toNat_add_one (by rw [queued.entries]; omega)
      have served := queued.served cpu (by rw [own_eq]; rfl)
      rw [own_eq] at served
      refine queued.stay rfl rfl ?_ ?_ ?_ (fun _ => served) <;> rw [own_eq]
      · rfl
      · rfl
      · exact entries_eq
  | left advanced => exact queued.leave own_eq advanced
  | elected | outrun | idle =>
      refine queued.stay rfl rfl ?_ ?_ ?_ (by simp [Locker.inside]) <;> rw [own_eq] <;> rfl

end Step

section Run

variable {system : Lockers cpus} (apicIds : Fin cpus → UInt32)

theorem apicId_lt (cpu : Fin cpus) : (apicIds cpu).toUInt64.toNat + 1 < 2 ^ 64 := by
  have id_lt := (apicIds cpu).toNat_lt
  rw [UInt32.toNat_toUInt64]
  omega

/-- No operation overflows, and each is one of the moves. -/
theorem Queued.exists_moves (queued : Queued system) (turn : Fin cpus) :
    ∃ after moved, event (perform apicIds) system turn =
        ⟨system, turn, .ok (), system.put turn after moved⟩ ∧
      Locker.Moves (apicIds turn).toUInt64 system.shared (system.own turn) after moved := by
  obtain ⟨after, moved, step_eq, moves⟩ : ∃ after moved,
      (system.own turn).step (apicIds turn).toUInt64 system.shared = .ok (after, moved) ∧
        Locker.Moves (apicIds turn).toUInt64 system.shared (system.own turn) after moved := by
    refine Locker.step_moves (apicId_lt apicIds turn) fun ticket held => ?_
    have ticket_lt := (queued.ticket_lt held).2
    have next_lt := system.shared.lockNext.toNat_lt
    omega
  have performed : perform apicIds turn system = (.ok (), system.put turn after moved) := by
    simpa [perform] using ⟨after, moved, step_eq, rfl⟩
  exact ⟨after, moved, by rw [event, performed], moves⟩

theorem Queued.step (queued : Queued system) (fits : cpus < 2 ^ 64) (turn : Fin cpus) :
    Queued (event (perform apicIds) system turn).after := by
  obtain ⟨after, moved, event_eq, moves⟩ := queued.exists_moves apicIds turn
  rw [event_eq]
  exact queued.moves fits rfl moves

theorem queued_run (fits : cpus < 2 ^ 64) (schedule : List (Fin cpus)) :
    Queued (final (perform apicIds) (boot cpus) schedule) :=
  run_induction (perform apicIds) (motive := fun _ system => Queued system) queued_boot
    (fun _ _ turn queued => queued.step apicIds fits turn) schedule

end Run

end Lockers

end Bulla.Platform
