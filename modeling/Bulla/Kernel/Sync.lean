import Bulla.Rust.BTreeMap
import Bulla.Rust.History
import Bulla.Rust.Word

/-!
# The ticket lock

Tickets are handed out in order by one counter and served in order by another.  A guard is a copy of
a ticket and holding it changes nothing: what makes the lock exclusive is that only the ticket at
the second counter is accepted, and that every ticket between the counters is waiting.
-/

namespace Bulla.Kernel

open Rust Outcome

inductive SyncError where
  | ticketOverflow
  | unknownTicket
  | outOfOrderRelease
  | alreadyInitialized
  | uninitialized
  | queueFull
  | queueEmpty
  | duplicateParticipant
  | foreignParticipant
  | staleGeneration
  | generationOverflow
  deriving DecidableEq, Repr

structure LockGuard where
  ticket : UInt64
  deriving DecidableEq, Repr

structure TicketLock where
  next : UInt64
  owner : UInt64
  outstanding : BTreeSet UInt64

namespace TicketLock

def new : TicketLock := ⟨0, 0, ∅⟩

def enqueue : Call TicketLock SyncError UInt64 := do
  let ticket := (← get).next
  let next ← okOr (checkedAdd ticket 1) SyncError.ticketOverflow
  modify fun self => { self with next }
  modify fun self => { self with outstanding := self.outstanding.insert ticket }
  return ticket

def acquire (self : TicketLock) (ticket : UInt64) : Outcome SyncError LockGuard := do
  rejectIf (self.outstanding.contains ticket = false) SyncError.unknownTicket
  rejectIf (ticket ≠ self.owner) SyncError.outOfOrderRelease
  return ⟨ticket⟩

/-- The ticket is removed before the owner is known to advance. -/
def release (guard : LockGuard) : Call TicketLock SyncError Unit := do
  rejectIf (guard.ticket ≠ (← get).owner) SyncError.outOfOrderRelease
  let removed := (← get).outstanding.contains guard.ticket
  modify fun self => { self with outstanding := self.outstanding.erase guard.ticket }
  rejectIf (removed = false) SyncError.outOfOrderRelease
  let owner ← okOr (checkedAdd (← get).owner 1) SyncError.ticketOverflow
  modify fun self => { self with owner }

/-- One call of the interface. -/
inductive Request where
  | enqueue
  | acquire (ticket : UInt64)
  | release (guard : LockGuard)
  deriving DecidableEq, Repr

/-- What a successful call returns. -/
inductive Reply where
  | ticket (ticket : UInt64)
  | guard (guard : LockGuard)
  | done
  deriving DecidableEq, Repr

def perform : Request → Call TicketLock SyncError Reply
  | .enqueue => return .ticket (← enqueue)
  | .acquire ticket => do
      let guard ← (← get).acquire ticket
      return .guard guard
  | .release guard => do
      release guard
      return .done

/-- The effect of each way a call can end. -/
inductive Step (before : TicketLock) : Request → Outcome SyncError Reply → TicketLock → Prop
  | rejected {request : Request} {reason : SyncError}
      (disordered : ∀ guard, request = .release guard → reason = .outOfOrderRelease) :
      Step before request (.err reason) before
  | enqueued {next : UInt64} (advanced : next.toNat = before.next.toNat + 1) :
      Step before .enqueue (.ok (.ticket before.next))
        { before with next, outstanding := before.outstanding.insert before.next }
  | acquired {ticket : UInt64} {guard : LockGuard} :
      Step before (.acquire ticket) (.ok (.guard guard)) before
  | released {owner : UInt64} (waiting : before.owner ∈ before.outstanding)
      (advanced : owner.toNat = before.owner.toNat + 1) :
      Step before (.release ⟨before.owner⟩) (.ok .done)
        { before with owner, outstanding := before.outstanding.erase before.owner }
  | jammed (waiting : before.owner ∈ before.outstanding)
      (last : 2 ^ 64 ≤ before.owner.toNat + 1) :
      Step before (.release ⟨before.owner⟩) (.err .ticketOverflow)
        { before with outstanding := before.outstanding.erase before.owner }

theorem acquire_eq_ok {self : TicketLock} {ticket : UInt64} {guard : LockGuard} :
    self.acquire ticket = .ok guard ↔
      guard = ⟨ticket⟩ ∧ ticket ∈ self.outstanding ∧ ticket = self.owner := by
  simp only [acquire, bind_eq_ok, rejectIf_eq_ok, pure_eq, Outcome.ok.injEq]
  simp
  constructor
  · rintro ⟨waiting, served, rfl⟩
    exact ⟨rfl, waiting, served⟩
  · rintro ⟨rfl, waiting, served⟩
    exact ⟨waiting, served, rfl⟩

/-- Every call is one of the steps. -/
theorem step_perform (request : Request) (before : TicketLock) :
    Step before request (perform request before).1 (perform request before).2 := by
  show Call.Ensures (perform request) (Step before request) before
  cases request with
  | enqueue =>
      simp only [perform, enqueue]
      simp
      refine ⟨fun next advanced => .enqueued advanced, fun _ => .rejected (by simp)⟩
  | acquire ticket =>
      have answered : before.acquire ticket ≠ .overflow := by simp [acquire]
      simp only [perform]
      simp [answered]
      exact ⟨fun _ _ => .acquired, fun _ _ => .rejected (by simp)⟩
  | release guard =>
      obtain ⟨ticket⟩ := guard
      simp only [perform, release]
      simp
      refine ⟨?_, fun _ => .rejected fun _ _ => rfl⟩
      rintro rfl
      refine ⟨fun waiting => ⟨fun owner advanced => ?_, fun last => ?_⟩, fun absent => ?_⟩
      · exact .released waiting advanced
      · exact .jammed waiting (by omega)
      · have unlisted : before.owner ∉ before.outstanding := by
          simp [← Std.ExtTreeSet.contains_iff_mem, absent]
        rw [BTreeSet.erase_of_absent unlisted]
        exact .rejected fun _ _ => rfl

section Answers

variable {self : TicketLock}

theorem perform_enqueue {next : UInt64} (advanced : next.toNat = self.next.toNat + 1) :
    perform .enqueue self = (.ok (.ticket self.next),
      { self with next, outstanding := self.outstanding.insert self.next }) := by
  simp [perform, enqueue, advanced]

theorem perform_acquire_served (waiting : self.owner ∈ self.outstanding) :
    perform (.acquire self.owner) self = (.ok (.guard ⟨self.owner⟩), self) := by
  simp [perform, acquire, waiting]

theorem perform_acquire_unserved {ticket : UInt64} (waiting : ticket ∈ self.outstanding)
    (unserved : ticket ≠ self.owner) :
    perform (.acquire ticket) self = (.err .outOfOrderRelease, self) := by
  simp [perform, acquire, waiting, unserved]

theorem perform_release {owner : UInt64} (waiting : self.owner ∈ self.outstanding)
    (advanced : owner.toNat = self.owner.toNat + 1) :
    perform (.release ⟨self.owner⟩) self = (.ok .done,
      { self with owner, outstanding := self.outstanding.erase self.owner }) := by
  simp [perform, release, waiting, advanced]

end Answers

abbrev LockEvent : Type := Rust.Event TicketLock Request SyncError Reply

/-- The ticket of a successful `release`. -/
def releasedTicket (occurred : LockEvent) : Option UInt64 :=
  match occurred.input, occurred.outcome with
  | .release guard, .ok _ => some guard.ticket
  | _, _ => none

/-- The waiting tickets are those between the counters, and the tickets below have been released
once, in order. -/
structure Queued (past : List LockEvent) (state : TicketLock) : Prop where
  outstanding : ∀ ticket, ticket ∈ state.outstanding ↔
    state.owner ≤ ticket ∧ ticket < state.next
  released : (past.filterMap releasedTicket).map (·.toNat) = List.range state.owner.toNat
  ordered : state.owner ≤ state.next

/-- One ticket at a time is served, and a `release` that is refused changes nothing. -/
structure Exclusive (past : List LockEvent) (state : TicketLock) : Prop extends
    Queued past state where
  acquires : ∀ ticket guard, state.acquire ticket = .ok guard ↔
    guard = ⟨ticket⟩ ∧ ticket = state.owner ∧ state.owner < state.next
  refuses : ∀ guard reason, (perform (.release guard) state).1 = .err reason →
    reason = .outOfOrderRelease ∧ (perform (.release guard) state).2 = state

section Step

variable {past : List LockEvent} {before after : TicketLock} {request : Request}
  {outcome : Outcome SyncError Reply}

/-- The owner is below the next ticket as long as anyone waits, so it can advance. -/
theorem Queued.advances (queued : Queued past before)
    (waiting : before.owner ∈ before.outstanding) :
    before.owner.toNat + 1 < 2 ^ 64 := by
  have served := UInt64.lt_iff_toNat_lt.mp ((queued.outstanding before.owner).mp waiting).2
  have bound := before.next.toNat_lt
  omega

theorem Queued.step (queued : Queued past before) (step : Step before request outcome after) :
    Queued (past ++ [⟨before, request, outcome, after⟩]) after := by
  have advances := queued.advances
  obtain ⟨outstanding, released, ordered⟩ := queued
  have counters := UInt64.le_iff_toNat_le.mp ordered
  cases step with
  | rejected disordered =>
      refine ⟨outstanding, ?_, ordered⟩
      rw [filterMap_snoc_of_none _ (by cases request <;> rfl)]
      exact released
  | @enqueued next advanced =>
      refine ⟨fun ticket => ?_, ?_, ?_⟩
      · rw [Std.ExtTreeSet.mem_insert, Std.LawfulEqCmp.compare_eq_iff_eq, outstanding]
        simp only [UInt64.le_iff_toNat_le, UInt64.lt_iff_toNat_lt, ← UInt64.toNat_inj, advanced]
        omega
      · rw [filterMap_snoc_of_none _ rfl]
        exact released
      · simp only [UInt64.le_iff_toNat_le, advanced]
        omega
  | acquired =>
      refine ⟨outstanding, ?_, ordered⟩
      rw [filterMap_snoc_of_none _ rfl]
      exact released
  | @released owner waiting advanced =>
      have served := UInt64.lt_iff_toNat_lt.mp ((outstanding before.owner).mp waiting).2
      refine ⟨fun ticket => ?_, ?_, ?_⟩
      · rw [Std.ExtTreeSet.mem_erase, ne_eq, Std.LawfulEqCmp.compare_eq_iff_eq, outstanding]
        simp only [UInt64.le_iff_toNat_le, UInt64.lt_iff_toNat_lt, ← UInt64.toNat_inj, advanced]
        omega
      · rw [filterMap_snoc, List.map_append, released, advanced, List.range_succ]
        rfl
      · simp only [UInt64.le_iff_toNat_le, advanced]
        omega
  | jammed waiting last =>
      have room := advances waiting
      omega

/-- What the counters say about `acquire` and `release`. -/
theorem Queued.exclusive (queued : Queued past before) : Exclusive past before := by
  refine ⟨queued, fun ticket guard => ?_, fun guard reason refused => ?_⟩
  · rw [acquire_eq_ok, queued.outstanding]
    constructor
    · rintro ⟨rfl, ⟨_, below⟩, rfl⟩
      exact ⟨rfl, rfl, below⟩
    · rintro ⟨rfl, rfl, below⟩
      exact ⟨rfl, ⟨UInt64.le_refl _, below⟩, rfl⟩
  · have step := step_perform (.release guard) before
    rw [refused] at step
    generalize (perform (.release guard) before).2 = after at step ⊢
    cases step with
    | rejected disordered => exact ⟨disordered guard rfl, rfl⟩
    | jammed waiting last =>
        have room := queued.advances waiting
        omega

end Step

theorem queued_new : Queued [] new := by
  refine ⟨fun ticket => ?_, rfl, UInt64.le_refl _⟩
  simp [new, UInt64.lt_iff_toNat_lt]

/-- In every run, whatever tickets and guards are presented, the tickets between the counters wait,
the one at the owner is served, and tickets are released once each in order. -/
theorem tickets_served_in_order (requests : List Request) :
    Exclusive (history perform new requests) (final perform new requests) := by
  refine Queued.exclusive (run_induction perform (motive := Queued) queued_new ?_ requests)
  exact fun past state request queued => queued.step (step_perform request state)

end TicketLock

end Bulla.Kernel
