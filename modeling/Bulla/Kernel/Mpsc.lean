import Bulla.Fifo
import Bulla.Kernel.Smp
import Bulla.Kernel.Sync

/-!
# The bounded queue of many producers

Values are queued with their producer up to a capacity.  Beside the queue, the accepted values are
counted for each producer and the popped values in one counter, and the books are checked by
comparing the sum of all producers with what was popped and what is queued.  The counts are checked
against the history here, so they say what they are meant to say as long as they cannot run out.
-/

namespace Bulla.Kernel

open Rust Outcome

structure BoundedMpsc (T : Type) where
  capacity : UInt64
  queue : List (CpuId × T)
  /-- How many values each producer has pushed. -/
  pushes : BTreeMap CpuId UInt64
  pops : UInt64

namespace BoundedMpsc

variable {T : Type}

def new (capacity : UInt64) : BoundedMpsc T := ⟨capacity, [], ∅, 0⟩

/-- The value is queued before it is counted. -/
def push (producer : CpuId) (value : T) : Call (BoundedMpsc T) SyncError Unit := do
  rejectIf ((← get).queue.length = (← get).capacity.toNat) SyncError.queueFull
  modify fun self => { self with queue := self.queue ++ [(producer, value)] }
  let count ← Call.unchecked (checkedAdd ((← get).pushes[producer]?.getD 0) 1)
  modify fun self => { self with pushes := self.pushes.insert producer count }

def pop : Call (BoundedMpsc T) SyncError (CpuId × T) := do
  let value ← okOr (← get).queue.head? SyncError.queueEmpty
  modify fun self => { self with queue := self.queue.tail }
  modify fun self => { self with pops := saturatingAdd self.pops 1 }
  return value

def len (self : BoundedMpsc T) : ℕ := self.queue.length

def accountingHolds (self : BoundedMpsc T) : Outcome SyncError Bool := do
  let pushes ← self.pushes.toList.foldlM (fun sum entry => unchecked (checkedAdd sum entry.2)) 0
  return decide (pushes = saturatingAdd self.pops (UInt64.ofNat self.queue.length))

/-- One call of the interface. -/
inductive Request (T : Type) where
  | push (producer : CpuId) (value : T)
  | pop
  deriving DecidableEq, Repr

/-- What a successful call returns. -/
inductive Reply (T : Type) where
  | done
  | value (value : CpuId × T)
  deriving DecidableEq, Repr

def perform : Request T → Call (BoundedMpsc T) SyncError (Reply T)
  | .push producer value => do
      push producer value
      return .done
  | .pop => return .value (← pop)

/-- The effect of each way a call can end. -/
inductive Step (before : BoundedMpsc T) :
    Request T → Outcome SyncError (Reply T) → BoundedMpsc T → Prop
  | full {producer : CpuId} {value : T} (full : before.queue.length = before.capacity.toNat) :
      Step before (.push producer value) (.err .queueFull) before
  | pushed {producer : CpuId} {value : T} {count : UInt64}
      (room : before.queue.length ≠ before.capacity.toNat)
      (counted : count.toNat = (before.pushes[producer]?.getD 0).toNat + 1) :
      Step before (.push producer value) (.ok .done)
        { before with
          queue := before.queue ++ [(producer, value)]
          pushes := before.pushes.insert producer count }
  | jammed {producer : CpuId} {value : T} (room : before.queue.length ≠ before.capacity.toNat)
      (last : 2 ^ 64 ≤ (before.pushes[producer]?.getD 0).toNat + 1) :
      Step before (.push producer value) .overflow
        { before with queue := before.queue ++ [(producer, value)] }
  | empty (empty : before.queue = []) : Step before .pop (.err .queueEmpty) before
  | popped {first : CpuId × T} {rest : List (CpuId × T)} (queue_eq : before.queue = first :: rest) :
      Step before .pop (.ok (.value first))
        { before with queue := rest, pops := saturatingAdd before.pops 1 }

/-- Every call is one of the steps. -/
theorem step_perform (request : Request T) (before : BoundedMpsc T) :
    Step before request (perform request before).1 (perform request before).2 := by
  show Call.Ensures (perform request) (Step before request) before
  cases request with
  | push producer value =>
      simp only [perform, push]
      simp
      refine ⟨fun room => ⟨fun count counted => ?_, fun last => ?_⟩, fun full => .full full⟩
      · exact .pushed room counted
      · exact .jammed room (by simpa using last)
  | pop =>
      simp only [perform, pop]
      simp
      refine ⟨fun producer value first => ?_, fun empty => .empty empty⟩
      obtain ⟨rest, queue_eq⟩ := List.head?_eq_some_iff.mp first
      rw [queue_eq]
      exact .popped queue_eq

abbrev MpscEvent (T : Type) : Type :=
  Rust.Event (BoundedMpsc T) (Request T) SyncError (Reply T)

/-- The value that a `push` has queued, which it has unless it returns an error. -/
def accepted (occurred : MpscEvent T) : Option (CpuId × T) :=
  match occurred.input, occurred.outcome with
  | .push _ _, .err _ => none
  | .push producer value, _ => some (producer, value)
  | .pop, _ => none

/-- The value that a `pop` has returned. -/
def popped (occurred : MpscEvent T) : Option (CpuId × T) :=
  match occurred.outcome with
  | .ok (.value value) => some value
  | _ => none

/-- How many values all producers have pushed. -/
def pushed (pushes : BTreeMap CpuId UInt64) : ℕ := pushes.total fun _ count => count.toNat

/-- The queue and the counters agree with the history. -/
structure Accounted (past : List (MpscEvent T)) (state : BoundedMpsc T) : Prop where
  order : past.filterMap popped ++ state.queue = past.filterMap accepted
  bounded : state.queue.length ≤ state.capacity.toNat
  pushes : pushed state.pushes = (past.filterMap accepted).length
  pops : state.pops.toNat = (past.filterMap popped).length

section Step

variable {past : List (MpscEvent T)} {before after : BoundedMpsc T} {request : Request T}
  {outcome : Outcome SyncError (Reply T)} {occurred : MpscEvent T}

/-- A producer has not pushed more than all producers. -/
theorem count_le (pushes : BTreeMap CpuId UInt64) (producer : CpuId) :
    (pushes[producer]?.getD 0).toNat ≤ pushed pushes := by
  cases found : pushes[producer]? with
  | none => exact Nat.zero_le _
  | some count =>
      rw [pushed, BTreeMap.total_eq_of_present _ found]
      exact Nat.le_add_right _ _

/-- Counting one more value of a producer. -/
theorem pushed_insert {pushes : BTreeMap CpuId UInt64} {producer : CpuId} {count : UInt64}
    (counted : count.toNat = (pushes[producer]?.getD 0).toNat + 1) :
    pushed (pushes.insert producer count) = pushed pushes + 1 := by
  cases found : pushes[producer]? with
  | none =>
      rw [pushed, BTreeMap.total_insert_of_absent _ _ found, counted, found]
      exact Nat.add_comm _ _
  | some old =>
      have exchanged := BTreeMap.total_insert_of_present (fun _ count => count.toNat) count found
      rw [found, Option.getD_some] at counted
      simp only [pushed]
      omega

/-- One more call, given what it does to the queue and to the counters. -/
theorem Accounted.snoc (accounted : Accounted past before)
    (turn : Fifo.Turn (accepted occurred) (popped occurred) before.queue after.queue)
    (bounded : after.queue.length ≤ after.capacity.toNat)
    (pushes : pushed after.pushes = pushed before.pushes + (accepted occurred).toList.length)
    (pops : after.pops.toNat = before.pops.toNat + (popped occurred).toList.length) :
    Accounted (past ++ [occurred]) after where
  order := Fifo.order_snoc accounted.order turn
  bounded := bounded
  pushes := by rw [pushes, accounted.pushes, filterMap_snoc, List.length_append]
  pops := by rw [pops, accounted.pops, filterMap_snoc, List.length_append]

/-- What was accepted has been popped or is queued. -/
theorem Accounted.length_eq (accounted : Accounted past before) :
    before.pops.toNat + before.queue.length = pushed before.pushes := by
  rw [accounted.pops, accounted.pushes, ← List.length_append, accounted.order]

theorem Accounted.step (accounted : Accounted past before)
    (step : Step before request outcome after)
    (few : ((past ++ [(⟨before, request, outcome, after⟩ : MpscEvent T)]).filterMap
      accepted).length < 2 ^ 64) :
    Accounted (past ++ [⟨before, request, outcome, after⟩]) after ∧ outcome ≠ .overflow := by
  have lengths := accounted.length_eq
  have bounded := accounted.bounded
  rw [filterMap_snoc, List.length_append, ← accounted.pushes] at few
  cases step with
  | full full =>
      exact ⟨accounted.snoc (Fifo.turn_refused _) bounded rfl rfl, by simp⟩
  | pushed room counted =>
      refine ⟨accounted.snoc (Fifo.turn_put _ _) ?_ (pushed_insert counted) rfl, by simp⟩
      show (before.queue ++ [_]).length ≤ before.capacity.toNat
      rw [List.length_append, List.length_singleton]
      omega
  | @jammed producer value room last =>
      have count_le := count_le before.pushes producer
      have counted : pushed before.pushes + 1 < 2 ^ 64 := few
      omega
  | empty empty =>
      exact ⟨accounted.snoc (Fifo.turn_refused _) bounded rfl rfl, by simp⟩
  | @popped first rest queue_eq =>
      have fits : pushed before.pushes < 2 ^ 64 := few
      rw [queue_eq, List.length_cons] at lengths bounded
      refine ⟨accounted.snoc ?_ (Nat.le_of_succ_le bounded) rfl ?_, by simp⟩
      · rw [queue_eq]
        exact Fifo.turn_taken _ _
      · change (saturatingAdd before.pops 1).toNat = before.pops.toNat + 1
        rw [saturatingAdd_toNat, min_eq_left]
        · rfl
        · have one : (1 : UInt64).toNat = 1 := rfl
          omega

theorem Step.capacity_eq (step : Step before request outcome after) :
    after.capacity = before.capacity := by
  cases step <;> rfl

/-- The books are in order. -/
theorem Accounted.accountingHolds (accounted : Accounted past before)
    (few : (past.filterMap accepted).length < 2 ^ 64) : before.accountingHolds = .ok true := by
  have lengths := accounted.length_eq
  rw [← accounted.pushes] at few
  have queued_lt : before.queue.length < 2 ^ 64 := by omega
  obtain ⟨pushes, summed, pushes_eq⟩ := foldlM_checkedAdd (ε := SyncError) (·.2)
    before.pushes.toList 0 (by simpa [pushed, BTreeMap.total] using few)
  have pushes_toNat : pushes.toNat = pushed before.pushes := by
    simpa [pushed, BTreeMap.total] using pushes_eq
  rw [BoundedMpsc.accountingHolds, summed, ok_bind, pure_eq, Outcome.ok.injEq, decide_eq_true_eq,
    ← UInt64.toNat_inj, saturatingAdd_toNat, UInt64.toNat_ofNat_of_lt' queued_lt]
  omega

end Step

/-- Nothing is lost, doubled or reordered, and the books are in order. -/
structure Faithful (past : List (MpscEvent T)) (state : BoundedMpsc T) : Prop where
  order : past.filterMap popped ++ state.queue = past.filterMap accepted
  own_order : ∀ producer, (past.filterMap popped).filter (·.1 = producer) ++
    state.queue.filter (·.1 = producer) = (past.filterMap accepted).filter (·.1 = producer)
  bounded : state.len ≤ state.capacity.toNat
  refuses : ∀ producer value, (∃ reason, (perform (.push producer value) state).1 = .err reason) ↔
    state.len = state.capacity.toNat
  pop_outcome : (perform .pop state).1 =
    state.queue.head?.elim (.err .queueEmpty) fun value => .ok (.value value)
  inert : ∀ request reason, (perform request state).1 = .err reason →
    (perform request state).2 = state
  accounting : state.accountingHolds = .ok true
  returns : ∀ occurred ∈ past, occurred.outcome ≠ .overflow

theorem refuses_iff (state : BoundedMpsc T) (producer : CpuId) (value : T) :
    (∃ reason, (perform (.push producer value) state).1 = .err reason) ↔
      state.len = state.capacity.toNat := by
  have step := step_perform (.push producer value) state
  generalize (perform (.push producer value) state).1 = outcome at step ⊢
  generalize (perform (.push producer value) state).2 = after at step
  cases step with
  | full full => simpa [len] using full
  | pushed room => simpa [len] using room
  | jammed room => simpa [len] using room

theorem pop_outcome (state : BoundedMpsc T) :
    (perform .pop state).1 =
      state.queue.head?.elim (.err .queueEmpty) fun value => .ok (.value value) := by
  have step := step_perform .pop state
  generalize (perform .pop state).1 = outcome at step ⊢
  generalize (perform .pop state).2 = after at step
  cases step with
  | empty empty =>
      rw [empty]
      rfl
  | popped queue_eq =>
      rw [queue_eq]
      rfl

theorem inert_of_err {state : BoundedMpsc T} {request : Request T} {reason : SyncError}
    (refused : (perform request state).1 = .err reason) : (perform request state).2 = state := by
  have step := step_perform request state
  rw [refused] at step
  generalize (perform request state).2 = after at step ⊢
  cases step with
  | full => rfl
  | empty => rfl

theorem accounted_run (capacity : UInt64) (requests : List (Request T))
    (few : ((history perform (new capacity) requests).filterMap accepted).length < 2 ^ 64) :
    Accounted (history perform (new capacity) requests) (final perform (new capacity) requests) ∧
      (final perform (new capacity) requests).capacity = capacity ∧
      ∀ occurred ∈ history perform (new capacity) requests, occurred.outcome ≠ .overflow := by
  refine run_induction perform (motive := fun past state =>
    (past.filterMap accepted).length < 2 ^ 64 → Accounted past state ∧ state.capacity = capacity ∧
      ∀ occurred ∈ past, occurred.outcome ≠ .overflow) ?_ ?_ requests few
  · intro _
    refine ⟨⟨rfl, Nat.zero_le _, ?_, rfl⟩, rfl, by simp⟩
    simp [new, pushed]
  · intro past state request induction few
    have earlier : (past.filterMap accepted).length < 2 ^ 64 := by
      rw [filterMap_snoc, List.length_append] at few
      omega
    obtain ⟨accounted, capacity_eq, returns⟩ := induction earlier
    have step := step_perform request state
    obtain ⟨next, returned⟩ := accounted.step step few
    refine ⟨next, step.capacity_eq.trans capacity_eq, ?_⟩
    intro occurred member
    rcases List.mem_append.mp member with old | last
    · exact returns occurred old
    · rw [List.mem_singleton.mp last]
      exact returned

/-- The queue loses, doubles and reorders nothing, for any capacity and any order of calls by any
producers, as long as fewer than `2 ^ 64` values are queued in all. -/
theorem nothing_lost (capacity : UInt64) (requests : List (Request T))
    (few : ((history perform (new capacity) requests).filterMap accepted).length < 2 ^ 64) :
    Faithful (history perform (new capacity) requests) (final perform (new capacity) requests) ∧
      (final perform (new capacity) requests).capacity = capacity := by
  obtain ⟨accounted, capacity_eq, returns⟩ := accounted_run capacity requests few
  refine ⟨⟨accounted.order, ?_, accounted.bounded, refuses_iff _, pop_outcome _,
    fun _ _ => inert_of_err, accounted.accountingHolds few, returns⟩, capacity_eq⟩
  intro producer
  rw [← List.filter_append, accounted.order]

theorem nothing_lost_after_refusal :
    Faithful (history perform (new 1) [.push 3 7, .push 4 8, .pop, .push 4 (9 : UInt8)])
        (final perform (new 1) [.push 3 7, .push 4 8, .pop, .push 4 (9 : UInt8)]) ∧
      (final perform (new 1) [.push 3 7, .push 4 8, .pop, .push 4 (9 : UInt8)]).capacity = 1 :=
  nothing_lost 1 [.push 3 7, .push 4 8, .pop, .push 4 9] (by decide)

end BoundedMpsc

end Bulla.Kernel
