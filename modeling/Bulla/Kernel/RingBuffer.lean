import Bulla.Fifo
import Bulla.Kernel.Storage

/-!
# The ring buffer

Values are written behind the last one and read at the head, and both positions wrap at the
capacity.  The sum of the head and the length is taken before the remainder, so pushing can overflow
only if the capacity is more than half of the word's range.
-/

namespace Bulla.Kernel

open Rust Outcome

/-- The comparison is the derived one: it looks at every slot and at the head. -/
structure RingBuffer (T : Type) (N : UInt64) where
  values : FixedArray T N
  head : UInt64
  len : UInt64
  deriving BEq

namespace RingBuffer

variable {T : Type} {N : UInt64}

def new [Inhabited T] : RingBuffer T N := ⟨Vector.replicate N.toNat default, 0, 0⟩

def push (value : T) : Call (RingBuffer T N) StorageError Unit := do
  rejectIf ((← get).len = N ∨ N = 0) StorageError.full
  let behind ← Call.unchecked (checkedAdd (← get).head (← get).len)
  let tail := behind % N
  let values ← Call.unchecked ((← get).values.store tail value)
  modify fun self => { self with values }
  let len ← Call.unchecked (checkedAdd (← get).len 1)
  modify fun self => { self with len }

/-- The slot of the value is left as it is. -/
def pop : Call (RingBuffer T N) StorageError T := do
  rejectIf ((← get).len = 0 ∨ N = 0) StorageError.empty
  let value ← Call.unchecked ((← get).values.load (← get).head)
  let next ← Call.unchecked (checkedAdd (← get).head 1)
  modify fun self => { self with head := next % N }
  let len ← Call.unchecked (checkedSub (← get).len 1)
  modify fun self => { self with len }
  return value

/-- One call of the interface. -/
inductive Request (T : Type) where
  | push (value : T)
  | pop
  deriving DecidableEq, Repr

/-- What a successful call returns. -/
inductive Reply (T : Type) where
  | done
  | value (value : T)
  deriving DecidableEq, Repr

def perform : Request T → Call (RingBuffer T N) StorageError (Reply T)
  | .push value => do
      push value
      return .done
  | .pop => return .value (← pop)

/-- Head and length are within the capacity. -/
structure Within (ring : RingBuffer T N) : Prop where
  len_le : ring.len.toNat ≤ N.toNat
  head_lt : 0 < N.toNat → ring.head.toNat < N.toNat

/-- The effect of each way a call can end. -/
inductive Step (before : RingBuffer T N) :
    Request T → Outcome StorageError (Reply T) → RingBuffer T N → Prop
  | full {value : T} (full : before.len.toNat = N.toNat) :
      Step before (.push value) (.err .full) before
  | pushed {value : T} {tail len : UInt64} {values : FixedArray T N}
      (room : before.len.toNat < N.toNat)
      (tail_eq : tail.toNat = (before.head.toNat + before.len.toNat) % N.toNat)
      (stored : before.values.store tail value = some values)
      (len_eq : len.toNat = before.len.toNat + 1) :
      Step before (.push value) (.ok .done) { before with values, len }
  | jammed {value : T} (room : before.len.toNat < N.toNat)
      (far : 2 ^ 64 ≤ before.head.toNat + before.len.toNat) :
      Step before (.push value) .overflow before
  | empty (empty : before.len.toNat = 0) : Step before .pop (.err .empty) before
  | popped {value : T} {head len : UInt64} (loaded : before.values.load before.head = some value)
      (head_eq : head.toNat = (before.head.toNat + 1) % N.toNat)
      (len_eq : before.len.toNat = len.toNat + 1) :
      Step before .pop (.ok (.value value)) { before with head, len }

/-- Every call is one of the steps. -/
theorem step_perform (request : Request T) {before : RingBuffer T N} (within : Within before) :
    Step before request (perform request before).1 (perform request before).2 := by
  show Call.Ensures (perform request) (Step before request) before
  have capacity_lt := N.toNat_lt
  have len_le := within.len_le
  have head_lt := within.head_lt
  have capacity_zero : N = 0 ↔ N.toNat = 0 := UInt64.toNat_inj.symm
  cases request with
  | push value =>
      have full_iff : before.len = N ∨ N = 0 ↔ before.len.toNat = N.toNat := by
        rw [← UInt64.toNat_inj, capacity_zero]
        omega
      simp only [perform, push]
      simp [full_iff]
      refine ⟨fun room => ⟨fun behind behind_eq => ⟨fun values stored =>
        ⟨fun len len_eq => ?_, fun last => ?_⟩, fun outside => ?_⟩,
        fun far => .jammed (by omega) far⟩, .full⟩
      · have tail_eq : (behind % N).toNat = (before.head.toNat + before.len.toNat) % N.toNat := by
          rw [UInt64.toNat_mod, behind_eq]
        exact .pushed (by omega) tail_eq stored len_eq
      · omega
      · have tail_lt : (behind % N).toNat < N.toNat := by
          rw [UInt64.toNat_mod]
          exact Nat.mod_lt _ (by omega)
        rw [FixedArray.store_eq_none] at outside
        omega
  | pop =>
      have empty_iff : before.len = 0 ∨ N = 0 ↔ before.len.toNat = 0 := by
        rw [← UInt64.toNat_inj, capacity_zero, UInt64.toNat_zero]
        omega
      simp only [perform, pop]
      simp [empty_iff]
      refine ⟨fun held => ⟨fun value loaded => ⟨fun next next_eq =>
        ⟨fun len len_eq => ?_, fun zero => (held zero).elim⟩, fun last => ?_⟩, fun outside => ?_⟩,
        .empty⟩
      · refine .popped loaded ?_ len_eq
        rw [UInt64.toNat_mod, next_eq]
      · omega
      · rw [FixedArray.load_eq_none] at outside
        omega

theorem Within.step {before after : RingBuffer T N} {request : Request T}
    {outcome : Outcome StorageError (Reply T)} (within : Within before)
    (step : Step before request outcome after) : Within after := by
  have len_le := within.len_le
  cases step with
  | full | jammed | empty => exact within
  | pushed room tail_eq stored len_eq => exact ⟨len_eq ▸ room, within.head_lt⟩
  | popped loaded head_eq len_eq =>
      exact ⟨Nat.le_of_succ_le (len_eq.ge.trans len_le),
        fun positive => head_eq ▸ Nat.mod_lt _ positive⟩

theorem within_new [Inhabited T] : Within (new : RingBuffer T N) :=
  ⟨Nat.zero_le _, fun positive => positive⟩

section Contents

variable [Inhabited T]

/-- What lies in the slots. -/
def cells (ring : RingBuffer T N) (slot : ℕ) : T := ring.values[slot]?.getD default

/-- The values that are held, from the head on. -/
def contents (ring : RingBuffer T N) : List T :=
  Fifo.window ring.cells N.toNat ring.head.toNat ring.len.toNat

@[simp] theorem length_contents (ring : RingBuffer T N) :
    ring.contents.length = ring.len.toNat := Fifo.length_window

variable {before after : RingBuffer T N}

theorem contents_push {value : T} {tail len : UInt64} {values : FixedArray T N}
    (room : before.len.toNat < N.toNat)
    (tail_eq : tail.toNat = (before.head.toNat + before.len.toNat) % N.toNat)
    (stored : before.values.store tail value = some values)
    (len_eq : len.toNat = before.len.toNat + 1) :
    ({ before with values, len } : RingBuffer T N).contents = before.contents ++ [value] := by
  have cells_eq : ({ before with values, len } : RingBuffer T N).cells =
      Function.update before.cells tail.toNat value := by
    funext slot
    rw [cells, FixedArray.getElem?_of_store stored]
    by_cases same : slot = tail.toNat
    · simp [same]
    · simp [same, Ne.symm same, cells]
  rw [contents, cells_eq, len_eq, tail_eq, Fifo.window_put room, contents]

theorem contents_pop {value : T} {head len : UInt64} (within : Within before)
    (loaded : before.values.load before.head = some value)
    (head_eq : head.toNat = (before.head.toNat + 1) % N.toNat)
    (len_eq : before.len.toNat = len.toNat + 1) :
    before.contents = value :: ({ before with head, len } : RingBuffer T N).contents := by
  have positive : 0 < N.toNat := by
    have len_le := within.len_le
    omega
  have value_eq : before.cells before.head.toNat = value := by
    rw [FixedArray.load] at loaded
    rw [cells, loaded, Option.getD_some]
  rw [contents, len_eq, Fifo.window_taken, Nat.mod_eq_of_lt (within.head_lt positive), value_eq,
    contents, head_eq]
  rfl

end Contents

abbrev RingEvent (T : Type) (N : UInt64) : Type :=
  Rust.Event (RingBuffer T N) (Request T) StorageError (Reply T)

/-- The value that a `push` has put in. -/
def accepted (occurred : RingEvent T N) : Option T :=
  match occurred.input, occurred.outcome with
  | .push value, .ok _ => some value
  | _, _ => none

/-- The value that a `pop` has returned. -/
def popped (occurred : RingEvent T N) : Option T :=
  match occurred.outcome with
  | .ok (.value value) => some value
  | _ => none

theorem turn_step [Inhabited T] {before after : RingBuffer T N} {request : Request T}
    {outcome : Outcome StorageError (Reply T)} (within : Within before)
    (step : Step before request outcome after) :
    Fifo.Turn (accepted ⟨before, request, outcome, after⟩)
      (popped ⟨before, request, outcome, after⟩) before.contents after.contents := by
  cases step with
  | full => exact Fifo.turn_refused _
  | jammed => exact Fifo.turn_refused _
  | empty => exact Fifo.turn_refused _
  | pushed room tail_eq stored len_eq =>
      rw [contents_push room tail_eq stored len_eq]
      exact Fifo.turn_put _ _
  | popped loaded head_eq len_eq =>
      rw [contents_pop within loaded head_eq len_eq]
      exact Fifo.turn_taken _ _

/-- The order of the values and the bounds hold in every run, whether pushing overflows or not. -/
theorem queued_run [Inhabited T] (requests : List (Request T)) :
    (history perform (new : RingBuffer T N) requests).filterMap popped ++
        (final perform (new : RingBuffer T N) requests).contents =
      (history perform (new : RingBuffer T N) requests).filterMap accepted ∧
    Within (final perform (new : RingBuffer T N) requests) := by
  refine run_induction perform (motive := fun past state =>
    past.filterMap popped ++ state.contents = past.filterMap accepted ∧ Within state)
    ⟨rfl, within_new⟩ ?_ requests
  rintro past state request ⟨order, within⟩
  have step := step_perform request within
  exact ⟨Fifo.order_snoc order (turn_step within step), within.step step⟩

section Outcome

variable [Inhabited T] {ring : RingBuffer T N}

theorem push_outcome (small : 2 * N.toNat < 2 ^ 64) (within : Within ring) (value : T) :
    (perform (.push value) ring).1 =
      if ring.contents.length = N.toNat then .err .full else .ok .done := by
  have step := step_perform (.push value) within
  have len_le := within.len_le
  have head_lt := within.head_lt
  generalize (perform (.push value) ring).1 = outcome at step ⊢
  generalize (perform (.push value) ring).2 = after at step
  cases step with
  | full full => rw [length_contents, if_pos full]
  | pushed room => rw [length_contents, if_neg room.ne]
  | jammed room far => omega

theorem pop_outcome (within : Within ring) :
    (perform .pop ring).1 =
      ring.contents.head?.elim (.err .empty) fun value => .ok (.value value) := by
  have step := step_perform .pop within
  generalize (perform .pop ring).1 = outcome at step ⊢
  generalize (perform .pop ring).2 = after at step
  cases step with
  | empty empty =>
      rw [← length_contents, List.length_eq_zero_iff] at empty
      rw [empty]
      rfl
  | popped loaded head_eq len_eq =>
      rw [contents_pop within loaded head_eq len_eq]
      rfl

omit [Inhabited T] in
theorem inert_of_err {request : Request T} {reason : StorageError} (within : Within ring)
    (refused : (perform request ring).1 = .err reason) : (perform request ring).2 = ring := by
  have step := step_perform request within
  rw [refused] at step
  generalize (perform request ring).2 = after at step ⊢
  cases step with
  | full => rfl
  | empty => rfl

end Outcome

/-- A bounded queue: what it has taken in and given out, and how it answers next. -/
structure Queue [Inhabited T] (past : List (RingEvent T N)) (ring : RingBuffer T N) : Prop where
  order : past.filterMap popped ++ ring.contents = past.filterMap accepted
  within : Within ring
  push_outcome : ∀ value, (perform (.push value) ring).1 =
    if ring.contents.length = N.toNat then .err .full else .ok .done
  pop_outcome : (perform .pop ring).1 =
    ring.contents.head?.elim (.err .empty) fun value => .ok (.value value)
  inert : ∀ request reason, (perform request ring).1 = .err reason → (perform request ring).2 = ring
  returns : ∀ occurred ∈ past, occurred.outcome ≠ .overflow

/-- A ring buffer of any capacity is a bounded queue, if twice the capacity is a word. -/
theorem bounded_queue [Inhabited T] (small : 2 * N.toNat < 2 ^ 64) (requests : List (Request T)) :
    Queue (history perform (new : RingBuffer T N) requests)
      (final perform (new : RingBuffer T N) requests) := by
  obtain ⟨order, within⟩ := queued_run (N := N) requests
  refine ⟨order, within, push_outcome small within, pop_outcome within,
    fun _ _ => inert_of_err within, ?_⟩
  intro occurred member
  -- Every call is made on a state that some run has reached.
  obtain ⟨earlier, later, _, occurred_eq⟩ := exists_split_of_mem_history perform member
  have reached := (queued_run (N := N) earlier).2
  rw [occurred_eq]
  show (perform occurred.input _).1 ≠ .overflow
  cases occurred.input with
  | push value =>
      rw [push_outcome small reached]
      split <;> simp
  | pop =>
      rw [pop_outcome reached]
      cases (final perform (new : RingBuffer T N) earlier).contents.head? <;> simp

theorem bounded_queue_after_wrap :
    Queue (history perform (new : RingBuffer UInt8 2) [.push 1, .push 2, .push 3, .pop, .push 3])
      (final perform (new : RingBuffer UInt8 2) [.push 1, .push 2, .push 3, .pop, .push 3]) :=
  bounded_queue (by decide) [.push 1, .push 2, .push 3, .pop, .push 3]

end RingBuffer

end Bulla.Kernel
