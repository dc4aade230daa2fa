import Mathlib.Data.List.ModifyLast
import Bulla.Rust.BTreeMap
import Bulla.Rust.History
import Bulla.Rust.Word

/-!
# The atomic memory model

Atomic operations of all processors are recorded in one trace.  Every event gets an identifier; a
write gets its place in the modification order of its cell, a read the write it reads from and the
release it synchronizes with, and a sequentially consistent operation a place in one total order.
-/

namespace Bulla.Kernel

open Rust Outcome

inductive AtomicOrdering where
  | relaxed
  | acquire
  | release
  | acqRel
  | seqCst
  deriving DecidableEq, Repr

namespace AtomicOrdering

/-- Orderings with which a load synchronizes. -/
def loadAcquires : AtomicOrdering → Bool
  | .acquire => true
  | .seqCst => true
  | _ => false

/-- Orderings with which a read-modify-write synchronizes. -/
def acquires : AtomicOrdering → Bool
  | .acquire => true
  | .acqRel => true
  | .seqCst => true
  | _ => false

/-- Orderings of a write that can be synchronized with. -/
def releases : AtomicOrdering → Bool
  | .release => true
  | .acqRel => true
  | .seqCst => true
  | _ => false

end AtomicOrdering

inductive AtomicError where
  | wrongCapability
  | missingRights
  | misaligned
  | outOfRange
  | illegalLoadOrdering
  | illegalStoreOrdering
  | illegalFailureOrdering
  | failureStrongerThanSuccess
  | unknownCell
  | duplicateCell
  | illegalFenceOrdering
  | eventOverflow
  deriving DecidableEq, Repr

inductive FenceKind where
  | compiler
  | hardware
  deriving DecidableEq, Repr

inductive AtomicEventKind where
  | load
  | store
  | readModifyWrite
  | fence (kind : FenceKind)
  deriving DecidableEq, Repr

structure AtomicEvent where
  id : UInt64
  cpu : UInt16
  cell : Option UInt32
  kind : AtomicEventKind
  ordering : AtomicOrdering
  value : UInt64
  readsFrom : Option UInt64
  modificationOrder : Option UInt64
  sequentiallyConsistentOrder : Option UInt64
  happensAfterRelease : Option UInt64
  deriving DecidableEq, Repr

/-- What the model keeps of the trace of one cell. -/
structure MemoryCell where
  value : UInt64
  modificationOrder : UInt64
  /-- Identifier of the last write, zero before the first one. -/
  lastWrite : UInt64
  lastWriteOrdering : AtomicOrdering
  deriving DecidableEq, Repr

structure AtomicMemoryModel where
  cells : BTreeMap UInt32 MemoryCell
  /-- The trace, oldest event first. -/
  events : List AtomicEvent
  nextEvent : UInt64
  nextSc : UInt64

namespace AtomicMemoryModel

def new : AtomicMemoryModel := ⟨∅, [], 1, 1⟩

/-- The cell is overwritten before a duplicate is reported. -/
def register (cell : UInt32) (initial : UInt64) : Call AtomicMemoryModel AtomicError Unit := do
  let replaced := (← get).cells[cell]?
  modify fun self => { self with cells := self.cells.insert cell ⟨initial, 0, 0, .relaxed⟩ }
  rejectIf (replaced.isSome = true) AtomicError.duplicateCell

def nextEventId : Call AtomicMemoryModel AtomicError UInt64 := do
  let event := (← get).nextEvent
  let next ← okOr (checkedAdd event 1) AtomicError.eventOverflow
  modify fun self => { self with nextEvent := next }
  return event

def scIndex (ordering : AtomicOrdering) : Call AtomicMemoryModel AtomicError (Option UInt64) :=
  if ordering = .seqCst then do
    let index := (← get).nextSc
    let next ← okOr (checkedAdd index 1) AtomicError.eventOverflow
    modify fun self => { self with nextSc := next }
    return some index
  else
    return none

/-- The identifiers are used up before the cell is looked up. -/
def writeEvent (cpu : UInt16) (cell : UInt32) (value : UInt64) (ordering : AtomicOrdering)
    (kind : AtomicEventKind) (readsFrom : Option UInt64) :
    Call AtomicMemoryModel AtomicError UInt64 := do
  let event ← nextEventId
  let sc ← scIndex ordering
  let state ← okOr (← get).cells[cell]? AtomicError.unknownCell
  let order ← okOr (checkedAdd state.modificationOrder 1) AtomicError.eventOverflow
  modify fun self => { self with cells := self.cells.insert cell ⟨value, order, event, ordering⟩ }
  modify fun self =>
    { self with
      events := self.events ++
        [⟨event, cpu, some cell, kind, ordering, value, readsFrom, some order, sc, none⟩] }
  return event

def store (cpu : UInt16) (cell : UInt32) (value : UInt64) (ordering : AtomicOrdering) :
    Call AtomicMemoryModel AtomicError UInt64 := do
  rejectIf (ordering = .acquire ∨ ordering = .acqRel) AtomicError.illegalStoreOrdering
  writeEvent cpu cell value ordering .store none

def load (cpu : UInt16) (cell : UInt32) (ordering : AtomicOrdering) :
    Call AtomicMemoryModel AtomicError (UInt64 × UInt64) := do
  rejectIf (ordering = .release ∨ ordering = .acqRel) AtomicError.illegalLoadOrdering
  let state ← okOr (← get).cells[cell]? AtomicError.unknownCell
  let happensAfterRelease :=
    if ordering.loadAcquires = true ∧ state.lastWriteOrdering.releases = true ∧
        state.lastWrite ≠ 0 then
      some state.lastWrite
    else none
  let event ← nextEventId
  let sc ← scIndex ordering
  let readsFrom := if state.lastWrite ≠ 0 then some state.lastWrite else none
  modify fun self =>
    { self with
      events := self.events ++ [⟨event, cpu, some cell, .load, ordering, state.value, readsFrom,
        none, sc, happensAfterRelease⟩] }
  return (state.value, event)

/-- The edge that `fetch_add` takes from one event of the trace. -/
def candidateEdge (cell : UInt32) (candidate : AtomicEvent) : Option UInt64 :=
  if candidate.cell = some cell ∧ candidate.modificationOrder.isSome = true then some candidate.id
  else none

/-- The release that `fetch_add` synchronizes with, given the write it reads from. -/
def releaseEdge (ordering : AtomicOrdering) (events : List AtomicEvent) (prior : Option UInt64) :
    Option UInt64 :=
  if ordering.acquires = true then
    prior.filter fun id => events.any fun candidate =>
      candidate.id == id && candidate.ordering.releases
  else none

/-- The edges are read off the event just before the new one, whatever cell it is about. -/
def fetchAdd (cpu : UInt16) (cell : UInt32) (value : UInt64) (ordering : AtomicOrdering) :
    Call AtomicMemoryModel AtomicError (UInt64 × UInt64) := do
  let state ← okOr (← get).cells[cell]? AtomicError.unknownCell
  let previous := state.value
  let event ← writeEvent cpu cell (previous + value) ordering .readModifyWrite none
  let events := (← get).events
  let prior := events.reverse[1]?.bind (candidateEdge cell)
  let happensAfterRelease := releaseEdge ordering events prior
  modify fun self =>
    { self with
      events := self.events.modifyLast fun last =>
        { last with readsFrom := prior, happensAfterRelease } }
  return (previous, event)

def fence (cpu : UInt16) (kind : FenceKind) (ordering : AtomicOrdering) :
    Call AtomicMemoryModel AtomicError UInt64 := do
  rejectIf (ordering = .relaxed) AtomicError.illegalFenceOrdering
  let event ← nextEventId
  let sc ← scIndex ordering
  modify fun self =>
    { self with
      events := self.events ++
        [⟨event, cpu, none, .fence kind, ordering, 0, none, none, sc, none⟩] }
  return event

/-- One call of the mutating interface. -/
inductive Request where
  | register (cell : UInt32) (initial : UInt64)
  | store (cpu : UInt16) (cell : UInt32) (value : UInt64) (ordering : AtomicOrdering)
  | load (cpu : UInt16) (cell : UInt32) (ordering : AtomicOrdering)
  | fetchAdd (cpu : UInt16) (cell : UInt32) (value : UInt64) (ordering : AtomicOrdering)
  | fence (cpu : UInt16) (kind : FenceKind) (ordering : AtomicOrdering)
  deriving DecidableEq, Repr

/-- What a successful call returns. -/
inductive Reply where
  | done
  | event (id : UInt64)
  | read (value id : UInt64)
  deriving DecidableEq, Repr

def perform : Request → Call AtomicMemoryModel AtomicError Reply
  | .register cell initial => do
      register cell initial
      return .done
  | .store cpu cell value ordering => return .event (← store cpu cell value ordering)
  | .load cpu cell ordering => do
      let result ← load cpu cell ordering
      return .read result.1 result.2
  | .fetchAdd cpu cell value ordering => do
      let result ← fetchAdd cpu cell value ordering
      return .read result.1 result.2
  | .fence cpu kind ordering => return .event (← fence cpu kind ordering)

/-- The place in the total order that an operation gets. -/
def scStamp (self : AtomicMemoryModel) (ordering : AtomicOrdering) : Option UInt64 :=
  if ordering = .seqCst then some self.nextSc else none

/-- There are identifiers left for an operation. -/
def Stampable (self : AtomicMemoryModel) (ordering : AtomicOrdering) : Prop :=
  self.nextEvent.toNat + 1 < 2 ^ 64 ∧ (ordering = .seqCst → self.nextSc.toNat + 1 < 2 ^ 64)

/-- An operation has taken its identifiers. -/
structure Stamped (before : AtomicMemoryModel) (ordering : AtomicOrdering)
    (after : AtomicMemoryModel) : Prop where
  next : after.nextEvent.toNat = before.nextEvent.toNat + 1
  nextSc : after.nextSc.toNat = before.nextSc.toNat + if ordering = .seqCst then 1 else 0

/-- A refused operation may have used up identifiers. -/
structure Burned (before after : AtomicMemoryModel) : Prop where
  cells_eq : after.cells = before.cells
  events_eq : after.events = before.events
  next_le : before.nextEvent.toNat ≤ after.nextEvent.toNat
  nextSc_le : before.nextSc.toNat ≤ after.nextSc.toNat

theorem Burned.refl (self : AtomicMemoryModel) : Burned self self :=
  ⟨rfl, rfl, le_refl _, le_refl _⟩

/-- Taking the identifiers of an operation. -/
theorem ensures_stamp {α : Type} {before : AtomicMemoryModel} {ordering : AtomicOrdering}
    {next : UInt64 → Option UInt64 → Call AtomicMemoryModel AtomicError α}
    {post : Outcome AtomicError α → AtomicMemoryModel → Prop}
    (stamped : ∀ nextEvent nextSc, Stampable before ordering →
      Stamped before ordering { before with nextEvent, nextSc } →
      Call.Ensures (next before.nextEvent (before.scStamp ordering)) post
        { before with nextEvent, nextSc })
    (refused : ∀ reason after, ¬Stampable before ordering → Burned before after →
      post (.err reason) after) :
    Call.Ensures (nextEventId >>= fun event => scIndex ordering >>= next event) post before := by
  by_cases sequential : ordering = .seqCst
  · have stamp_eq : before.scStamp ordering = some before.nextSc := if_pos sequential
    rw [stamp_eq] at stamped
    simp only [nextEventId, scIndex, sequential, if_true]
    simp
    refine ⟨fun nextEvent next_eq => ⟨fun nextSc nextSc_eq => ?_, fun exhausted => ?_⟩, ?_⟩
    · have next_lt := nextEvent.toNat_lt
      have nextSc_lt := nextSc.toNat_lt
      exact stamped nextEvent nextSc ⟨by omega, fun _ => by omega⟩
        ⟨next_eq, by simp [sequential, nextSc_eq]⟩
    -- The identifier is used up by the time the index turns out to be exhausted.
    · refine refused _ _ (fun stampable => ?_) ⟨rfl, rfl, by simp [next_eq], le_refl _⟩
      have room := stampable.2 sequential
      omega
    · intro exhausted
      refine refused _ _ (fun stampable => ?_) (.refl before)
      have room := stampable.1
      omega
  · have stamp_eq : before.scStamp ordering = none := if_neg sequential
    rw [stamp_eq] at stamped
    simp only [nextEventId, scIndex, sequential, if_false]
    simp
    refine ⟨fun nextEvent next_eq => ?_, fun exhausted => ?_⟩
    · have next_lt := nextEvent.toNat_lt
      exact stamped nextEvent before.nextSc ⟨by omega, fun same => absurd same sequential⟩
        ⟨next_eq, by simp [sequential]⟩
    · refine refused _ _ (fun stampable => ?_) (.refl before)
      have room := stampable.1
      omega

/-- A cell is known and its modification order can grow. -/
def Writable (self : AtomicMemoryModel) (cell : UInt32) : Prop :=
  ∃ state, self.cells[cell]? = some state ∧ state.modificationOrder.toNat + 1 < 2 ^ 64

/-- What a call needs in order to succeed. -/
def Ready (self : AtomicMemoryModel) : Request → Prop
  | .register cell _ => self.cells[cell]? = none
  | .store _ cell _ ordering =>
      ¬(ordering = .acquire ∨ ordering = .acqRel) ∧ self.Stampable ordering ∧ self.Writable cell
  | .load _ cell ordering =>
      ¬(ordering = .release ∨ ordering = .acqRel) ∧ self.Stampable ordering ∧ cell ∈ self.cells
  | .fetchAdd _ cell _ ordering => self.Stampable ordering ∧ self.Writable cell
  | .fence _ _ ordering => ordering ≠ .relaxed ∧ self.Stampable ordering

/-- An event has been added to the trace. -/
structure Appended (before : AtomicMemoryModel) (event : AtomicEvent) (after : AtomicMemoryModel) :
    Prop where
  stamped : Stamped before event.ordering after
  id_eq : event.id = before.nextEvent
  sc_eq : event.sequentiallyConsistentOrder = before.scStamp event.ordering
  events_eq : after.events = before.events ++ [event]

/-- A write has been added to the trace and to its cell. -/
structure Wrote (before : AtomicMemoryModel) (cell : UInt32) (state : MemoryCell)
    (order : UInt64) (event : AtomicEvent) (after : AtomicMemoryModel) : Prop
    extends Appended before event after where
  present : before.cells[cell]? = some state
  advanced : order.toNat = state.modificationOrder.toNat + 1
  cells_eq : after.cells = before.cells.insert cell ⟨event.value, order, event.id, event.ordering⟩

/-- Adding a write to the trace and to its cell. -/
theorem ensures_writeEvent {α : Type} {before : AtomicMemoryModel} {cpu : UInt16} {cell : UInt32}
    {value : UInt64} {ordering : AtomicOrdering} {kind : AtomicEventKind}
    {readsFrom : Option UInt64} {next : UInt64 → Call AtomicMemoryModel AtomicError α}
    {post : Outcome AtomicError α → AtomicMemoryModel → Prop}
    (wrote : ∀ state order after, Wrote before cell state order ⟨before.nextEvent, cpu, some cell,
        kind, ordering, value, readsFrom, some order, before.scStamp ordering, none⟩ after →
      Call.Ensures (next before.nextEvent) post after)
    (refused : ∀ reason after, ¬(Stampable before ordering ∧ Writable before cell) →
      Burned before after → post (.err reason) after) :
    Call.Ensures (writeEvent cpu cell value ordering kind readsFrom >>= next) post before := by
  simp only [writeEvent, Call.bind_bind]
  refine ensures_stamp (fun nextEvent nextSc stampable stamped => ?_) ?_
  · have burned : Burned before { before with nextEvent, nextSc } :=
      ⟨rfl, rfl, by have := stamped.next; omega, by have := stamped.nextSc; omega⟩
    simp
    refine ⟨fun state present => ⟨fun order order_eq => ?_, fun exhausted => ?_⟩, fun absent => ?_⟩
    · exact wrote state order _
        ⟨⟨⟨stamped.next, stamped.nextSc⟩, rfl, rfl, rfl⟩, present, order_eq, rfl⟩
    · refine refused _ _ (fun ready => ?_) burned
      obtain ⟨found, found_eq, room⟩ := ready.2
      obtain rfl : state = found := Option.some.inj (present.symm.trans found_eq)
      omega
    · refine refused _ _ (fun ready => ?_) burned
      obtain ⟨found, found_eq, _⟩ := ready.2
      rw [← getElem?_eq_none_iff, found_eq] at absent
      cases absent
  · exact fun reason after exhausted burned =>
      refused reason after (fun ready => exhausted ready.1) burned

/-- The effect of each way a call can end. -/
inductive Step (before : AtomicMemoryModel) :
    Request → Outcome AtomicError Reply → AtomicMemoryModel → Prop
  | rejected {request : Request} {after : AtomicMemoryModel} (reason : AtomicError)
      (unready : ¬Ready before request) (burned : Burned before after) :
      Step before request (.err reason) after
  | registered {cell : UInt32} {initial : UInt64} (absent : before.cells[cell]? = none) :
      Step before (.register cell initial) (.ok .done)
        { before with cells := before.cells.insert cell ⟨initial, 0, 0, .relaxed⟩ }
  | replaced {cell : UInt32} {initial : UInt64} {state : MemoryCell}
      (present : before.cells[cell]? = some state) :
      Step before (.register cell initial) (.err .duplicateCell)
        { before with cells := before.cells.insert cell ⟨initial, 0, 0, .relaxed⟩ }
  | stored {cpu : UInt16} {cell : UInt32} {value order : UInt64} {ordering : AtomicOrdering}
      {state : MemoryCell} {after : AtomicMemoryModel}
      (wrote : Wrote before cell state order ⟨before.nextEvent, cpu, some cell, .store, ordering,
        value, none, some order, before.scStamp ordering, none⟩ after) :
      Step before (.store cpu cell value ordering) (.ok (.event before.nextEvent)) after
  | loaded {cpu : UInt16} {cell : UInt32} {ordering : AtomicOrdering} {state : MemoryCell}
      {readsFrom happensAfterRelease : Option UInt64} {after : AtomicMemoryModel}
      (present : before.cells[cell]? = some state)
      (reads_eq : readsFrom = if state.lastWrite ≠ 0 then some state.lastWrite else none)
      (happens_eq : happensAfterRelease =
        if ordering.loadAcquires = true ∧ state.lastWriteOrdering.releases = true ∧
          state.lastWrite ≠ 0 then some state.lastWrite else none)
      (cells_eq : after.cells = before.cells)
      (appended : Appended before ⟨before.nextEvent, cpu, some cell, .load, ordering, state.value,
        readsFrom, none, before.scStamp ordering, happensAfterRelease⟩ after) :
      Step before (.load cpu cell ordering) (.ok (.read state.value before.nextEvent)) after
  | added {cpu : UInt16} {cell : UInt32} {value order : UInt64} {ordering : AtomicOrdering}
      {state : MemoryCell} {readsFrom happensAfterRelease : Option UInt64}
      {after : AtomicMemoryModel}
      (reads_eq : readsFrom = before.events.getLast?.bind (candidateEdge cell))
      (happens_eq : happensAfterRelease = releaseEdge ordering (before.events ++
        [⟨before.nextEvent, cpu, some cell, .readModifyWrite, ordering, state.value + value, none,
          some order, before.scStamp ordering, none⟩]) readsFrom)
      (wrote : Wrote before cell state order ⟨before.nextEvent, cpu, some cell, .readModifyWrite,
        ordering, state.value + value, readsFrom, some order, before.scStamp ordering,
        happensAfterRelease⟩ after) :
      Step before (.fetchAdd cpu cell value ordering) (.ok (.read state.value before.nextEvent))
        after
  | fenced {cpu : UInt16} {kind : FenceKind} {ordering : AtomicOrdering}
      {after : AtomicMemoryModel} (cells_eq : after.cells = before.cells)
      (appended : Appended before ⟨before.nextEvent, cpu, none, .fence kind, ordering, 0, none,
        none, before.scStamp ordering, none⟩ after) :
      Step before (.fence cpu kind ordering) (.ok (.event before.nextEvent)) after

theorem step_fetchAdd (cpu : UInt16) (cell : UInt32) (value : UInt64) (ordering : AtomicOrdering)
    (before : AtomicMemoryModel) :
    Call.Ensures (perform (.fetchAdd cpu cell value ordering))
      (Step before (.fetchAdd cpu cell value ordering)) before := by
  simp only [perform, fetchAdd, Call.bind_bind, Call.ensures_get_bind, Call.ensures_okOr_bind]
  constructor
  · intro state present
    refine ensures_writeEvent (fun found order after wrote => ?_) ?_
    · obtain rfl : state = found := Option.some.inj (present.symm.trans wrote.present)
      -- The new event is the last of the trace, so the one looked at was the last before it.
      have edge_eq : after.events.reverse[1]? = before.events.getLast? := by
        rw [wrote.events_eq]
        simp [List.getLast?_eq_head?_reverse, List.head?_eq_getElem?]
      simp only [Call.ensures_get_bind, Call.ensures_modify_bind, Call.ensures_pure_bind,
        Call.ensures_pure, edge_eq]
      refine .added rfl rfl ⟨⟨⟨wrote.stamped.next, wrote.stamped.nextSc⟩, rfl, rfl, ?_⟩,
        present, wrote.advanced, wrote.cells_eq⟩
      simp only [wrote.events_eq, List.modifyLast_concat]
    · exact fun reason after unready burned => .rejected reason unready burned
  · intro absent
    refine .rejected _ (fun ready => ?_) (.refl before)
    obtain ⟨found, found_eq, _⟩ := ready.2
    simp [absent] at found_eq

/-- Every call is one of the steps. -/
theorem step_perform (request : Request) (before : AtomicMemoryModel) :
    Step before request (perform request before).1 (perform request before).2 := by
  show Call.Ensures (perform request) (Step before request) before
  cases request with
  | register cell initial =>
      simp only [perform, register]
      simp
      constructor
      · exact fun absent => .registered (Std.ExtTreeMap.getElem?_eq_none absent)
      · exact fun present => .replaced (Std.ExtTreeMap.getElem?_eq_some_getElem present)
  | store cpu cell value ordering =>
      simp only [perform, store, Call.bind_bind, Call.ensures_rejectIf_bind]
      constructor
      · intro ordered
        refine ensures_writeEvent (fun state order after wrote => .stored wrote) ?_
        exact fun reason after unready burned =>
          .rejected reason (fun ready => unready ready.2) burned
      · exact fun illegal => .rejected _ (fun ready => ready.1 illegal) (.refl before)
  | load cpu cell ordering =>
      simp only [perform, load, Call.bind_bind, Call.ensures_rejectIf_bind, Call.ensures_get_bind,
        Call.ensures_okOr_bind]
      refine ⟨fun ordered => ⟨fun state present => ?_, fun absent => ?_⟩, ?_⟩
      · refine ensures_stamp (fun nextEvent nextSc stampable stamped => ?_) ?_
        · exact .loaded present rfl rfl rfl ⟨⟨stamped.next, stamped.nextSc⟩, rfl, rfl, rfl⟩
        · exact fun reason after exhausted burned =>
            .rejected reason (fun ready => exhausted ready.2.1) burned
      · refine .rejected _ (fun ready => ?_) (.refl before)
        exact (getElem?_eq_none_iff before.cells cell).mp absent ready.2.2
      · exact fun illegal => .rejected _ (fun ready => ready.1 illegal) (.refl before)
  | fetchAdd cpu cell value ordering => exact step_fetchAdd cpu cell value ordering before
  | fence cpu kind ordering =>
      simp only [perform, fence, Call.bind_bind, Call.ensures_rejectIf_bind]
      constructor
      · intro ordered
        refine ensures_stamp (fun nextEvent nextSc stampable stamped => ?_) ?_
        · exact .fenced rfl ⟨⟨stamped.next, stamped.nextSc⟩, rfl, rfl, rfl⟩
        · exact fun reason after exhausted burned =>
            .rejected reason (fun ready => exhausted ready.2) burned
      · exact fun illegal => .rejected _ (fun ready => ready.1 illegal) (.refl before)

end AtomicMemoryModel

end Bulla.Kernel
