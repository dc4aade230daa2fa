import Bulla.Kernel.Atomic

/-!
# The trace of the atomic memory model

The table of cells is a summary of the trace: it holds, for every cell, its last write and the
number of writes so far.  Reads answer from the table, so in a run that registers no cell twice
every event fits the events before it as it would in one sequential execution.
-/

namespace Bulla.Kernel

open Rust Outcome

/-- The operations that change a cell. -/
def AtomicEventKind.writes : AtomicEventKind → Bool
  | .store => true
  | .readModifyWrite => true
  | .load => false
  | .fence _ => false

/-- Whether an event writes a cell. -/
def AtomicEvent.writes (event : AtomicEvent) (cell : UInt32) : Bool :=
  event.cell == some cell && event.kind.writes

namespace AtomicMemoryModel

/-- The writes of a cell, in the order of the trace. -/
def writes (cell : UInt32) (trace : List AtomicEvent) : List AtomicEvent :=
  trace.filter fun event => event.writes cell

/-- The last write of a cell. -/
def lastWrite (cell : UInt32) (trace : List AtomicEvent) : Option AtomicEvent :=
  (writes cell trace).getLast?

section Writes

variable {cell : UInt32} {trace : List AtomicEvent} {event : AtomicEvent}

theorem writes_snoc_write (written : event.writes cell = true) :
    writes cell (trace ++ [event]) = writes cell trace ++ [event] := by
  simp [writes, List.filter_append, written]

theorem writes_snoc_other (unwritten : event.writes cell = false) :
    writes cell (trace ++ [event]) = writes cell trace := by
  simp [writes, List.filter_append, unwritten]

theorem lastWrite_snoc_write (written : event.writes cell = true) :
    lastWrite cell (trace ++ [event]) = some event := by
  simp [lastWrite, writes_snoc_write written]

theorem lastWrite_snoc_other (unwritten : event.writes cell = false) :
    lastWrite cell (trace ++ [event]) = lastWrite cell trace := by
  simp [lastWrite, writes_snoc_other unwritten]

theorem mem_of_lastWrite {write : AtomicEvent} (last : lastWrite cell trace = some write) :
    write ∈ trace :=
  List.mem_of_mem_filter (List.mem_of_getLast? last)

end Writes

/-- How the numbers of an event compare with those of the events before it. -/
structure Sequenced (earlier : List AtomicEvent) (event : AtomicEvent) : Prop where
  id_lt : ∀ other ∈ earlier, other.id < event.id
  order_isSome : event.modificationOrder.isSome = event.kind.writes
  sc_isSome : event.sequentiallyConsistentOrder.isSome = true ↔ event.ordering = .seqCst
  sc_lt : ∀ other ∈ earlier, ∀ first ∈ other.sequentiallyConsistentOrder,
    ∀ second ∈ event.sequentiallyConsistentOrder, first < second

/-- The counters are ahead of the trace. -/
structure Numbered (model : AtomicMemoryModel) : Prop where
  next_pos : 0 < model.nextEvent.toNat
  id_pos : ∀ event ∈ model.events, 0 < event.id.toNat
  id_lt : ∀ event ∈ model.events, event.id.toNat < model.nextEvent.toNat
  sc_lt : ∀ event ∈ model.events, ∀ index ∈ event.sequentiallyConsistentOrder,
    index.toNat < model.nextSc.toNat
  sequenced : Guarded Sequenced [] model.events

theorem numbered_new : Numbered new := by
  constructor <;> simp [new, Guarded]

/-- The counters may run ahead by themselves. -/
theorem Numbered.of_events_eq {before after : AtomicMemoryModel} (numbered : Numbered before)
    (events_eq : after.events = before.events)
    (next_le : before.nextEvent.toNat ≤ after.nextEvent.toNat)
    (nextSc_le : before.nextSc.toNat ≤ after.nextSc.toNat) : Numbered after where
  next_pos := numbered.next_pos.trans_le next_le
  id_pos := by
    rw [events_eq]
    exact numbered.id_pos
  id_lt := by
    rw [events_eq]
    exact fun event member => (numbered.id_lt event member).trans_le next_le
  sc_lt := by
    rw [events_eq]
    exact fun event member index found =>
      (numbered.sc_lt event member index found).trans_le nextSc_le
  sequenced := by
    rw [events_eq]
    exact numbered.sequenced

theorem mem_scStamp {self : AtomicMemoryModel} {ordering : AtomicOrdering} {index : UInt64} :
    index ∈ self.scStamp ordering ↔ ordering = .seqCst ∧ index = self.nextSc := by
  by_cases sequential : ordering = .seqCst
  · simp [scStamp, sequential, eq_comm]
  · simp [scStamp, sequential]

/-- A new event takes the next numbers. -/
theorem Numbered.appended {before after : AtomicMemoryModel} {event : AtomicEvent}
    (numbered : Numbered before) (appended : Appended before event after)
    (order_isSome : event.modificationOrder.isSome = event.kind.writes) : Numbered after := by
  have next_eq := appended.stamped.next
  have nextSc_eq := appended.stamped.nextSc
  have sc_iff (index : UInt64) : index ∈ event.sequentiallyConsistentOrder ↔
      event.ordering = .seqCst ∧ index = before.nextSc := by
    rw [appended.sc_eq, mem_scStamp]
  constructor
  · omega
  · simp only [appended.events_eq, List.forall_mem_append, List.forall_mem_singleton,
      appended.id_eq]
    exact ⟨numbered.id_pos, numbered.next_pos⟩
  · simp only [appended.events_eq, List.forall_mem_append, List.forall_mem_singleton,
      appended.id_eq]
    refine ⟨fun other member => ?_, by omega⟩
    have old_lt := numbered.id_lt other member
    omega
  · simp only [appended.events_eq, List.forall_mem_append, List.forall_mem_singleton, sc_iff]
    refine ⟨fun other member index found => ?_, ?_⟩
    · have old_lt := numbered.sc_lt other member index found
      omega
    · rintro index ⟨sequential, rfl⟩
      rw [if_pos sequential] at nextSc_eq
      omega
  · rw [appended.events_eq, guarded_snoc]
    refine ⟨numbered.sequenced, fun other member => ?_, order_isSome, ?_, ?_⟩
    · rw [UInt64.lt_iff_toNat_lt, appended.id_eq]
      exact numbered.id_lt other member
    · rw [appended.sc_eq]
      by_cases sequential : event.ordering = .seqCst <;> simp [scStamp, sequential]
    · intro other member first found second placed
      obtain ⟨_, rfl⟩ := (sc_iff second).mp placed
      rw [UInt64.lt_iff_toNat_lt]
      exact numbered.sc_lt other member first found

theorem Numbered.step {before after : AtomicMemoryModel} {request : Request}
    {outcome : Outcome AtomicError Reply} (numbered : Numbered before)
    (step : Step before request outcome after) : Numbered after := by
  cases step with
  | rejected reason unready burned =>
      exact numbered.of_events_eq burned.events_eq burned.next_le burned.nextSc_le
  | registered absent => exact numbered.of_events_eq rfl (le_refl _) (le_refl _)
  | replaced present => exact numbered.of_events_eq rfl (le_refl _) (le_refl _)
  | stored wrote => exact numbered.appended wrote.toAppended rfl
  | loaded present reads_eq happens_eq cells_eq appended => exact numbered.appended appended rfl
  | added reads_eq happens_eq wrote => exact numbered.appended wrote.toAppended rfl
  | fenced cells_eq appended => exact numbered.appended appended rfl

theorem numbered_final (requests : List Request) : Numbered (final perform new requests) :=
  run_induction perform (motive := fun _ self => Numbered self) numbered_new
    (fun _ before request numbered => numbered.step (step_perform request before)) requests

/-- The cell that a call registers. -/
def registeredCell : Request → Option UInt32
  | .register cell _ => some cell
  | _ => none

/-- The value of a cell after a trace: that of its last write, or the one it was registered with. -/
def Held (requests : List Request) (cell : UInt32) (trace : List AtomicEvent) (value : UInt64) :
    Prop :=
  match lastWrite cell trace with
  | some write => value = write.value
  | none => Request.register cell value ∈ requests

/-- The release that a load synchronizes with, given the write it reads from. -/
def synchronizesWith (ordering : AtomicOrdering) (write : AtomicEvent) : Option UInt64 :=
  if ordering.loadAcquires = true ∧ write.ordering.releases = true then some write.id else none

/-- How a write or a load fits the events before it. -/
structure Placed (requests : List Request) (earlier : List AtomicEvent) (event : AtomicEvent) :
    Prop where
  modificationOrder : ∀ cell, event.writes cell = true →
    ∃ order, event.modificationOrder = some order ∧ order.toNat = (writes cell earlier).length + 1
  loads : event.kind = .load → ∃ cell, event.cell = some cell ∧
    Held requests cell earlier event.value ∧
    event.readsFrom = (lastWrite cell earlier).map (·.id) ∧
    event.happensAfterRelease = (lastWrite cell earlier).bind (synchronizesWith event.ordering)

/-- A cell of the table summarizes the writes of a trace. -/
def Summarizes (requests : List Request) (cell : UInt32) (trace : List AtomicEvent)
    (state : MemoryCell) : Prop :=
  state.modificationOrder.toNat = (writes cell trace).length ∧
    match lastWrite cell trace with
    | some write =>
        state.value = write.value ∧ state.lastWrite = write.id ∧
          state.lastWriteOrdering = write.ordering
    | none => Request.register cell state.value ∈ requests ∧ state.lastWrite = 0

theorem Held.mono {requests later : List Request} {cell : UInt32} {trace : List AtomicEvent}
    {value : UInt64} (held : Held requests cell trace value) (sub : requests ⊆ later) :
    Held later cell trace value := by
  unfold Held at held ⊢
  split at held
  · exact held
  · exact sub held

theorem Placed.mono {requests later : List Request} {earlier : List AtomicEvent}
    {event : AtomicEvent} (placed : Placed requests earlier event) (sub : requests ⊆ later) :
    Placed later earlier event where
  modificationOrder := placed.modificationOrder
  loads loaded := by
    obtain ⟨cell, cell_eq, held, edges⟩ := placed.loads loaded
    exact ⟨cell, cell_eq, held.mono sub, edges⟩

theorem Summarizes.mono {requests later : List Request} {cell : UInt32} {trace : List AtomicEvent}
    {state : MemoryCell} (summary : Summarizes requests cell trace state) (sub : requests ⊆ later) :
    Summarizes later cell trace state := by
  unfold Summarizes at summary ⊢
  refine ⟨summary.1, ?_⟩
  have last := summary.2
  split at last
  · exact last
  · exact ⟨sub last.1, last.2⟩

theorem Summarizes.held {requests : List Request} {cell : UInt32} {trace : List AtomicEvent}
    {state : MemoryCell} (summary : Summarizes requests cell trace state) :
    Held requests cell trace state.value := by
  unfold Summarizes at summary
  unfold Held
  have last := summary.2
  split at last <;> exact last.1

/-- The table and the trace of a run that registers no cell twice. -/
structure Traced (requests : List Request) (model : AtomicMemoryModel) : Prop where
  registered : ∀ cell state, model.cells[cell]? = some state →
    cell ∈ requests.filterMap registeredCell
  unwritten : ∀ cell, model.cells[cell]? = none → writes cell model.events = []
  summary : ∀ cell state, model.cells[cell]? = some state →
    Summarizes requests cell model.events state
  placed : Guarded (Placed requests) [] model.events

theorem traced_new : Traced [] new where
  registered := by simp [new]
  unwritten := by simp [new, writes]
  summary := by simp [new]
  placed := trivial

/-- What the run has done stays so while it goes on. -/
theorem Traced.extend {requests : List Request} {model : AtomicMemoryModel}
    (traced : Traced requests model) (request : Request) :
    Traced (requests ++ [request]) model := by
  have sub : requests ⊆ requests ++ [request] := List.subset_append_left _ _
  constructor
  · intro cell state found
    rw [List.filterMap_append]
    exact List.mem_append_left _ (traced.registered cell state found)
  · exact traced.unwritten
  · exact fun cell state found => (traced.summary cell state found).mono sub
  · exact traced.placed.mono fun _ _ placed => placed.mono sub

section Step

variable {requests : List Request} {before after : AtomicMemoryModel}

theorem Traced.of_eq (traced : Traced requests before) (cells_eq : after.cells = before.cells)
    (events_eq : after.events = before.events) : Traced requests after := by
  obtain ⟨registered, unwritten, summary, placed⟩ := traced
  rw [← cells_eq] at registered unwritten summary
  rw [← events_eq] at unwritten summary placed
  exact ⟨registered, unwritten, summary, placed⟩

/-- A cell enters the table before it is written. -/
theorem Traced.insert {cell : UInt32} {initial : UInt64} (traced : Traced requests before)
    (absent : before.cells[cell]? = none) (member : Request.register cell initial ∈ requests)
    (cells_eq : after.cells = before.cells.insert cell ⟨initial, 0, 0, .relaxed⟩)
    (events_eq : after.events = before.events) : Traced requests after := by
  constructor
  · intro other state found
    rw [cells_eq, BTreeMap.getElem?_insert_eq_some] at found
    rcases found with ⟨rfl, _⟩ | ⟨_, found⟩
    · exact List.mem_filterMap.mpr ⟨_, member, rfl⟩
    · exact traced.registered other state found
  · intro other missing
    rw [cells_eq, BTreeMap.getElem?_insert_eq_none] at missing
    rw [events_eq]
    exact traced.unwritten other missing.2
  · intro other state found
    rw [cells_eq, BTreeMap.getElem?_insert_eq_some] at found
    rw [events_eq]
    rcases found with ⟨rfl, rfl⟩ | ⟨_, found⟩
    · simp [Summarizes, lastWrite, traced.unwritten cell absent, member]
    · exact traced.summary other state found
  · rw [events_eq]
    exact traced.placed

/-- An event that is no write. -/
theorem Traced.appended {event : AtomicEvent} (traced : Traced requests before)
    (cells_eq : after.cells = before.cells) (appended : Appended before event after)
    (reading : event.kind.writes = false) (placed : Placed requests before.events event) :
    Traced requests after := by
  have unwritten (cell : UInt32) : event.writes cell = false := by
    simp [AtomicEvent.writes, reading]
  constructor
  · rw [cells_eq]
    exact traced.registered
  · intro cell absent
    rw [appended.events_eq, writes_snoc_other (unwritten cell)]
    exact traced.unwritten cell (cells_eq ▸ absent)
  · intro cell state found
    unfold Summarizes
    rw [appended.events_eq, writes_snoc_other (unwritten cell),
      lastWrite_snoc_other (unwritten cell)]
    exact traced.summary cell state (cells_eq ▸ found)
  · rw [appended.events_eq, guarded_snoc]
    exact ⟨traced.placed, placed⟩

/-- A write takes the place of the entry that summarized its cell. -/
theorem Traced.wrote {cell : UInt32} {state : MemoryCell} {order : UInt64} {event : AtomicEvent}
    (traced : Traced requests before) (wrote : Wrote before cell state order event after)
    (cell_eq : event.cell = some cell) (writing : event.kind.writes = true)
    (order_eq : event.modificationOrder = some order) : Traced requests after := by
  have written : event.writes cell = true := by simp [AtomicEvent.writes, cell_eq, writing]
  have unwritten {other : UInt32} (distinct : cell ≠ other) : event.writes other = false := by
    simp [AtomicEvent.writes, cell_eq, distinct]
  have counted := (traced.summary cell state wrote.present).1
  have advanced := wrote.advanced
  constructor
  · intro other found found_eq
    rw [wrote.cells_eq, BTreeMap.getElem?_insert_eq_some] at found_eq
    rcases found_eq with ⟨rfl, _⟩ | ⟨_, found_eq⟩
    · exact traced.registered cell state wrote.present
    · exact traced.registered other found found_eq
  · intro other missing
    rw [wrote.cells_eq, BTreeMap.getElem?_insert_eq_none] at missing
    rw [wrote.events_eq, writes_snoc_other (unwritten missing.1)]
    exact traced.unwritten other missing.2
  · intro other found found_eq
    rw [wrote.cells_eq, BTreeMap.getElem?_insert_eq_some] at found_eq
    unfold Summarizes
    rw [wrote.events_eq]
    rcases found_eq with ⟨rfl, rfl⟩ | ⟨distinct, found_eq⟩
    · rw [writes_snoc_write written, lastWrite_snoc_write written, List.length_append]
      exact ⟨by simp; omega, rfl, rfl, rfl⟩
    · rw [writes_snoc_other (unwritten distinct), lastWrite_snoc_other (unwritten distinct)]
      exact traced.summary other found found_eq
  · rw [wrote.events_eq, guarded_snoc]
    refine ⟨traced.placed, fun other other_written => ⟨order, order_eq, ?_⟩, fun loaded => ?_⟩
    · obtain rfl : cell = other := by
        by_contra distinct
        rw [unwritten distinct] at other_written
        cases other_written
      omega
    · rw [loaded] at writing
      cases writing

/-- A load answers from the table. -/
theorem Traced.loads {cell : UInt32} {state : MemoryCell} (traced : Traced requests before)
    (numbered : Numbered before) (present : before.cells[cell]? = some state)
    (ordering : AtomicOrdering) :
    (if state.lastWrite ≠ 0 then some state.lastWrite else none) =
        (lastWrite cell before.events).map (·.id) ∧
      (if ordering.loadAcquires = true ∧ state.lastWriteOrdering.releases = true ∧
        state.lastWrite ≠ 0 then some state.lastWrite else none) =
        (lastWrite cell before.events).bind (synchronizesWith ordering) := by
  have summary := (traced.summary cell state present).2
  split at summary
  next write last =>
    -- The table writes 0 for a cell without a write, and no event has that identifier.
    have write_pos := numbered.id_pos write (mem_of_lastWrite last)
    have nonzero : write.id ≠ 0 := by
      intro zero
      simp [zero] at write_pos
    simp [last, summary, synchronizesWith, nonzero]
  next last => simp [last, summary]

/-- Every call keeps the table a summary of the trace. -/
theorem Traced.step {request : Request} {outcome : Outcome AtomicError Reply}
    (traced : Traced requests before) (numbered : Numbered before)
    (fresh : ∀ cell, registeredCell request = some cell →
      cell ∉ requests.filterMap registeredCell)
    (step : Step before request outcome after) : Traced (requests ++ [request]) after := by
  have extended := traced.extend request
  cases step with
  | rejected reason unready burned => exact extended.of_eq burned.cells_eq burned.events_eq
  | registered absent => exact extended.insert absent (by simp) rfl rfl
  | @replaced cell initial state present =>
      exact absurd (traced.registered cell state present) (fresh cell rfl)
  | stored wrote => exact extended.wrote wrote rfl rfl rfl
  | @loaded cpu cell ordering state readsFrom happensAfterRelease _ present reads_eq happens_eq
      cells_eq appended =>
      have edges := extended.loads numbered present ordering
      refine extended.appended cells_eq appended rfl ⟨?_, fun _ => ⟨cell, rfl, ?_⟩⟩
      · intro other written
        simp [AtomicEvent.writes, AtomicEventKind.writes] at written
      · exact ⟨(extended.summary cell state present).held, reads_eq.trans edges.1,
          happens_eq.trans edges.2⟩
  | added reads_eq happens_eq wrote => exact extended.wrote wrote rfl rfl rfl
  | fenced cells_eq appended =>
      refine extended.appended cells_eq appended rfl ⟨?_, fun loaded => by cases loaded⟩
      intro other written
      simp [AtomicEvent.writes] at written

end Step

theorem traced_final (requests : List Request)
    (once : (requests.filterMap registeredCell).Nodup) :
    Traced requests (final perform new requests) := by
  induction requests using List.reverseRecOn with
  | nil => exact traced_new
  | append_singleton requests request induction =>
      rw [List.filterMap_append, List.nodup_append] at once
      rw [final_append]
      refine (induction once.1).step (numbered_final requests) ?_ (step_perform request _)
      -- A cell of the table was registered before, so the last call does not register it again.
      intro cell cell_eq member
      exact once.2.2 cell member cell (by simp [cell_eq]) rfl

/-- No call rewrites the trace. -/
theorem Step.events_append {before after : AtomicMemoryModel} {request : Request}
    {outcome : Outcome AtomicError Reply} (step : Step before request outcome after) :
    ∃ added, after.events = before.events ++ added := by
  cases step with
  | rejected reason unready burned => exact ⟨[], by simp [burned.events_eq]⟩
  | registered absent => exact ⟨[], by simp⟩
  | replaced present => exact ⟨[], by simp⟩
  | stored wrote => exact ⟨_, wrote.events_eq⟩
  | loaded present reads_eq happens_eq cells_eq appended => exact ⟨_, appended.events_eq⟩
  | added reads_eq happens_eq wrote => exact ⟨_, wrote.events_eq⟩
  | fenced cells_eq appended => exact ⟨_, appended.events_eq⟩

theorem events_append (start : AtomicMemoryModel) (requests : List Request) :
    ∃ added, (final perform start requests).events = start.events ++ added := by
  induction requests using List.reverseRecOn with
  | nil => exact ⟨[], by simp [final]⟩
  | append_singleton requests request induction =>
      obtain ⟨earlier, earlier_eq⟩ := induction
      obtain ⟨added, added_eq⟩ :=
        (step_perform request (final perform start requests)).events_append
      refine ⟨earlier ++ added, ?_⟩
      rw [final_append, ← List.append_assoc, ← earlier_eq]
      exact added_eq

/-- What a successful `fetch_add` adds to a cell. -/
def increment (cell : UInt32) (occurred : Rust.Event AtomicMemoryModel Request AtomicError Reply) :
    Option UInt64 :=
  match occurred.input, occurred.outcome with
  | .fetchAdd _ target value _, .ok _ => if target = cell then some value else none
  | _, _ => none

/-- The sum of increments, which wraps as each of them does. -/
def total (values : List UInt64) : UInt64 := values.foldr (· + ·) 0

/-- The calls that may set a cell to a value that does not depend on the one it has. -/
def overwrites (cell : UInt32) : Request → Bool
  | .register target _ => target == cell
  | .store _ target _ _ => target == cell
  | _ => false

/-- One call that does not overwrite a cell adds its increment, if it is one. -/
theorem value_step {cell : UInt32} {state : MemoryCell}
    (occurred : Rust.Event AtomicMemoryModel Request AtomicError Reply)
    (step : Step occurred.before occurred.input occurred.outcome occurred.after)
    (kept : overwrites cell occurred.input = false)
    (present : occurred.before.cells[cell]? = some state) :
    ∃ next, occurred.after.cells[cell]? = some next ∧
      next.value = state.value + (increment cell occurred).getD 0 := by
  obtain ⟨before, request, outcome, after⟩ := occurred
  dsimp only at step kept present ⊢
  have unchanged (same : after.cells[cell]? = before.cells[cell]?)
      (nothing : increment cell ⟨before, request, outcome, after⟩ = none) :
      ∃ next, after.cells[cell]? = some next ∧
        next.value = state.value + (increment cell ⟨before, request, outcome, after⟩).getD 0 :=
    ⟨state, same.trans present, by simp [nothing]⟩
  cases step with
  | rejected reason unready burned =>
      exact unchanged (by rw [burned.cells_eq]) (by cases request <;> rfl)
  | registered absent =>
      exact unchanged (BTreeMap.getElem?_insert_of_ne _ _ (by simpa [overwrites] using kept)) rfl
  | replaced present =>
      exact unchanged (BTreeMap.getElem?_insert_of_ne _ _ (by simpa [overwrites] using kept)) rfl
  | stored wrote =>
      refine unchanged ?_ rfl
      rw [wrote.cells_eq]
      exact BTreeMap.getElem?_insert_of_ne _ _ (by simpa [overwrites] using kept)
  | loaded present reads_eq happens_eq cells_eq appended => exact unchanged (by rw [cells_eq]) rfl
  | @added cpu target value order ordering found _ _ _ reads_eq happens_eq wrote =>
      by_cases same : target = cell
      · subst same
        obtain rfl : state = found := Option.some.inj (present.symm.trans wrote.present)
        rw [wrote.cells_eq]
        exact ⟨_, Std.ExtTreeMap.getElem?_insert_self, by simp [increment]⟩
      · refine unchanged ?_ (by simp [increment, same])
        rw [wrote.cells_eq]
        exact BTreeMap.getElem?_insert_of_ne _ _ same
  | fenced cells_eq appended => exact unchanged (by rw [cells_eq]) rfl

/-- No increment of a cell is lost while nothing overwrites it. -/
theorem value_run {cell : UInt32} {start : AtomicMemoryModel} {state : MemoryCell}
    (present : start.cells[cell]? = some state) (requests : List Request)
    (kept : ∀ request ∈ requests, overwrites cell request = false) :
    ∃ next, (final perform start requests).cells[cell]? = some next ∧
      next.value =
        state.value + total ((history perform start requests).filterMap (increment cell)) := by
  induction requests generalizing start state with
  | nil => exact ⟨state, present, by simp [history, total]⟩
  | cons request requests induction =>
      rw [List.forall_mem_cons] at kept
      obtain ⟨middle, middle_eq, middle_value⟩ :=
        value_step (event perform start request) (step_perform request start) kept.1 present
      obtain ⟨next, next_eq, next_value⟩ := induction middle_eq kept.2
      refine ⟨next, next_eq, ?_⟩
      rw [next_value, middle_value, history, List.filterMap_cons, UInt64.add_assoc]
      rcases increment cell (event perform start request) with _ | value <;> simp [total]

/-- The event is an operation of this kind, by this processor on this cell. -/
structure Records (event : AtomicEvent) (cpu : UInt16) (cell : Option UInt32)
    (kind : AtomicEventKind) (ordering : AtomicOrdering) : Prop where
  cpu_eq : event.cpu = cpu
  cell_eq : event.cell = cell
  kind_eq : event.kind = kind
  ordering_eq : event.ordering = ordering

section Record

variable {before after : AtomicMemoryModel} {cpu : UInt16} {cell : UInt32} {value : UInt64}
  {ordering : AtomicOrdering} {reply : Reply}

/-- An accepted store is one event. -/
theorem Step.of_store (step : Step before (.store cpu cell value ordering) (.ok reply) after) :
    ∃ event, after.events = before.events ++ [event] ∧ reply = .event event.id ∧
      Records event cpu (some cell) .store ordering ∧ event.value = value := by
  cases step with
  | stored wrote => exact ⟨_, wrote.events_eq, rfl, ⟨rfl, rfl, rfl, rfl⟩, rfl⟩

/-- An accepted load is one event, with the value of the table that it returns. -/
theorem Step.of_load (step : Step before (.load cpu cell ordering) (.ok reply) after) :
    ∃ event, after.events = before.events ++ [event] ∧ reply = .read event.value event.id ∧
      Records event cpu (some cell) .load ordering ∧
      ∃ state, before.cells[cell]? = some state ∧ state.value = event.value := by
  cases step with
  | loaded present reads_eq happens_eq cells_eq appended =>
      exact ⟨_, appended.events_eq, rfl, ⟨rfl, rfl, rfl, rfl⟩, _, present, rfl⟩

/-- An increment is one event: it reads the table and writes the sum. -/
theorem Step.of_fetchAdd
    (step : Step before (.fetchAdd cpu cell value ordering) (.ok reply) after) :
    ∃ event state, after.events = before.events ++ [event] ∧ reply = .read state.value event.id ∧
      Records event cpu (some cell) .readModifyWrite ordering ∧
      before.cells[cell]? = some state ∧ event.value = state.value + value := by
  cases step with
  | added reads_eq happens_eq wrote =>
      exact ⟨_, _, wrote.events_eq, rfl, ⟨rfl, rfl, rfl, rfl⟩, wrote.present, rfl⟩

/-- An accepted fence is one event. -/
theorem Step.of_fence {kind : FenceKind}
    (step : Step before (.fence cpu kind ordering) (.ok reply) after) :
    ∃ event, after.events = before.events ++ [event] ∧ reply = .event event.id ∧
      Records event cpu none (.fence kind) ordering := by
  cases step with
  | fenced cells_eq appended => exact ⟨_, appended.events_eq, rfl, rfl, rfl, rfl, rfl⟩

/-- A call that registers a cell or is refused is no event. -/
theorem Step.silent {request : Request} {outcome : Outcome AtomicError Reply}
    (step : Step before request outcome after)
    (quiet : outcome = .ok .done ∨ ∃ reason, outcome = .err reason) :
    after.events = before.events := by
  cases step with
  | rejected reason unready burned => exact burned.events_eq
  | registered absent => rfl
  | replaced present => rfl
  | stored | loaded | added | fenced => simp at quiet

theorem Step.accepted {request : Request} {outcome : Outcome AtomicError Reply}
    (step : Step before request outcome after) (ready : Ready before request) :
    ∃ reply, outcome = .ok reply := by
  cases step with
  | rejected reason unready burned => exact absurd ready unready
  | replaced present =>
      rw [Ready, present] at ready
      cases ready
  | registered | stored | loaded | added | fenced => exact ⟨_, rfl⟩

end Record

/-- A run whose trace is that of one sequential execution. -/
structure Coherent (requests : List Request) : Prop where
  sequenced : ∀ earlier event later,
    (final perform new requests).events = earlier ++ event :: later → Sequenced earlier event
  placed : ∀ earlier event later,
    (final perform new requests).events = earlier ++ event :: later → Placed requests earlier event
  /-- Every accepted store is the next event of the trace. -/
  stored : ∀ occurred ∈ history perform new requests, ∀ cpu cell value ordering reply,
    occurred.input = .store cpu cell value ordering → occurred.outcome = .ok reply →
      ∃ event later,
        (final perform new requests).events = occurred.before.events ++ event :: later ∧
          reply = .event event.id ∧ Records event cpu (some cell) .store ordering ∧
          event.value = value
  /-- Every accepted load is the next event of the trace, and returns the value before it. -/
  loaded : ∀ occurred ∈ history perform new requests, ∀ cpu cell ordering reply,
    occurred.input = .load cpu cell ordering → occurred.outcome = .ok reply →
      ∃ event later,
        (final perform new requests).events = occurred.before.events ++ event :: later ∧
          reply = .read event.value event.id ∧ Records event cpu (some cell) .load ordering ∧
          Held requests cell occurred.before.events event.value
  /-- Every `fetch_add` returns the value before it and writes the sum. -/
  fetched : ∀ occurred ∈ history perform new requests, ∀ cpu cell value ordering reply,
    occurred.input = .fetchAdd cpu cell value ordering → occurred.outcome = .ok reply →
      ∃ previous event later,
        (final perform new requests).events = occurred.before.events ++ event :: later ∧
          reply = .read previous event.id ∧
          Records event cpu (some cell) .readModifyWrite ordering ∧
          Held requests cell occurred.before.events previous ∧
          event.value.toNat = (previous.toNat + value.toNat) % 2 ^ 64
  fenced : ∀ occurred ∈ history perform new requests, ∀ cpu kind ordering reply,
    occurred.input = .fence cpu kind ordering → occurred.outcome = .ok reply →
      ∃ event later,
        (final perform new requests).events = occurred.before.events ++ event :: later ∧
          reply = .event event.id ∧ Records event cpu none (.fence kind) ordering
  /-- There are no other events. -/
  silent : ∀ occurred ∈ history perform new requests,
    (occurred.outcome = .ok .done ∨ ∃ reason, occurred.outcome = .err reason) →
      occurred.after.events = occurred.before.events
  accepted : ∀ occurred ∈ history perform new requests,
    Ready occurred.before occurred.input → ∃ reply, occurred.outcome = .ok reply
  /-- No increment is lost between two points of the run. -/
  accumulated : ∀ earlier later cell initial, requests = earlier ++ later →
    Request.register cell initial ∈ earlier → (∀ request ∈ later, overwrites cell request = false) →
      ∃ value, Held earlier cell (final perform new earlier).events value ∧
        Held requests cell (final perform new requests).events
          (value + total
            ((history perform (final perform new earlier) later).filterMap (increment cell)))

/-- No call takes a cell out of the table. -/
theorem Step.mem_cells {before after : AtomicMemoryModel} {request : Request}
    {outcome : Outcome AtomicError Reply} (step : Step before request outcome after) {cell : UInt32}
    (member : cell ∈ before.cells) : cell ∈ after.cells := by
  cases step with
  | rejected reason unready burned => exact burned.cells_eq ▸ member
  | registered absent => exact Std.ExtTreeMap.mem_insert.mpr (.inr member)
  | replaced present => exact Std.ExtTreeMap.mem_insert.mpr (.inr member)
  | stored wrote => exact wrote.cells_eq ▸ Std.ExtTreeMap.mem_insert.mpr (.inr member)
  | loaded present reads_eq happens_eq cells_eq appended => exact cells_eq ▸ member
  | added reads_eq happens_eq wrote =>
      exact wrote.cells_eq ▸ Std.ExtTreeMap.mem_insert.mpr (.inr member)
  | fenced cells_eq appended => exact cells_eq ▸ member

theorem present_of_registered {cell : UInt32} {initial : UInt64} {requests : List Request}
    (member : Request.register cell initial ∈ requests) :
    ∃ state, (final perform new requests).cells[cell]? = some state := by
  obtain ⟨earlier, later, rfl⟩ := List.append_of_mem member
  have inserted : Call.Ensures (perform (.register cell initial))
      (fun _ after => cell ∈ after.cells) (final perform new earlier) := by
    simp only [perform, register]
    simp
  rw [final_append, final, ← Option.isSome_iff_exists, ← Std.ExtTreeMap.mem_iff_isSome_getElem?]
  refine final_of_events perform (motive := fun model => cell ∈ model.cells) inserted ?_
  exact fun occurred found => (step_of_mem_history perform step_perform found).mem_cells

section Occurred

variable {requests : List Request}
  {occurred : Rust.Event AtomicMemoryModel Request AtomicError Reply}

/-- An event stays where its call has put it. -/
theorem exists_later (member : occurred ∈ history perform new requests) {event : AtomicEvent}
    (events_eq : occurred.after.events = occurred.before.events ++ [event]) :
    ∃ later, (final perform new requests).events = occurred.before.events ++ event :: later := by
  obtain ⟨earlier, later, rfl, occurred_eq⟩ := exists_split_of_mem_history perform member
  obtain ⟨added, added_eq⟩ := events_append occurred.after later
  refine ⟨added, ?_⟩
  rw [final_append, final, ← occurred_eq, added_eq, events_eq, List.append_assoc]
  rfl

/-- What a call finds in the table is what the trace before it says. -/
theorem held_before (once : (requests.filterMap registeredCell).Nodup)
    (member : occurred ∈ history perform new requests) {cell : UInt32} {state : MemoryCell}
    (present : occurred.before.cells[cell]? = some state) :
    Held requests cell occurred.before.events state.value := by
  obtain ⟨earlier, later, rfl, occurred_eq⟩ := exists_split_of_mem_history perform member
  rw [List.filterMap_append, List.nodup_append] at once
  rw [occurred_eq] at present ⊢
  have held := ((traced_final earlier once.1).summary cell state present).held
  exact held.mono (List.subset_append_left _ _)

/-- What a cell holds later, if only increments have changed it since. -/
theorem held_after (once : (requests.filterMap registeredCell).Nodup)
    {earlier later : List Request} {cell : UInt32} {initial : UInt64}
    (split : requests = earlier ++ later) (registered : Request.register cell initial ∈ earlier)
    (kept : ∀ request ∈ later, overwrites cell request = false) :
    ∃ value, Held earlier cell (final perform new earlier).events value ∧
      Held requests cell (final perform new requests).events
        (value + total
          ((history perform (final perform new earlier) later).filterMap (increment cell))) := by
  have traced := traced_final requests once
  subst split
  rw [List.filterMap_append, List.nodup_append] at once
  obtain ⟨state, present⟩ := present_of_registered registered
  obtain ⟨next, next_eq, next_value⟩ := value_run present later kept
  refine ⟨state.value, ((traced_final earlier once.1).summary cell state present).held, ?_⟩
  rw [← next_value]
  rw [← final_append] at next_eq
  exact (traced.summary cell next next_eq).held

end Occurred

/-- The trace of any run that registers no cell twice is coherent. -/
theorem coherent_of_registered_once (requests : List Request)
    (once : (requests.filterMap registeredCell).Nodup) : Coherent requests := by
  have step {occurred} (member : occurred ∈ history perform new requests) :=
    step_of_mem_history perform step_perform member
  refine ⟨guarded_iff_split.mp (numbered_final requests).sequenced,
    guarded_iff_split.mp (traced_final requests once).placed, ?_, ?_, ?_, ?_,
    fun occurred member => (step member).silent, fun occurred member => (step member).accepted,
    fun earlier later cell initial => held_after once⟩
  · rintro ⟨before, _, _, after⟩ member cpu cell value ordering reply rfl rfl
    obtain ⟨event, events_eq, written⟩ := (step member).of_store
    obtain ⟨later, trace_eq⟩ := exists_later member events_eq
    exact ⟨event, later, trace_eq, written⟩
  · rintro ⟨before, _, _, after⟩ member cpu cell ordering reply rfl rfl
    obtain ⟨event, events_eq, reply_eq, records, state, present, value_eq⟩ := (step member).of_load
    obtain ⟨later, trace_eq⟩ := exists_later member events_eq
    exact ⟨event, later, trace_eq, reply_eq, records, value_eq ▸ held_before once member present⟩
  · rintro ⟨before, _, _, after⟩ member cpu cell value ordering reply rfl rfl
    obtain ⟨event, state, events_eq, reply_eq, records, present, value_eq⟩ :=
      (step member).of_fetchAdd
    obtain ⟨later, trace_eq⟩ := exists_later member events_eq
    refine ⟨state.value, event, later, trace_eq, reply_eq, records,
      held_before once member present, ?_⟩
    rw [value_eq, UInt64.toNat_add]
  · rintro ⟨before, _, _, after⟩ member cpu kind ordering reply rfl rfl
    obtain ⟨event, events_eq, recorded⟩ := (step member).of_fence
    obtain ⟨later, trace_eq⟩ := exists_later member events_eq
    exact ⟨event, later, trace_eq, recorded⟩

/-- One processor publishes a value, another reads it and increments it. -/
def messagePassing : List Request :=
  [.register 1 5, .register 2 0, .store 0 1 7 .relaxed, .fence 0 .hardware .relaxed,
    .store 0 2 1 .release, .load 1 2 .acquire, .fetchAdd 1 1 4 .seqCst]

theorem coherent_message_passing :
    (messagePassing.filterMap registeredCell).Nodup ∧ Coherent messagePassing :=
  ⟨by decide, coherent_of_registered_once messagePassing (by decide)⟩

end AtomicMemoryModel

end Bulla.Kernel
