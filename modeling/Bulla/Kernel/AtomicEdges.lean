import Bulla.Kernel.AtomicTrace

/-!
# What an atomic increment reads from

`fetch_add` takes its edges from the event just before its own, whatever that event is.  They are
the edges to the last write of its cell exactly if that write is the last event of the trace, or
there is no such write.
-/

namespace Bulla.Kernel.AtomicMemoryModel

open Rust Outcome

/-- An increment reads from the last write of its cell and synchronizes with it. -/
def ReadsPreceding (earlier : List AtomicEvent) (event : AtomicEvent) : Prop :=
  event.kind = .readModifyWrite → ∀ cell, event.cell = some cell →
    event.readsFrom = (lastWrite cell earlier).map (·.id) ∧
      ∀ write, lastWrite cell earlier = some write → event.ordering.acquires = true →
        write.ordering.releases = true → event.happensAfterRelease = some write.id

/-- The last event of a trace writes a cell, unless no event does. -/
def LastWritesCell (cell : UInt32) (trace : List AtomicEvent) : Prop :=
  lastWrite cell trace = none ∨ ∃ last, trace.getLast? = some last ∧ last.writes cell = true

/-- An increment that can succeed comes right after a write of its cell, or before all of them. -/
def Adjacent (before : AtomicMemoryModel) : Request → Prop
  | .fetchAdd cpu cell value ordering =>
      Ready before (.fetchAdd cpu cell value ordering) → LastWritesCell cell before.events
  | _ => True

theorem lastWrite_of_getLast {cell : UInt32} {trace : List AtomicEvent} {last : AtomicEvent}
    (last_eq : trace.getLast? = some last) (written : last.writes cell = true) :
    lastWrite cell trace = some last := by
  obtain ⟨earlier, rfl⟩ := List.getLast?_eq_some_iff.mp last_eq
  exact lastWrite_snoc_write written

/-- The events that `fetch_add` reads from are the writes of its cell. -/
theorem candidateEdge_eq_some {cell : UInt32} {event : AtomicEvent} {id : UInt64}
    (order_isSome : event.modificationOrder.isSome = event.kind.writes) :
    candidateEdge cell event = some id ↔ event.writes cell = true ∧ event.id = id := by
  simp [candidateEdge, AtomicEvent.writes, order_isSome, and_assoc]

theorem releaseEdge_of_mem {ordering : AtomicOrdering} {events : List AtomicEvent}
    {write : AtomicEvent} (member : write ∈ events) (acquires : ordering.acquires = true)
    (releases : write.ordering.releases = true) :
    releaseEdge ordering events (some write.id) = some write.id := by
  rw [releaseEdge, if_pos acquires, Option.filter_some, if_pos]
  exact List.any_eq_true.mpr ⟨write, member, by simp [releases]⟩

/-- The edge to the last event is the edge to the last write of the cell. -/
theorem edge_eq_iff {before : AtomicMemoryModel} (numbered : Numbered before) (cell : UInt32) :
    before.events.getLast?.bind (candidateEdge cell) =
        (lastWrite cell before.events).map (·.id) ↔ LastWritesCell cell before.events := by
  -- Loads and fences have no place in a modification order, so they are no candidates.
  have order_isSome {event : AtomicEvent} (last_eq : before.events.getLast? = some event) :
      event.modificationOrder.isSome = event.kind.writes := by
    obtain ⟨earlier, events_eq⟩ := List.getLast?_eq_some_iff.mp last_eq
    exact (guarded_iff_split.mp numbered.sequenced earlier event [] events_eq).order_isSome
  constructor
  · intro same
    rcases found : lastWrite cell before.events with _ | write
    · exact .inl found
    · rw [found, Option.map_some, Option.bind_eq_some_iff] at same
      obtain ⟨last, last_eq, edge⟩ := same
      exact .inr ⟨last, last_eq, ((candidateEdge_eq_some (order_isSome last_eq)).mp edge).1⟩
  · rintro (none_eq | ⟨last, last_eq, written⟩)
    · rw [none_eq, Option.map_none, Option.bind_eq_none_iff]
      intro last last_eq
      rw [Option.eq_none_iff_forall_ne_some]
      intro id edge
      have written := ((candidateEdge_eq_some (order_isSome last_eq)).mp edge).1
      rw [lastWrite_of_getLast last_eq written] at none_eq
      cases none_eq
    · rw [lastWrite_of_getLast last_eq written, last_eq, Option.map_some, Option.bind_some]
      exact (candidateEdge_eq_some (order_isSome last_eq)).mpr ⟨written, rfl⟩

/-- A write that was made could be made. -/
theorem Wrote.ready {before after : AtomicMemoryModel} {cell : UInt32} {state : MemoryCell}
    {order : UInt64} {event : AtomicEvent} (wrote : Wrote before cell state order event after) :
    Stampable before event.ordering ∧ Writable before cell := by
  have next_eq := wrote.stamped.next
  have nextSc_eq := wrote.stamped.nextSc
  have order_eq := wrote.advanced
  have next_lt := after.nextEvent.toNat_lt
  have nextSc_lt := after.nextSc.toNat_lt
  have order_lt := order.toNat_lt
  refine ⟨⟨by omega, fun sequential => ?_⟩, state, wrote.present, by omega⟩
  rw [if_pos sequential] at nextSc_eq
  omega

/-- Only an increment can add an event with a wrong edge. -/
theorem readsPreceding_step {before after : AtomicMemoryModel} {request : Request}
    {outcome : Outcome AtomicError Reply} (numbered : Numbered before)
    (step : Step before request outcome after) :
    Guarded ReadsPreceding [] after.events ↔
      Guarded ReadsPreceding [] before.events ∧ Adjacent before request := by
  have other {event : AtomicEvent} (appended : Appended before event after)
      (kind_ne : event.kind ≠ .readModifyWrite) (adjacent : Adjacent before request) :
      Guarded ReadsPreceding [] after.events ↔
        Guarded ReadsPreceding [] before.events ∧ Adjacent before request := by
    rw [appended.events_eq, guarded_snoc]
    exact and_congr_right fun _ => ⟨fun _ => adjacent, fun _ same => absurd same kind_ne⟩
  cases step with
  | rejected reason unready burned =>
      rw [burned.events_eq]
      refine (and_iff_left ?_).symm
      cases request with
      | fetchAdd cpu cell value ordering => exact fun ready => absurd ready unready
      | _ => trivial
  | registered absent => exact (and_iff_left trivial).symm
  | replaced present => exact (and_iff_left trivial).symm
  | stored wrote => exact other wrote.toAppended (by simp) trivial
  | loaded present reads_eq happens_eq cells_eq appended => exact other appended (by simp) trivial
  | @added cpu cell value order ordering state readsFrom happensAfterRelease _ reads_eq happens_eq
      wrote =>
      rw [wrote.events_eq, guarded_snoc]
      refine and_congr_right fun _ => ⟨fun reads _ => ?_, fun adjacent _ target same => ?_⟩
      · exact (edge_eq_iff numbered cell).mp (reads_eq.symm.trans (reads rfl cell rfl).1)
      · obtain rfl : cell = target := Option.some.inj same
        have reads : readsFrom = (lastWrite cell before.events).map (·.id) :=
          reads_eq.trans ((edge_eq_iff numbered cell).mpr (adjacent wrote.ready))
        refine ⟨reads, fun write found acquires releases => ?_⟩
        rw [happens_eq, reads, found]
        exact releaseEdge_of_mem (List.mem_append_left _ (mem_of_lastWrite found)) acquires releases
  | fenced cells_eq appended => exact other appended (by simp) trivial

/-- Every increment of a run reads from the write before it exactly if every increment that can
succeed directly follows a write of its cell or precedes all of them. -/
theorem reads_preceding_iff_adjacent (requests : List Request) :
    (∀ earlier event later, (final perform new requests).events = earlier ++ event :: later →
      ReadsPreceding earlier event) ↔
      ∀ occurred ∈ history perform new requests, Adjacent occurred.before occurred.input := by
  rw [← guarded_iff_split]
  refine run_induction_reached perform (motive := fun past model =>
    Guarded ReadsPreceding [] model.events ↔
      ∀ occurred ∈ past, Adjacent occurred.before occurred.input) (by simp [new, Guarded]) ?_
    requests
  intro earlier request same
  refine (readsPreceding_step (numbered_final earlier) (step_perform request _)).trans ?_
  rw [List.forall_mem_append, List.forall_mem_singleton, same]
  rfl

/-- A released value is incremented after a write of another cell. -/
def incrementAfterOtherCell : List Request :=
  [.register 1 0, .register 2 0, .store 0 1 7 .release, .store 0 2 9 .relaxed,
    .fetchAdd 1 1 1 .acquire]

/-- The increment has read the released value, but its event has neither edge. -/
theorem increment_loses_edges :
    (incrementAfterOtherCell.filterMap registeredCell).Nodup ∧
      ∃ write other increment,
        (final perform new incrementAfterOtherCell).events = [write, other, increment] ∧
        increment.kind = .readModifyWrite ∧ increment.cell = some 1 ∧ increment.value = 8 ∧
        lastWrite 1 [write, other] = some write ∧ write.id = 1 ∧
        increment.ordering.acquires = true ∧ write.ordering.releases = true ∧
        increment.readsFrom = none ∧ increment.happensAfterRelease = none :=
  ⟨by decide, _, _, _, rfl, rfl, rfl, rfl, rfl, rfl, rfl, rfl, rfl, rfl⟩

end Bulla.Kernel.AtomicMemoryModel
