import Bulla.Kernel.Atomic

/-!
# Refused atomic operations

Most refused operations use up identifiers at most.  `register` alone writes its cell before it
reports that the cell is known, and so puts an old value back and starts its modification order
again.
-/

namespace Bulla.Kernel.AtomicMemoryModel

open Rust Outcome

abbrev MemoryEvent : Type := Rust.Event AtomicMemoryModel Request AtomicError Reply

/-- The record of a cell that has just been registered. -/
def unwritten (initial : UInt64) : MemoryCell := ⟨initial, 0, 0, .relaxed⟩

/-- The value that a successful call leaves in a cell. -/
def written (cell : UInt32) (occurred : MemoryEvent) : Option UInt64 :=
  match occurred.input, occurred.outcome with
  | .register target initial, .ok _ => if target = cell then some initial else none
  | .store _ target value _, .ok _ => if target = cell then some value else none
  | .fetchAdd _ target value _, .ok (.read old _) =>
      if target = cell then some (old + value) else none
  | _, _ => none

/-- An error leaves the cells and the trace as they were. -/
def Traceless (occurred : MemoryEvent) : Prop :=
  ∀ reason, occurred.outcome = .err reason →
    occurred.after.cells = occurred.before.cells ∧ occurred.after.events = occurred.before.events

/-- A load returns what the last successful call left in its cell, and the modification order of a
cell counts the successful calls since it was registered. -/
structure Faithful (past : List MemoryEvent) (occurred : MemoryEvent) : Prop where
  loads : ∀ cpu cell ordering value id, occurred.input = .load cpu cell ordering →
    occurred.outcome = .ok (.read value id) → latest (written cell) past = some value
  ordered : ∀ (cell : UInt32) (state : MemoryCell), occurred.before.cells[cell]? = some state →
    (past.filterMap (written cell)).length = state.modificationOrder.toNat + 1

/-- A known cell is registered again only as it is. -/
def Harmless (before : AtomicMemoryModel) : Request → Prop
  | .register cell initial => ∀ state, before.cells[cell]? = some state → state = unwritten initial
  | _ => True

/-- How each cell agrees with the calls that have written it. -/
def Kept (past : List MemoryEvent) (self : AtomicMemoryModel) : Prop :=
  ∀ cell : UInt32,
    self.cells[cell]?.map (fun state => (state.value, state.modificationOrder.toNat + 1)) =
      (latest (written cell) past).map fun value => (value, (past.filterMap (written cell)).length)

section Step

variable {past : List MemoryEvent} {before after : AtomicMemoryModel} {request : Request}
  {outcome : Outcome AtomicError Reply} {occurred : MemoryEvent}

theorem traceless_of_harmless (step : Step before request outcome after)
    (harmless : Harmless before request) : Traceless ⟨before, request, outcome, after⟩ := by
  intro reason refused
  cases step with
  | rejected _ _ burned => exact ⟨burned.cells_eq, burned.events_eq⟩
  | @replaced cell initial state present =>
      obtain rfl := harmless state present
      exact ⟨BTreeMap.insert_of_present present, rfl⟩
  | _ => cases refused

theorem harmless_of_traceless (traceless : Traceless (event perform before request)) :
    Harmless before request := by
  cases request with
  | register cell initial =>
      intro state present
      have refused : perform (.register cell initial) before = (.err .duplicateCell,
          { before with cells := before.cells.insert cell (unwritten initial) }) := by
        simp [perform, register, BTreeMap.mem_of_present present, unwritten]
      have same := (traceless .duplicateCell (by simp only [Rust.event, refused])).1
      simp only [Rust.event, refused] at same
      exact BTreeMap.eq_of_insert_eq same present
  | _ => trivial

theorem Kept.of_cells_eq (kept : Kept past before)
    (no_write : ∀ cell, written cell occurred = none) (cells_eq : after.cells = before.cells) :
    Kept (past ++ [occurred]) after := by
  intro cell
  rw [cells_eq, latest_snoc, filterMap_snoc, no_write cell]
  simpa using kept cell

theorem Kept.wrote (kept : Kept past before) {target : UInt32} {value : UInt64}
    {state : MemoryCell} (write : written target occurred = some value)
    (no_other : ∀ cell, target ≠ cell → written cell occurred = none)
    (cells_eq : after.cells = before.cells.insert target state) (value_eq : state.value = value)
    (order_eq : state.modificationOrder.toNat = (past.filterMap (written target)).length) :
    Kept (past ++ [occurred]) after := by
  intro cell
  rw [cells_eq, latest_snoc, filterMap_snoc]
  by_cases same : target = cell
  · subst same
    simp [write, value_eq, order_eq]
  · rw [BTreeMap.getElem?_insert_of_ne _ _ same, no_other cell same]
    simpa using kept cell

theorem Kept.length_eq (kept : Kept past before) {cell : UInt32} {state : MemoryCell}
    (present : before.cells[cell]? = some state) :
    latest (written cell) past = some state.value ∧
      (past.filterMap (written cell)).length = state.modificationOrder.toNat + 1 := by
  have summary := kept cell
  rw [present, Option.map_some, eq_comm, Option.map_eq_some_iff] at summary
  obtain ⟨value, last, pair_eq⟩ := summary
  obtain ⟨value_eq, length_eq⟩ := Prod.mk.inj pair_eq
  exact ⟨by rw [last, value_eq], length_eq⟩

theorem Kept.of_wrote (kept : Kept past before) {cell : UInt32} {state : MemoryCell}
    {order : UInt64} {event : AtomicEvent} (wrote : Wrote before cell state order event after)
    (write : written cell occurred = some event.value)
    (no_other : ∀ other, cell ≠ other → written other occurred = none) :
    Kept (past ++ [occurred]) after := by
  obtain ⟨_, length_eq⟩ := kept.length_eq wrote.present
  refine kept.wrote write no_other wrote.cells_eq rfl ?_
  rw [length_eq]
  exact wrote.advanced

theorem Kept.step (kept : Kept past before) (step : Step before request outcome after)
    (harmless : Harmless before request) :
    Kept (past ++ [⟨before, request, outcome, after⟩]) after := by
  cases step with
  | rejected reason unready burned =>
      exact kept.of_cells_eq (fun cell => by cases request <;> rfl) burned.cells_eq
  | @registered cell initial absent =>
      have unheard : past.filterMap (written cell) = [] := by
        have summary := kept cell
        rw [absent, Option.map_none, eq_comm, Option.map_eq_none_iff] at summary
        exact List.getLast?_eq_none_iff.mp summary
      refine kept.wrote (show written cell _ = some initial from if_pos rfl)
        (fun other distinct => if_neg distinct) rfl rfl ?_
      rw [unheard]
      rfl
  | @replaced cell initial state present =>
      obtain rfl := harmless state present
      exact kept.of_cells_eq (fun _ => rfl) (BTreeMap.insert_of_present present)
  | stored wrote =>
      exact kept.of_wrote wrote (if_pos rfl) fun other distinct => if_neg distinct
  | loaded _ _ _ cells_eq => exact kept.of_cells_eq (fun _ => rfl) cells_eq
  | added _ _ wrote =>
      exact kept.of_wrote wrote (if_pos rfl) fun other distinct => if_neg distinct
  | fenced cells_eq => exact kept.of_cells_eq (fun _ => rfl) cells_eq

theorem Kept.faithful (kept : Kept past before) (step : Step before request outcome after) :
    Faithful past ⟨before, request, outcome, after⟩ := by
  constructor
  · rintro cpu cell ordering value id rfl rfl
    cases step with
    | loaded present => exact (kept.length_eq present).1
  · intro cell state present
    exact (kept.length_eq present).2

end Step

/-- Refused operations leave no trace exactly if no known cell is registered again other than as it
is.  In the runs of such calls, and only in these, refused operations leave no trace, loads return
what was written last, and no modification order starts again. -/
theorem traceless_iff_harmless (before : AtomicMemoryModel) (request : Request)
    (requests : List Request) :
    (Traceless (event perform before request) ↔ Harmless before request) ∧
      (Guarded (fun past occurred => Traceless occurred ∧ Faithful past occurred) []
        (history perform new requests) ↔
      ∀ occurred ∈ history perform new requests, Harmless occurred.before occurred.input) := by
  have traceless_iff (before : AtomicMemoryModel) (request : Request) :
      Traceless (event perform before request) ↔ Harmless before request :=
    ⟨harmless_of_traceless, traceless_of_harmless (step_perform request before)⟩
  refine ⟨traceless_iff before request, ?_⟩
  rw [← guarded_iff_forall
    (fun occurred : MemoryEvent => Harmless occurred.before occurred.input) []]
  refine guarded_iff_of_invariant perform Kept (fun _ => by simp [new, latest]) ?_ ?_ requests
  · intro past state request kept
    rw [traceless_iff state request]
    exact and_iff_left (kept.faithful (step_perform request state))
  · intro past state request kept harmless
    exact kept.step (step_perform request state) harmless

/-- A refused `register` puts another value into the cell, and starts its modification order
again. -/
theorem registered_again :
    let requests : List Request := [.register 1 5, .store 0 1 9 .relaxed, .register 1 0,
      .load 0 1 .relaxed, .store 0 1 7 .relaxed]
    (history perform new requests).map (·.outcome) =
        [.ok .done, .ok (.event 1), .err .duplicateCell, .ok (.read 0 2), .ok (.event 3)] ∧
      (final perform new requests).events.map (·.modificationOrder) =
        [some 1, none, some 1] ∧
      ¬Traceless (event perform (final perform new [.register 1 5, .store 0 1 9 .relaxed])
        (.register 1 0)) := by
  refine ⟨by decide, by decide, fun traceless => ?_⟩
  have same := congrArg (·[(1 : UInt32)]?) (traceless .duplicateCell (by decide)).1
  revert same
  decide

end Bulla.Kernel.AtomicMemoryModel
