import Bulla.Kernel.DmaBinding

/-!
# The life of a slot

A slot in the hands of its device keeps its pin and its segments until it is handed back, whatever
handles the calls in between are given.  A slot that has been released counts on, so that no handle
of an earlier pin is accepted again.
-/

namespace Bulla.Kernel.DmaState

open Rust Outcome

/-- Only pinned slots show anything to a device. -/
def Tethered (state : DmaState) : Prop := ∀ slot, slot ∈ state.segments → slot ∈ state.mappings

/-- A slot is pinned by the given record, and shows what it is required to show. -/
structure Holding (slot : UInt32) (held : DmaMapping) (shown : Option (List DmaSegment))
    (state : DmaState) : Prop where
  recorded : state.mappings[slot]? = some held
  visible : ∀ segments ∈ shown, state.segments[slot]? = some segments

/-- A successful `sync_for_cpu` on a slot. -/
def returns (slot : UInt32) (occurred : DmaEvent) : Bool :=
  match occurred.input, occurred.outcome with
  | .syncForCpu target _, .ok _ => target == slot
  | _, _ => false

/-- The calls that pin a slot, release it or hide it from its device. -/
def disturbs (slot : UInt32) : Request → Prop
  | .pin _ request => request.slot = slot
  | .unpin target _ => target = slot
  | .unmapDomain target _ => target = slot
  | _ => False

/-- A slot has released every generation up to the given one. -/
structure Retired (slot : UInt32) (generation : UInt64) (state : DmaState) : Prop where
  newer : ∀ live, state.mappings[slot]? = some live → generation.toNat < live.generation.toNat
  counted : ∃ next, state.generations[slot]? = some next ∧ generation.toNat < next.toNat

/-- The calls that are given a handle for a slot. -/
def presents (slot : UInt32) (handle : DmaMapping) : Request → Prop
  | .mapDomain target mapping _ _ => target = slot ∧ mapping = handle
  | .unmapDomain target mapping => target = slot ∧ mapping = handle
  | .unpin target mapping => target = slot ∧ mapping = handle
  | .syncForDevice target mapping => target = slot ∧ mapping = handle
  | .syncForCpu target mapping => target = slot ∧ mapping = handle
  | _ => False

section Step

variable {before after : DmaState} {request : Request} {outcome : Outcome DmaError Reply}

theorem Tethered.step (tethered : Tethered before) (step : Step before request outcome after) :
    Tethered after := by
  cases step with
  | rejected => exact tethered
  | pinned => exact fun slot shown => Std.ExtTreeMap.mem_insert.mpr (.inr (tethered slot shown))
  | registered => exact tethered
  | overwritten => exact tethered
  | mapped visible =>
      intro slot shown
      rcases Std.ExtTreeMap.mem_insert.mp shown with same | earlier
      · obtain rfl := Std.LawfulEqCmp.compare_eq_iff_eq.mp same
        exact BTreeMap.mem_of_present visible.pinned
      · exact tethered slot earlier
  | unmapped => exact fun slot shown => tethered slot (Std.ExtTreeMap.mem_erase.mp shown).2
  | unpinned present generation ownership invisible =>
      intro slot shown
      refine Std.ExtTreeMap.mem_erase.mpr ⟨?_, tethered slot shown⟩
      intro same
      obtain rfl := Std.LawfulEqCmp.compare_eq_iff_eq.mp same
      exact (getElem?_eq_none_iff _ _).mp invisible shown
  | toDevice => exact fun slot shown => Std.ExtTreeMap.mem_insert.mpr (.inr (tethered slot shown))
  | toCpu => exact fun slot shown => Std.ExtTreeMap.mem_insert.mpr (.inr (tethered slot shown))

/-- A slot that the CPU owns is not one that the device holds. -/
theorem ne_of_owned {slot target : UInt32} {held live : DmaMapping}
    (recorded : before.mappings[slot]? = some held) (device : held.ownership = .device)
    (present : before.mappings[target]? = some live) (ownership : live.ownership = .cpu) :
    target ≠ slot := by
  rintro rfl
  obtain rfl := Option.some.inj (recorded.symm.trans present)
  rw [device] at ownership
  cases ownership

/-- A pin in the hands of the device ends in no way but a successful `sync_for_cpu`. -/
theorem Holding.step {slot : UInt32} {held : DmaMapping} {shown : Option (List DmaSegment)}
    (holding : Holding slot held shown before) (device : held.ownership = .device)
    (step : Step before request outcome after)
    (kept : ∀ handle reply, request = .syncForCpu slot handle → outcome ≠ .ok reply) :
    Holding slot held shown after := by
  obtain ⟨recorded, visible⟩ := holding
  cases step with
  | rejected => exact ⟨recorded, visible⟩
  | @pinned region request mapping contained vacant mapping_eq =>
      have distinct : request.slot ≠ slot := by
        rintro rfl
        rw [vacant] at recorded
        cases recorded
      exact ⟨(BTreeMap.getElem?_insert_of_ne _ _ distinct).trans recorded, visible⟩
  | registered => exact ⟨recorded, visible⟩
  | overwritten => exact ⟨recorded, visible⟩
  | @mapped target mapping live domainCapability deviceAddress domain made =>
      refine ⟨recorded, fun segments member => ?_⟩
      have distinct : target ≠ slot := by
        rintro rfl
        have unmapped := made.unmapped
        rw [visible segments member] at unmapped
        cases unmapped
      exact (BTreeMap.getElem?_insert_of_ne _ _ distinct).trans (visible segments member)
  | @unmapped target mapping live segments present generation ownership shown =>
      have distinct := ne_of_owned recorded device present ownership
      refine ⟨recorded, fun segments member => ?_⟩
      exact (BTreeMap.getElem?_erase_of_ne _ distinct).trans (visible segments member)
  | @unpinned target mapping live next present generation ownership invisible advanced =>
      have distinct := ne_of_owned recorded device present ownership
      exact ⟨(BTreeMap.getElem?_erase_of_ne _ distinct).trans recorded, visible⟩
  | @toDevice target mapping live present generation ownership handle_ownership =>
      have distinct := ne_of_owned recorded device present ownership
      exact ⟨(BTreeMap.getElem?_insert_of_ne _ _ distinct).trans recorded, visible⟩
  | @toCpu target mapping live present generation ownership handle_ownership =>
      have distinct : target ≠ slot := by
        rintro rfl
        exact kept mapping _ rfl rfl
      exact ⟨(BTreeMap.getElem?_insert_of_ne _ _ distinct).trans recorded, visible⟩

/-- No call gets at a slot that the device holds. -/
theorem Holding.refused {slot : UInt32} {held : DmaMapping} {shown : Option (List DmaSegment)}
    (holding : Holding slot held shown before) (device : held.ownership = .device)
    (named : disturbs slot request) (step : Step before request outcome after) :
    ∃ reason, outcome = .err reason := by
  have recorded := holding.recorded
  cases step with
  | rejected request reason => exact ⟨reason, rfl⟩
  | pinned contained vacant mapping_eq =>
      rw [disturbs] at named
      rw [named, recorded] at vacant
      cases vacant
  | registered => exact named.elim
  | overwritten => exact named.elim
  | mapped => exact named.elim
  | unmapped present generation ownership shown =>
      exact (ne_of_owned recorded device present ownership named).elim
  | unpinned present generation ownership invisible advanced =>
      exact (ne_of_owned recorded device present ownership named).elim
  | toDevice => exact named.elim
  | toCpu => exact named.elim

/-- A successful `sync_for_device` hands over the pin as it is. -/
theorem holding_of_sync {slot : UInt32} {handle held : DmaMapping}
    (step : Step before (.syncForDevice slot handle) (.ok (.mapping held)) after) :
    held.ownership = .device ∧ Holding slot held none after ∧
      ∃ live, before.mappings[slot]? = some live ∧ held = { live with ownership := .device } := by
  cases step with
  | @toDevice _ _ live present generation ownership handle_ownership =>
      refine ⟨rfl, ⟨Std.ExtTreeMap.getElem?_insert_self, ?_⟩, live, present, rfl⟩
      simp

/-- Generations that a slot has released stay released. -/
theorem Retired.step {slot : UInt32} {generation : UInt64}
    (retired : Retired slot generation before)
    (step : Step before request outcome after) : Retired slot generation after := by
  obtain ⟨newer, next, counted, above⟩ := retired
  -- A pin that is handed over keeps its generation.
  have handed {target : UInt32} {live : DmaMapping} (ownership : DmaOwnership)
      (present : before.mappings[target]? = some live) (other : DmaMapping)
      (found : (before.mappings.insert target { live with ownership })[slot]? = some other) :
      generation.toNat < other.generation.toNat := by
    rcases BTreeMap.getElem?_insert_eq_some.mp found with ⟨rfl, rfl⟩ | ⟨_, old⟩
    · exact newer live present
    · exact newer other old
  cases step with
  | rejected => exact ⟨newer, next, counted, above⟩
  | @pinned region request mapping contained vacant mapping_eq =>
      refine ⟨fun live found => ?_, next, counted, above⟩
      rcases BTreeMap.getElem?_insert_eq_some.mp found with ⟨rfl, rfl⟩ | ⟨_, old⟩
      · simpa [mapping_eq, counted] using above
      · exact newer live old
  | registered => exact ⟨newer, next, counted, above⟩
  | overwritten => exact ⟨newer, next, counted, above⟩
  | mapped => exact ⟨newer, next, counted, above⟩
  | unmapped => exact ⟨newer, next, counted, above⟩
  | @unpinned target mapping live following present generation_eq ownership invisible advanced =>
      refine ⟨fun other found => newer other (BTreeMap.getElem?_erase_eq_some.mp found).2, ?_⟩
      by_cases same : target = slot
      · subst same
        have live_newer := newer live present
        exact ⟨following, Std.ExtTreeMap.getElem?_insert_self, by omega⟩
      · exact ⟨next, (BTreeMap.getElem?_insert_of_ne _ _ same).trans counted, above⟩
  | toDevice present => exact ⟨handed .device present, next, counted, above⟩
  | toCpu present => exact ⟨handed .cpu present, next, counted, above⟩

/-- A successful `unpin` retires the generation of its handle. -/
theorem retired_of_unpin {slot : UInt32} {released : DmaMapping} {reply : Reply}
    (step : Step before (.unpin slot released) (.ok reply) after) :
    Retired slot released.generation after := by
  cases step with
  | @unpinned _ _ live next present generation ownership invisible advanced =>
      refine ⟨fun other found => ?_, next, Std.ExtTreeMap.getElem?_insert_self, ?_⟩
      · simp at found
      · rw [← generation]
        omega

/-- A slot accepts no handle of a generation that it has released. -/
theorem Retired.ne_generation {slot : UInt32} {generation : UInt64} {handle live : DmaMapping}
    (retired : Retired slot generation before) (old : handle.generation ≤ generation)
    (present : before.mappings[slot]? = some live) : live.generation ≠ handle.generation := by
  have newer := retired.newer live present
  have old_nat := UInt64.le_iff_toNat_le.mp old
  intro same
  rw [same] at newer
  omega

theorem Retired.refused {slot : UInt32} {generation : UInt64} {handle : DmaMapping}
    (retired : Retired slot generation before) (old : handle.generation ≤ generation)
    (named : presents slot handle request) (step : Step before request outcome after) :
    ∃ reason, outcome = .err reason := by
  cases step with
  | rejected request reason => exact ⟨reason, rfl⟩
  | pinned => exact named.elim
  | registered => exact named.elim
  | overwritten => exact named.elim
  | mapped visible =>
      obtain ⟨rfl, rfl⟩ := named
      exact (retired.ne_generation old visible.pinned visible.generation_eq).elim
  | unmapped present same =>
      obtain ⟨rfl, rfl⟩ := named
      exact (retired.ne_generation old present same).elim
  | unpinned present same =>
      obtain ⟨rfl, rfl⟩ := named
      exact (retired.ne_generation old present same).elim
  | toDevice present same =>
      obtain ⟨rfl, rfl⟩ := named
      exact (retired.ne_generation old present same).elim
  | toCpu present same =>
      obtain ⟨rfl, rfl⟩ := named
      exact (retired.ne_generation old present same).elim

theorem Retired.validate_refused {slot : UInt32} {generation : UInt64} {handle : DmaMapping}
    (retired : Retired slot generation before) (old : handle.generation ≤ generation)
    (device domain : UInt32) :
    ∃ reason, before.validate slot handle device domain = .err reason := by
  rcases present : before.mappings[slot]? with _ | live
  · exact ⟨.unknownMapping, by simp [validate, okOr, present]⟩
  · have differ := retired.ne_generation old present
    exact ⟨.staleGeneration, by simp [validate, okOr, rejectIf, present, differ]⟩

end Step

theorem tethered_run (requests : List Request) : Tethered (final perform new requests) := by
  refine run_induction perform (motive := fun _ => Tethered) ?_ ?_ requests
  · intro slot shown
    simp [new] at shown
  · intro past state request tethered
    exact tethered.step (step_perform request state)

/-- A device keeps what it holds through every run in which the slot is not handed back. -/
theorem Holding.run {slot : UInt32} {held : DmaMapping} {shown : Option (List DmaSegment)}
    {start : DmaState} {requests : List Request} (holding : Holding slot held shown start)
    (device : held.ownership = .device)
    (kept : ∀ occurred ∈ history perform start requests, returns slot occurred = false) :
    Holding slot held shown (final perform start requests) := by
  refine final_of_events perform (motive := Holding slot held shown) holding ?_
  intro occurred member holding
  refine holding.step device (step_of_mem_history perform step_perform member) ?_
  intro handle reply input_eq returned
  have unreturned := kept occurred member
  simp [returns, input_eq, returned] at unreturned

theorem Retired.run {slot : UInt32} {generation : UInt64} {start : DmaState}
    (retired : Retired slot generation start) (requests : List Request) :
    Retired slot generation (final perform start requests) :=
  final_of_events perform (motive := Retired slot generation) retired fun _ member retired =>
    retired.step (step_of_mem_history perform step_perform member)

/-- From a successful `sync_for_device` until the next successful `sync_for_cpu` the pin of the slot
stays as it is, no call disturbs it, and nothing that the slot shows is hidden.  In every run only
pinned slots show anything. -/
theorem device_keeps_slot :
    (∀ (earlier between : List Request) (slot : UInt32) (handle held : DmaMapping),
      (perform (.syncForDevice slot handle) (final perform new earlier)).1 = .ok (.mapping held) →
      (∀ occurred ∈ history perform (final perform new (earlier ++ [.syncForDevice slot handle]))
        between, returns slot occurred = false) →
      (∃ live, (final perform new earlier).mappings[slot]? = some live ∧
        held = { live with ownership := .device }) ∧
      (final perform new (earlier ++ .syncForDevice slot handle :: between)).mappings[slot]? =
        some held ∧
      (∀ request, disturbs slot request → ∃ reason, (perform request
        (final perform new (earlier ++ .syncForDevice slot handle :: between))).1 = .err reason) ∧
      ∀ first rest segments, between = first ++ rest →
        (final perform new (earlier ++ .syncForDevice slot handle :: first)).segments[slot]? =
          some segments →
        (final perform new (earlier ++ .syncForDevice slot handle :: between)).segments[slot]? =
          some segments) ∧
    ∀ requests, Tethered (final perform new requests) := by
  refine ⟨fun earlier between slot handle held handed kept => ?_, tethered_run⟩
  have step := step_perform (.syncForDevice slot handle) (final perform new earlier)
  rw [handed] at step
  obtain ⟨device, holding, pinned⟩ := holding_of_sync step
  have state_eq (requests : List Request) :
      final perform new (earlier ++ .syncForDevice slot handle :: requests) =
        final perform (perform (.syncForDevice slot handle) (final perform new earlier)).2
          requests := final_append perform new earlier _
  simp only [state_eq] at kept ⊢
  have now := holding.run device kept
  refine ⟨pinned, now.recorded, ?_, ?_⟩
  · exact fun request named => now.refused device named (step_perform request _)
  · rintro first rest segments rfl shown
    rw [history_append] at kept
    have then_held := holding.run device fun occurred member =>
      kept occurred (List.mem_append_left _ member)
    have showing : Holding slot held (some segments) _ :=
      ⟨then_held.recorded, fun _ same => Option.some.inj same ▸ shown⟩
    have later := showing.run device fun occurred member =>
      kept occurred (List.mem_append_right _ member)
    rw [final_append]
    exact later.visible segments rfl

/-- Forged handles neither release nor hide the memory that a device works on. -/
theorem device_keeps_slot_under_forgery :
    (final perform new [.registerDomain ⟨7, 1, 0, 0x10000, .absentIdentity⟩,
      .pin ⟨.dma, 0, 0, Rights.read.union .write, 0, 0, 0x10000⟩
        ⟨3, 1, 7, 0x1000, 0x1000, .toDevice⟩,
      .syncForDevice 3 ⟨9, 9, 0, 0, .toDevice, 0, .cpu⟩,
      .mapDomain 3 ⟨1, 7, 0x1000, 0x1000, .toDevice, 0, .cpu⟩ none 0x1000,
      .unmapDomain 3 ⟨1, 7, 0x1000, 0x1000, .toDevice, 0, .cpu⟩,
      .unpin 3 ⟨1, 7, 0x1000, 0x1000, .toDevice, 0, .cpu⟩]).segments[(3 : UInt32)]? =
      some [⟨0x1000, 0x1000⟩] := by
  have kept := device_keeps_slot.1 [.registerDomain ⟨7, 1, 0, 0x10000, .absentIdentity⟩,
      .pin ⟨.dma, 0, 0, Rights.read.union .write, 0, 0, 0x10000⟩
        ⟨3, 1, 7, 0x1000, 0x1000, .toDevice⟩]
    [.mapDomain 3 ⟨1, 7, 0x1000, 0x1000, .toDevice, 0, .cpu⟩ none 0x1000,
      .unmapDomain 3 ⟨1, 7, 0x1000, 0x1000, .toDevice, 0, .cpu⟩,
      .unpin 3 ⟨1, 7, 0x1000, 0x1000, .toDevice, 0, .cpu⟩]
    3 ⟨9, 9, 0, 0, .toDevice, 0, .cpu⟩ ⟨1, 7, 0x1000, 0x1000, .toDevice, 0, .device⟩ (by decide)
    (by decide)
  exact kept.2.2.2 [.mapDomain 3 ⟨1, 7, 0x1000, 0x1000, .toDevice, 0, .cpu⟩ none 0x1000] _ _ rfl
    (by decide)

/-- Once a handle has been unpinned, its slot accepts no handle of that generation or an older one,
however often it is pinned again. -/
theorem unpinned_generation_refused (earlier later : List Request) (slot : UInt32)
    (released presented : DmaMapping)
    (unpins : (perform (.unpin slot released) (final perform new earlier)).1 = .ok .done)
    (old : presented.generation ≤ released.generation) :
    (∀ request, presents slot presented request → ∃ reason, (perform request
      (final perform new (earlier ++ .unpin slot released :: later))).1 = .err reason) ∧
    ∀ device domain, ∃ reason,
      (final perform new (earlier ++ .unpin slot released :: later)).validate
        slot presented device domain = .err reason := by
  have step := step_perform (.unpin slot released) (final perform new earlier)
  rw [unpins] at step
  have retired := (retired_of_unpin step).run later
  rw [final_append]
  constructor
  · exact fun request named => retired.refused old named (step_perform request _)
  · exact retired.validate_refused old

/-- The handle of the first pin is refused by the second. -/
theorem unpinned_generation_refused_by_next_pin :
    ∃ reason, (final perform new [.pin ⟨.dma, 0, 0, Rights.read.union .write, 0, 0, 0x10000⟩
        ⟨3, 1, 7, 0x1000, 0x1000, .toDevice⟩,
      .unpin 3 ⟨1, 7, 0x1000, 0x1000, .toDevice, 0, .cpu⟩,
      .pin ⟨.dma, 0, 0, Rights.read.union .write, 0, 0, 0x10000⟩
        ⟨3, 1, 7, 0x1000, 0x1000, .toDevice⟩]).validate 3
      ⟨1, 7, 0x1000, 0x1000, .toDevice, 0, .cpu⟩ 1 7 = .err reason :=
  (unpinned_generation_refused [.pin ⟨.dma, 0, 0, Rights.read.union .write, 0, 0, 0x10000⟩
      ⟨3, 1, 7, 0x1000, 0x1000, .toDevice⟩]
    [.pin ⟨.dma, 0, 0, Rights.read.union .write, 0, 0, 0x10000⟩
      ⟨3, 1, 7, 0x1000, 0x1000, .toDevice⟩] 3 ⟨1, 7, 0x1000, 0x1000, .toDevice, 0, .cpu⟩
    ⟨1, 7, 0x1000, 0x1000, .toDevice, 0, .cpu⟩ (by decide) (by decide)).2 1 7

end Bulla.Kernel.DmaState
