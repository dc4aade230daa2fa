import Bulla.Kernel.Memory
import Bulla.Rust.History

/-!
# Epochs

Every change of the mapping table advances the epoch of its address space, so an epoch names one
table for as long as the counter lasts.  A mapping carries the epoch of the call that wrote it last.
-/

namespace Bulla.Kernel.AddressSpace

open Rust Outcome

/-- A later state of the same address space: the epoch has not gone back, and the table is the same
if the epoch is. -/
structure Follows (before after : AddressSpace) : Prop where
  forward : before.epoch.toNat ≤ after.epoch.toNat
  same : before.epoch = after.epoch → before.mappings = after.mappings

/-- Mappings are dated by distinct epochs of the past. -/
structure Dated (state : AddressSpace) : Prop where
  past : ∀ (base : UInt64) (mapping : Mapping), state.mappings[base]? = some mapping →
    mapping.epoch.toNat ≤ state.epoch.toNat
  distinct : ∀ (left right : UInt64) (leftMapping rightMapping : Mapping),
    state.mappings[left]? = some leftMapping → state.mappings[right]? = some rightMapping →
    leftMapping.epoch = rightMapping.epoch → left = right

/-- Only an empty address space is ever destroyed. -/
def EmptyIfDestroyed (state : AddressSpace) : Prop := state.destroyed = true → state.mappings = ∅

theorem Follows.refl (state : AddressSpace) : Follows state state := ⟨le_rfl, fun _ => rfl⟩

theorem Follows.trans {first second third : AddressSpace} (left : Follows first second)
    (right : Follows second third) : Follows first third := by
  refine ⟨left.forward.trans right.forward, fun same => ?_⟩
  have left_forward := left.forward
  have right_forward := right.forward
  have first_eq : first.epoch = second.epoch := by
    rw [← UInt64.toNat_inj] at same ⊢
    omega
  exact (left.same first_eq).trans (right.same (first_eq.symm.trans same))

section Step

variable {before after : AddressSpace} {request : Request}
  {outcome : Outcome MapError (Option Mapping)}

/-- Advancing the epoch allows any change of the table. -/
theorem Follows.of_advanced (advanced : after.epoch.toNat = before.epoch.toNat + 1) :
    Follows before after := by
  refine ⟨by omega, fun same => ?_⟩
  rw [same] at advanced
  omega

theorem Follows.of_step (step : Step before request outcome after)
    (unexhausted : outcome ≠ .err .epochOverflow) : Follows before after := by
  cases step with
  | rejected => exact .refl before
  | mapped mappable advanced => exact .of_advanced advanced
  | unmapped alive present advanced => exact .of_advanced advanced
  | unmapExhausted => exact (unexhausted rfl).elim
  | reprotected alive permitted present advanced => exact .of_advanced advanced
  | protectMissed alive absent advanced => exact .of_advanced advanced
  | activated => exact ⟨le_rfl, fun _ => rfl⟩
  | deactivated => exact ⟨le_rfl, fun _ => rfl⟩
  | destroyed => exact ⟨le_rfl, fun _ => rfl⟩

/-- A mapping written under a new epoch differs in date from all others. -/
theorem Dated.insert (dated : Dated before) {base : UInt64} {mapping : Mapping}
    (advanced : mapping.epoch.toNat = before.epoch.toNat + 1)
    (epoch_eq : after.epoch = mapping.epoch)
    (mappings_eq : after.mappings = before.mappings.insert base mapping) : Dated after := by
  have older {other : UInt64} {found : Mapping} (present : before.mappings[other]? = some found) :
      found.epoch ≠ mapping.epoch := by
    have past := dated.past other found present
    intro same
    rw [same] at past
    omega
  constructor
  · intro other found present
    rw [mappings_eq] at present
    rw [epoch_eq]
    rcases BTreeMap.getElem?_insert_eq_some.mp present with ⟨_, rfl⟩ | ⟨_, old⟩
    · exact le_rfl
    · have past := dated.past other found old
      omega
  · intro left right leftMapping rightMapping left_present right_present same
    rw [mappings_eq] at left_present right_present
    rcases BTreeMap.getElem?_insert_eq_some.mp left_present with ⟨rfl, rfl⟩ | ⟨_, left_old⟩
    · rcases BTreeMap.getElem?_insert_eq_some.mp right_present with ⟨rfl, rfl⟩ | ⟨_, right_old⟩
      · rfl
      · exact (older right_old same.symm).elim
    · rcases BTreeMap.getElem?_insert_eq_some.mp right_present with ⟨rfl, rfl⟩ | ⟨_, right_old⟩
      · exact (older left_old same).elim
      · exact dated.distinct _ _ _ _ left_old right_old same

/-- Removing mappings and advancing the epoch keep the dates. -/
theorem Dated.shrink (dated : Dated before) (forward : before.epoch.toNat ≤ after.epoch.toNat)
    (kept : ∀ (base : UInt64) (mapping : Mapping), after.mappings[base]? = some mapping →
      before.mappings[base]? = some mapping) : Dated after := by
  constructor
  · exact fun base mapping present => (dated.past base mapping (kept _ _ present)).trans forward
  · intro left right leftMapping rightMapping left_present right_present
    exact dated.distinct _ _ _ _ (kept _ _ left_present) (kept _ _ right_present)

theorem Dated.step (dated : Dated before) (step : Step before request outcome after) :
    Dated after := by
  cases step with
  | rejected => exact dated
  | mapped mappable advanced => exact dated.insert advanced rfl rfl
  | unmapped alive present advanced =>
      refine dated.shrink (by simp only [advanced]; omega) ?_
      exact fun base mapping found => (BTreeMap.getElem?_erase_eq_some.mp found).2
  | unmapExhausted =>
      refine dated.shrink le_rfl ?_
      exact fun base mapping found => (BTreeMap.getElem?_erase_eq_some.mp found).2
  | reprotected alive permitted present advanced => exact dated.insert advanced rfl rfl
  | protectMissed alive absent advanced =>
      exact dated.shrink (by simp only [advanced]; omega) fun _ _ found => found
  | activated => exact dated.shrink le_rfl fun _ _ found => found
  | deactivated => exact dated.shrink le_rfl fun _ _ found => found
  | destroyed => exact dated.shrink le_rfl fun _ _ found => found

theorem EmptyIfDestroyed.step (empty : EmptyIfDestroyed before)
    (step : Step before request outcome after) : EmptyIfDestroyed after := by
  cases step with
  | rejected => exact empty
  | mapped mappable => exact fun destroyed => by simp [mappable.alive] at destroyed
  | unmapped alive => exact fun destroyed => by simp [alive] at destroyed
  | unmapExhausted alive => exact fun destroyed => by simp [alive] at destroyed
  | reprotected alive => exact fun destroyed => by simp [alive] at destroyed
  | protectMissed alive => exact fun destroyed => by simp [alive] at destroyed
  | activated => exact empty
  | deactivated => exact empty
  | destroyed inactive unmapped => exact fun _ => unmapped

end Step

theorem dated_run (requests : List Request) : Dated (final perform new requests) := by
  refine run_induction perform (motive := fun _ => Dated) ?_ ?_ requests
  · constructor <;> intros <;> simp_all [new]
  · exact fun past state request dated => dated.step (step_perform request state)

theorem emptyIfDestroyed_run (requests : List Request) :
    EmptyIfDestroyed (final perform new requests) := by
  refine run_induction perform (motive := fun _ => EmptyIfDestroyed) (fun _ => rfl) ?_ requests
  exact fun past state request empty => empty.step (step_perform request state)

/-- What is translated depends on the table alone: a destroyed address space is empty. -/
theorem EmptyIfDestroyed.translate_eq_ok {state : AddressSpace} (empty : EmptyIfDestroyed state)
    {virtualAddress : UInt64} {found : UInt64 × PagePermissions} :
    state.translate virtualAddress = .ok found ↔
      isCanonicalX8664 virtualAddress = true ∧
        translateIn virtualAddress state.mappings.toList = .ok found := by
  simp only [translate, bind_eq_ok, rejectIf_eq_ok, Bool.not_eq_true, Bool.not_eq_false]
  constructor
  · rintro ⟨_, _, _, canonical, translated⟩
    exact ⟨canonical, translated⟩
  · rintro ⟨canonical, translated⟩
    refine ⟨(), ?_, (), canonical, translated⟩
    by_contra destroyed
    rw [empty (by simpa using destroyed), Std.ExtTreeMap.toList_eq_nil_iff.mpr rfl] at translated
    cases translated

/-- In a run that does not exhaust the epochs, the epoch never goes back and names one mapping
table, which fixes every translation; live mappings are dated by distinct epochs up to the current
one. -/
theorem epoch_names_translation (earlier between : List Request)
    (unexhausted : ∀ occurred ∈ history perform new (earlier ++ between),
      occurred.outcome ≠ .err .epochOverflow) :
    (final perform new earlier).epoch ≤ (final perform new (earlier ++ between)).epoch ∧
    ((final perform new earlier).epoch = (final perform new (earlier ++ between)).epoch →
      (final perform new earlier).mappings = (final perform new (earlier ++ between)).mappings ∧
      ∀ virtualAddress found,
        (final perform new earlier).translate virtualAddress = .ok found ↔
          (final perform new (earlier ++ between)).translate virtualAddress = .ok found) ∧
    Dated (final perform new (earlier ++ between)) := by
  have follows : Follows (final perform new earlier) (final perform new (earlier ++ between)) := by
    rw [final_append]
    refine final_of_events perform (motive := Follows (final perform new earlier)) (.refl _) ?_
    intro occurred member follows
    have step := step_of_mem_history perform step_perform member
    have returned := unexhausted occurred (mem_history_of_later perform member)
    exact follows.trans (.of_step step returned)
  refine ⟨UInt64.le_iff_toNat_le.mpr follows.forward, fun same => ?_, dated_run _⟩
  have mappings_eq := follows.same same
  refine ⟨mappings_eq, fun virtualAddress found => ?_⟩
  rw [(emptyIfDestroyed_run _).translate_eq_ok, (emptyIfDestroyed_run _).translate_eq_ok,
    mappings_eq]

/-- A refused `map` and an activation leave the epoch, and so the translation, as they were. -/
theorem epoch_names_translation_of_mapped_page :
    (final perform new [
      .map ⟨.addressSpace, 0, 0, Rights.map, 0, 0, 0⟩ ⟨.frame, 1, 0, Rights.read, 0, 0, 0x1000⟩
        0x4000 .size4K 1 ⟨1⟩,
      .map ⟨.addressSpace, 0, 0, Rights.map, 0, 0, 0⟩ ⟨.frame, 1, 0, Rights.read, 0, 0, 0x1000⟩
        0x4000 .size4K 1 ⟨3⟩,
      .activate ⟨.addressSpace, 0, 0, Rights.map, 0, 0, 0⟩ 1]).translate 0x4008 =
      .ok (8, ⟨1⟩) := by
  have named := epoch_names_translation [
      .map ⟨.addressSpace, 0, 0, Rights.map, 0, 0, 0⟩ ⟨.frame, 1, 0, Rights.read, 0, 0, 0x1000⟩
        0x4000 .size4K 1 ⟨1⟩]
    [.map ⟨.addressSpace, 0, 0, Rights.map, 0, 0, 0⟩ ⟨.frame, 1, 0, Rights.read, 0, 0, 0x1000⟩
        0x4000 .size4K 1 ⟨3⟩,
      .activate ⟨.addressSpace, 0, 0, Rights.map, 0, 0, 0⟩ 1] (by decide)
  exact ((named.2.1 (by decide)).2 0x4008 (8, ⟨1⟩)).mp (by decide)

end Bulla.Kernel.AddressSpace
