import Bulla.Kernel.Memory
import Bulla.Span

/-!
# Representation of address spaces

Along every run the live mappings occupy disjoint, aligned virtual ranges that do not wrap, each
lies physically in the frame capability of the call that made it, and a destroyed space is empty.
The loop of `translate` therefore finds the one mapping that holds an address, without overflow.
-/

namespace Bulla.Kernel

open Rust Outcome

/-- Bytes of a mapping. -/
def Mapping.size (mapping : Mapping) : ℕ := mapping.pageSize.bytes.toNat * mapping.pages.toNat

/-- The virtual addresses of a mapping. -/
def Mapping.virtual (mapping : Mapping) : Span ℕ where
  lower := mapping.virtualBase.toNat
  upper := mapping.virtualBase.toNat + mapping.size
  ordered := Nat.le_add_right _ _

/-- The physical addresses of a mapping. -/
def Mapping.physical (mapping : Mapping) : Span ℕ where
  lower := mapping.physicalBase.toNat
  upper := mapping.physicalBase.toNat + mapping.size
  ordered := Nat.le_add_right _ _

/-- The addresses a capability covers. -/
def Capability.span (capability : Capability) : Span ℕ where
  lower := capability.base.toNat
  upper := capability.base.toNat + capability.len.toNat
  ordered := Nat.le_add_right _ _

/-- A nonempty aligned mapping that wraps on neither side. -/
structure Mapping.WellFormed (mapping : Mapping) : Prop where
  positive : 0 < mapping.pages.toNat
  virtual_aligned : mapping.pageSize.bytes.toNat ∣ mapping.virtualBase.toNat
  physical_aligned : mapping.pageSize.bytes.toNat ∣ mapping.physicalBase.toNat
  virtual_bounded : mapping.virtual.upper < 2 ^ 64
  physical_bounded : mapping.physical.upper < 2 ^ 64

/-- Two mappings of the same addresses, whatever their permissions. -/
structure Mapping.SamePlace (left right : Mapping) : Prop where
  virtualBase : left.virtualBase = right.virtualBase
  physicalBase : left.physicalBase = right.physicalBase
  pageSize : left.pageSize = right.pageSize
  pages : left.pages = right.pages

theorem PageSize.bytes_pos (pageSize : PageSize) : 0 < pageSize.bytes.toNat := by
  cases pageSize <;> decide

namespace Mapping

variable {left right : Mapping}

theorem SamePlace.refl (mapping : Mapping) : SamePlace mapping mapping := ⟨rfl, rfl, rfl, rfl⟩

theorem SamePlace.size_eq (same : SamePlace left right) : left.size = right.size := by
  rw [size, size, same.pageSize, same.pages]

theorem SamePlace.virtual_eq (same : SamePlace left right) : left.virtual = right.virtual := by
  simp only [virtual, same.virtualBase, same.size_eq]

theorem SamePlace.physical_eq (same : SamePlace left right) : left.physical = right.physical := by
  simp only [physical, same.physicalBase, same.size_eq]

theorem SamePlace.wellFormed (same : SamePlace left right) (formed : left.WellFormed) :
    right.WellFormed where
  positive := same.pages ▸ formed.positive
  virtual_aligned := same.pageSize ▸ same.virtualBase ▸ formed.virtual_aligned
  physical_aligned := same.pageSize ▸ same.physicalBase ▸ formed.physical_aligned
  virtual_bounded := same.virtual_eq ▸ formed.virtual_bounded
  physical_bounded := same.physical_eq ▸ formed.physical_bounded

theorem WellFormed.size_pos {mapping : Mapping} (formed : mapping.WellFormed) :
    0 < mapping.size := Nat.mul_pos mapping.pageSize.bytes_pos formed.positive

end Mapping

namespace AddressSpace

abbrev SpaceEvent : Type := Event AddressSpace Request MapError (Option Mapping)

/-- The frame capability a successful `map` at a virtual base was given. -/
def frameGrant (virtualBase : UInt64) (occurred : SpaceEvent) : Option Capability :=
  match occurred.input, occurred.outcome with
  | .map _ frames base _ _ _, .ok _ => if base = virtualBase then some frames else none
  | _, _ => none

/-- The frame capability of the call that made the mapping now at a virtual base. -/
def source (past : List SpaceEvent) (virtualBase : UInt64) : Option Capability :=
  latest (frameGrant virtualBase) past

/-- A capability that a mapping may have been made from. -/
structure Backs (frames : Capability) (mapping : Mapping) : Prop where
  kind : frames.kind = .frame ∨ frames.kind = .physRegion
  bounded : frames.span.upper < 2 ^ 64
  base : mapping.physicalBase = frames.base
  fits : mapping.size ≤ frames.len.toNat

/-- The representation invariant, with the run that led to the state. -/
structure Represented (past : List SpaceEvent) (state : AddressSpace) : Prop where
  keyed : ∀ (key : UInt64) (mapping : Mapping), state.mappings[key]? = some mapping →
    mapping.virtualBase = key
  formed : ∀ (key : UInt64) (mapping : Mapping), state.mappings[key]? = some mapping →
    mapping.WellFormed
  backed : ∀ (key : UInt64) (mapping : Mapping), state.mappings[key]? = some mapping →
    ∃ frames, source past key = some frames ∧ Backs frames mapping
  disjoint : ∀ (key other : UInt64) (mapping next : Mapping), state.mappings[key]? = some mapping →
    state.mappings[other]? = some next → key ≠ other → mapping.virtual.Apart next.virtual
  destroyed : state.destroyed = true → state.mappings = ∅ ∧ state.activeCpus = ∅

theorem Backs.samePlace {frames : Capability} {left right : Mapping} (backs : Backs frames left)
    (same : left.SamePlace right) : Backs frames right :=
  ⟨backs.kind, backs.bounded, same.physicalBase ▸ backs.base, same.size_eq ▸ backs.fits⟩

/-- A step that moves no mapping and makes none keeps the representation. -/
theorem Represented.kept {past : List SpaceEvent} {before after : AddressSpace}
    {occurred : SpaceEvent} (represented : Represented past before)
    (places : ∀ (key : UInt64) (mapping : Mapping), after.mappings[key]? = some mapping →
      ∃ old, before.mappings[key]? = some old ∧ old.SamePlace mapping)
    (no_grant : ∀ key, frameGrant key occurred = none)
    (destroyed : after.destroyed = true → after.mappings = ∅ ∧ after.activeCpus = ∅) :
    Represented (past ++ [occurred]) after := by
  refine ⟨?_, ?_, ?_, ?_, destroyed⟩
  · intro key mapping found
    obtain ⟨old, present, same⟩ := places key mapping found
    rw [← same.virtualBase]
    exact represented.keyed _ _ present
  · intro key mapping found
    obtain ⟨old, present, same⟩ := places key mapping found
    exact same.wellFormed (represented.formed _ _ present)
  · intro key mapping found
    obtain ⟨old, present, same⟩ := places key mapping found
    obtain ⟨frames, granted, backs⟩ := represented.backed _ _ present
    refine ⟨frames, ?_, backs.samePlace same⟩
    rw [source, latest_snoc, no_grant, Option.none_or]
    exact granted
  · intro key other mapping next found other_found distinct
    obtain ⟨old, present, same⟩ := places key mapping found
    obtain ⟨other_old, other_present, other_same⟩ := places other next other_found
    rw [← same.virtual_eq, ← other_same.virtual_eq]
    exact represented.disjoint _ _ _ _ present other_present distinct

/-- The overlap test of `map` is exact on well-formed mappings. -/
theorem apart_of_not_overlaps {mapping other : Mapping} {stop key : UInt64}
    (stop_eq : stop.toNat = mapping.virtual.upper) (positive : 0 < mapping.size)
    (formed : other.WellFormed) (clear : overlaps mapping.virtualBase stop (key, other) = false) :
    mapping.virtual.Apart other.virtual := by
  have other_bounded := formed.virtual_bounded
  have other_positive := formed.size_pos
  have other_end : (saturatingAdd other.virtualBase
      (saturatingMul other.pageSize.bytes other.pages)).toNat = other.virtual.upper := by
    rw [saturatingAdd_toNat, saturatingMul_toNat]
    simp only [Mapping.virtual, Mapping.size] at other_bounded ⊢
    omega
  simp only [overlaps, UInt64.lt_iff_toNat_lt, other_end, stop_eq, Bool.and_eq_false_iff,
    decide_eq_false_iff_not, Nat.not_lt] at clear
  rw [Span.apart_iff_min_le_max]
  simp only [Mapping.virtual] at clear ⊢
  omega

/-- `map` adds one well-formed mapping beside the others. -/
theorem Represented.mapped {past : List SpaceEvent} {before after : AddressSpace}
    {occurred : SpaceEvent} {space frames : Capability} {virtualBase pages epoch : UInt64}
    {pageSize : PageSize} {permissions : PagePermissions} {made : Mapping}
    {reply : Option Mapping} (represented : Represented past before)
    (mappable : Mappable before space frames virtualBase pageSize pages permissions)
    (made_eq : made = ⟨virtualBase, frames.base, pageSize, pages, permissions, epoch⟩)
    (input_eq : occurred.input = .map space frames virtualBase pageSize pages permissions)
    (outcome_eq : occurred.outcome = .ok reply)
    (mappings_eq : after.mappings = before.mappings.insert virtualBase made)
    (destroyed_eq : after.destroyed = before.destroyed) :
    Represented (past ++ [occurred]) after := by
  obtain ⟨stop, stop_eq, clear⟩ := mappable.clear
  have bounded := mappable.bounded
  have frame_bounded := mappable.frame_bounded
  have fits := mappable.fits
  have made_formed : made.WellFormed := by
    rw [made_eq]
    refine ⟨toNat_pos mappable.positive, mod_eq_zero_iff.mp mappable.virtual_aligned,
      mod_eq_zero_iff.mp mappable.physical_aligned, bounded, ?_⟩
    simp only [Mapping.physical, Mapping.size]
    omega
  have made_apart (key : UInt64) (other : Mapping) (found : before.mappings[key]? = some other) :
      made.virtual.Apart other.virtual := by
    have size_pos := made_formed.size_pos
    rw [made_eq] at size_pos ⊢
    exact apart_of_not_overlaps stop_eq size_pos (represented.formed _ _ found) (clear _ _ found)
  have entry (key : UInt64) (mapping : Mapping) (found : after.mappings[key]? = some mapping) :
      (virtualBase = key ∧ made = mapping) ∨
        (virtualBase ≠ key ∧ before.mappings[key]? = some mapping) := by
    rw [mappings_eq] at found
    exact BTreeMap.getElem?_insert_eq_some.mp found
  refine ⟨?_, ?_, ?_, ?_, ?_⟩
  · intro key mapping found
    rcases entry key mapping found with ⟨rfl, rfl⟩ | ⟨_, old⟩
    · rw [made_eq]
    · exact represented.keyed _ _ old
  · intro key mapping found
    rcases entry key mapping found with ⟨rfl, rfl⟩ | ⟨_, old⟩
    · exact made_formed
    · exact represented.formed _ _ old
  · intro key mapping found
    rw [source, latest_snoc, frameGrant, input_eq, outcome_eq]
    rcases entry key mapping found with ⟨rfl, rfl⟩ | ⟨distinct, old⟩
    · exact ⟨frames, by simp, mappable.frame_kind, frame_bounded, by rw [made_eq], made_eq ▸ fits⟩
    · obtain ⟨other_frames, granted, backs⟩ := represented.backed _ _ old
      exact ⟨other_frames, by simpa [distinct, source] using granted, backs⟩
  · intro key other mapping next found other_found distinct
    rcases entry key mapping found with ⟨rfl, rfl⟩ | ⟨_, old⟩ <;>
      rcases entry other next other_found with ⟨rfl, rfl⟩ | ⟨_, other_old⟩
    · exact absurd rfl distinct
    · exact made_apart _ _ other_old
    · exact (made_apart _ _ old).symm
    · exact represented.disjoint _ _ _ _ old other_old distinct
  · intro destroyed
    rw [destroyed_eq, mappable.alive] at destroyed
    cases destroyed

theorem represented_new : Represented [] new := by
  refine ⟨?_, ?_, ?_, ?_, by simp [new]⟩ <;> simp [new]

/-- Every call keeps the representation. -/
theorem represented_step {past : List SpaceEvent} {before after : AddressSpace} {request : Request}
    {outcome : Outcome MapError (Option Mapping)} (represented : Represented past before)
    (step : Step before request outcome after) :
    Represented (past ++ [⟨before, request, outcome, after⟩]) after := by
  cases step with
  | rejected request reason =>
      refine represented.kept ?_ ?_ represented.destroyed
      · intro key mapping found
        exact ⟨mapping, found, .refl mapping⟩
      · intro key
        cases request <;> rfl
  | mapped mappable advanced => exact represented.mapped mappable rfl rfl rfl rfl rfl
  | unmapped alive present advanced =>
      refine represented.kept ?_ (fun _ => rfl) (by simp [alive])
      intro key mapping found
      exact ⟨mapping, (BTreeMap.getElem?_erase_eq_some.mp found).2, .refl mapping⟩
  | unmapExhausted alive present exhausted =>
      refine represented.kept ?_ (fun _ => rfl) (by simp [alive])
      intro key mapping found
      exact ⟨mapping, (BTreeMap.getElem?_erase_eq_some.mp found).2, .refl mapping⟩
  | @reprotected space virtualBase epoch old permissions alive permitted present advanced =>
      refine represented.kept ?_ (fun _ => rfl) (by simp [alive])
      intro key mapping found
      rcases BTreeMap.getElem?_insert_eq_some.mp found with ⟨rfl, rfl⟩ | ⟨_, kept⟩
      · exact ⟨old, present, rfl, rfl, rfl, rfl⟩
      · exact ⟨mapping, kept, .refl mapping⟩
  | protectMissed alive absent advanced =>
      refine represented.kept ?_ (fun _ => rfl) (by simp [alive])
      intro key mapping found
      exact ⟨mapping, found, .refl mapping⟩
  | activated alive =>
      refine represented.kept ?_ (fun _ => rfl) (by simp [alive])
      intro key mapping found
      exact ⟨mapping, found, .refl mapping⟩
  | @deactivated space cpu active =>
      refine represented.kept ?_ (fun _ => rfl) ?_
      · intro key mapping found
        exact ⟨mapping, found, .refl mapping⟩
      · intro destroyed
        rw [(represented.destroyed destroyed).2] at active
        simp at active
  | destroyed inactive unmapped =>
      refine represented.kept ?_ (fun _ => rfl) (fun _ => ⟨unmapped, inactive⟩)
      intro key mapping found
      exact ⟨mapping, found, .refl mapping⟩

/-- The representation holds in every reachable state. -/
theorem represented_run (requests : List Request) :
    Represented (history perform new requests) (final perform new requests) :=
  run_induction perform (motive := Represented) represented_new
    (fun _ state request represented => represented_step represented (step_perform request state))
    requests

/-- The loop of `translate` ends at the first mapping that holds the address, or at none. -/
theorem translateIn_spec (virtualAddress : UInt64) (entries : List (UInt64 × Mapping))
    (formed : ∀ entry ∈ entries, entry.2.WellFormed) :
    (∃ entry ∈ entries, ∃ physical : UInt64, virtualAddress.toNat ∈ entry.2.virtual.cells ∧
      physical.toNat + entry.2.virtualBase.toNat =
        entry.2.physicalBase.toNat + virtualAddress.toNat ∧
      translateIn virtualAddress entries = .ok (physical, entry.2.permissions)) ∨
    ((∀ entry ∈ entries, virtualAddress.toNat ∉ entry.2.virtual.cells) ∧
      translateIn virtualAddress entries = .err .notMapped) := by
  induction entries with
  | nil => exact .inr ⟨by simp, rfl⟩
  | cons entry entries induction =>
      obtain ⟨key, mapping⟩ := entry
      have head_formed : mapping.WellFormed := formed _ List.mem_cons_self
      have virtual_bounded := head_formed.virtual_bounded
      have physical_bounded := head_formed.physical_bounded
      simp only [Mapping.virtual, Mapping.physical] at virtual_bounded physical_bounded
      obtain ⟨bytes, bytes_eq⟩ := exists_toNat_eq (show mapping.size < 2 ^ 64 by omega)
      obtain ⟨stop, stop_eq⟩ := exists_toNat_eq virtual_bounded
      have bytes_found : checkedMul mapping.pageSize.bytes mapping.pages = some bytes :=
        checkedMul_eq_some.mpr bytes_eq
      have stop_found : checkedAdd mapping.virtualBase bytes = some stop :=
        checkedAdd_eq_some.mpr (by omega)
      simp only [translateIn, bytes_found, stop_found, okOr, ok_bind, UInt64.le_iff_toNat_le,
        UInt64.lt_iff_toNat_lt]
      by_cases inside : mapping.virtualBase.toNat ≤ virtualAddress.toNat ∧
          virtualAddress.toNat < stop.toNat
      · obtain ⟨offset, offset_eq⟩ := exists_toNat_eq
          (show virtualAddress.toNat - mapping.virtualBase.toNat < 2 ^ 64 by omega)
        obtain ⟨physical, physical_eq⟩ := exists_toNat_eq
          (show mapping.physicalBase.toNat + offset.toNat < 2 ^ 64 by omega)
        refine .inl ⟨(key, mapping), List.mem_cons_self, physical, ?_, by simp only; omega, ?_⟩
        · simp only [Span.mem_cells, Mapping.virtual]
          omega
        · rw [if_pos inside, bind_eq_ok]
          refine ⟨offset, by simp; omega, ?_⟩
          rw [bind_eq_ok]
          exact ⟨physical, by simpa using physical_eq, rfl⟩
      · rw [if_neg inside]
        have outside : virtualAddress.toNat ∉ mapping.virtual.cells := by
          simp only [Span.mem_cells, Mapping.virtual]
          omega
        rcases induction fun entry member => formed entry (List.mem_cons_of_mem _ member) with
          ⟨entry, member, found⟩ | ⟨none_inside, missed⟩
        · exact .inl ⟨entry, List.mem_cons_of_mem _ member, found⟩
        · exact .inr ⟨List.forall_mem_cons.mpr ⟨outside, none_inside⟩, missed⟩

/-- In a represented state `translate` answers from the mapping that holds the address. -/
theorem Represented.translate_spec {past : List SpaceEvent} {state : AddressSpace}
    (represented : Represented past state) (virtualAddress : UInt64) :
    (∃ (key : UInt64) (mapping : Mapping) (physical : UInt64),
      state.mappings[key]? = some mapping ∧ virtualAddress.toNat ∈ mapping.virtual.cells ∧
      physical.toNat + mapping.virtualBase.toNat =
        mapping.physicalBase.toNat + virtualAddress.toNat ∧
      state.translate virtualAddress = .ok (physical, mapping.permissions)) ∨
    ∃ reason ∈ [MapError.destroyed, .nonCanonical, .notMapped],
      state.translate virtualAddress = .err reason := by
  by_cases destroyed : state.destroyed = true
  · exact .inr ⟨.destroyed, by simp, by simp [translate, destroyed]⟩
  · by_cases canonical : isCanonicalX8664 virtualAddress = false
    · exact .inr ⟨.nonCanonical, by simp, by simp [translate, destroyed, canonical]⟩
    · have translate_eq : state.translate virtualAddress =
          translateIn virtualAddress state.mappings.toList := by
        simp [translate, rejectIf, destroyed, canonical]
      rcases translateIn_spec virtualAddress state.mappings.toList
          fun entry member => represented.formed _ _ (BTreeMap.mem_toList.mp member) with
        ⟨⟨key, mapping⟩, member, physical, inside, physical_eq, found⟩ | ⟨_, missed⟩
      · exact .inl ⟨key, mapping, physical, BTreeMap.mem_toList.mp member, inside, physical_eq,
          translate_eq.trans found⟩
      · exact .inr ⟨.notMapped, by simp, translate_eq.trans missed⟩

/-- The representation invariant of every run, and what `translate` makes of it. -/
theorem translation_unambiguous (requests : List Request) :
    (∀ (key other : UInt64) (mapping next : Mapping),
      (final perform new requests).mappings[key]? = some mapping →
      (final perform new requests).mappings[other]? = some next → key ≠ other →
      mapping.virtual.Apart next.virtual) ∧
    (∀ (key : UInt64) (mapping : Mapping),
      (final perform new requests).mappings[key]? = some mapping →
      mapping.virtualBase = key ∧ mapping.WellFormed ∧
      ∃ frames, source (history perform new requests) key = some frames ∧
        frames.span.lower ≤ mapping.physical.lower ∧
        mapping.physical.upper ≤ frames.span.upper) ∧
    ((final perform new requests).destroyed = true →
      (final perform new requests).mappings = ∅ ∧ (final perform new requests).activeCpus = ∅) ∧
    ∀ virtualAddress,
      (final perform new requests).translate virtualAddress ≠ .err .rangeOverflow ∧
      (final perform new requests).translate virtualAddress ≠ .overflow ∧
      ∀ physical permissions,
        (final perform new requests).translate virtualAddress = .ok (physical, permissions) →
        ∃ (key : UInt64) (mapping : Mapping),
          (final perform new requests).mappings[key]? = some mapping ∧
          virtualAddress.toNat ∈ mapping.virtual.cells ∧
          physical.toNat = mapping.physicalBase.toNat +
            (virtualAddress.toNat - mapping.virtualBase.toNat) ∧
          permissions = mapping.permissions ∧
          ∀ (other : UInt64) (next : Mapping),
            (final perform new requests).mappings[other]? = some next →
            virtualAddress.toNat ∈ next.virtual.cells → other = key := by
  have represented := represented_run requests
  refine ⟨represented.disjoint, ?_, represented.destroyed, ?_⟩
  · intro key mapping found
    obtain ⟨frames, granted, backs⟩ := represented.backed _ _ found
    refine ⟨represented.keyed _ _ found, represented.formed _ _ found, frames, granted, ?_, ?_⟩
    · simp [Capability.span, Mapping.physical, backs.base]
    · have fits := backs.fits
      simp only [Capability.span, Mapping.physical, backs.base]
      omega
  · intro virtualAddress
    rcases represented.translate_spec virtualAddress with
      ⟨key, mapping, answer, found, inside, answer_eq, translated⟩ | ⟨reason, expected, translated⟩
    · rw [translated]
      refine ⟨by simp, by simp, ?_⟩
      intro physical permissions same
      obtain ⟨rfl, rfl⟩ : answer = physical ∧ mapping.permissions = permissions := by
        simpa using same
      refine ⟨key, mapping, found, inside, ?_, rfl, ?_⟩
      · have lower_le := inside.1
        simp only [Mapping.virtual] at lower_le
        omega
      · intro other next other_found other_inside
        by_contra distinct
        exact Set.disjoint_left.mp
          (represented.disjoint _ _ _ _ other_found found distinct) other_inside inside
    · rw [translated]
      refine ⟨?_, by simp, by simp⟩
      rintro same
      obtain rfl : reason = .rangeOverflow := by simpa using same
      simp at expected

end AddressSpace

end Bulla.Kernel
