import Bulla.Kernel.MemoryMap

/-!
# What a new mapping translates

`map` checks that the first address of a range is canonical, `translate` that every address is.  The
canonical addresses are two halves with a gap between them, so a range that starts in the lower half
and is long enough is mapped into the gap, where nothing translates.
-/

namespace Bulla.Kernel

open Rust Outcome

/-- The canonical addresses are the lowest and the highest `2 ^ 47`. -/
theorem isCanonicalX8664_iff {address : UInt64} :
    isCanonicalX8664 address = true ↔
      address.toNat < 2 ^ 47 ∨ 2 ^ 64 - 2 ^ 47 ≤ address.toNat := by
  have address_lt := address.toNat_lt
  have upper_eq : (address >>> 48).toNat = address.toNat / 2 ^ 48 := by
    rw [UInt64.toNat_shiftRight, Nat.shiftRight_eq_div_pow]
    rfl
  have sign_eq : (address >>> 47 &&& 1).toNat = address.toNat / 2 ^ 47 % 2 := by
    rw [UInt64.toNat_and, UInt64.toNat_shiftRight, Nat.shiftRight_eq_div_pow]
    exact Nat.and_one_is_mod _
  have ones : (0xffff : UInt64).toNat = 0xffff := rfl
  simp only [isCanonicalX8664, Bool.or_eq_true, Bool.and_eq_true, beq_iff_eq, ← UInt64.toNat_inj,
    upper_eq, sign_eq, UInt64.toNat_zero, UInt64.toNat_one, ones]
  omega

/-- A range that starts in the lower half of the canonical addresses also ends there. -/
def InOneHalf (virtualBase : UInt64) (bytes : ℕ) : Prop :=
  virtualBase.toNat < 2 ^ 47 → virtualBase.toNat + bytes ≤ 2 ^ 47

instance (virtualBase : UInt64) (bytes : ℕ) : Decidable (InOneHalf virtualBase bytes) :=
  inferInstanceAs (Decidable (_ → _))

/-- A mapping from a canonical base covers canonical addresses only if it stays in one half. -/
theorem Mapping.WellFormed.canonical_iff {mapping : Mapping} (formed : mapping.WellFormed)
    (canonical : isCanonicalX8664 mapping.virtualBase = true) :
    (∀ address : UInt64, address.toNat ∈ mapping.virtual.cells → isCanonicalX8664 address = true) ↔
      InOneHalf mapping.virtualBase mapping.size := by
  rw [isCanonicalX8664_iff] at canonical
  have bounded := formed.virtual_bounded
  simp only [isCanonicalX8664_iff, Span.mem_cells, Mapping.virtual, InOneHalf] at bounded ⊢
  constructor
  · intro every low
    by_contra beyond
    obtain ⟨gap, gap_eq⟩ := exists_toNat_eq (show 2 ^ 47 < 2 ^ 64 by decide)
    have inside := every gap
    omega
  · intro half address inside
    omega

namespace AddressSpace

theorem canonical_of_mapped {space frames : Capability} {virtualBase pages : UInt64}
    {pageSize : PageSize} {permissions : PagePermissions} {before : AddressSpace}
    {reply : Option Mapping}
    (mapped : (perform (.map space frames virtualBase pageSize pages permissions) before).1 =
      .ok reply) : isCanonicalX8664 virtualBase = true := by
  by_contra outside
  have ensured : Call.Ensures (perform (.map space frames virtualBase pageSize pages permissions))
      (fun outcome _ => outcome ≠ .ok reply) before := by
    simp only [perform, map]
    simp [outside]
  exact ensured mapped

/-- Every mapping starts at a canonical address. -/
theorem canonical_run (requests : List Request) {key : UInt64} {mapping : Mapping}
    (found : (final perform new requests).mappings[key]? = some mapping) :
    isCanonicalX8664 mapping.virtualBase = true := by
  refine run_induction perform (motive := fun _ state => ∀ (key : UInt64) (mapping : Mapping),
    state.mappings[key]? = some mapping → isCanonicalX8664 mapping.virtualBase = true)
    (by simp [new]) ?_ requests key mapping found
  intro past state request induction key mapping found
  have step := step_perform request state
  have checked (space frames : Capability) (virtualBase : UInt64) (pageSize : PageSize)
      (pages : UInt64) (permissions : PagePermissions) (reply : Option Mapping)
      (request_eq : request = .map space frames virtualBase pageSize pages permissions)
      (mapped : (perform request state).1 = .ok reply) : isCanonicalX8664 virtualBase = true := by
    subst request_eq
    exact canonical_of_mapped mapped
  rw [event] at found
  generalize (perform request state).1 = outcome at step checked
  generalize (perform request state).2 = after at step found
  cases step with
  | rejected | protectMissed | activated | deactivated | destroyed => exact induction _ _ found
  | mapped mappable advanced =>
      rcases BTreeMap.getElem?_insert_eq_some.mp found with ⟨_, rfl⟩ | ⟨_, old⟩
      · exact checked _ _ _ _ _ _ _ rfl rfl
      · exact induction _ _ old
  | unmapped | unmapExhausted => exact induction _ _ (BTreeMap.getElem?_erase_eq_some.mp found).2
  | @reprotected _ _ _ old _ _ _ present =>
      rcases BTreeMap.getElem?_insert_eq_some.mp found with ⟨_, rfl⟩ | ⟨_, kept⟩
      · exact induction _ old present
      · exact induction _ _ kept

section Translate

variable {past : List SpaceEvent} {state : AddressSpace} {address : UInt64}

theorem translate_eq (alive : state.destroyed = false)
    (canonical : isCanonicalX8664 address = true) :
    state.translate address = translateIn address state.mappings.toList := by
  simp [translate, rejectIf, alive, canonical]

/-- A canonical address in a mapping translates through it. -/
theorem Represented.translate_of_mem (represented : Represented past state)
    (alive : state.destroyed = false) (canonical : isCanonicalX8664 address = true) {key : UInt64}
    {mapping : Mapping} (found : state.mappings[key]? = some mapping)
    (inside : address.toNat ∈ mapping.virtual.cells) :
    state.translate address =
      .ok (mapping.physicalBase + (address - mapping.virtualBase), mapping.permissions) := by
  rw [translate_eq alive canonical]
  rcases translateIn_spec address state.mappings.toList
      fun entry member => represented.formed _ _ (BTreeMap.mem_toList.mp member) with
    ⟨⟨other, holder⟩, member, physical, other_inside, physical_eq, translated⟩ | ⟨none_inside, _⟩
  · have other_found := BTreeMap.mem_toList.mp member
    obtain rfl : other = key := by
      by_contra distinct
      exact Set.disjoint_left.mp
        (represented.disjoint _ _ _ _ other_found found distinct) other_inside inside
    obtain rfl : holder = mapping := Option.some.inj (other_found.symm.trans found)
    have below : holder.virtualBase.toNat ≤ address.toNat := inside.1
    have physical_lt := physical.toNat_lt
    change physical.toNat + holder.virtualBase.toNat = holder.physicalBase.toNat + address.toNat
      at physical_eq
    have sum_eq : physical = holder.physicalBase + (address - holder.virtualBase) := by
      rw [← UInt64.toNat_inj, UInt64.toNat_add,
        UInt64.toNat_sub_of_le _ _ (UInt64.le_iff_toNat_le.mpr below)]
      omega
    rw [translated, sum_eq]
  · exact absurd inside (none_inside (key, mapping) (BTreeMap.mem_toList.mpr found))

/-- A canonical address in no mapping does not translate. -/
theorem Represented.translate_of_not_mem (represented : Represented past state)
    (alive : state.destroyed = false) (canonical : isCanonicalX8664 address = true)
    (outside : ∀ (key : UInt64) (mapping : Mapping), state.mappings[key]? = some mapping →
      address.toNat ∉ mapping.virtual.cells) :
    state.translate address = .err .notMapped := by
  rw [translate_eq alive canonical]
  rcases translateIn_spec address state.mappings.toList
      fun entry member => represented.formed _ _ (BTreeMap.mem_toList.mp member) with
    ⟨entry, member, _, inside, _⟩ | ⟨_, missed⟩
  · exact absurd inside (outside _ _ (BTreeMap.mem_toList.mp member))
  · exact missed

end Translate

/-- What a mapping should do once it is made. -/
def Translates (state : AddressSpace) (mapping : Mapping) : Prop :=
  ∀ address : UInt64, address.toNat ∈ mapping.virtual.cells → state.translate address =
    .ok (mapping.physicalBase + (address - mapping.virtualBase), mapping.permissions)

/-- A mapping translates wherever it covers an address, and only canonical addresses translate. -/
theorem Represented.translates_iff {past : List SpaceEvent} {state : AddressSpace}
    (represented : Represented past state) (alive : state.destroyed = false) {key : UInt64}
    {mapping : Mapping} (found : state.mappings[key]? = some mapping) :
    Translates state mapping ↔ ∀ address : UInt64, address.toNat ∈ mapping.virtual.cells →
      isCanonicalX8664 address = true := by
  constructor
  · intro translates address inside
    by_contra outside
    have translated := translates address inside
    simp [translate, alive, outside] at translated
  · intro canonical address inside
    exact represented.translate_of_mem alive (canonical address inside) found inside

/-- Where the new mapping has no address nothing changes. -/
theorem Represented.translate_unchanged {past later : List SpaceEvent} {before after : AddressSpace}
    {made : Mapping} {virtualBase : UInt64} {address : UInt64}
    (represented : Represented past before) (next : Represented later after)
    (alive : before.destroyed = false) (still : after.destroyed = false)
    (fresh : before.mappings[virtualBase]? = none)
    (mappings_eq : after.mappings = before.mappings.insert virtualBase made)
    (outside : address.toNat ∉ made.virtual.cells) :
    after.translate address = before.translate address := by
  by_cases canonical : isCanonicalX8664 address = true
  · by_cases covered : ∃ (key : UInt64) (mapping : Mapping), before.mappings[key]? = some mapping ∧
        address.toNat ∈ mapping.virtual.cells
    · obtain ⟨key, mapping, found, inside⟩ := covered
      have distinct : virtualBase ≠ key := by
        rintro rfl
        cases found.symm.trans fresh
      have kept : after.mappings[key]? = some mapping := by
        rw [mappings_eq, BTreeMap.getElem?_insert_of_ne _ _ distinct, found]
      rw [represented.translate_of_mem alive canonical found inside,
        next.translate_of_mem still canonical kept inside]
    · push Not at covered
      rw [represented.translate_of_not_mem alive canonical covered,
        next.translate_of_not_mem still canonical ?_]
      intro key mapping found
      rw [mappings_eq] at found
      rcases BTreeMap.getElem?_insert_eq_some.mp found with ⟨rfl, rfl⟩ | ⟨_, old⟩
      · exact outside
      · exact covered key mapping old
  · simp [translate, rejectIf, alive, still, canonical]

/-- The base of a new mapping is free, since no mapping overlaps it. -/
theorem Mappable.fresh {past : List SpaceEvent} {before : AddressSpace} {space frames : Capability}
    {virtualBase pages : UInt64} {pageSize : PageSize} {permissions : PagePermissions}
    (mappable : Mappable before space frames virtualBase pageSize pages permissions)
    (represented : Represented past before) : before.mappings[virtualBase]? = none := by
  by_contra present
  obtain ⟨other, found⟩ := Option.ne_none_iff_exists'.mp present
  obtain ⟨stop, stop_eq, clear⟩ := mappable.clear
  have formed := represented.formed _ _ found
  have same := represented.keyed _ _ found
  let made : Mapping := ⟨virtualBase, frames.base, pageSize, pages, permissions, 0⟩
  have positive : 0 < made.size := Nat.mul_pos pageSize.bytes_pos (toNat_pos mappable.positive)
  have apart : made.virtual.Apart other.virtual :=
    apart_of_not_overlaps stop_eq positive formed (clear _ _ found)
  have in_made : virtualBase.toNat ∈ made.virtual.cells :=
    ⟨le_rfl, Nat.lt_add_of_pos_right positive⟩
  have in_other : virtualBase.toNat ∈ other.virtual.cells := by
    rw [← same]
    exact ⟨le_rfl, Nat.lt_add_of_pos_right formed.size_pos⟩
  exact Set.disjoint_left.mp apart in_made in_other

/-- A successful `map` makes its range translate exactly if the range stays in one half, and leaves
all other addresses alone; a live mapping covers only canonical addresses exactly if it does. -/
theorem mapped_translates_iff (requests : List Request) :
    (∀ (space frames : Capability) (virtualBase : UInt64) (pageSize : PageSize) (pages : UInt64)
      (permissions : PagePermissions) (made : Mapping),
      (perform (.map space frames virtualBase pageSize pages permissions)
        (final perform new requests)).1 = .ok (some made) →
      (Translates (perform (.map space frames virtualBase pageSize pages permissions)
          (final perform new requests)).2 made ↔
        InOneHalf virtualBase (pageSize.bytes.toNat * pages.toNat)) ∧
      ∀ address : UInt64, address.toNat ∉ made.virtual.cells →
        (perform (.map space frames virtualBase pageSize pages permissions)
          (final perform new requests)).2.translate address =
            (final perform new requests).translate address) ∧
    ∀ (key : UInt64) (mapping : Mapping),
      (final perform new requests).mappings[key]? = some mapping →
        ((∀ address : UInt64, address.toNat ∈ mapping.virtual.cells →
          isCanonicalX8664 address = true) ↔ InOneHalf mapping.virtualBase mapping.size) := by
  have represented := represented_run requests
  refine ⟨?_, fun key mapping found =>
    (represented.formed key mapping found).canonical_iff (canonical_run requests found)⟩
  intro space frames virtualBase pageSize pages permissions made mapped
  have canonical := canonical_of_mapped mapped
  have step := step_perform (.map space frames virtualBase pageSize pages permissions)
    (final perform new requests)
  have next := represented_step represented step
  generalize final perform new requests = before at *
  generalize (perform (.map space frames virtualBase pageSize pages permissions) before).1 = outcome
    at mapped step next
  generalize (perform (.map space frames virtualBase pageSize pages permissions) before).2 = after
    at step next ⊢
  subst mapped
  cases step with
  | mapped mappable advanced =>
      refine ⟨?_, ?_⟩
      · rw [next.translates_iff mappable.alive Std.ExtTreeMap.getElem?_insert_self]
        have formed := next.formed virtualBase _ Std.ExtTreeMap.getElem?_insert_self
        exact formed.canonical_iff canonical
      · intro address outside
        exact represented.translate_unchanged next mappable.alive mappable.alive
          (mappable.fresh represented) rfl outside

/-- One user page at `0x4000` stays in the lower half, so its last byte translates. -/
theorem mapped_translates_one_page :
    (perform (.map ⟨.addressSpace, 0, 0, Rights.map, 0, 0, 0⟩
      ⟨.frame, 1, 0, Rights.read, 0, 0x1000, 0x1000⟩ 0x4000 .size4K 1 .user)
      (final perform new [])).2.translate 0x4fff = .ok (0x1fff, .user) := by
  have translates := ((mapped_translates_iff []).1 ⟨.addressSpace, 0, 0, Rights.map, 0, 0, 0⟩
    ⟨.frame, 1, 0, Rights.read, 0, 0x1000, 0x1000⟩ 0x4000 .size4K 1 .user
    ⟨0x4000, 0x1000, .size4K, 1, .user, 1⟩ (by decide)).1.mpr (by decide)
  exact translates 0x4fff ⟨by decide, by decide⟩

/-- Two pages below the gap: the second one is mapped and does not translate. -/
theorem map_crosses_into_gap :
    ∃ made : Mapping, 0x0000800000000000 ∈ made.virtual.cells ∧
      (perform (.map ⟨.addressSpace, 0, 0, Rights.map, 0, 0, 0⟩
        ⟨.frame, 1, 0, Rights.read, 0, 0x1000, 0x2000⟩ 0x00007ffffffff000 .size4K 2 .user)
        new).1 = .ok (some made) ∧
      (perform (.map ⟨.addressSpace, 0, 0, Rights.map, 0, 0, 0⟩
        ⟨.frame, 1, 0, Rights.read, 0, 0x1000, 0x2000⟩ 0x00007ffffffff000 .size4K 2 .user)
        new).2.translate 0x0000800000000000 = .err .nonCanonical :=
  ⟨⟨0x00007ffffffff000, 0x1000, .size4K, 2, .user, 1⟩, ⟨by decide, by decide⟩, by decide, by decide⟩

end AddressSpace

end Bulla.Kernel
