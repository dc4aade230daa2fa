import Bulla.Kernel.Frame
import Bulla.Span

/-!
# Layout of free memory

The blocks of the free map are page-aligned, nonempty and end below the top of the address space.
`coalesce` takes a map of disjoint blocks to one in which no two blocks touch, and `allocate` cuts
its run out of one block.  Both keep every weight: what leaves the free map is what the run gains.
-/

namespace Bulla.Kernel.FrameAllocator

open Rust Outcome

/-- A nonempty page-aligned block that ends below the top of the address space. -/
structure Placed (base pages : UInt64) : Prop where
  positive : 0 < pages.toNat
  aligned : 4096 ∣ base.toNat
  bounded : base.toNat + pages.toNat * 4096 < 2 ^ 64

/-- The bytes of a block. -/
def block (base pages : UInt64) : Span ℕ where
  lower := base.toNat
  upper := base.toNat + pages.toNat * 4096
  ordered := Nat.le_add_right _ _

@[simp] theorem block_lower (base pages : UInt64) : (block base pages).lower = base.toNat := rfl

@[simp] theorem block_upper (base pages : UInt64) :
    (block base pages).upper = base.toNat + pages.toNat * 4096 := rfl

theorem validateRun_eq_ok {base pages : UInt64} {value : Unit} :
    validateRun base pages = .ok value ↔ Placed base pages := by
  simp [validateRun, mod_eq_zero_iff]
  constructor
  · rintro ⟨nonzero, aligned, bytes, bytes_eq, stop, stop_eq⟩
    have stop_lt := stop.toNat_lt
    exact ⟨toNat_pos nonzero, aligned, by omega⟩
  · rintro ⟨positive, aligned, bounded⟩
    obtain ⟨bytes, bytes_eq⟩ := exists_toNat_eq (show pages.toNat * 4096 < 2 ^ 64 by omega)
    obtain ⟨stop, stop_eq⟩ := exists_toNat_eq bounded
    refine ⟨?_, aligned, bytes, bytes_eq, stop, by rw [stop_eq, bytes_eq]⟩
    rintro rfl
    simp at positive

/-- Two placed blocks are disjoint exactly when one ends before the other. -/
theorem apart_iff_spaced {base pages otherBase otherPages : UInt64} (placed : 0 < pages.toNat)
    (other_placed : 0 < otherPages.toNat) :
    (block base pages).Apart (block otherBase otherPages) ↔
      Span.Spaced 0 (block base pages) (block otherBase otherPages) := by
  rw [Span.apart_iff_le_or_le (by simp; omega) (by simp; omega), Span.Spaced]
  simp

/-- The overlap test of `add_region` is exact on placed blocks. -/
theorem overlaps_eq_false {base pages stop otherBase otherPages : UInt64}
    (positive : 0 < pages.toNat) (stop_eq : stop.toNat = base.toNat + pages.toNat * 4096)
    (other_placed : Placed otherBase otherPages) :
    overlaps base stop (otherBase, otherPages) = false ↔
      (block base pages).Apart (block otherBase otherPages) := by
  have other_bounded := other_placed.bounded
  have other_end : (saturatingAdd otherBase (saturatingMul otherPages pageSize)).toNat =
      otherBase.toNat + otherPages.toNat * 4096 := by
    rw [saturatingAdd_toNat, saturatingMul_toNat, toNat_pageSize]
    omega
  rw [apart_iff_spaced positive other_placed.positive, Span.Spaced]
  simp [overlaps, UInt64.lt_iff_toNat_lt, other_end, stop_eq]
  omega

/-- Free blocks are placed and have at least `gap` bytes between them. -/
structure Spread (gap : ℕ) (free : BTreeMap UInt64 UInt64) : Prop where
  placed : ∀ base pages, free[base]? = some pages → Placed base pages
  spaced : ∀ base pages otherBase otherPages, free[base]? = some pages →
    free[otherBase]? = some otherPages → base ≠ otherBase →
    Span.Spaced gap (block base pages) (block otherBase otherPages)

/-- Total weight of the blocks of a free map. -/
def freeWeight (weight : Span.Weight ℕ ℕ) (free : BTreeMap UInt64 UInt64) : ℕ :=
  BTreeMap.total (fun base pages => weight.weigh (block base pages)) free

namespace Spread

variable {gap : ℕ} {free : BTreeMap UInt64 UInt64} {base pages : UInt64}

theorem empty : Spread gap ∅ := by
  constructor <;> simp

theorem mono {smaller : ℕ} (spread : Spread gap free) (le : smaller ≤ gap) :
    Spread smaller free := by
  refine ⟨spread.placed, ?_⟩
  intro base pages otherBase otherPages found other_found distinct
  rcases spread.spaced _ _ _ _ found other_found distinct with before | after
  · exact .inl (by omega)
  · exact .inr (by omega)

theorem erase (spread : Spread gap free) (key : UInt64) : Spread gap (free.erase key) := by
  constructor
  · intro base pages found
    exact spread.placed _ _ (BTreeMap.getElem?_erase_eq_some.mp found).2
  · intro base pages otherBase otherPages found other_found
    exact spread.spaced _ _ _ _ (BTreeMap.getElem?_erase_eq_some.mp found).2
      (BTreeMap.getElem?_erase_eq_some.mp other_found).2

/-- A placed block may join, or replace the block at its base, away from all others. -/
theorem insert (spread : Spread gap free) (placed : Placed base pages)
    (away : ∀ otherBase otherPages, free[otherBase]? = some otherPages → base ≠ otherBase →
      Span.Spaced gap (block base pages) (block otherBase otherPages)) :
    Spread gap (free.insert base pages) := by
  constructor
  · intro key value found
    rcases BTreeMap.getElem?_insert_eq_some.mp found with ⟨rfl, rfl⟩ | ⟨_, old⟩
    · exact placed
    · exact spread.placed _ _ old
  · intro key value otherKey otherValue found other_found distinct
    rcases BTreeMap.getElem?_insert_eq_some.mp found with ⟨rfl, rfl⟩ | ⟨_, old⟩ <;>
      rcases BTreeMap.getElem?_insert_eq_some.mp other_found with ⟨rfl, rfl⟩ | ⟨_, other_old⟩
    · exact absurd rfl distinct
    · exact away _ _ other_old distinct
    · exact (away _ _ old distinct.symm).symm
    · exact spread.spaced _ _ _ _ old other_old distinct

/-- A placed block disjoint from all others leaves the map disjoint. -/
theorem insert_apart (spread : Spread gap free) (placed : Placed base pages)
    (apart : ∀ otherBase otherPages, free[otherBase]? = some otherPages →
      (block base pages).Apart (block otherBase otherPages)) :
    Spread 0 (free.insert base pages) := by
  refine (spread.mono (Nat.zero_le gap)).insert placed ?_
  intro otherBase otherPages found _
  exact (apart_iff_spaced placed.positive (spread.placed _ _ found).positive).mp (apart _ _ found)

/-- In increasing order of bases each block ends before the next one starts. -/
theorem upper_le {otherBase otherPages : UInt64} (spread : Spread gap free)
    (found : free[base]? = some pages) (other_found : free[otherBase]? = some otherPages)
    (less : base.toNat < otherBase.toNat) : (block base pages).upper + gap ≤ otherBase.toNat := by
  have distinct : base ≠ otherBase := by
    rintro rfl
    omega
  have positive := (spread.placed _ _ other_found).positive
  rcases spread.spaced _ _ _ _ found other_found distinct with before | after
  · exact before
  · simp at after
    omega

/-- No block starts where a disjoint block lies. -/
theorem absent (placed : Placed base pages)
    (apart : ∀ otherBase otherPages, free[otherBase]? = some otherPages →
      (block base pages).Apart (block otherBase otherPages)) (spread : Spread gap free) :
    free[base]? = none := by
  rcases found : free[base]? with _ | otherPages
  · rfl
  · have positive := placed.positive
    have other_positive := (spread.placed _ _ found).positive
    have spaced := (apart_iff_spaced positive other_positive).mp (apart _ _ found)
    simp [Span.Spaced] at spaced
    omega

end Spread

section Coalesce

/-- The free map after one round of the `coalesce` loop took up a block. -/
structure Merged (base pages : UInt64) (before after : BTreeMap UInt64 UInt64) : Prop where
  spread : Spread 1 after
  below : ∀ otherBase otherPages, after[otherBase]? = some otherPages →
    (block otherBase otherPages).upper ≤ (block base pages).upper
  weight : ∀ weight, freeWeight weight after =
    freeWeight weight before + weight.weigh (block base pages)

variable {free : BTreeMap UInt64 UInt64} {base pages : UInt64}

/-- A block strictly above all others is kept as it is. -/
theorem merged_insert (spread : Spread 1 free) (placed : Placed base pages)
    (below : ∀ otherBase otherPages, free[otherBase]? = some otherPages →
      (block otherBase otherPages).upper < base.toNat) :
    Merged base pages free (free.insert base pages) := by
  have absent : free[base]? = none := by
    rcases found : free[base]? with _ | otherPages
    · rfl
    · have upper_lt := below _ _ found
      simp only [block_upper] at upper_lt
      omega
  refine ⟨spread.insert placed ?_, ?_, ?_⟩
  · intro otherBase otherPages found _
    exact .inr (below _ _ found)
  · intro otherBase otherPages found
    rcases BTreeMap.getElem?_insert_eq_some.mp found with ⟨rfl, rfl⟩ | ⟨_, old⟩
    · rfl
    · have upper_lt := below _ _ old
      simp only [block_upper] at upper_lt ⊢
      omega
  · intro weight
    rw [freeWeight, BTreeMap.total_insert_of_absent _ _ absent, Nat.add_comm, freeWeight]

/-- A block that starts where the highest one ends extends it. -/
theorem merged_extend {previousBase previousPages merged : UInt64} (spread : Spread 1 free)
    (placed : Placed base pages) (present : free[previousBase]? = some previousPages)
    (highest : ∀ otherBase otherPages, free[otherBase]? = some otherPages →
      otherBase ≠ previousBase → otherBase.toNat < previousBase.toNat)
    (touching : (block previousBase previousPages).upper = base.toNat)
    (merged_eq : merged.toNat = previousPages.toNat + pages.toNat) :
    Merged base pages free (free.insert previousBase merged) := by
  have previous_placed := spread.placed _ _ present
  have cut : Span.Cut (block previousBase merged) (block previousBase previousPages)
      (block base pages) := by
    refine ⟨rfl, touching, ?_⟩
    simp only [block_upper] at touching ⊢
    omega
  have merged_placed : Placed previousBase merged := by
    have bounded := placed.bounded
    refine ⟨by have := placed.positive; omega, previous_placed.aligned, ?_⟩
    have upper_eq := cut.upper
    simp only [block_upper] at upper_eq
    omega
  have others_below (otherBase otherPages : UInt64) (found : free[otherBase]? = some otherPages)
      (distinct : otherBase ≠ previousBase) :
      (block otherBase otherPages).upper + 1 ≤ previousBase.toNat :=
    spread.upper_le found present (highest _ _ found distinct)
  refine ⟨spread.insert merged_placed ?_, ?_, ?_⟩
  · intro otherBase otherPages found distinct
    exact .inr (others_below _ _ found distinct.symm)
  · intro otherBase otherPages found
    rcases BTreeMap.getElem?_insert_eq_some.mp found with ⟨rfl, rfl⟩ | ⟨distinct, old⟩
    · exact cut.upper.ge
    · have other_lt := others_below _ _ old distinct.symm
      simp only [block_upper] at other_lt touching ⊢
      omega
  · intro weight
    have exchanged := BTreeMap.total_insert_of_present
      (fun base pages => weight.weigh (block base pages)) merged present
    simp only [weight.cut cut] at exchanged
    simp only [freeWeight]
    omega

/-- One round of the loop, on a block above all blocks merged so far. -/
theorem coalesceEntry_spec {state : FrameAllocator} (spread : Spread 1 state.free)
    (placed : Placed base pages)
    (below : ∀ otherBase otherPages, state.free[otherBase]? = some otherPages →
      (block otherBase otherPages).upper ≤ base.toNat) :
    ∃ free, coalesceEntry base pages state = (.ok (), { state with free }) ∧
      Merged base pages state.free free := by
  rcases last : state.free.toList.getLast? with _ | ⟨previousBase, previousPages⟩
  · have no_entries := List.getLast?_eq_none_iff.mp last
    refine ⟨state.free.insert base pages, by simp [coalesceEntry, last],
      merged_insert spread placed ?_⟩
    intro otherBase otherPages found
    have member : (otherBase, otherPages) ∈ state.free.toList := BTreeMap.mem_toList.mpr found
    simp [no_entries] at member
  · obtain ⟨present, others_less⟩ := BTreeMap.getLast?_toList last
    have highest (otherBase otherPages : UInt64)
        (found : state.free[otherBase]? = some otherPages) (distinct : otherBase ≠ previousBase) :
        otherBase.toNat < previousBase.toNat := by
      have less := others_less _ _ found distinct
      rwa [Std.compare_eq_lt, UInt64.lt_iff_toNat_lt] at less
    have previous_le := below _ _ present
    have base_bounded := placed.bounded
    simp only [block_upper] at previous_le
    obtain ⟨bytes, bytes_eq⟩ := exists_toNat_eq (show previousPages.toNat * 4096 < 2 ^ 64 by omega)
    obtain ⟨previousEnd, end_eq⟩ := exists_toNat_eq
      (show previousBase.toNat + previousPages.toNat * 4096 < 2 ^ 64 by omega)
    by_cases touching : previousEnd = base
    · obtain ⟨merged, merged_eq⟩ := exists_toNat_eq
        (show previousPages.toNat + pages.toNat < 2 ^ 64 by omega)
      subst touching
      refine ⟨state.free.insert previousBase merged, ?_,
        merged_extend spread placed present highest (by simp [end_eq]) merged_eq⟩
      simp [coalesceEntry, last]
      exact ⟨bytes, bytes_eq, previousEnd, by omega, by simpa using ⟨merged, merged_eq, rfl⟩⟩
    · refine ⟨state.free.insert base pages, ?_, merged_insert spread placed ?_⟩
      · simp [coalesceEntry, last]
        exact ⟨bytes, bytes_eq, previousEnd, by omega, by simp [touching]⟩
      · intro otherBase otherPages found
        have end_ne : previousEnd.toNat ≠ base.toNat := fun same =>
          touching (UInt64.toNat_inj.mp same)
        by_cases same : otherBase = previousBase
        · subst same
          obtain rfl : previousPages = otherPages := by simpa [present] using found
          simp only [block_upper]
          omega
        · have other_lt := spread.upper_le found present (highest _ _ found same)
          omega

/-- The loop merges a sorted list of disjoint blocks above the blocks merged so far. -/
theorem coalesceEntries_spec {entries : List (UInt64 × UInt64)} (state : FrameAllocator)
    (spread : Spread 1 state.free)
    (placed : ∀ entry ∈ entries, Placed entry.1 entry.2)
    (sorted : entries.Pairwise fun entry next => (block entry.1 entry.2).upper ≤ next.1.toNat)
    (below : ∀ otherBase otherPages, state.free[otherBase]? = some otherPages →
      ∀ entry ∈ entries, (block otherBase otherPages).upper ≤ entry.1.toNat) :
    ∃ free, coalesceEntries entries state = (.ok (), { state with free }) ∧ Spread 1 free ∧
      ∀ weight, freeWeight weight free = freeWeight weight state.free +
        (entries.map fun entry => weight.weigh (block entry.1 entry.2)).sum := by
  induction entries generalizing state with
  | nil => exact ⟨state.free, rfl, spread, by simp⟩
  | cons entry entries induction =>
      rw [List.pairwise_cons] at sorted
      obtain ⟨middle, first, merged⟩ := coalesceEntry_spec spread
        (placed entry List.mem_cons_self) fun _ _ found => below _ _ found _ List.mem_cons_self
      have middle_below (otherBase otherPages : UInt64)
          (found : middle[otherBase]? = some otherPages) (next : UInt64 × UInt64)
          (member : next ∈ entries) : (block otherBase otherPages).upper ≤ next.1.toNat :=
        (merged.below _ _ found).trans (sorted.1 next member)
      have rest_placed (next : UInt64 × UInt64) (member : next ∈ entries) : Placed next.1 next.2 :=
        placed next (List.mem_cons_of_mem entry member)
      obtain ⟨free, rest, free_spread, free_weight⟩ :=
        induction { state with free := middle } merged.spread rest_placed sorted.2 middle_below
      refine ⟨free, ?_, free_spread, ?_⟩
      · simpa [coalesceEntries] using ⟨_, _, first, rest⟩
      · intro weight
        have middle_weight := merged.weight weight
        have rest_weight := free_weight weight
        simp only [List.map_cons, List.sum_cons] at rest_weight ⊢
        omega

/-- Merging a map of disjoint blocks leaves no two blocks adjacent and keeps every weight. -/
theorem coalesce_spec {state : FrameAllocator} (spread : Spread 0 state.free) :
    ∃ free, coalesce state = (.ok (), { state with free }) ∧ Spread 1 free ∧
      ∀ weight, freeWeight weight free = freeWeight weight state.free := by
  have sorted : state.free.toList.Pairwise fun entry next =>
      (block entry.1 entry.2).upper ≤ next.1.toNat := by
    refine state.free.ordered_keys_toList.imp_of_mem ?_
    intro entry next member next_member less
    rw [Std.compare_eq_lt, UInt64.lt_iff_toNat_lt] at less
    exact spread.upper_le (BTreeMap.mem_toList.mp member) (BTreeMap.mem_toList.mp next_member) less
  obtain ⟨free, result, free_spread, free_weight⟩ :=
    coalesceEntries_spec { state with free := ∅ } Spread.empty
      (fun entry member => spread.placed _ _ (BTreeMap.mem_toList.mp member)) sorted (by simp)
  refine ⟨free, by simpa [coalesce] using result, free_spread, ?_⟩
  intro weight
  rw [free_weight weight]
  simp only [freeWeight, BTreeMap.total_empty, Nat.zero_add]
  rfl

end Coalesce

section Allocate

/-- A block that fits holds the allocation at a page boundary. -/
theorem fit_eq_some {pages mask base available : UInt64} {choice : Choice} {exponent : ℕ}
    (low : mask.toNat + 1 = 2 ^ exponent) (page : 12 ≤ exponent) (aligned : 4096 ∣ base.toNat)
    (fitted : fit pages mask (base, available) = some choice) :
    choice.base = base ∧ choice.available = available ∧
      choice.aligned.toNat = base.toNat + choice.before.toNat * 4096 ∧
      choice.before.toNat + pages.toNat ≤ available.toNat := by
  simp only [fit, Option.bind_eq_bind, Option.bind_eq_some_iff, checkedAdd_eq_some,
    checkedSub_eq_some, Option.ite_none_right_eq_some, Option.some.injEq] at fitted
  obtain ⟨raised, raised_eq, offset, offset_eq, needed, needed_eq, needed_le, rfl⟩ := fitted
  have aligned_eq := and_not_toNat raised low
  have multiple : 4096 ∣ (raised &&& ~~~mask).toNat := by
    rw [aligned_eq]
    exact (pow_dvd_pow 2 page).trans (Nat.dvd_mul_left _ _)
  have offset_multiple : 4096 ∣ offset.toNat := by omega
  rw [UInt64.toNat_div, toNat_pageSize] at needed_eq
  rw [UInt64.le_iff_toNat_le] at needed_le
  refine ⟨rfl, rfl, ?_, ?_⟩
  · simp only [UInt64.toNat_div, toNat_pageSize]
    omega
  · simp only [UInt64.toNat_div, toNat_pageSize]
    omega

/-- The alignment in bytes is a power of two, and at least a page. -/
theorem exists_exponent {alignmentPages : UInt64} (power : isPowerOfTwo alignmentPages = true) :
    ∃ exponent, 12 ≤ exponent ∧ alignmentPages.toNat * 4096 = 2 ^ exponent := by
  obtain ⟨exponent, alignment_eq⟩ := isPowerOfTwo_iff.mp power
  refine ⟨exponent + 12, Nat.le_add_left _ _, ?_⟩
  rw [alignment_eq, pow_add]
  rfl

variable {gap : ℕ} {free : BTreeMap UInt64 UInt64} {base pages : UInt64}

/-- The block `allocate` takes its run from. -/
theorem chosen_spec {alignmentPages mask : UInt64} {choice : Choice} (spread : Spread gap free)
    (power : isPowerOfTwo alignmentPages = true)
    (mask_eq : mask.toNat + 1 = alignmentPages.toNat * 4096)
    (chosen : free.toList.findSome? (fit pages mask) = some choice) :
    free[choice.base]? = some choice.available ∧
      choice.aligned.toNat = choice.base.toNat + choice.before.toNat * 4096 ∧
      choice.before.toNat + pages.toNat ≤ choice.available.toNat := by
  obtain ⟨⟨base, available⟩, member, fitted⟩ := List.exists_of_findSome?_eq_some chosen
  have present : free[base]? = some available := BTreeMap.mem_toList.mp member
  obtain ⟨exponent, page, alignment_eq⟩ := exists_exponent power
  obtain ⟨rfl, rfl, placement⟩ :=
    fit_eq_some (mask_eq.trans alignment_eq) page (spread.placed _ _ present).aligned fitted
  exact ⟨present, placement⟩

theorem getElem?_restore {key value : UInt64}
    (found : (restore base pages free)[key]? = some value) :
    (base = key ∧ pages = value ∧ pages ≠ 0) ∨ free[key]? = some value := by
  unfold restore at found
  split at found
  · rcases BTreeMap.getElem?_insert_eq_some.mp found with ⟨rfl, rfl⟩ | ⟨_, old⟩
    · exact .inl ⟨rfl, rfl, by assumption⟩
    · exact .inr old
  · exact .inr found

theorem Spread.restore (spread : Spread gap free) (placed : pages ≠ 0 → Placed base pages)
    (away : pages ≠ 0 → ∀ otherBase otherPages, free[otherBase]? = some otherPages →
      Span.Spaced gap (block base pages) (block otherBase otherPages)) :
    Spread gap (restore base pages free) := by
  unfold FrameAllocator.restore
  split
  next nonzero => exact spread.insert (placed nonzero) fun _ _ found _ => away nonzero _ _ found
  next => exact spread

theorem freeWeight_restore (weight : Span.Weight ℕ ℕ) (absent : pages ≠ 0 → free[base]? = none) :
    freeWeight weight (restore base pages free) =
      freeWeight weight free + weight.weigh (block base pages) := by
  unfold restore
  split
  next nonzero =>
    rw [freeWeight, BTreeMap.total_insert_of_absent _ _ (absent nonzero), Nat.add_comm, freeWeight]
  next zero =>
    have empty : (block base pages).lower = (block base pages).upper := by
      simp [not_not.mp zero]
    rw [weight.weigh_eq_zero empty, Nat.add_zero]

/-- A block weighs as much as what is before a run in it, the run and what is behind it. -/
theorem weigh_carved (weight : Span.Weight ℕ ℕ) {available aligned before suffix start : UInt64}
    (aligned_eq : aligned.toNat = base.toNat + before.toNat * 4096)
    (suffix_eq : available.toNat = suffix.toNat + pages.toNat + before.toNat)
    (start_eq : suffix ≠ 0 → start.toNat = aligned.toNat + pages.toNat * 4096) :
    weight.weigh (block base available) = weight.weigh (block base before) +
      (weight.weigh (block aligned pages) + weight.weigh (block start suffix)) := by
  have available_lt := available.toNat_lt
  obtain ⟨rest, rest_eq⟩ := exists_toNat_eq (show suffix.toNat + pages.toNat < 2 ^ 64 by omega)
  have lower_cut : Span.Cut (block base available) (block base before) (block aligned rest) :=
    ⟨rfl, by simp only [block_upper, block_lower]; omega, by simp only [block_upper]; omega⟩
  rw [weight.cut lower_cut]
  by_cases zero : suffix = 0
  · have empty : (block start suffix).lower = (block start suffix).upper := by simp [zero]
    have same : rest = pages := UInt64.toNat_inj.mp (by simp [rest_eq, zero])
    rw [weight.weigh_eq_zero empty, same, Nat.add_zero]
  · have start_at := start_eq zero
    have upper_cut : Span.Cut (block aligned rest) (block aligned pages) (block start suffix) :=
      ⟨rfl, start_at.symm, by simp only [block_upper]; omega⟩
    rw [weight.cut upper_cut]

/-- Cutting a run out of a free block leaves at most two separate pieces of it. -/
theorem carve_spec {available aligned before suffix start : UInt64} (spread : Spread 1 free)
    (present : free[base]? = some available) (positive : 0 < pages.toNat)
    (aligned_eq : aligned.toNat = base.toNat + before.toNat * 4096)
    (suffix_eq : available.toNat = suffix.toNat + pages.toNat + before.toNat)
    (start_eq : suffix ≠ 0 → start.toNat = aligned.toNat + pages.toNat * 4096) :
    Placed aligned pages ∧
      Spread 1 (restore start suffix (restore base before (free.erase base))) ∧
      ∀ weight, freeWeight weight (restore start suffix (restore base before (free.erase base))) +
        weight.weigh (block aligned pages) = freeWeight weight free := by
  have whole_placed := spread.placed _ _ present
  have whole_aligned := whole_placed.aligned
  have whole_bounded := whole_placed.bounded
  have others (otherBase otherPages : UInt64)
      (found : (free.erase base)[otherBase]? = some otherPages) :
      Span.Spaced 1 (block base available) (block otherBase otherPages) := by
    obtain ⟨distinct, old⟩ := BTreeMap.getElem?_erase_eq_some.mp found
    exact spread.spaced _ _ _ _ present old distinct
  have kept : Spread 1 (restore base before (free.erase base)) := by
    refine (spread.erase base).restore ?_ ?_
    · intro nonzero
      have before_pos := toNat_pos nonzero
      exact ⟨before_pos, whole_aligned, aligned_eq ▸ aligned.toNat_lt⟩
    · intro _ otherBase otherPages found
      refine (others _ _ found).part ?_ ?_ <;> simp only [block_upper, block_lower] <;> omega
  have suffix_away (nonzero : suffix ≠ 0) (otherBase otherPages : UInt64)
      (found : (restore base before (free.erase base))[otherBase]? = some otherPages) :
      Span.Spaced 1 (block start suffix) (block otherBase otherPages) := by
    have start_at := start_eq nonzero
    rcases getElem?_restore found with ⟨rfl, rfl, _⟩ | old
    · refine .inr ?_
      simp only [block_upper, block_lower]
      omega
    · refine (others _ _ old).part ?_ ?_ <;> simp only [block_upper, block_lower] <;> omega
  have suffix_absent (nonzero : suffix ≠ 0) :
      (restore base before (free.erase base))[start]? = none := by
    rcases found : (restore base before (free.erase base))[start]? with _ | otherPages
    · rfl
    · have other_positive := (kept.placed _ _ found).positive
      have suffix_positive := toNat_pos nonzero
      have spaced := suffix_away nonzero _ _ found
      simp only [Span.Spaced, block_upper, block_lower] at spaced
      omega
  refine ⟨⟨positive, by omega, by omega⟩, kept.restore ?_ suffix_away, ?_⟩
  · intro nonzero
    have start_at := start_eq nonzero
    exact ⟨toNat_pos nonzero, by omega, by omega⟩
  · intro weight
    have whole_weight := BTreeMap.total_eq_of_present
      (fun base pages => weight.weigh (block base pages)) present
    rw [freeWeight_restore weight suffix_absent, freeWeight_restore weight (by simp)]
    simp only [weigh_carved weight aligned_eq suffix_eq start_eq] at whole_weight
    simp only [freeWeight]
    omega

end Allocate

end Bulla.Kernel.FrameAllocator
