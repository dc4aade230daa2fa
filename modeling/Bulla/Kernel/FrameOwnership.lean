import Mathlib.Data.List.Pairwise
import Bulla.Kernel.FrameLayout
import Bulla.Rust.History

/-!
# Ownership of frames

A page is owned by the free block or the live run that covers it.  Every call except `add_region`
moves pages between owners: it leaves the weight of all blocks and runs together unchanged, for any
weight of spans.  `add_region` tests a new region against the free blocks only, so pages stay in one
hand exactly as long as no region is added over a live run.
-/

namespace Bulla.Kernel.FrameAllocator

open Rust Outcome

/-- The bytes of the free blocks. -/
def freeSpans (self : FrameAllocator) : List (Span ℕ) :=
  self.free.toList.map fun entry => block entry.1 entry.2

/-- The bytes of the live runs. -/
def liveSpans (self : FrameAllocator) : List (Span ℕ) :=
  self.allocated.toList.map fun entry => block entry.2.base entry.2.pages

/-- Everything the allocator keeps track of. -/
def spans (self : FrameAllocator) : List (Span ℕ) := self.freeSpans ++ self.liveSpans

/-- Total weight of the runs of an allocation map. -/
def liveWeight (weight : Span.Weight ℕ ℕ) (allocated : BTreeMap UInt64 FrameRun) : ℕ :=
  BTreeMap.total (fun _ run => weight.weigh (block run.base run.pages)) allocated

theorem sum_spans (weight : Span.Weight ℕ ℕ) (self : FrameAllocator) :
    weight.sum self.spans = freeWeight weight self.free + liveWeight weight self.allocated := by
  rw [spans, Span.Weight.sum_append]
  simp only [Span.Weight.sum, freeSpans, liveSpans, List.map_map]
  rfl

/-- Runs are kept under their own base and occupy placed blocks. -/
def LivePlaced (allocated : BTreeMap UInt64 FrameRun) : Prop :=
  ∀ (base : UInt64) (run : FrameRun), allocated[base]? = some run →
    run.base = base ∧ Placed run.base run.pages

/-- The representation invariant of an allocator whose pages are each in one hand. -/
structure Sound (state : FrameAllocator) : Prop where
  spread : Spread 1 state.free
  live : LivePlaced state.allocated
  exclusive : state.spans.Pairwise Span.Apart

theorem LivePlaced.insert {allocated : BTreeMap UInt64 FrameRun} {base : UInt64} {run : FrameRun}
    (live : LivePlaced allocated) (same : run.base = base) (placed : Placed run.base run.pages) :
    LivePlaced (allocated.insert base run) := by
  intro key value found
  rcases BTreeMap.getElem?_insert_eq_some.mp found with ⟨rfl, rfl⟩ | ⟨_, old⟩
  · exact ⟨same, placed⟩
  · exact live _ _ old

theorem LivePlaced.erase {allocated : BTreeMap UInt64 FrameRun} (live : LivePlaced allocated)
    (base : UInt64) : LivePlaced (allocated.erase base) := by
  intro key value found
  exact live _ _ (BTreeMap.getElem?_erase_eq_some.mp found).2

theorem mem_freeSpans {self : FrameAllocator} {span : Span ℕ} :
    span ∈ self.freeSpans ↔
      ∃ base pages, self.free[base]? = some pages ∧ block base pages = span := by
  simp [freeSpans]

theorem mem_liveSpans {self : FrameAllocator} {span : Span ℕ} :
    span ∈ self.liveSpans ↔
      ∃ (base : UInt64) (run : FrameRun), self.allocated[base]? = some run ∧
        block run.base run.pages = span := by
  simp [liveSpans]

namespace Sound

variable {self : FrameAllocator}

theorem new : Sound FrameAllocator.new := by
  refine ⟨Spread.empty, ?_, List.Pairwise.nil⟩
  intro base run found
  simp [FrameAllocator.new] at found

theorem free_apart_live (sound : Sound self) {base pages key : UInt64} {run : FrameRun}
    (found : self.free[base]? = some pages) (live : self.allocated[key]? = some run) :
    (block base pages).Apart (block run.base run.pages) :=
  (List.pairwise_append.mp sound.exclusive).2.2 _ (mem_freeSpans.mpr ⟨_, _, found, rfl⟩)
    _ (mem_liveSpans.mpr ⟨_, _, live, rfl⟩)

theorem live_apart_live (sound : Sound self) {left right : FrameRun} {leftKey rightKey : UInt64}
    (left_live : self.allocated[leftKey]? = some left)
    (right_live : self.allocated[rightKey]? = some right) (distinct : leftKey ≠ rightKey) :
    (block left.base left.pages).Apart (block right.base right.pages) := by
  have live_apart := (List.pairwise_append.mp sound.exclusive).2.1
  rw [liveSpans, List.pairwise_map] at live_apart
  have left_member : (leftKey, left) ∈ self.allocated.toList := BTreeMap.mem_toList.mpr left_live
  have right_member : (rightKey, right) ∈ self.allocated.toList :=
    BTreeMap.mem_toList.mpr right_live
  have : Std.Symm fun left right : UInt64 × FrameRun =>
      (block left.2.base left.2.pages).Apart (block right.2.base right.2.pages) :=
    ⟨fun _ _ apart => apart.symm⟩
  exact live_apart.forall left_member right_member fun same => distinct (Prod.mk.inj same).1

/-- No run starts inside a free block. -/
theorem vacant (sound : Sound self) {base pages key : UInt64}
    (found : self.free[base]? = some pages) (lower : base.toNat ≤ key.toNat)
    (upper : key.toNat < base.toNat + pages.toNat * 4096) : self.allocated[key]? = none := by
  rcases live : self.allocated[key]? with _ | other
  · rfl
  · obtain ⟨other_key, other_placed⟩ := sound.live _ _ live
    have other_pos := other_placed.positive
    have spaced := (apart_iff_spaced (sound.spread.placed _ _ found).positive
      other_placed.positive).mp (sound.free_apart_live found live)
    simp only [Span.Spaced, block_upper, block_lower, other_key] at spaced
    omega

/-- A state that owns no more of any byte than a sound one is sound. -/
theorem of_owners_le (sound : Sound self) {after : FrameAllocator} (spread : Spread 1 after.free)
    (live : LivePlaced after.allocated)
    (owners_le : ∀ point, (Span.owners point).sum after.spans ≤
      (Span.owners point).sum self.spans) : Sound after := by
  refine ⟨spread, live, Span.pairwise_apart_iff.mpr ?_⟩
  intro point
  exact (owners_le point).trans (Span.pairwise_apart_iff.mp sound.exclusive point)

end Sound

/-- A step to a sound state: all owned bytes are those owned before, with `gained` and less
`lost`. -/
structure Moves (before after : FrameAllocator) (gained lost : List (Span ℕ)) : Prop where
  sound : Sound after
  weight : ∀ weight : Span.Weight ℕ ℕ, weight.sum after.spans + weight.sum lost =
    weight.sum before.spans + weight.sum gained

section Moves

variable {before : FrameAllocator}

theorem moves_self (sound : Sound before) : Moves before before [] [] :=
  ⟨sound, fun _ => rfl⟩

/-- A step that gains nothing is sound as soon as its weights add up. -/
theorem Sound.moves {after : FrameAllocator} {lost : List (Span ℕ)} (sound : Sound before)
    (spread : Spread 1 after.free) (live : LivePlaced after.allocated)
    (balance : ∀ weight, freeWeight weight after.free + liveWeight weight after.allocated +
      weight.sum lost = freeWeight weight before.free + liveWeight weight before.allocated) :
    Moves before after [] lost := by
  have sums (weight : Span.Weight ℕ ℕ) :
      weight.sum after.spans + weight.sum lost = weight.sum before.spans := by
    rw [sum_spans, sum_spans]
    exact balance weight
  refine ⟨sound.of_owners_le spread live ?_, ?_⟩
  · intro point
    exact (Nat.le_add_right _ _).trans (sums _).le
  · intro weight
    simpa using sums weight

theorem liveWeight_replace (weight : Span.Weight ℕ ℕ) {allocated : BTreeMap UInt64 FrameRun}
    {key : UInt64} {live run : FrameRun} (present : allocated[key]? = some live)
    (same_base : run.base = live.base) (same_pages : run.pages = live.pages) :
    liveWeight weight (allocated.insert key run) = liveWeight weight allocated := by
  have exchanged := BTreeMap.total_insert_of_present
    (fun _ run => weight.weigh (block run.base run.pages)) run present
  simp only [same_base, same_pages] at exchanged
  exact Nat.add_left_cancel exchanged

theorem liveWeight_insert (weight : Span.Weight ℕ ℕ) {allocated : BTreeMap UInt64 FrameRun}
    {key : UInt64} (run : FrameRun) (absent : allocated[key]? = none) :
    liveWeight weight (allocated.insert key run) =
      weight.weigh (block run.base run.pages) + liveWeight weight allocated :=
  BTreeMap.total_insert_of_absent _ run absent

theorem liveWeight_of_present (weight : Span.Weight ℕ ℕ) {allocated : BTreeMap UInt64 FrameRun}
    {key : UInt64} {live : FrameRun} (present : allocated[key]? = some live) :
    liveWeight weight allocated =
      weight.weigh (block live.base live.pages) + liveWeight weight (allocated.erase key) :=
  BTreeMap.total_eq_of_present _ present

/-- Changing the generation or the zeroed mark of a live run moves nothing. -/
theorem moves_update (sound : Sound before) {run live : FrameRun} {after : FrameAllocator}
    (present : before.allocated[run.base]? = some live) {updated : FrameRun}
    (free_eq : after.free = before.free)
    (allocated_eq : after.allocated = before.allocated.insert run.base updated)
    (same_base : updated.base = live.base) (same_pages : updated.pages = live.pages) :
    Moves before after [] [] := by
  obtain ⟨key_eq, placed⟩ := sound.live _ _ present
  refine sound.moves (free_eq ▸ sound.spread) ?_ ?_
  · rw [allocated_eq]
    refine sound.live.insert (same_base.trans key_eq) ?_
    rw [same_base, same_pages]
    exact placed
  · intro weight
    rw [allocated_eq, free_eq, liveWeight_replace weight present same_base same_pages]
    rfl

/-- Putting free pages under a region no one owns. -/
theorem moves_add (sound : Sound before) {base pages : UInt64} (placed : Placed base pages)
    (apart : ∀ span ∈ before.spans, (block base pages).Apart span) :
    ∃ free, coalesce { before with free := before.free.insert base pages } =
        (.ok (), { before with free }) ∧
      Moves before { before with free } [block base pages] [] := by
  have free_apart (otherBase otherPages : UInt64)
      (found : before.free[otherBase]? = some otherPages) :
      (block base pages).Apart (block otherBase otherPages) :=
    apart _ (List.mem_append_left _ (mem_freeSpans.mpr ⟨_, _, found, rfl⟩))
  have absent := Spread.absent placed free_apart sound.spread
  obtain ⟨free, merged, spread, weights⟩ :=
    coalesce_spec (show Spread 0 { before with free := before.free.insert base pages }.free
      from sound.spread.insert_apart placed free_apart)
  have sums (weight : Span.Weight ℕ ℕ) :
      weight.sum { before with free }.spans =
        weight.weigh (block base pages) + weight.sum before.spans := by
    have inserted_weight := BTreeMap.total_insert_of_absent
      (fun base pages => weight.weigh (block base pages)) pages absent
    have merged_weight := weights weight
    rw [sum_spans, sum_spans]
    simp only [freeWeight] at merged_weight ⊢
    omega
  refine ⟨free, merged, ⟨spread, sound.live, Span.pairwise_apart_iff.mpr ?_⟩, ?_⟩
  · intro point
    rw [sums, ← Span.Weight.sum_cons]
    exact Span.pairwise_apart_iff.mp (List.pairwise_cons.mpr ⟨apart, sound.exclusive⟩) point
  · intro weight
    rw [sums]
    simp [Nat.add_comm]

/-- Dropping a live run loses exactly its bytes. -/
theorem moves_erase (sound : Sound before) {key : UInt64} {live : FrameRun} {after : FrameAllocator}
    (present : before.allocated[key]? = some live) (free_eq : after.free = before.free)
    (allocated_eq : after.allocated = before.allocated.erase key) :
    Moves before after [] [block live.base live.pages] := by
  refine sound.moves (free_eq ▸ sound.spread) (allocated_eq ▸ sound.live.erase key) ?_
  intro weight
  rw [allocated_eq, free_eq, liveWeight_of_present weight present]
  simp
  omega

/-- What a step loses is no longer owned. -/
theorem Moves.lost_apart {after : FrameAllocator} {span : Span ℕ} (sound : Sound before)
    (moves : Moves before after [] [span]) : ∀ other ∈ after.spans, span.Apart other := by
  refine (List.pairwise_cons.mp (Span.pairwise_apart_iff.mpr ?_)).1
  intro point
  have balance := moves.weight (Span.owners point)
  have owners_le := Span.pairwise_apart_iff.mp sound.exclusive point
  simp at balance ⊢
  omega

/-- Returning a live run to the free map. -/
theorem moves_release (sound : Sound before) {key pages : UInt64} {live : FrameRun}
    {middle : FrameAllocator} (present : before.allocated[key]? = some live)
    (same_pages : live.pages = pages) (free_eq : middle.free = before.free)
    (allocated_eq : middle.allocated = before.allocated.erase key) :
    ∃ free, coalesce { middle with free := middle.free.insert key pages } =
        (.ok (), { middle with free }) ∧ Moves before { middle with free } [] [] := by
  obtain ⟨key_eq, placed⟩ := sound.live _ _ present
  have dropped := moves_erase sound present free_eq allocated_eq
  rw [key_eq, same_pages] at dropped placed
  obtain ⟨free, merged, added⟩ := moves_add dropped.sound placed (dropped.lost_apart sound)
  refine ⟨free, merged, added.sound, ?_⟩
  intro weight
  have dropped_weight := dropped.weight weight
  have added_weight := added.weight weight
  simp at dropped_weight added_weight ⊢
  omega

/-- Splitting a live run. -/
theorem moves_split (sound : Sound before) {key leftPages : UInt64} {live left right : FrameRun}
    {after : FrameAllocator} (present : before.allocated[key]? = some live)
    (halves : split live leftPages = .ok (left, right)) (free_eq : after.free = before.free)
    (allocated_eq : after.allocated =
      ((before.allocated.erase key).insert left.base left).insert right.base right) :
    Moves before after [] [] := by
  obtain ⟨left_pos, right_pos, left_eq, -, right_base, pages_eq⟩ := split_eq_ok halves
  obtain ⟨key_eq, placed⟩ := sound.live _ _ present
  have bounded := placed.bounded
  have aligned := placed.aligned
  have left_base : left.base = live.base := by rw [left_eq]
  have left_pages : left.pages = leftPages := by rw [left_eq]
  have distinct : key ≠ right.base := by
    rintro same
    rw [← same, key_eq] at right_base
    omega
  have right_absent : before.allocated[right.base]? = none := by
    rcases found : before.allocated[right.base]? with _ | other
    · rfl
    · obtain ⟨other_key, other_placed⟩ := sound.live _ _ found
      have other_pos := other_placed.positive
      have spaced := (apart_iff_spaced placed.positive other_placed.positive).mp
        (sound.live_apart_live present found distinct)
      simp only [Span.Spaced, block_upper, block_lower, other_key] at spaced
      omega
  have cut : Span.Cut (block live.base live.pages) (block left.base left.pages)
      (block right.base right.pages) := by
    rw [left_base, left_pages]
    exact ⟨rfl, right_base.symm, by simp only [block_upper]; omega⟩
  have right_bounded := cut.upper
  simp only [block_upper] at right_bounded
  refine sound.moves (free_eq ▸ sound.spread) ?_ ?_
  · rw [allocated_eq]
    refine ((sound.live.erase key).insert rfl ?_).insert rfl ⟨right_pos, by omega, by omega⟩
    rw [left_base, left_pages]
    exact ⟨left_pos, aligned, right_base ▸ right.base.toNat_lt⟩
  · intro weight
    have left_vacant : (before.allocated.erase key)[left.base]? = none := by
      simp [left_base, key_eq]
    have right_vacant :
        ((before.allocated.erase key).insert left.base left)[right.base]? = none := by
      rw [BTreeMap.getElem?_insert_of_ne _ _ (by rwa [left_base, key_eq]),
        BTreeMap.getElem?_erase_of_ne _ distinct, right_absent]
    rw [allocated_eq, free_eq, liveWeight_insert weight right right_vacant,
      liveWeight_insert weight left left_vacant, liveWeight_of_present weight present,
      weight.cut cut]
    simp
    omega

/-- Joining two adjacent live runs. -/
theorem moves_join (sound : Sound before) {leftKey rightKey : UInt64} {left right whole : FrameRun}
    {after : FrameAllocator} (left_present : before.allocated[leftKey]? = some left)
    (right_present : before.allocated[rightKey]? = some right)
    (joined : join left right = .ok whole) (free_eq : after.free = before.free)
    (allocated_eq : after.allocated =
      ((before.allocated.erase leftKey).erase rightKey).insert whole.base whole) :
    Moves before after [] [] := by
  obtain ⟨-, whole_eq, right_base, pages_eq⟩ := join_eq_ok joined
  obtain ⟨left_key, left_placed⟩ := sound.live _ _ left_present
  obtain ⟨right_key, right_placed⟩ := sound.live _ _ right_present
  have whole_base : whole.base = left.base := by rw [whole_eq]
  have left_pos := left_placed.positive
  have distinct : leftKey ≠ rightKey := by
    rintro rfl
    rw [right_key, left_key] at right_base
    omega
  have cut : Span.Cut (block whole.base whole.pages) (block left.base left.pages)
      (block right.base right.pages) := by
    rw [whole_base]
    exact ⟨rfl, right_base.symm, by simp only [block_upper]; omega⟩
  refine sound.moves (free_eq ▸ sound.spread) ?_ ?_
  · rw [allocated_eq]
    refine ((sound.live.erase leftKey).erase rightKey).insert rfl ?_
    have bounded := right_placed.bounded
    have upper_eq := cut.upper
    simp only [block_upper] at upper_eq
    exact ⟨by omega, whole_base ▸ left_placed.aligned, by omega⟩
  · intro weight
    have right_kept : (before.allocated.erase leftKey)[rightKey]? = some right := by
      rw [BTreeMap.getElem?_erase_of_ne _ distinct, right_present]
    have whole_vacant : ((before.allocated.erase leftKey).erase rightKey)[whole.base]? = none := by
      rw [whole_base, left_key, BTreeMap.getElem?_erase_of_ne _ distinct.symm]
      simp
    rw [allocated_eq, free_eq, liveWeight_insert weight whole whole_vacant,
      liveWeight_of_present weight left_present, liveWeight_of_present weight right_kept,
      weight.cut cut]
    simp
    omega

/-- Cutting a run out of a free block. -/
theorem moves_allocate (sound : Sound before)
    {base available aligned pages prior suffix start : UInt64}
    {run : FrameRun} {after : FrameAllocator} (present : before.free[base]? = some available)
    (positive : 0 < pages.toNat)
    (aligned_eq : aligned.toNat = base.toNat + prior.toNat * 4096)
    (suffix_eq : available.toNat = suffix.toNat + pages.toNat + prior.toNat)
    (start_eq : suffix ≠ 0 → start.toNat = aligned.toNat + pages.toNat * 4096)
    (run_base : run.base = aligned) (run_pages : run.pages = pages)
    (free_eq : after.free = restore start suffix (restore base prior (before.free.erase base)))
    (allocated_eq : after.allocated = before.allocated.insert aligned run) :
    Moves before after [] [] := by
  obtain ⟨placed, spread, weights⟩ :=
    carve_spec sound.spread present positive aligned_eq suffix_eq start_eq
  have vacant : before.allocated[aligned]? = none :=
    sound.vacant present (by omega) (by omega)
  refine sound.moves (free_eq ▸ spread) ?_ ?_
  · rw [allocated_eq]
    exact sound.live.insert run_base (by rwa [run_base, run_pages])
  · intro weight
    have free_weight := weights weight
    rw [allocated_eq, free_eq, liveWeight_insert weight run vacant, run_base, run_pages]
    simp
    omega

end Moves

theorem finish_of_coalesce {state merged : FrameAllocator}
    (coalesced : coalesce state = (.ok (), merged)) :
    (do coalesce; return .done : Call FrameAllocator FrameError Reply) state =
      (.ok .done, merged) := by
  simpa using ⟨(), coalesced⟩

/-- What `add_region` does not test: a valid region clear of the free blocks is also clear of the
live runs. -/
def Clear (before : FrameAllocator) : Request → Prop
  | .addRegion base pages =>
      validateRun base pages = .ok () →
        (∀ span ∈ before.freeSpans, (block base pages).Apart span) →
        ∀ span ∈ before.liveSpans, (block base pages).Apart span
  | _ => True

/-- The region a call has added. -/
def region : Request → Outcome FrameError Reply → List (UInt64 × UInt64)
  | .addRegion base pages, .ok _ => [(base, pages)]
  | _, _ => []

/-- The bytes of a list of regions. -/
def regionSpans (regions : List (UInt64 × UInt64)) : List (Span ℕ) :=
  regions.map fun region => block region.1 region.2

/-- A region that is added is clear of everything there is. -/
theorem region_apart {before : FrameAllocator} {base pages stop : UInt64} (sound : Sound before)
    (clear : Clear before (.addRegion base pages)) (valid : validateRun base pages = .ok ())
    (stop_eq : stop.toNat = base.toNat + pages.toNat * 4096)
    (free_clear : ∀ otherBase otherPages, before.free[otherBase]? = some otherPages →
      overlaps base stop (otherBase, otherPages) = false) :
    ∀ span ∈ before.spans, (block base pages).Apart span := by
  have free_apart : ∀ span ∈ before.freeSpans, (block base pages).Apart span := by
    intro span member
    obtain ⟨otherBase, otherPages, found, rfl⟩ := mem_freeSpans.mp member
    exact (overlaps_eq_false (validateRun_eq_ok.mp valid).positive stop_eq
      (sound.spread.placed _ _ found)).mp (free_clear _ _ found)
  intro span member
  rcases List.mem_append.mp member with free | live
  · exact free_apart span free
  · exact clear valid free_apart span live

section Fits

variable {before : FrameAllocator} {run live : FrameRun} (sound : Sound before)
  (valid : before.validate run = .ok live)

include sound valid

/-- The ends of a live run are addresses, and so is where it is split. -/
theorem Sound.split_fits {leftPages : UInt64} : split live leftPages ≠ .overflow := by
  intro cause
  have bounded := (sound.live _ _ (validate_eq_ok.mp valid).1).2.bounded
  have outside := split_eq_overflow cause
  omega

theorem Sound.join_fits {right : FrameRun} : join live right ≠ .overflow := by
  intro cause
  have bounded := (sound.live _ _ (validate_eq_ok.mp valid).1).2.bounded
  have outside := join_eq_overflow cause
  omega

end Fits

/-- A call on a sound state never overflows and stays sound, unless it adds a region over a live
run.  Only a refused generation overflow loses pages. -/
theorem sound_step {before after : FrameAllocator} {request : Request}
    {outcome : Outcome FrameError Reply} (sound : Sound before) (clear : Clear before request)
    (step : Step before request outcome after) :
    outcome ≠ .overflow ∧ ∃ lost, (outcome ≠ .err .generationOverflow → lost = []) ∧
      Moves before after (regionSpans (region request outcome)) lost := by
  cases step with
  | rejected request reason =>
      refine ⟨by simp, [], by simp, ?_⟩
      cases request <;> exact moves_self sound
  | @added base pages stop outcome after valid stop_eq free_clear merged =>
      obtain ⟨free, coalesced, moves⟩ := moves_add sound (validateRun_eq_ok.mp valid)
        (region_apart sound clear valid stop_eq free_clear)
      rw [finish_of_coalesce coalesced] at merged
      obtain ⟨rfl, rfl⟩ := Prod.mk.inj merged
      exact ⟨by simp, [], by simp, moves⟩
  | @allocated pages alignmentPages mask suffix start choice run positive power mask_eq chosen
      suffix_eq start_eq run_eq =>
      obtain ⟨present, aligned_eq, -⟩ := chosen_spec sound.spread power mask_eq chosen
      exact ⟨by simp, [], by simp, moves_allocate sound present (toNat_pos positive) aligned_eq
        suffix_eq start_eq (by rw [run_eq]) (by rw [run_eq]) rfl rfl⟩
  | allocateOverflow power mask_eq chosen cause free =>
      obtain ⟨present, aligned_eq, fits⟩ := chosen_spec sound.spread power mask_eq chosen
      have bounded := (sound.spread.placed _ _ present).bounded
      omega
  | zeroed valid | lent valid | reclaimed valid =>
      obtain ⟨present, _, _⟩ := validate_eq_ok.mp valid
      exact ⟨by simp, [], by simp, moves_update sound present rfl rfl rfl rfl⟩
  | divided valid unlent halves =>
      obtain ⟨present, _, _⟩ := validate_eq_ok.mp valid
      exact ⟨by simp, [], by simp, moves_split sound present halves rfl rfl⟩
  | splitOverflow valid cause => exact absurd cause (sound.split_fits valid)
  | joined left_valid right_valid left_unlent right_unlent union =>
      obtain ⟨left_present, _, _⟩ := validate_eq_ok.mp left_valid
      obtain ⟨right_present, _, _⟩ := validate_eq_ok.mp right_valid
      exact ⟨by simp, [], by simp, moves_join sound left_present right_present union rfl rfl⟩
  | joinOverflow left_valid right_valid cause => exact absurd cause (sound.join_fits left_valid)
  | @released run live next outcome after valid unlent advanced merged =>
      obtain ⟨present, _, same_pages⟩ := validate_eq_ok.mp valid
      obtain ⟨free, coalesced, moves⟩ := moves_release sound present same_pages
        (show FrameAllocator.free { before with
          allocated := before.allocated.erase run.base
          generations := before.generations.insert run.base next } = before.free from rfl) rfl
      rw [finish_of_coalesce coalesced] at merged
      obtain ⟨rfl, rfl⟩ := Prod.mk.inj merged
      exact ⟨by simp, [], by simp, moves⟩
  | forgotten valid unlent exhausted =>
      obtain ⟨present, _, _⟩ := validate_eq_ok.mp valid
      exact ⟨by simp, _, by simp, moves_erase sound present rfl rfl⟩

/-- On a sound state a valid region clear of the free blocks is accepted. -/
theorem perform_addRegion {before : FrameAllocator} {base pages : UInt64}
    (spread : Spread 1 before.free) (valid : validateRun base pages = .ok ())
    (free_apart : ∀ span ∈ before.freeSpans, (block base pages).Apart span) :
    ∃ after, perform (.addRegion base pages) before = (.ok .done, after) := by
  have placed := validateRun_eq_ok.mp valid
  have bounded := placed.bounded
  have clear (otherBase otherPages : UInt64) (found : before.free[otherBase]? = some otherPages) :
      (block base pages).Apart (block otherBase otherPages) :=
    free_apart _ (mem_freeSpans.mpr ⟨_, _, found, rfl⟩)
  obtain ⟨free, merged, -, -⟩ :=
    coalesce_spec (show Spread 0 { before with free := before.free.insert base pages }.free
      from spread.insert_apart placed clear)
  obtain ⟨bytes, bytes_eq⟩ := exists_toNat_eq (show pages.toNat * 4096 < 2 ^ 64 by omega)
  obtain ⟨stop, stop_eq⟩ := exists_toNat_eq bounded
  refine ⟨{ before with free }, ?_⟩
  simp [perform, addRegion]
  refine ⟨⟨(), valid⟩, (), bytes, bytes_eq, stop, by omega, ?_, merged⟩
  intro otherBase otherPages found
  exact (overlaps_eq_false placed.positive stop_eq (spread.placed _ _ found)).mpr
    (clear _ _ found)

end Bulla.Kernel.FrameAllocator
