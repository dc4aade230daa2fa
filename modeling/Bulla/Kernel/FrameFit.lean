import Bulla.Kernel.FrameRuns

/-!
# First fit

`allocate` tries the free blocks in the order of their bases and rounds each base up to the
alignment.  Free blocks never touch, so a range of free memory lies in one of them, and the first
block that fits holds the lowest place there is.
-/

namespace Bulla.Kernel.FrameAllocator

open Rust Outcome

/-- The aligned places a range of `size` bytes can take in a span. -/
def places (alignment size : ℕ) (span : Span ℕ) : Set ℕ :=
  {start | alignment ∣ start ∧ span.lower ≤ start ∧ start + size ≤ span.upper}

section Fit

variable {pages mask base available : UInt64} {exponent : ℕ}

/-- Below the top of the address space a block that holds a place also fits it: the sum that rounds
its base up cannot overflow, since the top is aligned. -/
theorem exists_fit (low : mask.toNat + 1 = 2 ^ exponent) (placed : Placed base available)
    {start : ℕ}
    (inside : start ∈ places (2 ^ exponent) (pages.toNat * 4096) (block base available)) :
    ∃ choice, fit pages mask (base, available) = some choice := by
  obtain ⟨aligned, base_le, fits⟩ := inside
  simp only [block_lower, block_upper] at base_le fits
  have bounded := placed.bounded
  have mask_lt := mask.toNat_lt
  have top_aligned : 2 ^ exponent ∣ 2 ^ 64 := by
    refine pow_dvd_pow 2 ((Nat.pow_le_pow_iff_right Nat.one_lt_two).mp ?_)
    omega
  have below_top : start + 2 ^ exponent ≤ 2 ^ 64 :=
    Nat.le_of_lt_add_of_dvd (by omega) (Nat.dvd_add aligned dvd_rfl) top_aligned
  obtain ⟨raised, raised_eq⟩ := exists_toNat_eq (show base.toNat + mask.toNat < 2 ^ 64 by omega)
  obtain ⟨⟨_, base_le_rounded⟩, least⟩ := isLeast_and_not low raised_eq
  have rounded_le : (raised &&& ~~~mask).toNat ≤ start := least ⟨aligned, base_le⟩
  obtain ⟨offset, offset_eq⟩ := exists_toNat_eq
    (show (raised &&& ~~~mask).toNat - base.toNat < 2 ^ 64 by omega)
  obtain ⟨needed, needed_eq⟩ := exists_toNat_eq
    (show offset.toNat / 4096 + pages.toNat < 2 ^ 64 by omega)
  refine ⟨⟨base, available, raised &&& ~~~mask, offset / pageSize⟩, ?_⟩
  simp only [fit, Option.bind_eq_bind, Option.bind_eq_some_iff, checkedAdd_eq_some,
    checkedSub_eq_some, Option.ite_none_right_eq_some, Option.some.injEq]
  refine ⟨raised, raised_eq, offset, by omega, needed, ?_, ?_, rfl⟩
  · rw [UInt64.toNat_div, toNat_pageSize, needed_eq]
  · rw [UInt64.le_iff_toNat_le]
    omega

/-- The place taken in a block is the lowest one. -/
theorem isLeast_of_fit {choice : Choice} (low : mask.toNat + 1 = 2 ^ exponent)
    (page : 12 ≤ exponent) (placed : Placed base available)
    (fitted : fit pages mask (base, available) = some choice) :
    IsLeast (places (2 ^ exponent) (pages.toNat * 4096) (block base available))
      choice.aligned.toNat := by
  obtain ⟨-, -, aligned_eq, fits⟩ := fit_eq_some low page placed.aligned fitted
  simp only [fit, Option.bind_eq_bind, Option.bind_eq_some_iff, checkedAdd_eq_some,
    checkedSub_eq_some, Option.ite_none_right_eq_some, Option.some.injEq] at fitted
  obtain ⟨raised, raised_eq, _, _, _, _, _, rfl⟩ := fitted
  obtain ⟨⟨aligned, base_le⟩, least⟩ := isLeast_and_not low raised_eq
  refine ⟨⟨aligned, base_le, ?_⟩, fun start inside => least ⟨inside.1, inside.2.1⟩⟩
  simp only [block_upper] at aligned_eq fits ⊢
  omega

end Fit

/-- A byte of free memory. -/
def IsFree (self : FrameAllocator) (byte : ℕ) : Prop := ∃ span ∈ self.freeSpans, byte ∈ span.cells

/-- The aligned starts of free ranges of the given number of pages. -/
def fits (self : FrameAllocator) (pages alignmentPages : UInt64) : Set ℕ :=
  {start | alignmentPages.toNat * 4096 ∣ start ∧
    ∀ byte, start ≤ byte → byte < start + pages.toNat * 4096 → self.IsFree byte}

section Search

variable {self : FrameAllocator} {pages alignmentPages mask : UInt64}

theorem Spread.pairwise_spaced (spread : Spread 1 self.free) :
    {span | span ∈ self.freeSpans}.Pairwise (Span.Spaced 1) := by
  intro left left_member right right_member distinct
  obtain ⟨base, pages, found, rfl⟩ := mem_freeSpans.mp left_member
  obtain ⟨otherBase, otherPages, other_found, rfl⟩ := mem_freeSpans.mp right_member
  refine spread.spaced _ _ _ _ found other_found ?_
  rintro rfl
  obtain rfl : pages = otherPages := Option.some.inj (found.symm.trans other_found)
  exact distinct rfl

/-- A free range is a place in one of the free blocks. -/
theorem Spread.mem_fits_iff (spread : Spread 1 self.free) (positive : 0 < pages.toNat) {start : ℕ} :
    start ∈ self.fits pages alignmentPages ↔ ∃ base available, self.free[base]? = some available ∧
      start ∈ places (alignmentPages.toNat * 4096) (pages.toNat * 4096) (block base available) := by
  constructor
  · rintro ⟨aligned, free⟩
    obtain ⟨span, member, lower_le, upper_le⟩ := Span.exists_superset_of_spaced
      spread.pairwise_spaced ⟨start, start + pages.toNat * 4096, Nat.le_add_right _ _⟩
      (by simp only; omega) fun byte inside => free byte inside.1 inside.2
    obtain ⟨base, available, found, rfl⟩ := mem_freeSpans.mp member
    exact ⟨base, available, found, aligned, lower_le, upper_le⟩
  · rintro ⟨base, available, found, aligned, lower_le, upper_le⟩
    refine ⟨aligned, fun byte start_le byte_lt => ⟨_, mem_freeSpans.mpr ⟨_, _, found, rfl⟩, ?_⟩⟩
    exact ⟨lower_le.trans start_le, byte_lt.trans_le upper_le⟩

/-- If no block fits there is no free range. -/
theorem Spread.fits_eq_empty (spread : Spread 1 self.free) (positive : 0 < pages.toNat)
    (power : isPowerOfTwo alignmentPages = true)
    (mask_eq : mask.toNat + 1 = alignmentPages.toNat * 4096)
    (missed : ∀ base available, self.free[base]? = some available →
      fit pages mask (base, available) = none) :
    self.fits pages alignmentPages = ∅ := by
  refine Set.eq_empty_iff_forall_notMem.mpr fun start fits => ?_
  obtain ⟨base, available, found, inside⟩ := (spread.mem_fits_iff positive).mp fits
  obtain ⟨exponent, -, alignment_eq⟩ := exists_exponent power
  rw [alignment_eq] at mask_eq inside
  obtain ⟨choice, fitted⟩ := exists_fit mask_eq (spread.placed _ _ found) inside
  cases (missed _ _ found).symm.trans fitted

/-- The first block that fits holds the lowest free range. -/
theorem Spread.isLeast_fits (spread : Spread 1 self.free) (positive : 0 < pages.toNat)
    (power : isPowerOfTwo alignmentPages = true)
    (mask_eq : mask.toNat + 1 = alignmentPages.toNat * 4096) {choice : Choice}
    (chosen : self.free.toList.findSome? (fit pages mask) = some choice) :
    IsLeast (self.fits pages alignmentPages) choice.aligned.toNat := by
  obtain ⟨exponent, page, alignment_eq⟩ := exists_exponent power
  obtain ⟨earlier, ⟨base, available⟩, later, list_eq, fitted, missed⟩ :=
    List.findSome?_eq_some_iff.mp chosen
  have found : self.free[base]? = some available :=
    BTreeMap.mem_toList.mp (list_eq ▸ List.mem_append_right earlier List.mem_cons_self)
  rw [alignment_eq] at mask_eq
  have least := isLeast_of_fit mask_eq page (spread.placed _ _ found) fitted
  refine ⟨(spread.mem_fits_iff positive).mpr ⟨base, available, found, ?_⟩, ?_⟩
  · rw [alignment_eq]
    exact least.1
  intro start fits
  obtain ⟨otherBase, otherPages, other_found, inside⟩ := (spread.mem_fits_iff positive).mp fits
  rw [alignment_eq] at inside
  have member : (otherBase, otherPages) ∈ earlier ++ (base, available) :: later := by
    rw [← list_eq]
    exact BTreeMap.mem_toList.mpr other_found
  rcases List.mem_append.mp member with before | after
  · obtain ⟨other, other_fitted⟩ := exists_fit mask_eq (spread.placed _ _ other_found) inside
    cases (missed _ before).symm.trans other_fitted
  · rcases List.mem_cons.mp after with same | behind
    · cases same
      exact least.2 inside
    · have sorted := self.free.ordered_keys_toList
      rw [list_eq] at sorted
      have less := (List.pairwise_cons.mp (List.pairwise_append.mp sorted).2.1).1 _ behind
      rw [Std.compare_eq_lt, UInt64.lt_iff_toNat_lt] at less
      have upper_le := spread.upper_le found other_found less
      have taken_le := least.1.2.2
      have other_le := inside.2.1
      simp only [block_lower] at other_le
      omega

end Search

/-- A byte is free if it is owned and in no live run. -/
theorem Sound.isFree_iff {self : FrameAllocator} (sound : Sound self) (byte : ℕ) :
    self.IsFree byte ↔ (∃ span ∈ self.spans, byte ∈ span.cells) ∧
      ∀ span ∈ self.liveSpans, byte ∉ span.cells := by
  have apart := (List.pairwise_append.mp sound.exclusive).2.2
  constructor
  · rintro ⟨span, member, inside⟩
    refine ⟨⟨span, List.mem_append_left _ member, inside⟩, fun live live_member live_inside => ?_⟩
    exact Set.disjoint_left.mp (apart span member live live_member) inside live_inside
  · rintro ⟨⟨span, member, inside⟩, not_live⟩
    rcases List.mem_append.mp member with free | live
    · exact ⟨span, free, inside⟩
    · exact absurd inside (not_live span live)

/-- On valid arguments the only error of `allocate` is that no block fits. -/
theorem allocate_eq_err {self : FrameAllocator} {pages alignmentPages : UInt64}
    {reason : FrameError} (positive : pages ≠ 0) (power : isPowerOfTwo alignmentPages = true)
    (bounded : alignmentPages.toNat * 4096 < 2 ^ 64)
    (failed : (perform (.allocate pages alignmentPages) self).1 = .err reason) :
    reason = .outOfMemory ∧ ∃ mask : UInt64, mask.toNat + 1 = alignmentPages.toNat * 4096 ∧
      ∀ base available, self.free[base]? = some available →
        fit pages mask (base, available) = none := by
  have ensured : Call.Ensures (perform (.allocate pages alignmentPages)) (fun outcome _ =>
      outcome = .err reason → reason = .outOfMemory ∧ ∃ mask : UInt64,
        mask.toNat + 1 = alignmentPages.toNat * 4096 ∧
        ∀ base available, self.free[base]? = some available →
          fit pages mask (base, available) = none) self := by
    have nonzero : alignmentPages ≠ 0 := by
      rintro rfl
      exact absurd power (by decide)
    simp only [perform, allocate]
    simp [positive, nonzero, power]
    refine ⟨?_, fun outside => by omega⟩
    intro alignment alignment_eq mask mask_eq
    refine ⟨fun choice _ remaining _ suffix _ => ?_, ?_⟩
    · refine Call.ensures_bind.mpr ⟨fun _ _ _ => by simp,
        fun _ _ failed => absurd failed Call.infallible_ne_err, fun _ _ => by simp⟩
    · rintro missed rfl
      exact ⟨rfl, mask, by omega, missed⟩
  exact ensured failed

/-- From a sound state `allocate` takes the lowest free range, and fails only if there is none. -/
theorem Sound.allocate_spec {self : FrameAllocator} {pages alignmentPages : UInt64}
    (sound : Sound self) (positive : pages ≠ 0) (power : isPowerOfTwo alignmentPages = true)
    (bounded : alignmentPages.toNat * 4096 < 2 ^ 64) :
    (∃ run, (perform (.allocate pages alignmentPages) self).1 = .ok (.run run) ∧
      run.pages = pages ∧ IsLeast (self.fits pages alignmentPages) run.base.toNat) ∨
    ((perform (.allocate pages alignmentPages) self).1 = .err .outOfMemory ∧
      self.fits pages alignmentPages = ∅) := by
  have step := step_perform (.allocate pages alignmentPages) self
  have clear : Clear self (.allocate pages alignmentPages) := trivial
  have no_overflow := (sound_step sound clear step).1
  have refused (reason : FrameError)
      (failed : (perform (.allocate pages alignmentPages) self).1 = .err reason) :=
    allocate_eq_err positive power bounded failed
  generalize (perform (.allocate pages alignmentPages) self).1 = outcome
    at step no_overflow refused ⊢
  generalize (perform (.allocate pages alignmentPages) self).2 = after at step
  have positive_pages := toNat_pos positive
  cases step with
  | rejected _ reason =>
      obtain ⟨rfl, mask, mask_eq, missed⟩ := refused reason rfl
      exact .inr ⟨rfl, sound.spread.fits_eq_empty positive_pages power mask_eq missed⟩
  | allocated _ _ mask_eq chosen _ _ run_eq =>
      refine .inl ⟨_, rfl, by rw [run_eq], ?_⟩
      rw [run_eq]
      exact sound.spread.isLeast_fits positive_pages power mask_eq chosen
  | allocateOverflow => exact absurd rfl no_overflow

/-- Free memory is what was added and is in no live run; `allocate` returns its lowest aligned range
of the wanted size, and reports that memory is exhausted exactly if there is no such range. -/
theorem first_fit (requests : List Request) (pages alignmentPages : UInt64)
    (disjoint : (regionSpans (regions (history perform new requests))).Pairwise Span.Apart)
    (unexhausted : ∀ occurred ∈ history perform new requests,
      occurred.outcome ≠ .err .generationOverflow)
    (positive : pages ≠ 0) (power : isPowerOfTwo alignmentPages = true)
    (bounded : alignmentPages.toNat * 4096 < 2 ^ 64) :
    (∀ byte, (final perform new requests).IsFree byte ↔
      (∃ span ∈ regionSpans (regions (history perform new requests)), byte ∈ span.cells) ∧
      ∀ span ∈ (final perform new requests).liveSpans, byte ∉ span.cells) ∧
    (∀ start, IsLeast ((final perform new requests).fits pages alignmentPages) start ↔
      ∃ run, (perform (.allocate pages alignmentPages) (final perform new requests)).1 =
        .ok (.run run) ∧ run.pages = pages ∧ run.base.toNat = start) ∧
    ((perform (.allocate pages alignmentPages) (final perform new requests)).1 =
      .err .outOfMemory ↔ (final perform new requests).fits pages alignmentPages = ∅) := by
  have accounted := accounted_run requests disjoint
  refine ⟨?_, ?_⟩
  · intro byte
    rw [← accounted.owned_iff unexhausted byte]
    exact accounted.sound.isFree_iff byte
  rcases accounted.sound.allocate_spec positive power bounded with
    ⟨run, returned, pages_eq, least⟩ | ⟨refused, empty⟩
  · refine ⟨?_, ?_⟩
    · intro start
      rw [returned]
      constructor
      · intro start_least
        exact ⟨run, rfl, pages_eq, least.unique start_least⟩
      · rintro ⟨_, ⟨⟩, _, rfl⟩
        exact least
    · rw [returned]
      simpa using Set.nonempty_iff_ne_empty.mp ⟨_, least.1⟩
  · rw [refused, empty]
    simp [IsLeast]

/-- The first page of the region is free, but not aligned to two pages. -/
theorem first_fit_second_page :
    IsLeast ((final perform new [.addRegion 0x1000 3]).fits 1 2) 0x2000 :=
  ((first_fit [.addRegion 0x1000 3] 1 2 (by decide) (by decide) (by decide) (by decide)
    (by decide)).2.1 0x2000).mpr ⟨⟨0x2000, 1, 0, false⟩, by decide, rfl, rfl⟩

end Bulla.Kernel.FrameAllocator
