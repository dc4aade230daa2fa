import Bulla.Kernel.FrameOwnership

/-!
# Runs of the frame allocator

From the empty allocator every byte is in one hand exactly as long as no region is added over a live
run.  When the added regions are disjoint and no generation runs out, the free blocks and the live
runs partition the added memory, free blocks never touch, and no unchecked operation overflows.
-/

namespace Bulla.Kernel.FrameAllocator

open Rust Outcome

abbrev FrameEvent : Type := Event FrameAllocator Request FrameError Reply

/-- After the call every byte is in at most one hand, and the memory it handed out was in none. -/
structure Exclusive (occurred : FrameEvent) : Prop where
  disjoint : occurred.after.spans.Pairwise Span.Apart
  added : ∀ base pages reply, occurred.input = .addRegion base pages →
    occurred.outcome = .ok reply → ∀ span ∈ occurred.before.spans, (block base pages).Apart span
  allocated : ∀ pages alignmentPages run, occurred.input = .allocate pages alignmentPages →
    occurred.outcome = .ok (.run run) →
    ∀ span ∈ occurred.before.liveSpans, (block run.base run.pages).Apart span

/-- A region that was added was in no one's hand before. -/
theorem added_apart {before after : FrameAllocator} {base pages : UInt64} {reply : Reply}
    (sound : Sound before) (clear : Clear before (.addRegion base pages))
    (step : Step before (.addRegion base pages) (.ok reply) after) :
    ∀ span ∈ before.spans, (block base pages).Apart span := by
  obtain ⟨-, lost, lost_eq, moves⟩ := sound_step sound clear step
  obtain rfl := lost_eq (by simp)
  refine (List.pairwise_cons.mp (Span.pairwise_apart_iff.mpr ?_)).1
  intro point
  have balance := moves.weight (Span.owners point)
  have owners_le := Span.pairwise_apart_iff.mp moves.sound.exclusive point
  simp only [regionSpans, region, List.map_cons, List.map_nil, Span.Weight.sum_cons,
    Span.Weight.sum_nil] at balance ⊢
  omega

/-- A run that was allocated overlaps no run that was live. -/
theorem allocated_apart {before after : FrameAllocator} {pages alignmentPages : UInt64}
    {run : FrameRun} (sound : Sound before)
    (step : Step before (.allocate pages alignmentPages) (.ok (.run run)) after) :
    ∀ span ∈ before.liveSpans, (block run.base run.pages).Apart span := by
  have clear : Clear before (.allocate pages alignmentPages) := trivial
  obtain ⟨-, lost, -, moves⟩ := sound_step sound clear step
  intro span member
  obtain ⟨key, other, live, rfl⟩ := mem_liveSpans.mp member
  cases step with
  | @allocated _ _ mask suffix start choice _ positive power mask_eq chosen suffix_eq start_eq
      run_eq =>
      obtain ⟨present, aligned_eq, fits⟩ := chosen_spec sound.spread power mask_eq chosen
      have positive_pages := toNat_pos positive
      have vacant : before.allocated[choice.aligned]? = none :=
        sound.vacant present (by omega) (by omega)
      have distinct : choice.aligned ≠ key := by
        rintro rfl
        rw [vacant] at live
        cases live
      refine moves.sound.live_apart_live Std.ExtTreeMap.getElem?_insert_self ?_ distinct
      rw [BTreeMap.getElem?_insert_of_ne _ _ distinct]
      exact live

/-- From a sound state a call keeps pages in one hand exactly when it adds no region over a run. -/
theorem exclusive_event_iff {before : FrameAllocator} (sound : Sound before) (request : Request) :
    Exclusive (event perform before request) ↔ Clear before request := by
  constructor
  · intro exclusive
    cases request with
    | addRegion base pages =>
        intro valid free_apart span live
        obtain ⟨after, accepted⟩ := perform_addRegion sound.spread valid free_apart
        have outcome_eq : (event perform before (.addRegion base pages)).outcome = .ok .done := by
          rw [event, accepted]
        exact exclusive.added base pages .done rfl outcome_eq span (List.mem_append_right _ live)
    | _ => trivial
  · intro clear
    have step : Step before request (event perform before request).outcome
        (event perform before request).after := step_perform request before
    obtain ⟨-, lost, -, moves⟩ := sound_step sound clear step
    refine ⟨moves.sound.exclusive, ?_, ?_⟩
    · rintro base pages reply rfl outcome_eq
      exact added_apart sound clear (outcome_eq ▸ step)
    · rintro pages alignmentPages run rfl outcome_eq
      exact allocated_apart sound (outcome_eq ▸ step)

/-- Pages stay in one hand throughout a run exactly when no step adds a region over a live run. -/
theorem exclusive_iff_clear (requests : List Request) :
    (∀ occurred ∈ history perform new requests, Exclusive occurred) ↔
      ∀ occurred ∈ history perform new requests, Clear occurred.before occurred.input := by
  rw [← guarded_iff_forall Exclusive [],
    ← guarded_iff_forall (fun occurred : FrameEvent => Clear occurred.before occurred.input) []]
  refine guarded_iff_of_invariant perform (fun _ state => Sound state) Sound.new ?_ ?_ requests
  · intro _ state request sound
    exact exclusive_event_iff sound request
  · intro _ state request sound clear
    obtain ⟨-, lost, -, moves⟩ := sound_step sound clear (step_perform request state)
    exact moves.sound

/-- A region added over a live run is accepted, and its pages are free and live at once. -/
theorem add_region_over_live_run :
    ∃ requests, ∃ occurred ∈ history perform new requests,
      occurred.input = .addRegion 0 1 ∧ occurred.outcome = .ok .done ∧
      ¬occurred.after.spans.Pairwise Span.Apart := by
  refine ⟨[.addRegion 0 1, .allocate 1 1, .addRegion 0 1], _,
    List.mem_cons_of_mem _ (List.mem_cons_of_mem _ List.mem_cons_self), ?_⟩
  decide

/-- The regions added in the course of a run. -/
def regions (events : List FrameEvent) : List (UInt64 × UInt64) :=
  events.flatMap fun occurred => region occurred.input occurred.outcome

theorem regionSpans_regions_append (earlier later : List FrameEvent) :
    regionSpans (regions (earlier ++ later)) =
      regionSpans (regions earlier) ++ regionSpans (regions later) := by
  rw [regions, List.flatMap_append, regionSpans, List.map_append]
  rfl

/-- What a run from disjoint regions has done: the memory it was given is owned or lost. -/
structure Accounted (events : List FrameEvent) (state : FrameAllocator) : Prop where
  sound : Sound state
  no_overflow : ∀ occurred ∈ events, occurred.outcome ≠ .overflow
  balance : ∃ lost, ((∀ occurred ∈ events, occurred.outcome ≠ .err .generationOverflow) →
      lost = []) ∧
    ∀ weight : Span.Weight ℕ ℕ,
      weight.sum state.spans + weight.sum lost = weight.sum (regionSpans (regions events))

/-- A region disjoint from all regions added before meets no live run. -/
theorem Accounted.clear {past : List FrameEvent} {state : FrameAllocator} {request : Request}
    (accounted : Accounted past state)
    (disjoint : (regionSpans (regions (past ++ [event perform state request]))).Pairwise
      Span.Apart) : Clear state request := by
  cases request with
  | addRegion base pages =>
      intro valid free_apart span live
      obtain ⟨after, accepted⟩ := perform_addRegion accounted.sound.spread valid free_apart
      obtain ⟨lost, -, balance⟩ := accounted.balance
      have outcome_eq : (event perform state (.addRegion base pages)).outcome = .ok .done := by
        rw [event, accepted]
      rw [regionSpans_regions_append, List.pairwise_append] at disjoint
      have new_apart : ∀ old ∈ regionSpans (regions past), old.Apart (block base pages) := by
        intro old member
        exact disjoint.2.2 old member _ (by simp [regionSpans, regions, outcome_eq, region])
      refine Set.disjoint_left.mpr ?_
      intro point inside owned
      have unowned : (Span.owners point).sum (regionSpans (regions past)) = 0 := by
        rw [Span.owners_sum_eq_zero]
        intro old member old_inside
        exact Set.disjoint_left.mp (new_apart old member) old_inside inside
      have spans_unowned : (Span.owners point).sum state.spans = 0 := by
        have total := balance (Span.owners point)
        omega
      exact Span.owners_sum_eq_zero.mp spans_unowned span (List.mem_append_right _ live) owned
  | _ => trivial

/-- Every run from disjoint regions accounts for all of its memory. -/
theorem accounted_run (requests : List Request)
    (disjoint : (regionSpans (regions (history perform new requests))).Pairwise Span.Apart) :
    Accounted (history perform new requests) (final perform new requests) := by
  refine run_induction perform (motive := fun past state =>
    (regionSpans (regions past)).Pairwise Span.Apart → Accounted past state) ?_ ?_ requests disjoint
  · intro _
    exact ⟨Sound.new, by simp, [], by simp, fun weight => rfl⟩
  · intro past state request accounted_past disjoint
    have past_disjoint : (regionSpans (regions past)).Pairwise Span.Apart := by
      rw [regionSpans_regions_append, List.pairwise_append] at disjoint
      exact disjoint.1
    have accounted := accounted_past past_disjoint
    obtain ⟨lost, lost_eq, balance⟩ := accounted.balance
    obtain ⟨no_overflow, more_lost, more_eq, moves⟩ :=
      sound_step accounted.sound (accounted.clear disjoint) (step_perform request state)
    refine ⟨moves.sound, ?_, more_lost ++ lost, ?_, ?_⟩
    · rw [List.forall_mem_append, List.forall_mem_singleton]
      exact ⟨accounted.no_overflow, no_overflow⟩
    · rw [List.forall_mem_append, List.forall_mem_singleton]
      rintro ⟨past_unexhausted, unexhausted⟩
      rw [more_eq unexhausted, lost_eq past_unexhausted]
      rfl
    · intro weight
      have past_weight := balance weight
      have step_weight := moves.weight weight
      rw [regionSpans_regions_append, Span.Weight.sum_append]
      simp only [Span.Weight.sum_append, regionSpans, regions, event, List.flatMap_cons,
        List.flatMap_nil, List.append_nil] at past_weight step_weight ⊢
      omega

/-- As long as no generation runs out, what is owned weighs as much as what was added. -/
theorem Accounted.weight_eq {events : List FrameEvent} {state : FrameAllocator}
    (accounted : Accounted events state)
    (unexhausted : ∀ occurred ∈ events, occurred.outcome ≠ .err .generationOverflow)
    (weight : Span.Weight ℕ ℕ) :
    weight.sum state.spans = weight.sum (regionSpans (regions events)) := by
  obtain ⟨lost, lost_eq, balance⟩ := accounted.balance
  rw [← balance weight, lost_eq unexhausted, Span.Weight.sum_nil, Nat.add_zero]

/-- Then exactly the added bytes are owned. -/
theorem Accounted.owned_iff {events : List FrameEvent} {state : FrameAllocator}
    (accounted : Accounted events state)
    (unexhausted : ∀ occurred ∈ events, occurred.outcome ≠ .err .generationOverflow) (byte : ℕ) :
    (∃ span ∈ state.spans, byte ∈ span.cells) ↔
      ∃ span ∈ regionSpans (regions events), byte ∈ span.cells := by
  have uncovered : (∀ span ∈ state.spans, byte ∉ span.cells) ↔
      ∀ span ∈ regionSpans (regions events), byte ∉ span.cells := by
    rw [← Span.owners_sum_eq_zero, ← Span.owners_sum_eq_zero,
      accounted.weight_eq unexhausted (Span.owners byte)]
  simpa using not_congr uncovered

/-- Pages of the live runs. -/
def livePages (self : FrameAllocator) : ℕ :=
  (self.allocated.toList.map fun entry => entry.2.pages.toNat).sum

/-- Pages of a list of blocks. -/
def blockPages (blocks : List (UInt64 × UInt64)) : ℕ :=
  (blocks.map fun entry => entry.2.toNat).sum

theorem extent_blocks (blocks : List (UInt64 × UInt64)) :
    Span.extent.sum (regionSpans blocks) = blockPages blocks * 4096 := by
  induction blocks with
  | nil => rfl
  | cons entry blocks induction =>
      simp only [regionSpans, blockPages, List.map_cons, Span.Weight.sum_cons, List.sum_cons]
        at induction ⊢
      rw [induction, Nat.add_mul]
      simp [Span.extent]

theorem extent_spans (self : FrameAllocator) :
    Span.extent.sum self.spans = (blockPages self.free.toList + self.livePages) * 4096 := by
  have live := extent_blocks
    (self.allocated.toList.map fun entry => (entry.2.base, entry.2.pages))
  rw [spans, Span.Weight.sum_append, freeSpans, ← regionSpans, extent_blocks, Nat.add_mul]
  simp only [regionSpans, blockPages, List.map_map] at live
  rw [liveSpans, livePages]
  exact congrArg _ live

/-- Disjoint blocks below the top of the address space hold less than `2 ^ 64` pages. -/
theorem Sound.blockPages_lt {state : FrameAllocator} (sound : Sound state) :
    blockPages state.free.toList < 2 ^ 64 := by
  have bounded : ∀ span ∈ state.spans, span.upper ≤ 2 ^ 64 := by
    intro span member
    rcases List.mem_append.mp member with free | live
    · obtain ⟨base, pages, found, rfl⟩ := mem_freeSpans.mp free
      exact (sound.spread.placed _ _ found).bounded.le
    · obtain ⟨base, run, found, rfl⟩ := mem_liveSpans.mp live
      exact (sound.live _ _ found).2.bounded.le
  have total := Span.extent_sum_le sound.exclusive bounded
  rw [extent_spans] at total
  omega

/-- Pages are conserved: when the added regions are disjoint and no generation runs out, the free
blocks and the live runs cover each byte of the added regions once and no other byte, the page
counts add up, the free map is in normal form, and no unchecked operation has overflowed. -/
theorem conserves_pages (requests : List Request)
    (disjoint : (regionSpans (regions (history perform new requests))).Pairwise Span.Apart)
    (unexhausted : ∀ occurred ∈ history perform new requests,
      occurred.outcome ≠ .err .generationOverflow) :
    (∀ byte, (∃ span ∈ (final perform new requests).spans, byte ∈ span.cells) ↔
      ∃ span ∈ regionSpans (regions (history perform new requests)), byte ∈ span.cells) ∧
    (final perform new requests).spans.Pairwise Span.Apart ∧
    (∃ free, (final perform new requests).freePages = .ok free ∧
      free.toNat + (final perform new requests).livePages =
        blockPages (regions (history perform new requests))) ∧
    Spread 1 (final perform new requests).free ∧
    ∀ occurred ∈ history perform new requests, occurred.outcome ≠ .overflow := by
  have accounted := accounted_run requests disjoint
  refine ⟨accounted.owned_iff unexhausted, accounted.sound.exclusive, ?_, accounted.sound.spread,
    accounted.no_overflow⟩
  have fits := accounted.sound.blockPages_lt
  obtain ⟨free, summed, free_eq⟩ := foldlM_checkedAdd (·.2)
    (final perform new requests).free.toList 0 (by simpa [blockPages] using fits)
  refine ⟨free, summed, ?_⟩
  have pages := accounted.weight_eq unexhausted Span.extent
  rw [extent_spans, extent_blocks] at pages
  simp only [blockPages] at pages ⊢
  simp at free_eq
  omega

theorem conserves_pages_after_split_and_release :
    (final perform new [.addRegion 0 4, .allocate 2 1, .splitAllocated ⟨0, 2, 0, false⟩ 1,
      .release ⟨4096, 1, 0, false⟩]).spans.Pairwise Span.Apart :=
  (conserves_pages [.addRegion 0 4, .allocate 2 1, .splitAllocated ⟨0, 2, 0, false⟩ 1,
    .release ⟨4096, 1, 0, false⟩] (by decide) (by decide)).2.1

end Bulla.Kernel.FrameAllocator
