import Bulla.Kernel.FrameGenerations
import Bulla.Kernel.FrameRuns

/-!
# Loans

The loan table is keyed by base addresses.  A lent run keeps its base, its pages and its generation
until it is reclaimed: no call that names it gets past the table, and no call about other memory can
put another run at its base, because its pages are in one hand.
-/

namespace Bulla.Kernel.FrameAllocator

open Rust Outcome

/-- A run is live and lent. -/
def OnLoan (lent : FrameRun) (borrower : UInt32) (self : FrameAllocator) : Prop :=
  self.loans[lent.base]? = some borrower ∧
    ∃ live, self.allocated[lent.base]? = some live ∧ live.base = lent.base ∧
      live.pages = lent.pages ∧ live.generation = lent.generation

/-- A successful `reclaim` at a base. -/
def reclaims (base : UInt64) (occurred : FrameEvent) : Bool :=
  match occurred.input, occurred.outcome with
  | .reclaim run _, .ok _ => run.base == base
  | _, _ => false

/-- The calls that take a run away from its owner or change its extent. -/
def names (base : UInt64) : Request → Prop
  | .release run => run.base = base
  | .lend run _ => run.base = base
  | .splitAllocated run _ => run.base = base
  | .joinAllocated left right => left.base = base ∨ right.base = base
  | _ => False

section Step

variable {before after : FrameAllocator} {lent : FrameRun} {borrower : UInt32}

theorem OnLoan.base_ne (onLoan : OnLoan lent borrower before) {base : UInt64}
    (unlent : base ∉ before.loans) : base ≠ lent.base := by
  rintro rfl
  rw [← getElem?_eq_none_iff, onLoan.1] at unlent
  cases unlent

theorem OnLoan.of_eq (onLoan : OnLoan lent borrower before)
    (allocated_eq : after.allocated[lent.base]? = before.allocated[lent.base]?)
    (loans_eq : after.loans[lent.base]? = before.loans[lent.base]?) :
    OnLoan lent borrower after := by
  rw [OnLoan, allocated_eq, loans_eq]
  exact onLoan

/-- No run is placed at the base of a lent one. -/
theorem OnLoan.allocated_ne (onLoan : OnLoan lent borrower before) (sound : Sound before)
    {pages alignmentPages mask : UInt64} {choice : Choice} (positive : pages ≠ 0)
    (power : isPowerOfTwo alignmentPages = true)
    (mask_eq : mask.toNat + 1 = alignmentPages.toNat * 4096)
    (chosen : before.free.toList.findSome? (fit pages mask) = some choice) :
    choice.aligned ≠ lent.base := by
  obtain ⟨present, aligned_eq, fits⟩ := chosen_spec sound.spread power mask_eq chosen
  obtain ⟨_, live, live_eq, _⟩ := onLoan
  have pages_pos := toNat_pos positive
  have vacant := sound.vacant present (show choice.base.toNat ≤ choice.aligned.toNat by omega)
    (by omega)
  intro same
  rw [same, live_eq] at vacant
  cases vacant

/-- The right half of another run does not start at the base of a lent one. -/
theorem OnLoan.right_ne (onLoan : OnLoan lent borrower before) (sound : Sound before)
    {base leftPages : UInt64} {run left right : FrameRun}
    (present : before.allocated[base]? = some run) (distinct : base ≠ lent.base)
    (halves : split run leftPages = .ok (left, right)) : right.base ≠ lent.base := by
  obtain ⟨_, live, live_eq, live_base, _⟩ := onLoan
  obtain ⟨left_pos, right_pos, _, _, right_base, pages_eq⟩ := split_eq_ok halves
  have run_pos := (sound.live _ _ present).2.positive
  have live_pos := (sound.live _ _ live_eq).2.positive
  have spaced := (apart_iff_spaced run_pos live_pos).mp
    (sound.live_apart_live present live_eq distinct)
  simp only [Span.Spaced, block_upper, block_lower, live_base] at spaced
  intro same
  rw [same] at right_base
  omega

theorem OnLoan.zeroed (onLoan : OnLoan lent borrower before) {base : UInt64} {live : FrameRun}
    (present : before.allocated[base]? = some live) :
    OnLoan lent borrower { before with
      allocated := before.allocated.insert base { live with zeroed := true } } := by
  by_cases same : base = lent.base
  · obtain ⟨loan, found, found_eq, fields⟩ := onLoan
    rw [same, found_eq] at present
    obtain rfl := Option.some.inj present
    refine ⟨loan, { found with zeroed := true }, ?_, fields⟩
    simp [same]
  · exact onLoan.of_eq (BTreeMap.getElem?_insert_of_ne _ _ same) rfl

/-- The halves of another run are not the lent one. -/
theorem OnLoan.divided (onLoan : OnLoan lent borrower before) (sound : Sound before)
    {base leftPages : UInt64} {live left right : FrameRun}
    (present : before.allocated[base]? = some live) (unlent : base ∉ before.loans)
    (halves : split live leftPages = .ok (left, right)) :
    (((before.allocated.erase base).insert left.base left).insert right.base
      right)[lent.base]? = before.allocated[lent.base]? := by
  have distinct := onLoan.base_ne unlent
  have left_distinct : left.base ≠ lent.base := by
    rw [(split_eq_ok halves).2.2.1, (sound.live _ _ present).1]
    exact distinct
  simp only [BTreeMap.getElem?_insert_of_ne _ _ (onLoan.right_ne sound present distinct halves),
    BTreeMap.getElem?_insert_of_ne _ _ left_distinct, BTreeMap.getElem?_erase_of_ne _ distinct]

/-- A loan ends in no way but a successful `reclaim`. -/
theorem OnLoan.step (onLoan : OnLoan lent borrower before) (sound : Sound before)
    {request : Request} {outcome : Outcome FrameError Reply}
    (step : Step before request outcome after)
    (unreclaimed : ∀ run other reply, request = .reclaim run other → run.base = lent.base →
      outcome ≠ .ok reply) : OnLoan lent borrower after := by
  cases step with
  | rejected => exact onLoan
  | added valid stop_eq clear merged =>
      obtain ⟨allocated_eq, _, loans_eq⟩ := finish_keeps merged
      exact onLoan.of_eq (by rw [allocated_eq]) (by rw [loans_eq])
  | allocated positive power mask_eq chosen suffix_eq start_eq run_eq =>
      have distinct := onLoan.allocated_ne sound positive power mask_eq chosen
      exact onLoan.of_eq (BTreeMap.getElem?_insert_of_ne _ _ distinct) rfl
  | allocateOverflow => exact onLoan.of_eq rfl rfl
  | zeroed valid => exact onLoan.zeroed (validate_eq_ok.mp valid).1
  | lent valid unlent advanced =>
      have distinct := onLoan.base_ne unlent
      exact onLoan.of_eq (BTreeMap.getElem?_insert_of_ne _ _ distinct)
        (BTreeMap.getElem?_insert_of_ne _ _ distinct)
  | @reclaimed run live other generation valid borrowed advanced =>
      have distinct : run.base ≠ lent.base := fun same => unreclaimed run other _ rfl same rfl
      exact onLoan.of_eq (BTreeMap.getElem?_insert_of_ne _ _ distinct)
        (BTreeMap.getElem?_erase_of_ne _ distinct)
  | divided valid unlent halves =>
      exact onLoan.of_eq (onLoan.divided sound (validate_eq_ok.mp valid).1 unlent halves) rfl
  | splitOverflow => exact onLoan
  | @joined left right leftLive rightLive whole left_valid right_valid left_unlent right_unlent
      union =>
      obtain ⟨present, _, _⟩ := validate_eq_ok.mp left_valid
      have left_distinct := onLoan.base_ne left_unlent
      have right_distinct := onLoan.base_ne right_unlent
      have whole_distinct : whole.base ≠ lent.base := by
        rw [(join_eq_ok union).2.1, (sound.live _ _ present).1]
        exact left_distinct
      refine onLoan.of_eq ?_ rfl
      simp only [BTreeMap.getElem?_insert_of_ne _ _ whole_distinct,
        BTreeMap.getElem?_erase_of_ne _ right_distinct,
        BTreeMap.getElem?_erase_of_ne _ left_distinct]
  | joinOverflow => exact onLoan
  | released valid unlent advanced merged =>
      obtain ⟨allocated_eq, _, loans_eq⟩ := finish_keeps merged
      refine onLoan.of_eq ?_ (by rw [loans_eq])
      rw [allocated_eq]
      exact BTreeMap.getElem?_erase_of_ne _ (onLoan.base_ne unlent)
  | forgotten valid unlent exhausted =>
      exact onLoan.of_eq (BTreeMap.getElem?_erase_of_ne _ (onLoan.base_ne unlent)) rfl

/-- A successful `lend` puts the exact run on loan. -/
theorem onLoan_of_lend (sound : Sound before) {run : FrameRun}
    (step : Step before (.lend run borrower) (.ok (.run lent)) after) :
    lent.base = run.base ∧ lent.pages = run.pages ∧
      lent.generation.toNat = run.generation.toNat + 1 ∧ OnLoan lent borrower after := by
  cases step with
  | @lent _ live _ generation valid unlent advanced =>
      obtain ⟨present, generation_eq, pages_eq⟩ := validate_eq_ok.mp valid
      have base_eq := (sound.live _ _ present).1
      refine ⟨base_eq, pages_eq, by rw [← generation_eq]; exact advanced, ?_⟩
      exact ⟨by simp [base_eq], { live with generation }, by simp [base_eq], rfl, rfl, rfl⟩

/-- No call that names a lent run succeeds. -/
theorem OnLoan.refused (onLoan : OnLoan lent borrower before) {request : Request} {reply : Reply}
    (named : names lent.base request) : ¬Step before request (.ok reply) after := by
  intro step
  cases step with
  | added => exact named
  | allocated => exact named
  | zeroed => exact named
  | lent valid unlent => exact onLoan.base_ne unlent named
  | reclaimed => exact named
  | divided valid unlent => exact onLoan.base_ne unlent named
  | joined left_valid right_valid left_unlent right_unlent =>
      rcases named with left_named | right_named
      · exact onLoan.base_ne left_unlent left_named
      · exact onLoan.base_ne right_unlent right_named
  | released valid unlent => exact onLoan.base_ne unlent named

/-- A loan is reclaimed from its borrower, at the lent generation. -/
theorem OnLoan.reclaimed (onLoan : OnLoan lent borrower before) {run : FrameRun} {other : UInt32}
    {reply : Reply} (named : run.base = lent.base)
    (step : Step before (.reclaim run other) (.ok reply) after) :
    other = borrower ∧ run.generation = lent.generation := by
  obtain ⟨loan, live, live_eq, _, _, generation_eq⟩ := onLoan
  cases step with
  | reclaimed valid borrowed advanced =>
      obtain ⟨present, found_eq, _⟩ := validate_eq_ok.mp valid
      rw [named] at present borrowed
      obtain rfl := Option.some.inj (present.symm.trans live_eq)
      exact ⟨Option.some.inj (borrowed.symm.trans loan), found_eq.symm.trans generation_eq⟩

end Step

/-- What a loan guarantees while it lasts. -/
structure Loaned (lent : FrameRun) (borrower : UInt32) (state : FrameAllocator) : Prop where
  recorded : ∃ live, state.allocated[lent.base]? = some live ∧ live.base = lent.base ∧
    live.pages = lent.pages ∧ live.generation = lent.generation
  free_apart : ∀ (base pages : UInt64), state.free[base]? = some pages →
    (block lent.base lent.pages).Apart (block base pages)
  live_apart : ∀ (base : UInt64) (other : FrameRun), state.allocated[base]? = some other →
    base ≠ lent.base → (block lent.base lent.pages).Apart (block other.base other.pages)
  refused : ∀ request reply, names lent.base request → (perform request state).1 ≠ .ok reply
  reclaimed : ∀ run other reply, run.base = lent.base →
    (perform (.reclaim run other) state).1 = .ok reply →
      other = borrower ∧ run.generation = lent.generation

theorem OnLoan.loaned {state : FrameAllocator} {lent : FrameRun} {borrower : UInt32}
    (onLoan : OnLoan lent borrower state) (sound : Sound state) : Loaned lent borrower state := by
  obtain ⟨live, live_eq, base_eq, pages_eq, _⟩ := onLoan.2
  have step {request : Request} {reply : Reply} (returned : (perform request state).1 = .ok reply) :
      Step state request (.ok reply) (perform request state).2 :=
    returned ▸ step_perform request state
  refine ⟨onLoan.2, ?_, ?_, fun _ _ named returned => onLoan.refused named (step returned),
    fun _ _ _ named returned => onLoan.reclaimed named (step returned)⟩
  · intro base pages found
    rw [← base_eq, ← pages_eq]
    exact (sound.free_apart_live found live_eq).symm
  · intro base other found distinct
    rw [← base_eq, ← pages_eq]
    exact sound.live_apart_live live_eq found (Ne.symm distinct)

/-- The regions of an initial part of a run are among those of the run. -/
theorem disjoint_of_append {earlier later : List Request}
    (disjoint : (regionSpans
      (regions (history perform new (earlier ++ later)))).Pairwise Span.Apart) :
    (regionSpans (regions (history perform new earlier))).Pairwise Span.Apart := by
  rw [history_append, regionSpans_regions_append, List.pairwise_append] at disjoint
  exact disjoint.1

/-- From a successful `lend` until the next successful `reclaim` at its base a run is in the hands
of its borrower alone. -/
theorem loan_exclusive (earlier between : List Request) (run lent : FrameRun) (borrower : UInt32)
    (disjoint : (regionSpans (regions
      (history perform new (earlier ++ .lend run borrower :: between)))).Pairwise Span.Apart)
    (lends : (perform (.lend run borrower) (final perform new earlier)).1 = .ok (.run lent))
    (unreclaimed : ∀ occurred ∈ history perform
      (final perform new (earlier ++ [.lend run borrower])) between,
        reclaims run.base occurred = false) :
    lent.base = run.base ∧ lent.pages = run.pages ∧
      Loaned lent borrower (final perform new (earlier ++ .lend run borrower :: between)) := by
  have sound (requests rest : List Request)
      (split : earlier ++ .lend run borrower :: between = requests ++ rest) :
      Sound (final perform new requests) := by
    rw [split] at disjoint
    exact (accounted_run requests (disjoint_of_append disjoint)).sound
  have step := step_perform (.lend run borrower) (final perform new earlier)
  rw [lends] at step
  obtain ⟨base_eq, pages_eq, _, onLoan⟩ := onLoan_of_lend (sound earlier _ rfl) step
  refine ⟨base_eq, pages_eq, OnLoan.loaned ?_ (sound _ [] (by simp))⟩
  rw [List.append_cons, final_append]
  refine final_of_events perform (motive := OnLoan lent borrower) ?_ ?_
  · rw [final_append]
    exact onLoan
  · intro occurred member onLoan
    have kept := unreclaimed occurred member
    obtain ⟨first, rest, rfl, occurred_eq⟩ := exists_split_of_mem_history perform member
    have occurred_sound : Sound occurred.before := by
      rw [occurred_eq]
      exact final_append perform new _ first ▸ sound _ (occurred.input :: rest) (by simp)
    refine onLoan.step occurred_sound (step_of_mem_history perform step_perform member) ?_
    intro handle other reply input_eq named returned
    simp [reclaims, input_eq, returned, named, base_eq] at kept

/-- The second half of a split run stays on loan while the first is released and allocated again. -/
theorem loan_exclusive_beside_release :
    Loaned ⟨4096, 1, 1, false⟩ 9 (final perform new [.addRegion 0 4, .allocate 2 1,
      .splitAllocated ⟨0, 2, 0, false⟩ 1, .lend ⟨4096, 1, 0, false⟩ 9, .release ⟨0, 1, 0, false⟩,
      .reclaim ⟨4096, 1, 1, false⟩ 8, .allocate 1 1]) :=
  (loan_exclusive [.addRegion 0 4, .allocate 2 1, .splitAllocated ⟨0, 2, 0, false⟩ 1]
    [.release ⟨0, 1, 0, false⟩, .reclaim ⟨4096, 1, 1, false⟩ 8, .allocate 1 1]
    ⟨4096, 1, 0, false⟩ ⟨4096, 1, 1, false⟩ 9 (by decide) (by decide) (by decide)).2.2

end Bulla.Kernel.FrameAllocator
