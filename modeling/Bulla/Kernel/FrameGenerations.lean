import Bulla.Kernel.FrameRuns

/-!
# Generations of frame runs

A handle is retired when `release`, `lend` or `reclaim` accepts it.  The allocator records per base
address the generation the next run there starts from, and a live run is never behind the record of
its base.  Splitting breaks this: the right half keeps the generation of the run it is cut from,
which may be behind what is recorded at its own base.  As long as no split does so, a retired handle
is never accepted again.
-/

namespace Bulla.Kernel.FrameAllocator

open Rust Outcome

/-- What `validate` compares of a handle. -/
structure Handle where
  base : UInt64
  pages : UInt64
  generation : UInt64
  deriving DecidableEq, Repr

def handle (run : FrameRun) : Handle := ⟨run.base, run.pages, run.generation⟩

/-- The handles a successful call has accepted. -/
def accepted : Request → Outcome FrameError Reply → List Handle
  | .markZeroed run, .ok _ => [handle run]
  | .lend run _, .ok _ => [handle run]
  | .reclaim run _, .ok _ => [handle run]
  | .splitAllocated run _, .ok _ => [handle run]
  | .joinAllocated left right, .ok _ => [handle left, handle right]
  | .release run, .ok _ => [handle run]
  | _, _ => []

/-- The handles a successful call has retired. -/
def retired : Request → Outcome FrameError Reply → List Handle
  | .lend run _, .ok _ => [handle run]
  | .reclaim run _, .ok _ => [handle run]
  | .release run, .ok _ => [handle run]
  | _, _ => []

/-- The generation recorded at a base. -/
def recorded (self : FrameAllocator) (base : UInt64) : ℕ :=
  ((self.generations[base]?).getD 0).toNat

/-- A split whose right half would not fall behind the generation recorded at its base. -/
def SplitFresh (before : FrameAllocator) : Request → Prop
  | .splitAllocated run leftPages =>
      ∀ live, before.validate run = .ok live → run.base ∉ before.loans →
        leftPages ≠ 0 → leftPages < live.pages →
        before.recorded (run.base + leftPages * pageSize) ≤ live.generation.toNat
  | _ => True

instance (before : FrameAllocator) : (request : Request) → Decidable (SplitFresh before request)
  | .splitAllocated _ _ => inferInstanceAs (Decidable (∀ _, _ → _))
  | .addRegion _ _ | .allocate _ _ | .markZeroed _ | .lend _ _ | .reclaim _ _
  | .joinAllocated _ _ | .release _ => instDecidableTrue

/-- Live runs are kept under their base and are not behind its record. -/
def Current (self : FrameAllocator) : Prop :=
  ∀ (base : UInt64) (run : FrameRun), self.allocated[base]? = some run →
    run.base = base ∧ self.recorded base ≤ run.generation.toNat

/-- One step keeps live runs current, never lowers a record, and records past what it retires. -/
structure Renews (before after : FrameAllocator) (retiring : List Handle) : Prop where
  current : Current after
  recorded_le : ∀ base, before.recorded base ≤ after.recorded base
  retired_lt : ∀ old ∈ retiring, old.generation.toNat < after.recorded old.base

theorem recorded_insert {self after : FrameAllocator} {base generation : UInt64}
    (generations_eq : after.generations = self.generations.insert base generation)
    (other : UInt64) :
    after.recorded other = if base = other then generation.toNat else self.recorded other := by
  rw [recorded, generations_eq, Std.ExtTreeMap.getElem?_insert]
  by_cases same : base = other <;> simp [same, recorded]

/-- `or_insert` leaves an existing record alone. -/
theorem recorded_insertIfNew {self after : FrameAllocator} {base generation : UInt64}
    (generations_eq : after.generations = self.generations.insertIfNew base generation)
    (other : UInt64) :
    after.recorded other = if base = other ∧ base ∉ self.generations then generation.toNat
      else self.recorded other := by
  rw [recorded, generations_eq, Std.ExtTreeMap.getElem?_insertIfNew]
  by_cases same : base = other
  · subst same
    by_cases known : base ∈ self.generations <;> simp [known, recorded]
  · simp [same, recorded]

/-- Merging free blocks leaves runs, records and loans alone. -/
theorem finish_keeps {state after : FrameAllocator} {outcome : Outcome FrameError Reply}
    (merged : (do coalesce; return .done : Call FrameAllocator FrameError Reply) state =
      (outcome, after)) :
    after.allocated = state.allocated ∧ after.generations = state.generations ∧
      after.loans = state.loans := by
  have kept := Call.keeps_bind (Call.keeps_infallible (ε := FrameError) coalesce_keeps)
    (fun _ => Call.keeps_pure Reply.done) state
  change ownership ((do coalesce; return .done : Call FrameAllocator FrameError Reply) state).2 =
    ownership state at kept
  rw [merged] at kept
  simpa [ownership] using kept

/-- A step that brings no new run and changes no record. -/
theorem renews_same {before after : FrameAllocator} (current : Current before)
    (kept : ∀ (base : UInt64) (run : FrameRun), after.allocated[base]? = some run →
      before.allocated[base]? = some run)
    (generations_eq : after.generations = before.generations) : Renews before after [] := by
  refine ⟨?_, ?_, by simp⟩
  · intro base run found
    rw [recorded, generations_eq]
    exact current base run (kept base run found)
  · intro base
    rw [recorded, recorded, generations_eq]

/-- Replacing a live run by one that is as new, without touching the records. -/
theorem renews_replace {before after : FrameAllocator} {base : UInt64} {run : FrameRun}
    {allocated : BTreeMap UInt64 FrameRun} (current : Current before)
    (kept : ∀ (key : UInt64) (live : FrameRun), allocated[key]? = some live →
      before.allocated[key]? = some live)
    (allocated_eq : after.allocated = allocated.insert base run)
    (generations_eq : after.generations = before.generations)
    (run_base : run.base = base) (newer : before.recorded base ≤ run.generation.toNat) :
    Renews before after [] := by
  refine ⟨?_, ?_, by simp⟩
  · intro key live found
    rw [allocated_eq] at found
    rw [recorded, generations_eq]
    rcases BTreeMap.getElem?_insert_eq_some.mp found with ⟨rfl, rfl⟩ | ⟨_, old⟩
    · exact ⟨run_base, newer⟩
    · exact current _ _ (kept _ _ old)
  · intro key
    rw [recorded, recorded, generations_eq]

/-- Retiring a handle: its base is recorded past it, and a run left there is as new. -/
theorem renews_retire {before after : FrameAllocator} {run live : FrameRun} {generation : UInt64}
    (current : Current before) (valid : before.validate run = .ok live)
    (advanced : generation.toNat = live.generation.toNat + 1)
    (generations_eq : after.generations = before.generations.insert run.base generation)
    (allocated_eq : ∀ (key : UInt64) (next : FrameRun), after.allocated[key]? = some next →
      (run.base = key ∧ { live with generation } = next) ∨
        (run.base ≠ key ∧ before.allocated[key]? = some next)) :
    Renews before after [handle run] := by
  obtain ⟨present, same_generation, -⟩ := validate_eq_ok.mp valid
  obtain ⟨live_base, recorded_le⟩ := current _ _ present
  refine ⟨?_, ?_, ?_⟩
  · intro key next found
    rw [recorded_insert generations_eq]
    rcases allocated_eq key next found with ⟨rfl, rfl⟩ | ⟨distinct, old⟩
    · exact ⟨live_base, by simp⟩
    · rw [if_neg distinct]
      exact current _ _ old
  · intro key
    rw [recorded_insert generations_eq]
    split_ifs with same
    · subst same
      omega
    · rfl
  · intro old member
    obtain rfl := List.mem_singleton.mp member
    rw [recorded_insert generations_eq]
    simp only [handle, if_true, ← same_generation]
    omega

/-- Splitting a run, when its right half is not behind the record of its base. -/
theorem renews_split {before after : FrameAllocator} {run live left right : FrameRun}
    {leftPages : UInt64} (current : Current before) (valid : before.validate run = .ok live)
    (halves : split live leftPages = .ok (left, right))
    (fresh : leftPages ≠ 0 → leftPages < live.pages →
      before.recorded (run.base + leftPages * pageSize) ≤ live.generation.toNat)
    (allocated_eq : after.allocated =
      ((before.allocated.erase run.base).insert left.base left).insert right.base right)
    (generations_eq : after.generations =
      before.generations.insertIfNew right.base right.generation) : Renews before after [] := by
  obtain ⟨present, -, -⟩ := validate_eq_ok.mp valid
  obtain ⟨live_base, recorded_le⟩ := current _ _ present
  obtain ⟨left_pos, right_pos, left_eq, right_eq, right_base, pages_eq⟩ := split_eq_ok halves
  have left_base : left.base = run.base := by rw [left_eq, live_base]
  have left_generation : left.generation = live.generation := by rw [left_eq]
  have right_generation : right.generation = live.generation := by rw [right_eq]
  have base_eq : right.base = run.base + leftPages * pageSize := by
    apply UInt64.toNat_inj.mp
    have right_lt := right.base.toNat_lt
    rw [UInt64.toNat_add, UInt64.toNat_mul, toNat_pageSize, ← live_base]
    omega
  have right_fresh : before.recorded right.base ≤ live.generation.toNat := by
    rw [base_eq]
    refine fresh ?_ (UInt64.lt_iff_toNat_lt.mpr (by omega))
    rintro rfl
    simp at left_pos
  have recorded_eq := recorded_insertIfNew generations_eq
  refine ⟨?_, ?_, by simp⟩
  · intro key next found
    rw [allocated_eq] at found
    rw [recorded_eq]
    rcases BTreeMap.getElem?_insert_eq_some.mp found with ⟨rfl, rfl⟩ | ⟨other, found⟩
    · refine ⟨rfl, ?_⟩
      rw [right_generation]
      split_ifs
      · exact le_rfl
      · exact right_fresh
    · rw [if_neg fun same => other same.1]
      rcases BTreeMap.getElem?_insert_eq_some.mp found with ⟨rfl, rfl⟩ | ⟨_, old⟩
      · exact ⟨rfl, by rwa [left_base, left_generation]⟩
      · exact current _ _ (BTreeMap.getElem?_erase_eq_some.mp old).2
  · intro key
    rw [recorded_eq]
    split_ifs with fresh_key
    · obtain ⟨rfl, unknown⟩ := fresh_key
      simp [recorded, Std.ExtTreeMap.getElem?_eq_none unknown]
    · exact le_rfl

/-- Every call keeps the live runs current, unless it splits a run that is behind. -/
theorem renews_step {before after : FrameAllocator} {request : Request}
    {outcome : Outcome FrameError Reply} (current : Current before)
    (fresh : SplitFresh before request) (step : Step before request outcome after) :
    Renews before after (retired request outcome) := by
  cases step with
  | rejected request reason =>
      cases request <;> exact renews_same current (fun _ _ found => found) rfl
  | added valid stop_eq free_clear merged =>
      obtain ⟨allocated_eq, generations_eq, -⟩ := finish_keeps merged
      exact renews_same current (fun _ _ found => allocated_eq ▸ found) generations_eq
  | allocated positive power mask_eq chosen suffix_eq start_eq run_eq =>
      exact renews_replace current (fun _ _ found => found) rfl rfl (by rw [run_eq])
        (by rw [run_eq]; exact le_rfl)
  | allocateOverflow power mask_eq chosen cause free =>
      exact renews_same current (fun _ _ found => found) rfl
  | zeroed valid =>
      obtain ⟨present, -, -⟩ := validate_eq_ok.mp valid
      obtain ⟨live_base, recorded_le⟩ := current _ _ present
      exact renews_replace current (fun _ _ found => found) rfl rfl live_base recorded_le
  | lent valid unlent advanced =>
      exact renews_retire current valid advanced rfl fun _ _ => BTreeMap.getElem?_insert_eq_some.mp
  | reclaimed valid borrowed advanced =>
      exact renews_retire current valid advanced rfl fun _ _ => BTreeMap.getElem?_insert_eq_some.mp
  | divided valid unlent halves =>
      exact renews_split current valid halves
        (fun nonzero less => fresh _ valid unlent nonzero less) rfl rfl
  | splitOverflow valid cause => exact renews_same current (fun _ _ found => found) rfl
  | joined left_valid right_valid left_unlent right_unlent union =>
      obtain ⟨present, -, -⟩ := validate_eq_ok.mp left_valid
      obtain ⟨live_base, recorded_le⟩ := current _ _ present
      obtain ⟨-, whole_eq, -, -⟩ := join_eq_ok union
      refine renews_replace current ?_ rfl rfl rfl ?_
      · intro key live found
        exact (BTreeMap.getElem?_erase_eq_some.mp (BTreeMap.getElem?_erase_eq_some.mp found).2).2
      · rw [whole_eq, live_base]
        exact recorded_le
  | joinOverflow left_valid right_valid cause =>
      exact renews_same current (fun _ _ found => found) rfl
  | @released run live next outcome after valid unlent advanced merged =>
      obtain ⟨-, same_generation, -⟩ := validate_eq_ok.mp valid
      obtain ⟨allocated_eq, generations_eq, -⟩ := finish_keeps merged
      have renews : Renews before after [handle run] := by
        refine renews_retire current valid (same_generation ▸ advanced) generations_eq ?_
        intro key next found
        rw [allocated_eq] at found
        exact .inr (BTreeMap.getElem?_erase_eq_some.mp found)
      cases outcome with
      | ok reply => exact renews
      | err reason => exact ⟨renews.current, renews.recorded_le, by simp [retired]⟩
      | overflow => exact ⟨renews.current, renews.recorded_le, by simp [retired]⟩
  | forgotten valid unlent exhausted =>
      refine renews_same current ?_ rfl
      intro base run found
      exact (BTreeMap.getElem?_erase_eq_some.mp found).2

/-- A handle is accepted only at the generation of the live run at its base. -/
theorem live_of_accepted {before after : FrameAllocator} {request : Request}
    {outcome : Outcome FrameError Reply} {old : Handle} (step : Step before request outcome after)
    (member : old ∈ accepted request outcome) :
    ∃ live, before.allocated[old.base]? = some live ∧ live.generation = old.generation := by
  have of_valid {run live : FrameRun} (valid : before.validate run = .ok live)
      (same : old = handle run) :
      ∃ live, before.allocated[old.base]? = some live ∧ live.generation = old.generation := by
    obtain ⟨present, same_generation, -⟩ := validate_eq_ok.mp valid
    exact ⟨live, same ▸ present, same ▸ same_generation⟩
  cases step with
  | rejected request reason => cases request <;> simp [accepted] at member
  | added valid stop_eq free_clear merged => simp [accepted] at member
  | allocated positive power mask_eq chosen suffix_eq start_eq run_eq =>
      simp [accepted] at member
  | allocateOverflow power mask_eq chosen cause free => simp [accepted] at member
  | zeroed valid => exact of_valid valid (List.mem_singleton.mp member)
  | lent valid unlent advanced => exact of_valid valid (List.mem_singleton.mp member)
  | reclaimed valid borrowed advanced => exact of_valid valid (List.mem_singleton.mp member)
  | divided valid unlent halves => exact of_valid valid (List.mem_singleton.mp member)
  | splitOverflow valid cause => simp [accepted] at member
  | joined left_valid right_valid left_unlent right_unlent union =>
      rcases List.mem_cons.mp member with left | right
      · exact of_valid left_valid left
      · exact of_valid right_valid (List.mem_singleton.mp right)
  | joinOverflow left_valid right_valid cause => simp [accepted] at member
  | released valid unlent advanced merged =>
      cases outcome with
      | ok reply => exact of_valid valid (List.mem_singleton.mp member)
      | err reason => simp [accepted] at member
      | overflow => simp [accepted] at member
  | forgotten valid unlent exhausted => simp [accepted] at member

/-- When no split brings a run that is behind the record of its base, a handle that `release`,
`lend` or `reclaim` has accepted is never accepted again. -/
theorem retired_never_accepted (requests : List Request)
    (fresh : ∀ occurred ∈ history perform new requests,
      SplitFresh occurred.before occurred.input) :
    (history perform new requests).Pairwise fun earlier later =>
      ∀ old ∈ retired earlier.input earlier.outcome,
        old ∉ accepted later.input later.outcome := by
  refine (run_induction perform (motive := fun past state =>
    (∀ occurred ∈ past, SplitFresh occurred.before occurred.input) →
      Current state ∧
      (∀ earlier ∈ past, ∀ old ∈ retired earlier.input earlier.outcome,
        old.generation.toNat < state.recorded old.base) ∧
      past.Pairwise fun earlier later => ∀ old ∈ retired earlier.input earlier.outcome,
        old ∉ accepted later.input later.outcome) ?_ ?_ requests fresh).2.2
  · intro _
    refine ⟨?_, by simp, List.Pairwise.nil⟩
    intro base run found
    simp [new] at found
  · intro past state request known fresh
    rw [List.forall_mem_append, List.forall_mem_singleton] at fresh
    obtain ⟨current, retired_lt, distinct⟩ := known fresh.1
    have step := step_perform request state
    have renews := renews_step current fresh.2 step
    refine ⟨renews.current, ?_, ?_⟩
    · rw [List.forall_mem_append, List.forall_mem_singleton]
      refine ⟨?_, renews.retired_lt⟩
      intro earlier member old old_retired
      exact (retired_lt earlier member old old_retired).trans_le (renews.recorded_le _)
    · refine List.pairwise_append.mpr ⟨distinct, List.pairwise_singleton _ _, ?_⟩
      intro earlier member later later_eq old old_retired accepted_again
      obtain rfl := List.mem_singleton.mp later_eq
      obtain ⟨live, present, same_generation⟩ := live_of_accepted step accepted_again
      have behind := retired_lt earlier member old old_retired
      have recorded_le := (current _ _ present).2
      rw [same_generation] at recorded_le
      omega

theorem retired_never_accepted_after_split :
    (history perform new [.addRegion 0 2, .allocate 2 1, .lend ⟨0, 2, 0, false⟩ 7,
      .reclaim ⟨0, 2, 1, false⟩ 7, .splitAllocated ⟨0, 2, 2, false⟩ 1,
      .release ⟨4096, 1, 2, false⟩]).Pairwise fun earlier later =>
      ∀ old ∈ retired earlier.input earlier.outcome,
        old ∉ accepted later.input later.outcome :=
  retired_never_accepted [.addRegion 0 2, .allocate 2 1, .lend ⟨0, 2, 0, false⟩ 7,
    .reclaim ⟨0, 2, 1, false⟩ 7, .splitAllocated ⟨0, 2, 2, false⟩ 1,
    .release ⟨4096, 1, 2, false⟩] (by decide)

/-- Disjoint regions do not help: a page released alone comes back, under its old handle, as the
right half of a larger run. -/
theorem split_revives_retired_handle :
    ∃ requests, (regionSpans (regions (history perform new requests))).Pairwise Span.Apart ∧
      ¬(history perform new requests).Pairwise fun earlier later =>
        ∀ old ∈ retired earlier.input earlier.outcome,
          old ∉ accepted later.input later.outcome := by
  refine ⟨[.addRegion 4096 1, .allocate 1 1, .release ⟨4096, 1, 0, false⟩, .addRegion 0 1,
    .allocate 2 1, .splitAllocated ⟨0, 2, 0, false⟩ 1, .markZeroed ⟨4096, 1, 0, false⟩], ?_⟩
  decide

end Bulla.Kernel.FrameAllocator
