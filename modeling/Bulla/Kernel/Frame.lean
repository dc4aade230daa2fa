import Bulla.Rust.BTreeMap
import Bulla.Rust.History
import Bulla.Rust.Word

/-!
# The frame allocator

Free memory is a map from block bases to page counts, allocated memory a map from run bases to runs.
Allocation takes the first block that fits after rounding its base up to the alignment; returning
memory merges neighbouring blocks.  Every base address remembers the generation of the last run that
started there, and a run is accepted only at its live generation.
-/

namespace Bulla.Kernel

open Rust Outcome

/-- A handle on contiguous allocated pages. -/
structure FrameRun where
  base : UInt64
  pages : UInt64
  generation : UInt64
  zeroed : Bool
  deriving DecidableEq, Repr

inductive FrameError where
  | empty
  | misaligned
  | rangeOverflow
  | overlap
  | outOfMemory
  | unknownRun
  | staleGeneration
  | nonAdjacent
  | generationOverflow
  | alreadyLent
  | notLent
  | foreignBorrower
  deriving DecidableEq, Repr

structure FrameAllocator where
  /-- Page count of each free block, by its base. -/
  free : BTreeMap UInt64 UInt64
  /-- Live runs, by their base. -/
  allocated : BTreeMap UInt64 FrameRun
  /-- Generation the next run at a base starts from. -/
  generations : BTreeMap UInt64 UInt64
  /-- Borrower of each lent run, by its base. -/
  loans : BTreeMap UInt64 UInt32

namespace FrameAllocator

def pageSize : UInt64 := 4096

@[simp] theorem toNat_pageSize : pageSize.toNat = 4096 := rfl

def new : FrameAllocator := ⟨∅, ∅, ∅, ∅⟩

def validateRun (base pages : UInt64) : Outcome FrameError Unit := do
  rejectIf (pages = 0) FrameError.empty
  rejectIf (base % pageSize ≠ 0) FrameError.misaligned
  let bytes ← okOr (checkedMul pages pageSize) FrameError.rangeOverflow
  let _ ← okOr (checkedAdd base bytes) FrameError.rangeOverflow
  return ()

/-- The live run a handle stands for. -/
def validate (self : FrameAllocator) (run : FrameRun) : Outcome FrameError FrameRun := do
  let live ← okOr self.allocated[run.base]? FrameError.unknownRun
  rejectIf (live.generation ≠ run.generation) FrameError.staleGeneration
  rejectIf (live.pages ≠ run.pages) FrameError.unknownRun
  return live

/-- One round of the `coalesce` loop: extend the last block, or start a new one. -/
def coalesceEntry (base pages : UInt64) : Call FrameAllocator Empty Unit := do
  match (← get).free.toList.getLast? with
  | some (previousBase, previousPages) =>
      let bytes ← Call.unchecked (checkedMul previousPages pageSize)
      let previousEnd ← Call.unchecked (checkedAdd previousBase bytes)
      if previousEnd = base then
        let merged ← Call.unchecked (checkedAdd previousPages pages)
        modify fun self => { self with free := self.free.insert previousBase merged }
      else
        modify fun self => { self with free := self.free.insert base pages }
  | none => modify fun self => { self with free := self.free.insert base pages }

def coalesceEntries : List (UInt64 × UInt64) → Call FrameAllocator Empty Unit
  | [] => return ()
  | (base, pages) :: entries => do
      coalesceEntry base pages
      coalesceEntries entries

def coalesce : Call FrameAllocator Empty Unit := do
  let entries := (← get).free.toList
  modify fun self => { self with free := ∅ }
  coalesceEntries entries

/-- The overlap test of `add_region` against one free block. -/
def overlaps (base stop : UInt64) (block : UInt64 × UInt64) : Bool :=
  let otherEnd := saturatingAdd block.1 (saturatingMul block.2 pageSize)
  decide (base < otherEnd) && decide (block.1 < stop)

def addRegion (base pages : UInt64) : Call FrameAllocator FrameError Unit := do
  validateRun base pages
  let bytes ← okOr (checkedMul pages pageSize) FrameError.rangeOverflow
  let stop ← okOr (checkedAdd base bytes) FrameError.rangeOverflow
  rejectIf ((← get).free.toList.any (overlaps base stop) = true) FrameError.overlap
  modify fun self => { self with free := self.free.insert base pages }
  coalesce

/-- A free block together with the place an allocation takes in it. -/
structure Choice where
  base : UInt64
  available : UInt64
  aligned : UInt64
  /-- Free pages left below the allocation. -/
  before : UInt64
  deriving DecidableEq, Repr

/-- Try one free block; `mask` is one less than the alignment. -/
def fit (pages mask : UInt64) (block : UInt64 × UInt64) : Option Choice := do
  let raised ← checkedAdd block.1 mask
  let aligned := raised &&& ~~~mask
  let offset ← checkedSub aligned block.1
  let before := offset / pageSize
  let needed ← checkedAdd before pages
  if needed ≤ block.2 then some { base := block.1, available := block.2, aligned, before } else none

/-- Return pages to the free map, unless there are none. -/
def restore (base pages : UInt64) (free : BTreeMap UInt64 UInt64) : BTreeMap UInt64 UInt64 :=
  if pages ≠ 0 then free.insert base pages else free

/-- Return the pages above an allocation to the free map. -/
def insertSuffix (aligned pages suffix : UInt64) : Call FrameAllocator Empty Unit :=
  if suffix ≠ 0 then do
    let bytes ← Call.unchecked (checkedMul pages pageSize)
    let start ← Call.unchecked (checkedAdd aligned bytes)
    modify fun self => { self with free := self.free.insert start suffix }
  else
    return ()

def allocate (pages alignmentPages : UInt64) : Call FrameAllocator FrameError FrameRun := do
  rejectIf (pages = 0 ∨ alignmentPages = 0 ∨ isPowerOfTwo alignmentPages = false) FrameError.empty
  let alignment ← okOr (checkedMul alignmentPages pageSize) FrameError.rangeOverflow
  let mask ← Call.unchecked (checkedSub alignment 1)
  let choice ← okOr ((← get).free.toList.findSome? (fit pages mask)) FrameError.outOfMemory
  modify fun self => { self with free := self.free.erase choice.base }
  modify fun self => { self with free := restore choice.base choice.before self.free }
  let remaining ← Call.unchecked (checkedSub choice.available choice.before)
  let suffix ← Call.unchecked (checkedSub remaining pages)
  insertSuffix choice.aligned pages suffix
  let generation := ((← get).generations[choice.aligned]?).getD 0
  let run : FrameRun := { base := choice.aligned, pages, generation, zeroed := false }
  modify fun self => { self with allocated := self.allocated.insert choice.aligned run }
  return run

def markZeroed (run : FrameRun) : Call FrameAllocator FrameError FrameRun := do
  let live ← (← get).validate run
  let zeroed := { live with zeroed := true }
  modify fun self => { self with allocated := self.allocated.insert run.base zeroed }
  return zeroed

/-- Consume one owned generation and lend the exact run to `borrower`. -/
def lend (run : FrameRun) (borrower : UInt32) : Call FrameAllocator FrameError FrameRun := do
  let live ← (← get).validate run
  rejectIf ((← get).loans.contains run.base = true) FrameError.alreadyLent
  let generation ← okOr (checkedAdd live.generation 1) FrameError.generationOverflow
  let lent := { live with generation }
  modify fun self => { self with allocated := self.allocated.insert run.base lent }
  modify fun self => { self with generations := self.generations.insert run.base generation }
  modify fun self => { self with loans := self.loans.insert run.base borrower }
  return lent

/-- Reclaim one loan only from the borrower recorded by `lend`. -/
def reclaim (run : FrameRun) (borrower : UInt32) : Call FrameAllocator FrameError FrameRun := do
  let live ← (← get).validate run
  let owner ← okOr (← get).loans[run.base]? FrameError.notLent
  rejectIf (owner ≠ borrower) FrameError.foreignBorrower
  let generation ← okOr (checkedAdd live.generation 1) FrameError.generationOverflow
  let reclaimed := { live with generation }
  modify fun self => { self with loans := self.loans.erase run.base }
  modify fun self => { self with generations := self.generations.insert run.base generation }
  modify fun self => { self with allocated := self.allocated.insert run.base reclaimed }
  return reclaimed

def split (run : FrameRun) (leftPages : UInt64) : Outcome FrameError (FrameRun × FrameRun) := do
  rejectIf (leftPages = 0 ∨ run.pages ≤ leftPages) FrameError.empty
  let bytes ← unchecked (checkedMul leftPages pageSize)
  let base ← unchecked (checkedAdd run.base bytes)
  let pages ← unchecked (checkedSub run.pages leftPages)
  return ({ run with pages := leftPages }, { run with base, pages })

def join (left right : FrameRun) : Outcome FrameError FrameRun := do
  rejectIf (left.generation ≠ right.generation ∨ left.zeroed ≠ right.zeroed) FrameError.nonAdjacent
  let bytes ← unchecked (checkedMul left.pages pageSize)
  let stop ← unchecked (checkedAdd left.base bytes)
  rejectIf (stop ≠ right.base) FrameError.nonAdjacent
  let pages ← okOr (checkedAdd left.pages right.pages) FrameError.rangeOverflow
  return { left with pages }

/-- Replace one live record with two exact adjacent records. -/
def splitAllocated (run : FrameRun) (leftPages : UInt64) :
    Call FrameAllocator FrameError (FrameRun × FrameRun) := do
  let live ← (← get).validate run
  rejectIf ((← get).loans.contains run.base = true) FrameError.alreadyLent
  let halves ← split live leftPages
  modify fun self => { self with allocated := self.allocated.erase run.base }
  modify fun self => { self with allocated := self.allocated.insert halves.1.base halves.1 }
  modify fun self => { self with allocated := self.allocated.insert halves.2.base halves.2 }
  modify fun self =>
    { self with generations := self.generations.insertIfNew halves.2.base halves.2.generation }
  return halves

/-- Replace two live adjacent records with their exact joined record. -/
def joinAllocated (left right : FrameRun) : Call FrameAllocator FrameError FrameRun := do
  let leftLive ← (← get).validate left
  let rightLive ← (← get).validate right
  rejectIf ((← get).loans.contains left.base = true ∨ (← get).loans.contains right.base = true)
    FrameError.alreadyLent
  let joined ← join leftLive rightLive
  modify fun self => { self with allocated := self.allocated.erase left.base }
  modify fun self => { self with allocated := self.allocated.erase right.base }
  modify fun self => { self with allocated := self.allocated.insert joined.base joined }
  return joined

/-- The run leaves the allocated map before its generation is advanced. -/
def release (run : FrameRun) : Call FrameAllocator FrameError Unit := do
  let _ ← (← get).validate run
  rejectIf ((← get).loans.contains run.base = true) FrameError.alreadyLent
  modify fun self => { self with allocated := self.allocated.erase run.base }
  let next ← okOr (checkedAdd run.generation 1) FrameError.generationOverflow
  modify fun self => { self with generations := self.generations.insert run.base next }
  modify fun self => { self with free := self.free.insert run.base run.pages }
  coalesce

def freePages (self : FrameAllocator) : Outcome FrameError UInt64 :=
  self.free.toList.foldlM (fun sum block => unchecked (checkedAdd sum block.2)) 0

/-- One call of the allocator's mutating interface. -/
inductive Request where
  | addRegion (base pages : UInt64)
  | allocate (pages alignmentPages : UInt64)
  | markZeroed (run : FrameRun)
  | lend (run : FrameRun) (borrower : UInt32)
  | reclaim (run : FrameRun) (borrower : UInt32)
  | splitAllocated (run : FrameRun) (leftPages : UInt64)
  | joinAllocated (left right : FrameRun)
  | release (run : FrameRun)
  deriving DecidableEq, Repr

/-- What a successful call returns. -/
inductive Reply where
  | done
  | run (run : FrameRun)
  | runs (left right : FrameRun)
  deriving DecidableEq, Repr

def perform : Request → Call FrameAllocator FrameError Reply
  | .addRegion base pages => do
      addRegion base pages
      return .done
  | .allocate pages alignmentPages => return .run (← allocate pages alignmentPages)
  | .markZeroed run => return .run (← markZeroed run)
  | .lend run borrower => return .run (← lend run borrower)
  | .reclaim run borrower => return .run (← reclaim run borrower)
  | .splitAllocated run leftPages => do
      let halves ← splitAllocated run leftPages
      return .runs halves.1 halves.2
  | .joinAllocated left right => return .run (← joinAllocated left right)
  | .release run => do
      release run
      return .done

theorem validate_eq_ok {self : FrameAllocator} {run live : FrameRun} :
    self.validate run = .ok live ↔ self.allocated[run.base]? = some live ∧
      live.generation = run.generation ∧ live.pages = run.pages := by
  simp [validate]

theorem validateRun_ne_overflow {base pages : UInt64} : validateRun base pages ≠ .overflow := by
  simp [validateRun]

theorem validate_ne_overflow {self : FrameAllocator} {run : FrameRun} :
    self.validate run ≠ .overflow := by
  simp [validate]

/-- The halves of a run meet at a page boundary inside it. -/
theorem split_eq_ok {run left right : FrameRun} {leftPages : UInt64}
    (halves : split run leftPages = .ok (left, right)) :
    0 < leftPages.toNat ∧ 0 < right.pages.toNat ∧ left = { run with pages := leftPages } ∧
      right = { run with base := right.base, pages := right.pages } ∧
      right.base.toNat = run.base.toNat + leftPages.toNat * 4096 ∧
      run.pages.toNat = right.pages.toNat + leftPages.toNat := by
  simp [split, UInt64.lt_iff_toNat_lt] at halves
  obtain ⟨⟨nonzero, less⟩, bytes, bytes_eq, base, base_eq, pages, pages_eq, rfl, rfl⟩ := halves
  exact ⟨toNat_pos nonzero, by simp only; omega, rfl, rfl, by simp only; omega, pages_eq⟩

theorem split_eq_overflow {run : FrameRun} {leftPages : UInt64}
    (overflows : split run leftPages = .overflow) :
    2 ^ 64 ≤ run.base.toNat + run.pages.toNat * 4096 := by
  simp [split, UInt64.lt_iff_toNat_lt] at overflows
  grind

theorem join_eq_ok {left right whole : FrameRun} (joined : join left right = .ok whole) :
    left.generation = right.generation ∧ whole = { left with pages := whole.pages } ∧
      right.base.toNat = left.base.toNat + left.pages.toNat * 4096 ∧
      whole.pages.toNat = left.pages.toNat + right.pages.toNat := by
  simp [join] at joined
  obtain ⟨⟨same_generation, _⟩, bytes, bytes_eq, base_eq, pages, pages_eq, rfl⟩ := joined
  exact ⟨same_generation, rfl, by omega, pages_eq⟩

theorem join_eq_overflow {left right : FrameRun} (overflows : join left right = .overflow) :
    2 ^ 64 ≤ left.base.toNat + left.pages.toNat * 4096 := by
  simp [join] at overflows
  obtain ⟨_, outside | ⟨bytes, bytes_eq, outside⟩⟩ := overflows <;> omega

/-- Everything but the free map. -/
def ownership (self : FrameAllocator) : FrameAllocator := { self with free := ∅ }

theorem coalesceEntry_keeps (base pages : UInt64) :
    Call.Keeps ownership (coalesceEntry base pages) := by
  refine Call.keeps_bind Call.keeps_get fun self => ?_
  split
  · refine Call.keeps_bind (Call.keeps_unchecked _) fun bytes => ?_
    refine Call.keeps_bind (Call.keeps_unchecked _) fun previousEnd => ?_
    split
    · exact Call.keeps_bind (Call.keeps_unchecked _) fun merged => Call.keeps_modify fun _ => rfl
    · exact Call.keeps_modify fun _ => rfl
  · exact Call.keeps_modify fun _ => rfl

theorem coalesceEntries_keeps (entries : List (UInt64 × UInt64)) :
    Call.Keeps ownership (coalesceEntries entries) := by
  induction entries with
  | nil => exact Call.keeps_pure ()
  | cons entry entries induction =>
      exact Call.keeps_bind (coalesceEntry_keeps entry.1 entry.2) fun _ => induction

/-- Merging free blocks touches nothing but the free map. -/
theorem coalesce_keeps : Call.Keeps ownership coalesce :=
  Call.keeps_bind Call.keeps_get fun self =>
    Call.keeps_bind (Call.keeps_modify fun _ => rfl) fun _ => coalesceEntries_keeps self.free.toList

theorem insertSuffix_eq_ok {aligned pages suffix : UInt64} {before after : FrameAllocator}
    {value : Unit} (result : insertSuffix aligned pages suffix before = (.ok value, after)) :
    ∃ start, (suffix ≠ 0 → start.toNat = aligned.toNat + pages.toNat * 4096) ∧
      after = { before with free := restore start suffix before.free } := by
  by_cases empty : suffix = 0
  · simp [insertSuffix, empty] at result
    exact ⟨0, by simp [empty], by simp [restore, empty, result]⟩
  · simp [insertSuffix, empty] at result
    obtain ⟨bytes, bytes_eq, start, start_eq, rfl⟩ := result
    exact ⟨start, fun _ => by omega, by simp [restore, empty]⟩

theorem insertSuffix_eq_overflow {aligned pages suffix : UInt64} {before after : FrameAllocator}
    (result : insertSuffix aligned pages suffix before = (.overflow, after)) :
    suffix ≠ 0 ∧ 2 ^ 64 ≤ aligned.toNat + pages.toNat * 4096 ∧ after = before := by
  by_cases empty : suffix = 0
  · simp [insertSuffix, empty] at result
  · simp [insertSuffix, empty] at result
    rcases result with ⟨overflows, rfl⟩ | ⟨bytes, ⟨bytes_eq, rfl⟩, overflows⟩
    · exact ⟨empty, by omega, rfl⟩
    · exact ⟨empty, by omega, rfl⟩

/-- The effect of each way a call can end.  Calls that merge free blocks end as `coalesce` does. -/
inductive Step (before : FrameAllocator) :
    Request → Outcome FrameError Reply → FrameAllocator → Prop
  | rejected (request : Request) (reason : FrameError) : Step before request (.err reason) before
  | added {base pages stop : UInt64} {outcome : Outcome FrameError Reply} {after : FrameAllocator}
      (valid : validateRun base pages = .ok ())
      (stop_eq : stop.toNat = base.toNat + pages.toNat * 4096)
      (clear : ∀ otherBase otherPages, before.free[otherBase]? = some otherPages →
        overlaps base stop (otherBase, otherPages) = false)
      (merged : (do coalesce; return .done : Call FrameAllocator FrameError Reply)
        { before with free := before.free.insert base pages } = (outcome, after)) :
      Step before (.addRegion base pages) outcome after
  | allocated {pages alignmentPages mask suffix start : UInt64} {choice : Choice} {run : FrameRun}
      (positive : pages ≠ 0)
      (power : isPowerOfTwo alignmentPages = true)
      (mask_eq : mask.toNat + 1 = alignmentPages.toNat * 4096)
      (chosen : before.free.toList.findSome? (fit pages mask) = some choice)
      (suffix_eq : choice.available.toNat = suffix.toNat + pages.toNat + choice.before.toNat)
      (start_eq : suffix ≠ 0 → start.toNat = choice.aligned.toNat + pages.toNat * 4096)
      (run_eq : run = { base := choice.aligned, pages,
                        generation := (before.generations[choice.aligned]?).getD 0,
                        zeroed := false }) :
      Step before (.allocate pages alignmentPages) (.ok (.run run))
        { before with
          free := restore start suffix
            (restore choice.base choice.before (before.free.erase choice.base))
          allocated := before.allocated.insert choice.aligned run }
  | allocateOverflow {pages alignmentPages mask : UInt64} {choice : Choice}
      (power : isPowerOfTwo alignmentPages = true)
      (mask_eq : mask.toNat + 1 = alignmentPages.toNat * 4096)
      (chosen : before.free.toList.findSome? (fit pages mask) = some choice)
      (cause : choice.available.toNat < choice.before.toNat + pages.toNat ∨
        choice.before.toNat + pages.toNat < choice.available.toNat ∧
          2 ^ 64 ≤ choice.aligned.toNat + pages.toNat * 4096)
      (free : BTreeMap UInt64 UInt64) :
      Step before (.allocate pages alignmentPages) .overflow { before with free }
  | zeroed {run live : FrameRun} (valid : before.validate run = .ok live) :
      Step before (.markZeroed run) (.ok (.run { live with zeroed := true }))
        { before with allocated := before.allocated.insert run.base { live with zeroed := true } }
  | lent {run live : FrameRun} {borrower : UInt32} {generation : UInt64}
      (valid : before.validate run = .ok live)
      (unlent : run.base ∉ before.loans)
      (advanced : generation.toNat = live.generation.toNat + 1) :
      Step before (.lend run borrower) (.ok (.run { live with generation }))
        { before with
          allocated := before.allocated.insert run.base { live with generation }
          generations := before.generations.insert run.base generation
          loans := before.loans.insert run.base borrower }
  | reclaimed {run live : FrameRun} {borrower : UInt32} {generation : UInt64}
      (valid : before.validate run = .ok live)
      (borrowed : before.loans[run.base]? = some borrower)
      (advanced : generation.toNat = live.generation.toNat + 1) :
      Step before (.reclaim run borrower) (.ok (.run { live with generation }))
        { before with
          allocated := before.allocated.insert run.base { live with generation }
          generations := before.generations.insert run.base generation
          loans := before.loans.erase run.base }
  | divided {run live left right : FrameRun} {leftPages : UInt64}
      (valid : before.validate run = .ok live)
      (unlent : run.base ∉ before.loans)
      (halves : split live leftPages = .ok (left, right)) :
      Step before (.splitAllocated run leftPages) (.ok (.runs left right))
        { before with
          allocated := ((before.allocated.erase run.base).insert left.base left).insert
            right.base right
          generations := before.generations.insertIfNew right.base right.generation }
  | splitOverflow {run live : FrameRun} {leftPages : UInt64}
      (valid : before.validate run = .ok live)
      (cause : split live leftPages = .overflow) :
      Step before (.splitAllocated run leftPages) .overflow before
  | joined {left right leftLive rightLive whole : FrameRun}
      (left_valid : before.validate left = .ok leftLive)
      (right_valid : before.validate right = .ok rightLive)
      (left_unlent : left.base ∉ before.loans)
      (right_unlent : right.base ∉ before.loans)
      (union : join leftLive rightLive = .ok whole) :
      Step before (.joinAllocated left right) (.ok (.run whole))
        { before with
          allocated := ((before.allocated.erase left.base).erase right.base).insert
            whole.base whole }
  | joinOverflow {left right leftLive rightLive : FrameRun}
      (left_valid : before.validate left = .ok leftLive)
      (right_valid : before.validate right = .ok rightLive)
      (cause : join leftLive rightLive = .overflow) :
      Step before (.joinAllocated left right) .overflow before
  | released {run live : FrameRun} {next : UInt64} {outcome : Outcome FrameError Reply}
      {after : FrameAllocator}
      (valid : before.validate run = .ok live)
      (unlent : run.base ∉ before.loans)
      (advanced : next.toNat = run.generation.toNat + 1)
      (merged : (do coalesce; return .done : Call FrameAllocator FrameError Reply)
        { before with
          allocated := before.allocated.erase run.base
          generations := before.generations.insert run.base next
          free := before.free.insert run.base run.pages } = (outcome, after)) :
      Step before (.release run) outcome after
  | forgotten {run live : FrameRun}
      (valid : before.validate run = .ok live)
      (unlent : run.base ∉ before.loans)
      (exhausted : 2 ^ 64 ≤ run.generation.toNat + 1) :
      Step before (.release run) (.err .generationOverflow)
        { before with allocated := before.allocated.erase run.base }

theorem step_allocate (pages alignmentPages : UInt64) (before : FrameAllocator) :
    Call.Ensures (perform (.allocate pages alignmentPages))
      (Step before (.allocate pages alignmentPages)) before := by
  simp only [perform, allocate]
  simp [Step.rejected]
  intro positive nonzero power alignment alignment_eq
  refine ⟨fun mask mask_eq choice chosen => ⟨fun remaining remaining_eq =>
    ⟨fun suffix suffix_eq => ?_, fun cause => ?_⟩, fun cause => ?_⟩, fun none_left => ?_⟩
  · refine Call.ensures_bind.mpr ⟨fun _ middle inserted => ?_,
      fun _ _ failed => absurd failed Call.infallible_ne_err, fun middle failed => ?_⟩
    · obtain ⟨start, start_eq, rfl⟩ := insertSuffix_eq_ok (Call.infallible_eq_ok.mp inserted)
      exact .allocated positive power (by omega) chosen (by omega) start_eq rfl
    · obtain ⟨suffix_ne, cause, rfl⟩ :=
        insertSuffix_eq_overflow (Call.infallible_eq_overflow.mp failed)
      have suffix_pos := toNat_pos suffix_ne
      exact .allocateOverflow power (by omega) chosen (.inr ⟨by omega, cause⟩) _
  · exact .allocateOverflow power (by omega) chosen (.inl (by omega)) _
  · exact .allocateOverflow power (by omega) chosen (.inl (by omega)) _
  · have alignment_pos := toNat_pos nonzero
    omega

/-- Every call is one of the steps. -/
theorem step_perform (request : Request) (before : FrameAllocator) :
    Step before request (perform request before).1 (perform request before).2 := by
  show Call.Ensures (perform request) (Step before request) before
  cases request with
  | addRegion base pages =>
      simp only [perform, addRegion]
      simp [validateRun_ne_overflow, Step.rejected]
      intro _ valid bytes bytes_eq stop stop_eq clear
      exact .added valid (by omega) clear rfl
  | allocate pages alignmentPages => exact step_allocate pages alignmentPages before
  | markZeroed run =>
      simp only [perform, markZeroed]
      simp [validate_ne_overflow, Step.rejected]
      intro live valid
      exact .zeroed valid
  | lend run borrower =>
      simp only [perform, lend]
      simp [validate_ne_overflow, Step.rejected]
      intro live valid unlent generation advanced
      exact .lent valid unlent advanced
  | reclaim run borrower =>
      simp only [perform, reclaim]
      simp [validate_ne_overflow, Step.rejected]
      rintro live valid _ borrowed rfl generation advanced
      exact .reclaimed valid borrowed advanced
  | splitAllocated run leftPages =>
      simp only [perform, splitAllocated]
      simp [validate_ne_overflow, Step.rejected]
      intro live valid unlent
      exact ⟨fun left right halves => .divided valid unlent halves, .splitOverflow valid⟩
  | joinAllocated left right =>
      simp only [perform, joinAllocated]
      simp [validate_ne_overflow, Step.rejected]
      intro leftLive left_valid rightLive right_valid left_unlent right_unlent
      exact ⟨fun whole union => .joined left_valid right_valid left_unlent right_unlent union,
        .joinOverflow left_valid right_valid⟩
  | release run =>
      simp only [perform, release]
      simp [validate_ne_overflow, Step.rejected]
      intro live valid unlent
      refine ⟨fun next advanced => .released valid unlent advanced rfl, fun exhausted => ?_⟩
      exact .forgotten valid unlent (by omega)

end FrameAllocator

end Bulla.Kernel
