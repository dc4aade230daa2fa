import Bulla.Kernel.Frame
import Bulla.Kernel.Policy
import Bulla.Kernel.SchedulerInvariant
import Bulla.Kernel.UserCopies

/-!
# Refused calls

A call that returns `Err` should leave everything as it was.  Where a component writes before its
last check, the calls that fail that check are the exceptions, and they are the only ones.
-/

namespace Bulla.Kernel

open Rust Outcome

namespace AddressSpace

/-- `unmap` does not run out of epochs after it has removed the mapping, and `protect` does not miss
the mapping after it has advanced the epoch. -/
def Harmless (before : AddressSpace) : Request → Prop
  | .unmap virtualBase => before.destroyed = false → virtualBase ∈ before.mappings →
      before.epoch.toNat + 1 < 2 ^ 64
  | .protect space virtualBase permissions => before.destroyed = false →
      requireSpace space = .ok () → permissions.bits ≠ 0 → before.epoch.toNat + 1 < 2 ^ 64 →
      virtualBase ∈ before.mappings
  | _ => True

section Inert

variable {before : AddressSpace}

theorem perform_unmap_of_exhausted {virtualBase : UInt64} (alive : before.destroyed = false)
    (present : virtualBase ∈ before.mappings) (exhausted : 2 ^ 64 ≤ before.epoch.toNat + 1) :
    perform (.unmap virtualBase) before =
      (.err .epochOverflow, { before with mappings := before.mappings.erase virtualBase }) := by
  rw [Call.eq_iff_ensures]
  simp only [perform, unmap]
  simp [alive, present]
  intro epoch advanced
  have bound := epoch.toNat_lt
  omega

theorem perform_protect_of_missed {space : Capability} {virtualBase epoch : UInt64}
    {permissions : PagePermissions} (alive : before.destroyed = false)
    (permitted : requireSpace space = .ok ()) (nonempty : permissions.bits ≠ 0)
    (advanced : epoch.toNat = before.epoch.toNat + 1) (absent : virtualBase ∉ before.mappings) :
    perform (.protect space virtualBase permissions) before =
      (.err .notMapped, { before with epoch }) := by
  simp [requireSpace] at permitted
  have advances : checkedAdd before.epoch 1 = some epoch := checkedAdd_eq_some.mpr advanced
  rw [Call.eq_iff_ensures]
  simp only [perform, protect]
  simp [alive, permitted, nonempty, absent, advances]

/-- `protect` misses a mapping only after all its other checks. -/
theorem checked_of_missed {space : Capability} {virtualBase : UInt64}
    {permissions : PagePermissions}
    (missed : (perform (.protect space virtualBase permissions) before).1 = .err .notMapped) :
    requireSpace space = .ok () ∧ permissions.bits ≠ 0 := by
  revert missed
  show Call.Ensures (perform (.protect space virtualBase permissions)) (fun outcome _ =>
    outcome = .err .notMapped → requireSpace space = .ok () ∧ permissions.bits ≠ 0) before
  simp only [perform, protect]
  simp [requireSpace]
  exact fun _ kind rights nonempty _ _ _ => ⟨⟨kind, rights⟩, nonempty⟩

theorem harmless_of_inert {request : Request} (inert : (perform request).Inert before) :
    Harmless before request := by
  cases request with
  | unmap virtualBase =>
      intro alive present
      by_contra exhausted
      have refused := perform_unmap_of_exhausted alive present (Nat.le_of_not_lt exhausted)
      rw [← inert.unchanged refused] at present
      simp at present
  | protect space virtualBase permissions =>
      intro alive permitted nonempty room
      by_contra absent
      obtain ⟨epoch, advanced⟩ := exists_toNat_eq room
      have refused := perform_protect_of_missed alive permitted nonempty advanced absent
      rw [← inert.unchanged refused] at advanced
      simp at advanced
  | _ => trivial

theorem inert_of_harmless {request : Request} (harmless : Harmless before request) :
    (perform request).Inert before := by
  refine Call.inert_of_step (step_perform request before) fun reason after refused step => ?_
  cases step with
  | rejected => rfl
  | unmapExhausted alive present exhausted =>
      have room := harmless alive (BTreeMap.mem_of_present present)
      omega
  | protectMissed alive absent advanced =>
      obtain ⟨permitted, nonempty⟩ := checked_of_missed (congrArg Prod.fst refused)
      have present := harmless alive permitted nonempty (advanced ▸ UInt64.toNat_lt _)
      rw [Std.ExtTreeMap.mem_iff_isSome_getElem?, absent] at present
      cases present

end Inert

end AddressSpace

namespace UserMemory

/-- Bytes are already in memory, as far as they have an address. -/
def Holds (memory : UserMemory) (physical : UInt64) (bytes : List UInt8) : Prop :=
  ∀ (offset : ℕ) (byte : UInt8) (address : UInt64), bytes[offset]? = some byte →
    address.toNat = physical.toNat + offset → memory.bytes[address]? = some byte

section Initialize

variable {memory : UserMemory} {physical : UInt64} {bytes : List UInt8}

theorem initializeByte_of_lt {entry : UInt8 × ℕ} (fits : physical.toNat + entry.2 < 2 ^ 64)
    (memory : UserMemory) :
    initializeByte physical entry memory =
      (.ok (), ⟨memory.bytes.insert (physical + UInt64.ofNat entry.2) entry.1⟩) := by
  have small : entry.2 < 2 ^ 64 := by omega
  have offset_eq : (UInt64.ofNat entry.2).toNat = entry.2 := UInt64.toNat_ofNat_of_lt' small
  have address_eq : checkedAdd physical (UInt64.ofNat entry.2) =
      some (physical + UInt64.ofNat entry.2) := by
    rw [checkedAdd_eq_some, UInt64.toNat_add, offset_eq, Nat.mod_eq_of_lt fits]
  simp [initializeByte, address_eq]

theorem initializeByte_of_le {entry : UInt8 × ℕ} (small : entry.2 < 2 ^ 64)
    (outside : 2 ^ 64 ≤ physical.toNat + entry.2) (memory : UserMemory) :
    initializeByte physical entry memory = (.err .rangeOverflow, memory) := by
  have offset_eq : (UInt64.ofNat entry.2).toNat = entry.2 := UInt64.toNat_ofNat_of_lt' small
  have address_eq : checkedAdd physical (UInt64.ofNat entry.2) = none := by
    rw [checkedAdd_eq_none, offset_eq]
    exact outside
  simp [initializeByte, address_eq]

/-- The writes of `initialize`, up to the first that has no address. -/
def writes (physical : UInt64) (bytes : List UInt8) : List (UInt64 × UInt8) :=
  bytes.zipIdx.map fun entry => (physical + UInt64.ofNat entry.2, entry.1)

theorem foldl_eq_writes (entries : List (UInt8 × ℕ)) (memory : UserMemory) :
    entries.foldl (fun memory entry =>
      ⟨memory.bytes.insert (physical + UInt64.ofNat entry.2) entry.1⟩) memory =
    ⟨(entries.map fun entry => (physical + UInt64.ofNat entry.2, entry.1)).foldl
      (fun bytes write => bytes.insert write.1 write.2) memory.bytes⟩ := by
  induction entries generalizing memory with
  | nil => rfl
  | cons entry entries induction => rw [List.foldl_cons, induction, List.map_cons, List.foldl_cons]

theorem initializeByte_of_mem {entry : UInt8 × ℕ} (fits : physical.toNat + bytes.length ≤ 2 ^ 64)
    (member : entry ∈ bytes.zipIdx) (memory : UserMemory) :
    initializeByte physical entry memory =
      (.ok (), ⟨memory.bytes.insert (physical + UInt64.ofNat entry.2) entry.1⟩) := by
  have bound := List.snd_lt_of_mem_zipIdx member
  exact initializeByte_of_lt (by omega) memory

theorem initializeRange_of_le (fits : physical.toNat + bytes.length ≤ 2 ^ 64) :
    initializeRange physical bytes memory =
      (.ok (), ⟨(writes physical bytes).foldl (fun bytes write => bytes.insert write.1 write.2)
        memory.bytes⟩) := by
  rw [initializeRange, Call.forM_eq_ok _ _ _ fun _ member => initializeByte_of_mem fits member,
    foldl_eq_writes]
  rfl

/-- Bytes that run past the last address. -/
theorem initializeRange_of_lt {earlier later : List UInt8} {byte : UInt8}
    (small : (earlier ++ byte :: later).length < 2 ^ 64)
    (last : physical.toNat + earlier.length = 2 ^ 64) :
    initializeRange physical (earlier ++ byte :: later) memory =
      (.err .rangeOverflow, ⟨(writes physical earlier).foldl
        (fun bytes write => bytes.insert write.1 write.2) memory.bytes⟩) := by
  rw [List.length_append, List.length_cons] at small
  rw [initializeRange, List.zipIdx_append, List.zipIdx_cons, Call.forM_eq_err _ _
    (fun _ member => initializeByte_of_mem last.le member)
    (initializeByte_of_le (by simp only; omega) (by simp only; omega)), foldl_eq_writes]
  rfl

theorem toNat_address {offset : ℕ} (fits : physical.toNat + offset < 2 ^ 64) :
    (physical + UInt64.ofNat offset).toNat = physical.toNat + offset := by
  have small : offset < 2 ^ 64 := by omega
  rw [UInt64.toNat_add, UInt64.toNat_ofNat_of_lt' small, Nat.mod_eq_of_lt fits]

theorem getElem_writes {offset : ℕ} (bound : offset < (writes physical bytes).length)
    (bound_bytes : offset < bytes.length) :
    (writes physical bytes)[offset] = (physical + UInt64.ofNat offset, bytes[offset]) := by
  simp [writes]

/-- The writes change nothing exactly if the bytes are there. -/
theorem writes_eq_iff (fits : physical.toNat + bytes.length ≤ 2 ^ 64) :
    (writes physical bytes).foldl (fun bytes write => bytes.insert write.1 write.2) memory.bytes =
      memory.bytes ↔ Holds memory physical bytes := by
  have length_eq : (writes physical bytes).length = bytes.length := by simp [writes]
  constructor
  · intro same offset byte address present address_eq
    obtain ⟨bound, rfl⟩ := List.getElem?_eq_some_iff.mp present
    have bound_writes : offset < (writes physical bytes).length := length_eq ▸ bound
    obtain rfl : physical + UInt64.ofNat offset = address := by
      rw [← UInt64.toNat_inj, toNat_address (by omega), address_eq]
    have split : writes physical bytes = (writes physical bytes).take offset ++
        (physical + UInt64.ofNat offset, bytes[offset]) ::
          (writes physical bytes).drop (offset + 1) := by
      rw [← getElem_writes bound_writes bound, ← List.drop_eq_getElem_cons, List.take_append_drop]
    rw [← same, split]
    refine BTreeMap.getElem?_foldl_insert _ ?_
    intro write member write_eq
    -- A later write has a later address.
    obtain ⟨index, index_bound, rfl⟩ := List.getElem_of_mem member
    rw [List.length_drop, length_eq] at index_bound
    rw [List.getElem_drop, getElem_writes (by omega) (by omega), ← UInt64.toNat_inj,
      toNat_address (by omega), toNat_address (by omega)] at write_eq
    omega
  · intro holds
    refine BTreeMap.foldl_insert_of_present fun write member => ?_
    obtain ⟨offset, bound, rfl⟩ := List.getElem_of_mem member
    have bound_bytes : offset < bytes.length := length_eq ▸ bound
    rw [getElem_writes bound bound_bytes]
    exact holds offset _ _ (List.getElem?_eq_getElem bound_bytes) (toNat_address (by omega))

/-- Bytes without an address do not count. -/
theorem holds_append_iff {earlier later : List UInt8}
    (full : 2 ^ 64 ≤ physical.toNat + earlier.length) :
    Holds memory physical (earlier ++ later) ↔ Holds memory physical earlier := by
  refine forall₃_congr fun offset byte address => ?_
  constructor
  · intro held present address_eq
    have bound := (List.getElem?_eq_some_iff.mp present).1
    exact held (by rw [List.getElem?_append_left bound, present]) address_eq
  · intro held present address_eq
    have word := address.toNat_lt
    rw [List.getElem?_append_left (by omega)] at present
    exact held present address_eq

/-- `initialize` is inert exactly if it does not run past the last address, or has nothing to write
before. -/
theorem inert_initializeRange_iff (small : bytes.length < 2 ^ 64) :
    (initializeRange physical bytes).Inert memory ↔
      physical.toNat + bytes.length ≤ 2 ^ 64 ∨ Holds memory physical bytes := by
  by_cases fits : physical.toNat + bytes.length ≤ 2 ^ 64
  · refine iff_of_true ?_ (.inl fits)
    intro reason refused
    rw [initializeRange_of_le fits] at refused
    cases refused
  · have word := physical.toNat_lt
    have bound : 2 ^ 64 - physical.toNat < bytes.length := by omega
    obtain ⟨earlier, byte, later, rfl, last⟩ : ∃ earlier byte later,
        bytes = earlier ++ byte :: later ∧ physical.toNat + earlier.length = 2 ^ 64 := by
      refine ⟨bytes.take (2 ^ 64 - physical.toNat), bytes[2 ^ 64 - physical.toNat],
        bytes.drop (2 ^ 64 - physical.toNat + 1), ?_, ?_⟩
      · rw [← List.drop_eq_getElem_cons, List.take_append_drop]
      · rw [List.length_take]
        omega
    rw [or_iff_right fits, Call.Inert, initializeRange_of_lt small last,
      holds_append_iff last.ge, ← writes_eq_iff last.le]
    constructor
    · intro inert
      exact congrArg UserMemory.bytes (inert .rangeOverflow rfl)
    · intro same reason _
      simp only [same]

end Initialize

end UserMemory

/-- Refused memory operations change nothing, apart from an `unmap` without a next epoch, a
`protect` of nothing, and an `initialize` past the last address that has something to write
before it. -/
theorem memory_refusals_inert_iff (space : AddressSpace) (request : AddressSpace.Request)
    (memory : UserMemory) (physical : UInt64) (bytes : Slice UInt8) :
    ((AddressSpace.perform request).Inert space ↔ space.Harmless request) ∧
      ((UserMemory.initializeRange physical bytes).Inert memory ↔
        physical.toNat + bytes.val.length ≤ 2 ^ 64 ∨ memory.Holds physical bytes) :=
  ⟨⟨AddressSpace.harmless_of_inert, AddressSpace.inert_of_harmless⟩,
    UserMemory.inert_initializeRange_iff bytes.property⟩

/-- The last epoch takes a mapping away, a missed `protect` takes an epoch, and bytes stay behind at
the last address. -/
theorem refused_calls_change_memory :
    let space : Capability := ⟨.addressSpace, 0, 0, Rights.map, 0, 0, 0⟩
    let full : AddressSpace :=
      ⟨(∅ : BTreeMap UInt64 Mapping).insert 0x1000 ⟨0x1000, 0x8000, .size4K, 1, .user, 1⟩,
        0xffffffffffffffff, ∅, false⟩
    ((AddressSpace.perform (.unmap 0x1000) full).1 = .err .epochOverflow ∧
      (AddressSpace.perform (.unmap 0x1000) full).2.mappings[(0x1000 : UInt64)]? ≠
        full.mappings[(0x1000 : UInt64)]?) ∧
    ((AddressSpace.perform (.protect space 0x1000 .read) .new).1 = .err .notMapped ∧
      (AddressSpace.perform (.protect space 0x1000 .read) .new).2.epoch ≠
        AddressSpace.new.epoch) ∧
    (UserMemory.initializeRange 0xffffffffffffffff [1, 2] .new).1 = .err .rangeOverflow ∧
      (UserMemory.initializeRange 0xffffffffffffffff [1, 2] .new).2.byte 0xffffffffffffffff ≠
        UserMemory.new.byte 0xffffffffffffffff := by
  decide

namespace FrameAllocator

/-- `release` does not run out of generations after it has removed the run. -/
def Harmless (before : FrameAllocator) : Request → Prop
  | .release run => ∀ live, before.validate run = .ok live → run.base ∉ before.loans →
      run.generation.toNat + 1 < 2 ^ 64
  | _ => True

theorem perform_release_of_exhausted {before : FrameAllocator} {run live : FrameRun}
    (valid : before.validate run = .ok live) (unlent : run.base ∉ before.loans)
    (exhausted : 2 ^ 64 ≤ run.generation.toNat + 1) :
    perform (.release run) before =
      (.err .generationOverflow,
        { before with allocated := before.allocated.erase run.base }) := by
  rw [Call.eq_iff_ensures]
  simp only [perform, release]
  simp [valid, unlent]
  intro generation advanced
  have bound := generation.toNat_lt
  omega

/-- Merging free blocks does not return an error. -/
theorem ne_err_of_merged {before after : FrameAllocator} {reason : FrameError} :
    (do coalesce; return .done : Call FrameAllocator FrameError Reply) before ≠
      (.err reason, after) := by
  simp

/-- Refused frame operations change nothing, apart from a `release` without a next generation. -/
theorem frame_refusals_inert_iff (before : FrameAllocator) (request : Request) :
    (perform request).Inert before ↔ Harmless before request := by
  constructor
  · intro inert
    cases request with
    | release run =>
        intro live valid unlent
        by_contra exhausted
        have refused := perform_release_of_exhausted valid unlent (Nat.le_of_not_lt exhausted)
        have present := (validate_eq_ok.mp valid).1
        rw [← inert.unchanged refused] at present
        simp at present
    | _ => trivial
  · intro harmless
    refine Call.inert_of_step (step_perform request before) fun reason after _ step => ?_
    cases step with
    | rejected => rfl
    | added _ _ _ merged => exact absurd merged ne_err_of_merged
    | released _ _ _ merged => exact absurd merged ne_err_of_merged
    | forgotten valid unlent exhausted =>
        have room := harmless _ valid unlent
        omega

/-- The last generation of a run takes its pages away: they are neither allocated nor free. -/
theorem released_run_lost :
    let full : FrameAllocator :=
      ⟨∅, (∅ : BTreeMap UInt64 FrameRun).insert 0x1000 ⟨0x1000, 1, 0xffffffffffffffff, false⟩, ∅, ∅⟩
    (perform (.release ⟨0x1000, 1, 0xffffffffffffffff, false⟩) full).1 =
        .err .generationOverflow ∧
      (perform (.release ⟨0x1000, 1, 0xffffffffffffffff, false⟩) full).2.allocated.isEmpty = true ∧
      (perform (.release ⟨0x1000, 1, 0xffffffffffffffff, false⟩) full).2.free.isEmpty = true := by
  decide

end FrameAllocator

namespace Scheduler

/-- `yield_current` does not run out of generations after it has taken the task off its
processor. -/
def Harmless (before : Scheduler) : Request → Prop
  | .yieldCurrent cpu => ∀ (task : TaskId) (record : Task),
      before.current[cpu]? = some (some task) → before.tasks[task]? = some record →
      record.generation.toNat + 1 < 2 ^ 64
  | _ => True

/-- Every task that is running is the current one of its processor. -/
def Attended (state : Scheduler) : Prop :=
  ∀ task cpu, state.taskState task = some (.running cpu) → state.current[cpu]? = some (some task)

section Inert

variable {before : Scheduler} {cpu : CpuId} {task : TaskId} {record : Task}

theorem perform_yield_of_exhausted (tidy : Tidy before)
    (occupied : before.current[cpu]? = some (some task))
    (known : before.tasks[task]? = some record)
    (exhausted : 2 ^ 64 ≤ record.generation.toNat + 1) :
    perform (.yieldCurrent cpu) before =
      (.err .generationOverflow, { before with current := before.current.insert cpu none }) := by
  obtain ⟨found, found_known, running⟩ := tidy.running_of_current occupied
  obtain rfl := Option.some.inj (known.symm.trans found_known)
  rw [Call.eq_iff_ensures]
  simp only [perform, yieldCurrent]
  simp [Call.ensures_bind_ok (takeCurrent_eq occupied), known, running]
  intro generation advanced
  have bound := generation.toNat_lt
  omega

theorem perform_yield_of_room (tidy : Tidy before)
    (occupied : before.current[cpu]? = some (some task))
    (known : before.tasks[task]? = some record) (room : record.generation.toNat + 1 < 2 ^ 64) :
    (perform (.yieldCurrent cpu) before).1 = .ok (.task task) := by
  obtain ⟨found, found_known, running⟩ := tidy.running_of_current occupied
  obtain rfl := Option.some.inj (known.symm.trans found_known)
  obtain ⟨queue, present⟩ := tidy.exists_queue occupied
  show Call.Ensures (perform (.yieldCurrent cpu)) (fun outcome _ => outcome = .ok _) before
  simp only [perform, yieldCurrent]
  simp [Call.ensures_bind_ok (takeCurrent_eq occupied), known, running, present]
  omega

/-- A call that can do no harm does not run out of generations. -/
theorem ne_generationOverflow_of_harmless {request : Request} (tidy : Tidy before)
    (harmless : Harmless before request) :
    (perform request before).1 ≠ .err .generationOverflow := by
  intro refused
  have step := step_perform tidy request
  rw [refused] at step
  generalize (perform request before).2 = after at step
  cases step with
  | rejected possible => cases request <;> simp [refusals] at possible
  | exhausted occupied =>
      obtain ⟨record, known, _⟩ := tidy.running_of_current occupied
      rw [perform_yield_of_room tidy occupied known (harmless _ _ occupied known)] at refused
      cases refused

theorem Sound.attended {state : Scheduler} (sound : Sound state) : Attended state := by
  intro task cpu running
  have owned := sound.owned task
  rw [running] at owned
  have here := congrFun owned (.processor cpu)
  rw [Pi.single_eq_same] at here
  by_contra elsewhere
  simp [occupancy, elsewhere] at here

end Inert

/-- While the scheduler's own check succeeds, refused operations change nothing and running tasks
are attended, apart from a `yield_current` of a task without a next generation. -/
theorem scheduler_refusals_inert_iff (before : Scheduler) (request : Request)
    (cpus : ∀ cpu, cpu ∈ before.queues ↔ cpu ∈ before.current)
    (holds : before.invariantHolds = true) :
    ((perform request).Inert before ↔ Harmless before request) ∧
      (Attended (perform request before).2 ↔ Harmless before request) := by
  have sound := sound_iff_invariantHolds.mpr ⟨cpus, holds⟩
  have step := step_perform sound.tidy request
  refine ⟨⟨fun inert => ?_, fun harmless => ?_⟩, ⟨fun attended => ?_, fun harmless => ?_⟩⟩
  · cases request with
    | yieldCurrent cpu =>
        intro task record occupied known
        by_contra exhausted
        have refused := perform_yield_of_exhausted sound.tidy occupied known (by omega)
        rw [← inert.unchanged refused] at occupied
        simp at occupied
    | _ => trivial
  · have room := ne_generationOverflow_of_harmless sound.tidy harmless
    refine Call.inert_of_step step fun reason after refused step => ?_
    cases step with
    | rejected possible => rfl
    | exhausted occupied => exact absurd (congrArg Prod.fst refused) room
  · cases request with
    | yieldCurrent cpu =>
        intro task record occupied known
        by_contra exhausted
        have refused := perform_yield_of_exhausted sound.tidy occupied known (by omega)
        obtain ⟨found, found_known, running⟩ := sound.tidy.running_of_current occupied
        rw [refused] at attended
        have attended_here := attended task cpu (by simp [taskState, found_known, running])
        simp at attended_here
    | _ => trivial
  · exact (sound_step sound step (ne_generationOverflow_of_harmless sound.tidy harmless)).attended

/-- A task in its seventh generation gives way. -/
theorem scheduler_refusals_inert_seventh :
    let state : Scheduler := ⟨(∅ : BTreeMap CpuId (List TaskId)).insert 0 [],
      (∅ : BTreeMap TaskId Task).insert 5 ⟨.running 0, 7⟩,
      (∅ : BTreeMap CpuId (Option TaskId)).insert 0 (some 5), 1, 0⟩
    (perform (.yieldCurrent 0)).Inert state ∧ Attended (perform (.yieldCurrent 0) state).2 := by
  intro state
  have harmless : Harmless state (.yieldCurrent 0) := by
    intro task record occupied known
    obtain rfl : 5 = task := by simpa [state] using occupied
    obtain rfl : (⟨.running 0, 7⟩ : Task) = record := by simpa [state] using known
    decide
  obtain ⟨inert_iff, attended_iff⟩ :=
    scheduler_refusals_inert_iff state (.yieldCurrent 0) (by simp [state]) (by decide)
  exact ⟨inert_iff.mpr harmless, attended_iff.mpr harmless⟩

/-- A task without a next generation is left running on a processor that has no task. -/
theorem yielded_task_stranded :
    let state : Scheduler := ⟨(∅ : BTreeMap CpuId (List TaskId)).insert 0 [],
      (∅ : BTreeMap TaskId Task).insert 5 ⟨.running 0, 0xffffffffffffffff⟩,
      (∅ : BTreeMap CpuId (Option TaskId)).insert 0 (some 5), 1, 0⟩
    state.invariantHolds = true ∧ (∀ cpu, cpu ∈ state.queues ↔ cpu ∈ state.current) ∧
      (perform (.yieldCurrent 0) state).1 = .err .generationOverflow ∧
      (perform (.yieldCurrent 0) state).2.taskState 5 = some (.running 0) ∧
      (perform (.yieldCurrent 0) state).2.current[(0 : CpuId)]? = some none := by
  intro state
  exact ⟨by decide, by simp [state], by decide, by decide, by decide⟩

end Scheduler

namespace KernelPolicy

/-- A step takes effect completely or not at all, and no sum in it overflows, exactly if the
counters that the event raises have room whenever the event is taken. -/
theorem step_atomic_iff (policy : KernelPolicy) (event : EventSequencer.Event) :
    ((step event).Inert policy ∧ (step event policy).1 ≠ .overflow) ↔
      ∀ shard, Takes policy event shard → Roomy event.kind shard := by
  constructor
  · rintro ⟨inert, bounded⟩ shard takes
    rw [← takes.step_ok_iff]
    cases ended : (step event policy).1 with
    | ok batch => exact ⟨batch, rfl⟩
    | err reason =>
        have moved := takes.lastGlobalEvent_step
        rw [inert reason ended] at moved
        exact absurd takes.newer (by simp [moved])
    | overflow => exact absurd ended bounded
  · intro roomy
    by_cases taken : ∃ shard, Takes policy event shard
    · obtain ⟨shard, takes⟩ := taken
      obtain ⟨batch, answered⟩ := takes.step_ok_iff.mpr (roomy shard takes)
      refine ⟨fun reason refused => ?_, ?_⟩
      · rw [answered] at refused
        cases refused
      · simp [answered]
    · obtain ⟨reason, refused⟩ := exists_step_eq_err (not_exists.mp taken)
      refine ⟨fun _ _ => ?_, ?_⟩
      · rw [refused]
      · simp [refused]

/-- A timer event at the last tick is refused after the policy has moved to it, one tick earlier the
deadline overflows, and a finished transfer finds no room for another task. -/
theorem refused_events_recorded :
    let policy (ticks : UInt64) (tasks : UInt32) : KernelPolicy :=
      ⟨(∅ : BTreeMap CpuId CpuShard).insert 0 ⟨0, 0, ticks, tasks, false⟩, 0⟩
    let timer : EventSequencer.Event := ⟨0, 1, none, .timer⟩
    let finished : EventSequencer.Event := ⟨0, 1, some 1, .dmaComplete 0⟩
    ((step timer (policy 0xffffffffffffffff 0)).1 = .err .tickOverflow ∧
        (step timer (policy 0xffffffffffffffff 0)).2.lastGlobalEvent = 1) ∧
      (step timer (policy 0xfffffffffffffffe 0)).1 = .overflow ∧
      (step finished (policy 0 0xffffffff)).1 = .err .taskOverflow ∧
      (step finished (policy 0 0xffffffff)).2.lastGlobalEvent = 1 := by
  intro policy timer finished
  exact ⟨⟨by decide, by decide⟩, rfl, by decide, by decide⟩

end KernelPolicy

end Bulla.Kernel
