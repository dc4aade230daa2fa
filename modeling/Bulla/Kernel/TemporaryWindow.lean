import Bulla.Kernel.Memory

/-!
# The temporary window

The kernel reaches physical memory through a window that shows one range at a time.  A mapping of
the window is a plain value that anyone can copy or make up; `revoke` takes back only the one that
is active.  The generation is advanced by `revoke`, so a mapping that is active carries the next
generation and all older ones are behind it.
-/

namespace Bulla.Kernel

open Rust Outcome

structure TemporaryMapping where
  virtualBase : UInt64
  physicalBase : UInt64
  len : UInt64
  generation : UInt64
  deriving DecidableEq, Repr

structure TemporaryMapWindow where
  base : UInt64
  len : UInt64
  nextGeneration : UInt64
  active : Option TemporaryMapping
  deriving DecidableEq, Repr

/-- The checks of `AddressSpace::map` on the capability for the frames. -/
structure FramesAdmitted (frames : Capability) : Prop where
  memory : frames.kind = .frame ∨ frames.kind = .physRegion
  readable : frames.rights.contains Rights.read = true

/-- In a live space and with a capability for it, `AddressSpace::map` refuses frames for their kind
or their rights exactly if they are not admitted. -/
theorem AddressSpace.framesAdmitted_iff {before : AddressSpace} {space : Capability}
    (alive : before.destroyed = false) (kind_eq : space.kind = .addressSpace)
    (rights : space.rights.contains Rights.map = true) (frames : Capability) (virtualBase : UInt64)
    (pageSize : PageSize) (pages : UInt64) (permissions : PagePermissions) :
    FramesAdmitted frames ↔
      (AddressSpace.map space frames virtualBase pageSize pages permissions before).1 ∉
        [.err .wrongFrameCapability, .err .missingRights] := by
  show _ ↔ Call.Ensures (AddressSpace.map space frames virtualBase pageSize pages permissions)
    (fun outcome _ => outcome ∉ [.err .wrongFrameCapability, .err .missingRights]) before
  simp only [AddressSpace.map]
  simp [alive, kind_eq, rights]
  constructor
  · rintro ⟨memory, readable⟩
    exact ⟨fun _ => readable, memory.resolve_left⟩
  · rintro ⟨readable, memory⟩
    exact ⟨or_iff_not_imp_left.mpr memory, readable memory⟩

namespace TemporaryMapWindow

def new (base len : UInt64) : TemporaryMapWindow := ⟨base, len, 1, none⟩

def map (window physical : Capability) : Call TemporaryMapWindow MapError TemporaryMapping := do
  rejectIf (window.kind ≠ .virtRegion) MapError.wrongWindowCapability
  rejectIf
    (window.rights.contains Rights.map = false ∨ physical.rights.contains Rights.read = false)
    MapError.missingRights
  rejectIf ((← get).active.isSome = true) MapError.windowFull
  rejectIf ((← get).len < physical.len ∨ window.containsRange (← get).base physical.len = false)
    MapError.outOfRange
  let mapping : TemporaryMapping :=
    ⟨(← get).base, physical.base, physical.len, (← get).nextGeneration⟩
  modify fun self => { self with active := some mapping }
  return mapping

/-- The mapping is given up before the generation is advanced. -/
def revoke (mapping : TemporaryMapping) : Call TemporaryMapWindow MapError Unit := do
  rejectIf ((← get).active ≠ some mapping) MapError.staleGeneration
  modify fun self => { self with active := none }
  let nextGeneration ← okOr (checkedAdd (← get).nextGeneration 1) MapError.epochOverflow
  modify fun self => { self with nextGeneration }

/-- One call of the mutating interface. -/
inductive Request where
  | map (window physical : Capability)
  | revoke (mapping : TemporaryMapping)
  deriving DecidableEq, Repr

/-- The mapping that a successful `map` returns. -/
def perform : Request → Call TemporaryMapWindow MapError (Option TemporaryMapping)
  | .map window physical => return some (← map window physical)
  | .revoke mapping => do
      revoke mapping
      return none

/-- What `map` has checked when it opens the window. -/
structure Exposable (before : TemporaryMapWindow) (window physical : Capability) : Prop where
  window_kind : window.kind = .virtRegion
  window_rights : window.rights.contains Rights.map = true
  readable : physical.rights.contains Rights.read = true
  vacant : before.active = none
  fits : physical.len.toNat ≤ before.len.toNat
  contained : window.containsRange before.base physical.len = true

/-- The effect of each way a call can end. -/
inductive Step (before : TemporaryMapWindow) :
    Request → Outcome MapError (Option TemporaryMapping) → TemporaryMapWindow → Prop
  | rejected (request : Request) {reason : MapError} (other : reason ≠ .epochOverflow) :
      Step before request (.err reason) before
  | mapped {window physical : Capability} (exposable : Exposable before window physical) :
      Step before (.map window physical)
        (.ok (some ⟨before.base, physical.base, physical.len, before.nextGeneration⟩))
        { before with
          active := some ⟨before.base, physical.base, physical.len, before.nextGeneration⟩ }
  | revoked {mapping : TemporaryMapping} {nextGeneration : UInt64}
      (current : before.active = some mapping)
      (advanced : nextGeneration.toNat = before.nextGeneration.toNat + 1) :
      Step before (.revoke mapping) (.ok none) { before with active := none, nextGeneration }
  | exhausted {mapping : TemporaryMapping} (current : before.active = some mapping)
      (last : 2 ^ 64 ≤ before.nextGeneration.toNat + 1) :
      Step before (.revoke mapping) (.err .epochOverflow) { before with active := none }

/-- Every call is one of the steps. -/
theorem step_perform (request : Request) (before : TemporaryMapWindow) :
    Step before request (perform request before).1 (perform request before).2 := by
  show Call.Ensures (perform request) (Step before request) before
  cases request with
  | map window physical =>
      simp only [perform, map]
      simp [Step.rejected]
      intro window_kind window_rights readable vacant fits contained
      exact .mapped ⟨window_kind, window_rights, readable, vacant,
        UInt64.le_iff_toNat_le.mp fits, contained⟩
  | revoke mapping =>
      simp only [perform, revoke]
      simp [Step.rejected]
      intro current
      exact ⟨fun _ advanced => .revoked current advanced,
        fun last => .exhausted current (by omega)⟩

abbrev WindowEvent : Type :=
  Rust.Event TemporaryMapWindow Request MapError (Option TemporaryMapping)

/-- The mapping that a successful `map` returns. -/
def returned (occurred : WindowEvent) : Option TemporaryMapping :=
  match occurred.input, occurred.outcome with
  | .map _ _, .ok mapping => mapping
  | _, _ => none

/-- The mapping that a successful `revoke` takes back. -/
def takenBack (occurred : WindowEvent) : Option TemporaryMapping :=
  match occurred.input, occurred.outcome with
  | .revoke mapping, .ok _ => some mapping
  | _, _ => none

/-- A mapping shows the whole of the physical range, inside the window and inside the capability for
the window. -/
structure Shows (base len : UInt64) (window physical : Capability) (mapping : TemporaryMapping) :
    Prop where
  base_eq : mapping.physicalBase = physical.base
  len_eq : mapping.len = physical.len
  above : base.toNat ≤ mapping.virtualBase.toNat
  below : mapping.virtualBase.toNat + mapping.len.toNat ≤ base.toNat + len.toNat
  window_above : window.base.toNat ≤ mapping.virtualBase.toNat
  window_below : mapping.virtualBase.toNat + mapping.len.toNat ≤
    window.base.toNat + window.len.toNat

/-- What a call may do after the calls before it. -/
structure Orderly (base len : UInt64) (past : List WindowEvent) (occurred : WindowEvent) :
    Prop where
  /-- The window is opened only while nothing is active. -/
  shows : ∀ window physical mapping, occurred.input = .map window physical →
    occurred.outcome = .ok (some mapping) →
    occurred.before.active = none ∧ Shows base len window physical mapping
  /-- Only the mapping of the last successful `map` is taken back, once. -/
  accepts : ∀ mapping, takenBack occurred = some mapping →
    latest returned past = some mapping ∧ mapping ∉ past.filterMap takenBack

/-- How the window agrees with the mappings that were returned and taken back. -/
structure Tracked (base len : UInt64) (past : List WindowEvent) (state : TemporaryMapWindow) :
    Prop where
  base_eq : state.base = base
  len_eq : state.len = len
  active_iff : ∀ mapping, state.active = some mapping ↔
    mapping ∈ past.filterMap returned ∧ mapping ∉ past.filterMap takenBack
  newest : ∀ mapping, state.active = some mapping → latest returned past = some mapping
  current : ∀ mapping, state.active = some mapping → mapping.generation = state.nextGeneration
  behind : ∀ mapping ∈ past.filterMap returned, state.active ≠ some mapping →
    mapping.generation < state.nextGeneration
  taken : ∀ mapping ∈ past.filterMap takenBack, mapping ∈ past.filterMap returned
  increasing : ((past.filterMap returned).map (·.generation)).Pairwise (· < ·)

theorem tracked_new (base len : UInt64) : Tracked base len [] (new base len) := by
  constructor <;> simp [new]

section Step

variable {base len : UInt64} {past : List WindowEvent} {before after : TemporaryMapWindow}
  {request : Request} {outcome : Outcome MapError (Option TemporaryMapping)}

theorem Tracked.orderly (tracked : Tracked base len past before)
    (step : Step before request outcome after) :
    Orderly base len past ⟨before, request, outcome, after⟩ := by
  cases step with
  | rejected request => exact ⟨by simp, by cases request <;> simp [takenBack]⟩
  | @mapped window physical exposable =>
      refine ⟨?_, by simp [takenBack]⟩
      rintro _ _ _ ⟨⟩ ⟨⟩
      obtain ⟨-, above, below⟩ := Capability.containsRange_iff.mp exposable.contained
      have fits := exposable.fits
      rw [tracked.len_eq] at fits
      refine ⟨exposable.vacant, rfl, rfl, ?_, ?_, above, below⟩
      · rw [tracked.base_eq]
      · rw [tracked.base_eq]
        exact Nat.add_le_add_left fits _
  | @revoked mapping nextGeneration current advanced =>
      refine ⟨by simp, ?_⟩
      rintro _ ⟨⟩
      exact ⟨tracked.newest mapping current, ((tracked.active_iff mapping).mp current).2⟩
  | exhausted => exact ⟨by simp, by simp [takenBack]⟩

/-- Everything that was returned has an older generation while nothing is active. -/
theorem Tracked.behind_of_vacant (tracked : Tracked base len past before)
    (vacant : before.active = none) :
    ∀ mapping ∈ past.filterMap returned, mapping.generation < before.nextGeneration :=
  fun mapping member => tracked.behind mapping member (by simp [vacant])

/-- A refused call moves nothing. -/
theorem Tracked.quiet (tracked : Tracked base len past before) {occurred : WindowEvent}
    (returned_none : returned occurred = none) (takenBack_none : takenBack occurred = none) :
    Tracked base len (past ++ [occurred]) before := by
  have returned_eq := filterMap_snoc_of_none past returned_none
  have takenBack_eq := filterMap_snoc_of_none past takenBack_none
  have latest_eq : latest returned (past ++ [occurred]) = latest returned past := by
    rw [latest_snoc, returned_none, Option.none_or]
  constructor
  · exact tracked.base_eq
  · exact tracked.len_eq
  · rw [returned_eq, takenBack_eq]
    exact tracked.active_iff
  · rw [latest_eq]
    exact tracked.newest
  · exact tracked.current
  · rw [returned_eq]
    exact tracked.behind
  · rw [returned_eq, takenBack_eq]
    exact tracked.taken
  · rw [returned_eq]
    exact tracked.increasing

/-- A mapping that is returned while nothing is active is the only one with the next generation. -/
theorem Tracked.mapped (tracked : Tracked base len past before) {occurred : WindowEvent}
    {mapping : TemporaryMapping} (vacant : before.active = none)
    (generation_eq : mapping.generation = before.nextGeneration)
    (returned_some : returned occurred = some mapping)
    (takenBack_none : takenBack occurred = none) :
    Tracked base len (past ++ [occurred]) { before with active := some mapping } := by
  have older := tracked.behind_of_vacant vacant
  have takenBack_eq := filterMap_snoc_of_none past takenBack_none
  have fresh : mapping ∉ past.filterMap returned := fun member =>
    UInt64.lt_irrefl _ (generation_eq ▸ older mapping member)
  constructor
  · exact tracked.base_eq
  · exact tracked.len_eq
  · intro other
    rw [mem_filterMap_snoc, takenBack_eq, returned_some]
    constructor
    · intro active
      obtain rfl := Option.some.inj active
      exact ⟨.inr rfl, fun gone => fresh (tracked.taken _ gone)⟩
    · rintro ⟨earlier | now, kept⟩
      · have active := (tracked.active_iff other).mpr ⟨earlier, kept⟩
        rw [vacant] at active
        cases active
      · exact now
  · intro other active
    rw [latest_snoc, returned_some, Option.some_or]
    exact active
  · intro other active
    obtain rfl := Option.some.inj active
    exact generation_eq
  · intro other member inactive
    rcases mem_filterMap_snoc.mp member with earlier | now
    · exact older other earlier
    · exact absurd (returned_some ▸ now) inactive
  · rw [takenBack_eq]
    exact fun other gone => mem_filterMap_snoc.mpr (.inl (tracked.taken other gone))
  · rw [filterMap_snoc, returned_some]
    exact pairwise_map_snoc tracked.increasing fun other member =>
      generation_eq ▸ older other member

/-- A mapping that is taken back leaves every returned mapping behind. -/
theorem Tracked.revoked (tracked : Tracked base len past before) {occurred : WindowEvent}
    {mapping : TemporaryMapping} {nextGeneration : UInt64} (current : before.active = some mapping)
    (advances : before.nextGeneration < nextGeneration)
    (returned_none : returned occurred = none)
    (takenBack_some : takenBack occurred = some mapping) :
    Tracked base len (past ++ [occurred]) { before with active := none, nextGeneration } := by
  have returned_eq := filterMap_snoc_of_none past returned_none
  constructor
  · exact tracked.base_eq
  · exact tracked.len_eq
  · intro other
    rw [returned_eq, mem_filterMap_snoc, takenBack_some]
    refine ⟨nofun, fun ⟨earlier, kept⟩ => ?_⟩
    obtain ⟨old, other_ne⟩ := not_or.mp kept
    have active := (tracked.active_iff other).mpr ⟨earlier, old⟩
    exact absurd (current.symm.trans active) other_ne
  · exact nofun
  · exact nofun
  · intro other member _
    rw [returned_eq] at member
    by_cases active : before.active = some other
    · rw [tracked.current other active]
      exact advances
    · exact UInt64.lt_trans (tracked.behind other member active) advances
  · intro other member
    rw [returned_eq]
    rcases mem_filterMap_snoc.mp member with earlier | now
    · exact tracked.taken other earlier
    · obtain rfl := Option.some.inj (takenBack_some.symm.trans now)
      exact ((tracked.active_iff mapping).mp current).1
  · rw [returned_eq]
    exact tracked.increasing

theorem Tracked.step (tracked : Tracked base len past before)
    (step : Step before request outcome after) (room : outcome ≠ .err .epochOverflow) :
    Tracked base len (past ++ [⟨before, request, outcome, after⟩]) after := by
  cases step with
  | rejected request =>
      refine tracked.quiet ?_ ?_
      · cases request <;> rfl
      · cases request <;> rfl
  | mapped exposable => exact tracked.mapped exposable.vacant rfl rfl rfl
  | revoked current advanced =>
      refine tracked.revoked current ?_ rfl rfl
      rw [UInt64.lt_iff_toNat_lt]
      omega
  | exhausted => exact absurd rfl room

end Step

/-- As long as `revoke` does not run out of generations, the window has at most one active mapping,
which is the one returned last and not yet taken back; it lies where it should; only it is taken
back; and the generations of the mappings increase. -/
theorem one_mapping_at_a_time (base len : UInt64) (requests : List Request)
    (room : ∀ occurred ∈ history perform (new base len) requests,
      occurred.outcome ≠ .err .epochOverflow) :
    (∀ mapping, (final perform (new base len) requests).active = some mapping ↔
      mapping ∈ (history perform (new base len) requests).filterMap returned ∧
        mapping ∉ (history perform (new base len) requests).filterMap takenBack) ∧
    Guarded (Orderly base len) [] (history perform (new base len) requests) ∧
    (((history perform (new base len) requests).filterMap returned).map (·.generation)).Pairwise
      (· < ·) := by
  have run := run_induction perform (motive := fun past state =>
    (∀ occurred ∈ past, occurred.outcome ≠ .err .epochOverflow) →
      Tracked base len past state ∧ Guarded (Orderly base len) [] past)
    (fun _ => ⟨tracked_new base len, trivial⟩) ?_ requests room
  · exact ⟨run.1.active_iff, run.2, run.1.increasing⟩
  · intro past state request induction room
    rw [List.forall_mem_append, List.forall_mem_singleton] at room
    obtain ⟨tracked, orderly⟩ := induction room.1
    have step := step_perform request state
    exact ⟨tracked.step step room.2, (guarded_snoc _ _ _).mpr ⟨orderly, tracked.orderly step⟩⟩

/-- A second `map` while the window is full, a stale and a forged `revoke` between two mappings. -/
theorem one_mapping_at_a_time_reopened :
    let window : Capability := ⟨.virtRegion, 0, 0, Rights.map, 0, 0x1000, 0x2000⟩
    let physical : Capability := ⟨.frame, 1, 0, Rights.read, 0, 0x8000, 0x1000⟩
    let requests : List Request := [.map window physical, .map window physical,
      .revoke ⟨0x1000, 0x8000, 0x1000, 1⟩, .revoke ⟨0x1000, 0x8000, 0x1000, 1⟩,
      .map window physical, .revoke ⟨0x1000, 0x8000, 0x1000, 3⟩]
    (history perform (new 0x1000 0x2000) requests).map (·.outcome) =
      [.ok (some ⟨0x1000, 0x8000, 0x1000, 1⟩), .err .windowFull, .ok none, .err .staleGeneration,
        .ok (some ⟨0x1000, 0x8000, 0x1000, 2⟩), .err .staleGeneration] ∧
    ∀ mapping, (final perform (new 0x1000 0x2000) requests).active = some mapping ↔
      mapping ∈ (history perform (new 0x1000 0x2000) requests).filterMap returned ∧
        mapping ∉ (history perform (new 0x1000 0x2000) requests).filterMap takenBack :=
  ⟨by decide, (one_mapping_at_a_time 0x1000 0x2000 _ (by decide)).1⟩

/-- The window is opened exactly if the checks pass. -/
theorem exists_map_iff {before : TemporaryMapWindow} {window physical : Capability} :
    (∃ mapping after, map window physical before = (.ok mapping, after)) ↔
      Exposable before window physical := by
  constructor
  · rintro ⟨mapping, after, opened⟩
    rw [Call.eq_iff_ensures] at opened
    simp only [map] at opened
    simp [UInt64.le_iff_toNat_le] at opened
    obtain ⟨checked, window_kind⟩ := opened
    obtain ⟨checked, window_rights, readable⟩ := checked window_kind
    obtain ⟨checked, vacant⟩ := checked window_rights readable
    obtain ⟨-, fits, contained⟩ := checked vacant
    exact ⟨window_kind, window_rights, readable, vacant, fits, contained⟩
  · rintro ⟨window_kind, window_rights, readable, vacant, fits, contained⟩
    refine ⟨⟨before.base, physical.base, physical.len, before.nextGeneration⟩,
      { before with
        active := some ⟨before.base, physical.base, physical.len, before.nextGeneration⟩ }, ?_⟩
    rw [Call.eq_iff_ensures]
    simp only [map]
    simp [UInt64.le_iff_toNat_le, window_kind, window_rights, readable, vacant, fits, contained]

/-- A window as long as the capability itself shows whatever can be read. -/
theorem exposable_of_readable {physical : Capability}
    (readable : physical.rights.contains Rights.read = true) :
    Exposable (new 0 physical.len) ⟨.virtRegion, 0, 0, Rights.map, 0, 0, physical.len⟩
      physical := by
  refine ⟨rfl, Rights.contains_self _, readable, rfl, le_rfl, Capability.containsRange_iff.mpr ?_⟩
  have bound := physical.len.toNat_lt
  simpa [new] using bound

/-- What the window shows is memory, for every window and at every time, exactly if the capability
for it cannot be read or is one for frames or for physical memory: `map` does not look at the
kind. -/
theorem shown_memory_admitted_iff (physical : Capability) :
    (∀ before window mapping after, map window physical before = (.ok mapping, after) →
        FramesAdmitted physical) ↔
      (physical.rights.contains Rights.read = true →
        physical.kind = .frame ∨ physical.kind = .physRegion) := by
  constructor
  · intro admitted readable
    obtain ⟨mapping, after, opened⟩ := exists_map_iff.mpr (exposable_of_readable readable)
    exact (admitted _ _ mapping after opened).memory
  · intro memory before window mapping after opened
    have exposable := exists_map_iff.mp ⟨mapping, after, opened⟩
    exact ⟨memory exposable.readable, exposable.readable⟩

/-- The window shows ports as physical memory, which `AddressSpace::map` refuses. -/
theorem ports_shown_as_memory :
    let window : Capability := ⟨.virtRegion, 0, 0, Rights.map, 0, 0x1000, 0x2000⟩
    let ports : Capability := ⟨.ioPort, 1, 0, Rights.read, 0, 0x3f8, 8⟩
    let space : Capability := ⟨.addressSpace, 2, 0, Rights.map, 0, 0, 0⟩
    map window ports (new 0x1000 0x2000) =
        (.ok ⟨0x1000, 0x3f8, 8, 1⟩, ⟨0x1000, 0x2000, 1, some ⟨0x1000, 0x3f8, 8, 1⟩⟩) ∧
      ¬FramesAdmitted ports ∧
      (AddressSpace.map space ports 0 .size4K 1 .read AddressSpace.new).1 =
        .err .wrongFrameCapability := by
  refine ⟨by decide, fun admitted => ?_, rfl⟩
  rcases admitted.memory with frame | region
  · cases frame
  · cases region

end TemporaryMapWindow

end Bulla.Kernel
