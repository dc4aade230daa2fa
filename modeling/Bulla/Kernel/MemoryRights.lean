import Bulla.Kernel.MemoryMap

/-!
# Rights behind mappings

`map` asks for the read right on the frames whatever permissions it installs, and `protect` does not
see the frames at all, so a mapping may permit more than its frame capability.  As long as no call
that passes all checks asks for a permission that the frames' rights do not carry, user writes reach
writable frames only and executable mappings come from executable frames.
-/

namespace Bulla.Kernel.AddressSpace

open Rust Outcome

/-- Write and execute permissions are carried by the corresponding rights. -/
def Within (permissions : PagePermissions) (rights : Rights) : Prop :=
  (permissions.contains .write = true → rights.contains .write = true) ∧
    (permissions.contains .execute = true → rights.contains .execute = true)

instance (permissions : PagePermissions) (rights : Rights) :
    Decidable (Within permissions rights) :=
  inferInstanceAs (Decidable (_ ∧ _))

/-- The checks that a call of `map` or `protect` passes before it writes a mapping. -/
def Passes (before : AddressSpace) : Request → Prop
  | .map space frames virtualBase pageSize pages permissions =>
      before.destroyed = false ∧ space.kind = .addressSpace ∧
        (frames.kind = .frame ∨ frames.kind = .physRegion) ∧
        space.rights.contains Rights.map = true ∧ frames.rights.contains Rights.read = true ∧
        isCanonicalX8664 virtualBase = true ∧ pages ≠ 0 ∧ permissions.bits ≠ 0 ∧
        ∃ bytes ∈ checkedMul pageSize.bytes pages,
          virtualBase % pageSize.bytes = 0 ∧ frames.base % pageSize.bytes = 0 ∧
          frames.containsRange frames.base bytes = true ∧
          ∃ stop ∈ checkedAdd virtualBase bytes,
            before.mappings.toList.any (overlaps virtualBase stop) = false ∧
            (checkedAdd before.epoch 1).isSome = true
  | .protect space virtualBase permissions =>
      before.destroyed = false ∧ space.kind = .addressSpace ∧
        space.rights.contains Rights.map = true ∧ permissions.bits ≠ 0 ∧
        (checkedAdd before.epoch 1).isSome = true ∧ virtualBase ∈ before.mappings
  | _ => True

instance (before : AddressSpace) : (request : Request) → Decidable (Passes before request)
  | .map .. | .protect .. => inferInstanceAs (Decidable (_ ∧ _))
  | .unmap _ | .activate .. | .deactivate .. | .destroy _ => instDecidableTrue

/-- A call that passes all checks asks for no permission beyond the rights of the frames it
concerns: those it is given, or those the mapping at its virtual base was made from. -/
def Granted (past : List SpaceEvent) (occurred : SpaceEvent) : Prop :=
  match occurred.input with
  | .map _ frames _ _ _ permissions =>
      Passes occurred.before occurred.input → Within permissions frames.rights
  | .protect _ virtualBase permissions =>
      Passes occurred.before occurred.input →
        ∀ frames ∈ source past virtualBase, Within permissions frames.rights
  | _ => True

instance (past : List SpaceEvent) : (occurred : SpaceEvent) → Decidable (Granted past occurred)
  | ⟨_, .map .., _, _⟩ => inferInstanceAs (Decidable (_ → Within _ _))
  | ⟨_, .protect .., _, _⟩ => inferInstanceAs (Decidable (_ → ∀ frames ∈ _, Within _ _))
  | ⟨_, .unmap _, _, _⟩ | ⟨_, .activate .., _, _⟩ | ⟨_, .deactivate .., _, _⟩
  | ⟨_, .destroy _, _, _⟩ => instDecidableTrue

/-- A call that succeeds has passed all checks. -/
theorem passes_of_ok {before : AddressSpace} {request : Request} {reply : Option Mapping}
    (accepted : (perform request before).1 = .ok reply) : Passes before request := by
  have passes : Call.Ensures (perform request) (fun outcome _ =>
      ∀ reply, outcome = .ok reply → Passes before request) before := by
    cases request with
    | map space frames virtualBase pageSize pages permissions =>
        simp only [perform, map]
        simp
        intro alive kind frame_kind mappable readable canonical positive permitted bytes bytes_eq
          virtual_aligned physical_aligned contained stop stop_eq clear epoch advanced
        refine ⟨alive, kind, or_iff_not_imp_left.mpr frame_kind, mappable, readable, canonical,
          positive, permitted, bytes, checkedMul_eq_some.mpr bytes_eq, virtual_aligned,
          physical_aligned, contained, stop, checkedAdd_eq_some.mpr stop_eq,
          by simpa using clear, ?_⟩
        rw [checkedAdd_eq_some.mpr advanced]
        rfl
    | protect space virtualBase permissions =>
        simp only [perform, protect]
        simp
        intro alive kind mappable permitted epoch advanced old present
        refine ⟨alive, kind, mappable, permitted, ?_, BTreeMap.mem_of_present present⟩
        rw [checkedAdd_eq_some.mpr advanced]
        rfl
    | unmap | activate | deactivate | destroy => exact fun _ _ => trivial
  exact passes reply accepted

/-- Live mappings permit no more than the frames they were made from. -/
def Rightful (past : List SpaceEvent) (state : AddressSpace) : Prop :=
  ∀ (key : UInt64) (mapping : Mapping) (frames : Capability),
    state.mappings[key]? = some mapping → source past key = some frames →
    Within mapping.permissions frames.rights

/-- A call that grants no frames leaves the source of every mapping as it was. -/
theorem source_of_no_grant {past : List SpaceEvent} {occurred : SpaceEvent} {key : UInt64}
    (no_grant : frameGrant key occurred = none) :
    source (past ++ [occurred]) key = source past key := by
  rw [source, latest_snoc, no_grant, Option.none_or, source]

/-- Every call that asks for no permission beyond the rights keeps mappings rightful. -/
theorem rightful_step {past : List SpaceEvent} {before after : AddressSpace} {request : Request}
    {outcome : Outcome MapError (Option Mapping)} (rightful : Rightful past before)
    (granted : Granted past ⟨before, request, outcome, after⟩)
    (passes : ∀ reply, outcome = .ok reply → Passes before request)
    (step : Step before request outcome after) :
    Rightful (past ++ [⟨before, request, outcome, after⟩]) after := by
  intro key mapping frames found sourced
  cases step with
  | rejected request reason =>
      rw [source_of_no_grant (by cases request <;> rfl)] at sourced
      exact rightful key mapping frames found sourced
  | @mapped space given virtualBase pages epoch pageSize permissions mappable advanced =>
      rw [source, latest_snoc, frameGrant] at sourced
      rcases BTreeMap.getElem?_insert_eq_some.mp found with ⟨rfl, rfl⟩ | ⟨distinct, old⟩
      · obtain rfl : given = frames := by simpa using sourced
        exact granted (passes _ rfl)
      · exact rightful key mapping frames old (by simpa [distinct, source] using sourced)
  | unmapped alive present advanced =>
      rw [source_of_no_grant rfl] at sourced
      exact rightful key mapping frames (BTreeMap.getElem?_erase_eq_some.mp found).2 sourced
  | unmapExhausted alive present exhausted =>
      rw [source_of_no_grant rfl] at sourced
      exact rightful key mapping frames (BTreeMap.getElem?_erase_eq_some.mp found).2 sourced
  | reprotected alive permitted present advanced =>
      rw [source_of_no_grant rfl] at sourced
      rcases BTreeMap.getElem?_insert_eq_some.mp found with ⟨rfl, rfl⟩ | ⟨_, old⟩
      · exact granted (passes _ rfl) frames sourced
      · exact rightful key mapping frames old sourced
  | protectMissed alive absent advanced =>
      rw [source_of_no_grant rfl] at sourced
      exact rightful key mapping frames found sourced
  | activated alive =>
      rw [source_of_no_grant rfl] at sourced
      exact rightful key mapping frames found sourced
  | deactivated active =>
      rw [source_of_no_grant rfl] at sourced
      exact rightful key mapping frames found sourced
  | destroyed inactive unmapped =>
      rw [source_of_no_grant rfl] at sourced
      exact rightful key mapping frames found sourced

theorem rightful_run (requests : List Request)
    (granted : Guarded Granted [] (history perform new requests)) :
    Rightful (history perform new requests) (final perform new requests) := by
  refine run_induction perform (motive := fun past state =>
    Guarded Granted [] past → Rightful past state) ?_ ?_ requests granted
  · intro _ key mapping frames found
    simp [new] at found
  · intro past state request rightful granted
    rw [guarded_append] at granted
    exact rightful_step (rightful granted.1) granted.2.1 (fun _ => passes_of_ok)
      (step_perform request state)

/-- A byte that passes the user check was translated through a mapping with the permissions. -/
theorem validateUserByte_eq_ok {past : List SpaceEvent} {state : AddressSpace}
    (represented : Represented past state) {start physical : UInt64} {right : PagePermissions}
    {offset : ℕ} (validated : state.validateUserByte start right offset = .ok physical) :
    ∃ (key : UInt64) (mapping : Mapping), state.mappings[key]? = some mapping ∧
      physical.toNat ∈ mapping.physical.cells ∧ mapping.permissions.contains right = true := by
  simp only [validateUserByte, bind_eq_ok, rejectIf_eq_ok, pure_eq, ok.injEq] at validated
  obtain ⟨virtualAddress, -, ⟨answer, permissions⟩, translated, _, permitted, rfl⟩ := validated
  rcases represented.translate_spec virtualAddress with
    ⟨key, mapping, reached, found, inside, reached_eq, translated_eq⟩ | ⟨reason, _, refused⟩
  · obtain ⟨rfl, rfl⟩ : reached = answer ∧ mapping.permissions = permissions := by
      simpa using translated_eq.symm.trans translated
    refine ⟨key, mapping, found, ?_, ?_⟩
    · simp only [Span.mem_cells, Mapping.virtual, Mapping.physical] at inside ⊢
      omega
    · exact (PagePermissions.contains_union.mp (Bool.not_eq_false _ ▸ permitted)).2
  · rw [refused] at translated
    cases translated

/-- Frames handed to a successful `map` call of the run. -/
def Mapped (past : List SpaceEvent) (frames : Capability) : Prop :=
  ∃ occurred ∈ past, ∃ virtualBase, frameGrant virtualBase occurred = some frames

theorem input_of_frameGrant {virtualBase : UInt64} {occurred : SpaceEvent} {frames : Capability}
    (granted : frameGrant virtualBase occurred = some frames) :
    ∃ space pageSize pages permissions,
      occurred.input = .map space frames virtualBase pageSize pages permissions := by
  unfold frameGrant at granted
  split at granted
  next space given base pageSize pages permissions _ input_eq _ =>
    split at granted
    next same =>
      obtain rfl : given = frames := by simpa using granted
      exact ⟨space, pageSize, pages, permissions, same ▸ input_eq⟩
    next => cases granted
  next => cases granted

theorem mapped_of_source {past : List SpaceEvent} {key : UInt64} {frames : Capability}
    (sourced : source past key = some frames) : Mapped past frames := by
  obtain ⟨occurred, member, granted⟩ :=
    List.mem_filterMap.mp (List.mem_of_getLast? sourced)
  exact ⟨occurred, member, key, granted⟩

/-- When no call that passes all checks asks for a permission beyond the rights of its frames, a
user copy writes only to frames mapped with the write right, and executable mappings are made from
executable frames. -/
theorem rights_never_widened (requests : List Request)
    (granted : Guarded Granted [] (history perform new requests)) :
    (∀ (userAddress : UInt64) (input : List UInt8) (memory after : UserMemory),
      (final perform new requests).copyToUser userAddress input memory = (.ok (), after) →
      ∃ addresses, (final perform new requests).validateUserRange userAddress input.length .write =
          .ok addresses ∧
        after = ⟨(addresses.zip input).foldl (fun bytes write => bytes.insert write.1 write.2)
          memory.bytes⟩ ∧
        ∀ physical ∈ addresses, ∃ frames, Mapped (history perform new requests) frames ∧
          (frames.kind = .frame ∨ frames.kind = .physRegion) ∧
          frames.rights.contains .write = true ∧ physical.toNat ∈ frames.span.cells) ∧
    ∀ (key : UInt64) (mapping : Mapping),
      (final perform new requests).mappings[key]? = some mapping →
      mapping.permissions.contains .execute = true →
      ∃ frames, source (history perform new requests) key = some frames ∧
        frames.rights.contains .execute = true := by
  have represented := represented_run requests
  have rightful := rightful_run requests granted
  constructor
  · intro userAddress input memory after copied
    simp only [copyToUser, Call.bind_eq_ok, Call.lift_apply, Call.modify_apply, Prod.mk.injEq]
      at copied
    obtain ⟨addresses, _, ⟨validated, rfl⟩, -, written⟩ := copied
    refine ⟨addresses, validated, written.symm, ?_⟩
    intro physical member
    obtain ⟨offset, -, byte_validated⟩ := exists_of_mapM_eq_ok validated physical member
    obtain ⟨key, mapping, found, inside, writable⟩ :=
      validateUserByte_eq_ok represented byte_validated
    obtain ⟨frames, sourced, backs⟩ := represented.backed _ _ found
    refine ⟨frames, mapped_of_source sourced, backs.kind,
      (rightful key mapping frames found sourced).1 writable, ?_⟩
    have fits := backs.fits
    simp only [Span.mem_cells, Mapping.physical, Capability.span, backs.base] at inside ⊢
    omega
  · intro key mapping found executable
    obtain ⟨frames, sourced, -⟩ := represented.backed _ _ found
    exact ⟨frames, sourced, (rightful key mapping frames found sourced).2 executable⟩

/-- A page is mapped to be read and then opened to writes and execution, which its frame allows.  In
between a call asks for more than its frame allows, and is refused for its place. -/
def openedPage : List Request :=
  let space : Capability := ⟨.addressSpace, 0, 0, .map, 0, 0, 0⟩
  [.map space ⟨.frame, 0, 0, (Rights.read.union .write).union .execute, 0, 0x1000, 0x1000⟩ 0x4000
      .size4K 1 (PagePermissions.user.union .read),
    .map space ⟨.frame, 0, 0, .read, 0, 0x2000, 0x1000⟩ 0x4000 .size4K 1
      (PagePermissions.user.union .write),
    .protect space 0x4000 ((PagePermissions.user.union .write).union .execute)]

theorem rights_never_widened_opened_page :
    Guarded Granted [] (history perform new openedPage) ∧
      ((final perform new openedPage).copyToUser 0x4001 [7] ⟨∅⟩).1 = .ok () ∧
      (∃ frames, Mapped (history perform new openedPage) frames ∧
        frames.rights.contains .write = true ∧ 0x1001 ∈ frames.span.cells) ∧
      ∃ frames, source (history perform new openedPage) 0x4000 = some frames ∧
        frames.rights.contains .execute = true := by
  have granted : Guarded Granted [] (history perform new openedPage) := by decide
  obtain ⟨writes, executes⟩ := rights_never_widened openedPage granted
  have copied : ((final perform new openedPage).copyToUser 0x4001 [7] ⟨∅⟩).1 = .ok () := by decide
  refine ⟨granted, copied, ?_, executes 0x4000 ⟨0x4000, 0x1000, .size4K, 1,
    (PagePermissions.user.union .write).union .execute, 2⟩ (by decide) (by decide)⟩
  obtain ⟨addresses, validated, -, backed⟩ := writes 0x4001 [7] ⟨∅⟩ _ (Prod.ext copied rfl)
  obtain rfl : [0x1001] = addresses := by
    have found : (final perform new openedPage).validateUserRange 0x4001 1 .write =
      .ok [0x1001] := by decide
    exact Outcome.ok.inj (found.symm.trans validated)
  obtain ⟨frames, mapped, -, writable, inside⟩ := backed 0x1001 List.mem_cons_self
  exact ⟨frames, mapped, writable, inside⟩

/-- A user copy writes to a frame that was mapped with the read right only. -/
theorem copy_writes_read_only_frame :
    ∃ requests, (final perform new requests).validateUserRange 0x4000 1 .write = .ok [0x1000] ∧
      ((final perform new requests).copyToUser 0x4000 [7] ⟨∅⟩).1 = .ok () ∧
      ∀ frames, Mapped (history perform new requests) frames →
        frames.rights.contains .write = false := by
  refine ⟨[.map ⟨.addressSpace, 0, 0, .map, 0, 0, 0⟩ ⟨.frame, 0, 0, .read, 0, 0x1000, 0x1000⟩
    0x4000 .size4K 1 (PagePermissions.user.union .write)], by decide, by decide, ?_⟩
  rintro frames ⟨occurred, member, virtualBase, granted⟩
  obtain rfl := List.mem_singleton.mp member
  obtain ⟨_, _, _, _, input_eq⟩ := input_of_frameGrant granted
  obtain ⟨-, rfl, -⟩ := Request.map.inj input_eq
  decide

end Bulla.Kernel.AddressSpace
