import Bulla.Kernel.DmaSlots

/-!
# Domains and apertures

`register_domain` writes the record of a domain before it reports that the identifier is taken.  A
device stays inside the apertures that were accepted for it exactly in the runs in which no refused
registration brings a record that `map_domain` can tell from the one it replaces.
-/

namespace Bulla.Kernel

open Rust Outcome

/-- Two records that `map_domain` cannot tell apart: it looks at the aperture only if there is a
unit to translate addresses. -/
structure IommuDomain.Alike (left right : IommuDomain) : Prop where
  id : left.id = right.id
  device : left.device = right.device
  mode : left.mode = right.mode
  aperture : left.mode = .present →
    left.apertureBase = right.apertureBase ∧ left.apertureLen = right.apertureLen

theorem IommuDomain.Alike.refl (domain : IommuDomain) : domain.Alike domain :=
  ⟨rfl, rfl, rfl, fun _ => ⟨rfl, rfl⟩⟩

theorem IommuDomain.Alike.trans {first second third : IommuDomain} (left : first.Alike second)
    (right : second.Alike third) : first.Alike third := by
  refine ⟨left.id.trans right.id, left.device.trans right.device, left.mode.trans right.mode, ?_⟩
  intro mode
  obtain ⟨left_base, left_len⟩ := left.aperture mode
  obtain ⟨right_base, right_len⟩ := right.aperture (left.mode ▸ mode)
  exact ⟨left_base.trans right_base, left_len.trans right_len⟩

namespace DmaState

/-- Two states that differ in nothing that `map_domain` can tell. -/
structure Alike (left right : DmaState) : Prop where
  mappings : left.mappings = right.mappings
  generations : left.generations = right.generations
  segments : left.segments = right.segments
  domains : ∀ id : UInt32, Option.Rel IommuDomain.Alike left.domains[id]? right.domains[id]?

theorem checkMode_congr {left right : IommuDomain} (alike : left.Alike right) (mapping : DmaMapping)
    (domainCapability : Option Capability) (deviceAddress : UInt64) :
    checkMode left mapping domainCapability deviceAddress =
      checkMode right mapping domainCapability deviceAddress := by
  obtain ⟨id_eq, _, mode_eq, aperture⟩ := alike
  unfold checkMode
  cases mode : left.mode with
  | absentIdentity => simp only [← mode_eq, mode]
  | present =>
      obtain ⟨base_eq, len_eq⟩ := aperture mode
      simp only [← mode_eq, mode, id_eq, base_eq, len_eq]

theorem alike_of_domains {mappings : BTreeMap UInt32 DmaMapping}
    {generations : BTreeMap UInt32 UInt64} {segments : BTreeMap UInt32 (List DmaSegment)}
    {left right : BTreeMap UInt32 IommuDomain}
    (domains : ∀ id : UInt32, Option.Rel IommuDomain.Alike left[id]? right[id]?) :
    Alike ⟨mappings, generations, left, segments⟩ ⟨mappings, generations, right, segments⟩ :=
  ⟨rfl, rfl, rfl, domains⟩

section Domains

variable {left right : BTreeMap UInt32 IommuDomain}
  (domains : ∀ id : UInt32, Option.Rel IommuDomain.Alike left[id]? right[id]?)

include domains

theorem rel_insert (domain : IommuDomain) (id : UInt32) :
    Option.Rel IommuDomain.Alike (left.insert domain.id domain)[id]?
      (right.insert domain.id domain)[id]? := by
  by_cases same : domain.id = id
  · subst same
    simpa using Option.Rel.some (IommuDomain.Alike.refl domain)
  · rw [BTreeMap.getElem?_insert_of_ne _ _ same, BTreeMap.getElem?_insert_of_ne _ _ same]
    exact domains id

theorem mem_iff_of_rel (id : UInt32) : id ∈ left ↔ id ∈ right := by
  have related := domains id
  rw [Std.ExtTreeMap.mem_iff_isSome_getElem?, Std.ExtTreeMap.mem_iff_isSome_getElem?]
  generalize left[id]? = leftFound at related ⊢
  generalize right[id]? = rightFound at related ⊢
  cases related <;> rfl

end Domains

theorem Alike.coupled {left right : DmaState} (alike : Alike left right) (request : Request) :
    Call.Coupled Alike (perform request) (perform request) left right := by
  obtain ⟨mappings, generations, leftDomains, segments⟩ := left
  obtain ⟨_, _, rightDomains, _⟩ := right
  obtain ⟨rfl, rfl, rfl, domains⟩ := alike
  replace domains : ∀ id : UInt32,
      Option.Rel IommuDomain.Alike leftDomains[id]? rightDomains[id]? := domains
  cases request with
  | pin region request =>
      simp only [perform, pin]
      simp [alike_of_domains domains]
  | registerDomain domain =>
      have inserted := rel_insert domains domain
      simp only [perform, registerDomain]
      simp [alike_of_domains domains]
      intro _ _
      refine (Call.coupled_lift_bind_of_eq (alike_of_domains inserted) ?_).mpr fun _ _ => ?_
      · simp [rejectIf, mem_iff_of_rel domains domain.id]
      · exact Call.coupled_pure.mpr (alike_of_domains inserted)
  | mapDomain slot mapping domainCapability deviceAddress =>
      simp only [perform, mapDomain]
      simp [alike_of_domains domains]
      intro live _ _ _
      have related := domains mapping.domain
      generalize leftDomains[mapping.domain]? = leftFound at related ⊢
      generalize rightDomains[mapping.domain]? = rightFound at related ⊢
      cases related with
      | none => simp [okOr, alike_of_domains domains]
      | some alike =>
          refine Call.coupled_ok_bind.mpr ?_
          simp [checkMode_congr alike, alike.device, alike_of_domains domains]
  | unmapDomain slot mapping =>
      simp only [perform, unmapDomain]
      simp [alike_of_domains domains]
  | unpin slot mapping =>
      simp only [perform, unpin]
      simp [alike_of_domains domains]
  | syncForDevice slot mapping =>
      simp only [perform, syncForDevice, transitionOwnership]
      simp [alike_of_domains domains]
  | syncForCpu slot mapping =>
      simp only [perform, syncForCpu, transitionOwnership]
      simp [alike_of_domains domains]

/-- A run of calls cannot tell such states apart. -/
theorem Alike.mapDomain_eq {left right : DmaState} (alike : Alike left right)
    (later : List Request) (slot : UInt32) (mapping : DmaMapping)
    (domainCapability : Option Capability) (deviceAddress : UInt64) :
    (perform (.mapDomain slot mapping domainCapability deviceAddress)
        (final perform left later)).1 =
      (perform (.mapDomain slot mapping domainCapability deviceAddress)
        (final perform right later)).1 :=
  ((related_final perform alike (fun request _ _ alike => alike.coupled request) later).coupled _).1

/-- The answer of `map_domain` for a slot that is pinned and not yet visible. -/
def answer (domain : IommuDomain) (mapping : DmaMapping) (domainCapability : Option Capability)
    (deviceAddress : UInt64) : Outcome DmaError Reply := do
  rejectIf (domain.device ≠ mapping.device) DmaError.foreignDevice
  checkMode domain mapping domainCapability deviceAddress
  return .segments [⟨deviceAddress, mapping.len⟩]

/-- A slot that `map_domain` can be called on. -/
structure Ready (state : DmaState) (slot : UInt32) (live : DmaMapping) : Prop where
  pinned : state.mappings[slot]? = some live
  invisible : state.segments[slot]? = none

theorem Ready.mapDomain_eq {state : DmaState} {slot : UInt32} {live : DmaMapping}
    (ready : Ready state slot live) {mapping : DmaMapping} {domain : IommuDomain}
    (generation_eq : live.generation = mapping.generation)
    (registered : state.domains[mapping.domain]? = some domain)
    (domainCapability : Option Capability) (deviceAddress : UInt64) :
    (perform (.mapDomain slot mapping domainCapability deviceAddress) state).1 =
      answer domain mapping domainCapability deviceAddress := by
  show Call.Ensures (perform (.mapDomain slot mapping domainCapability deviceAddress))
    (fun outcome _ => outcome = answer domain mapping domainCapability deviceAddress) state
  have unmapped : slot ∉ state.segments := by simpa using ready.invisible
  simp only [perform, mapDomain]
  simp [ready.pinned, generation_eq, unmapped, registered]
  constructor
  · intro device_eq
    refine ⟨fun value accepted => ?_, fun reason refused => ?_, fun overflowed => ?_⟩
    · simp [answer, rejectIf, device_eq, accepted]
    · simp [answer, rejectIf, device_eq, refused]
    · simp [answer, rejectIf, device_eq, overflowed]
  · intro foreign
    simp [answer, rejectIf, foreign]

section Clearing

variable (state : DmaState) {slot : UInt32} {live : DmaMapping}

theorem perform_unmapDomain {segments : List DmaSegment}
    (pinned : state.mappings[slot]? = some live)
    (ownership : live.ownership = .cpu) (shown : state.segments[slot]? = some segments) :
    (perform (.unmapDomain slot live) state).2 =
      { state with segments := state.segments.erase slot } := by
  simp [perform, unmapDomain, Call.bind_apply, okOr, rejectIf, pinned, shown, ownership]

theorem perform_syncForCpu (pinned : state.mappings[slot]? = some live)
    (ownership : live.ownership = .device) :
    (perform (.syncForCpu slot live) state).2 =
      { state with mappings := state.mappings.insert slot { live with ownership := .cpu } } := by
  simp [perform, syncForCpu, transitionOwnership, Call.bind_apply, okOr, rejectIf, pinned,
    ownership]

theorem perform_pin (absent : state.mappings[slot]? = none) :
    (perform (.pin ⟨.dma, 0, 0, Rights.read.union .write, 0, 0, 1⟩ ⟨slot, 0, 0, 0, 1, .toDevice⟩)
      state).2 =
      { state with
        mappings := state.mappings.insert slot
          ⟨0, 0, 0, 1, .toDevice, (state.generations[slot]?).getD 0, .cpu⟩ } := by
  have vacant : slot ∉ state.mappings := (getElem?_eq_none_iff _ _).mp absent
  have contained : Capability.containsRange ⟨.dma, 0, 0, Rights.read.union .write, 0, 0, 1⟩ 0 1 =
      true := by decide
  simp [perform, pin, Call.bind_apply, rejectIf, vacant, contained]

/-- Every slot can be made ready without a look at the domains. -/
theorem Tethered.exists_ready {state : DmaState} (tethered : Tethered state) (slot : UInt32) :
    ∃ later live, ∀ domains,
      Ready (final perform { state with domains } later) slot live ∧
        (final perform { state with domains } later).domains = domains := by
  rcases pinned : state.mappings[slot]? with _ | live
  · have invisible : state.segments[slot]? = none := by
      rw [getElem?_eq_none_iff] at pinned ⊢
      exact fun shown => pinned (tethered slot shown)
    refine ⟨[.pin ⟨.dma, 0, 0, Rights.read.union .write, 0, 0, 1⟩ ⟨slot, 0, 0, 0, 1, .toDevice⟩],
      ⟨0, 0, 0, 1, .toDevice, (state.generations[slot]?).getD 0, .cpu⟩, fun domains => ?_⟩
    simp only [final, event, perform_pin { state with domains } pinned]
    exact ⟨⟨Std.ExtTreeMap.getElem?_insert_self, invisible⟩, trivial⟩
  · rcases shown : state.segments[slot]? with _ | segments
    · exact ⟨[], live, fun domains => ⟨⟨pinned, shown⟩, rfl⟩⟩
    · cases ownership : live.ownership with
      | cpu =>
          refine ⟨[.unmapDomain slot live], live, fun domains => ?_⟩
          simp only [final, event,
            perform_unmapDomain { state with domains } pinned ownership shown]
          exact ⟨⟨pinned, Std.ExtTreeMap.getElem?_erase_self⟩, trivial⟩
      | device =>
          refine ⟨[.syncForCpu slot live, .unmapDomain slot { live with ownership := .cpu }],
            { live with ownership := .cpu }, fun domains => ?_⟩
          have returned : (state.mappings.insert slot { live with ownership := .cpu })[slot]? =
              some { live with ownership := .cpu } := Std.ExtTreeMap.getElem?_insert_self
          have hidden := perform_unmapDomain
            { state with domains, mappings := state.mappings.insert slot _ } returned rfl shown
          simp only [final, event, perform_syncForCpu { state with domains } pinned ownership,
            hidden]
          exact ⟨⟨returned, Std.ExtTreeMap.getElem?_erase_self⟩, trivial⟩

end Clearing

/-- A domain in `Present` mode admits, for the right capability, what lies in its aperture. -/
theorem checkMode_present {domain : IommuDomain} {mapping : DmaMapping}
    {domainCapability : Option Capability} {deviceAddress : UInt64} {value : Unit}
    (mode : domain.mode = .present)
    (bounded : domain.apertureBase.toNat + domain.apertureLen.toNat < 2 ^ 64) :
    checkMode domain mapping domainCapability deviceAddress = .ok value ↔
      (∃ capability ∈ domainCapability, capability.kind = .iommuDomain ∧
        capability.rights.contains Rights.map = true ∧ capability.slot = domain.id) ∧
      domain.apertureBase.toNat ≤ deviceAddress.toNat ∧
      deviceAddress.toNat + mapping.len.toNat ≤
        domain.apertureBase.toNat + domain.apertureLen.toNat := by
  simp only [checkMode, mode, bind_eq_ok, okOr_eq_ok, rejectIf_eq_ok, checkedAdd_eq_some, not_or,
    not_not, UInt64.not_lt, Bool.not_eq_false, UInt64.le_iff_toNat_le, Option.mem_def]
  constructor
  · rintro ⟨capability, given, _, held, stop, stop_eq, apertureEnd, end_eq, above, below⟩
    rw [stop_eq, end_eq] at below
    exact ⟨⟨capability, given, held⟩, above, below⟩
  · rintro ⟨⟨capability, given, held⟩, above, below⟩
    obtain ⟨stop, stop_eq⟩ := exists_toNat_eq (below.trans_lt bounded)
    obtain ⟨apertureEnd, end_eq⟩ := exists_toNat_eq bounded
    refine ⟨capability, given, (), held, stop, stop_eq, apertureEnd, end_eq, above, ?_⟩
    rw [stop_eq, end_eq]
    exact below

theorem answer_present {domain : IommuDomain} (mapping : DmaMapping) (deviceAddress : UInt64)
    {id : UInt32} (id_eq : domain.id = id) (device_eq : domain.device = mapping.device)
    (mode : domain.mode = .present)
    (bounded : domain.apertureBase.toNat + domain.apertureLen.toNat < 2 ^ 64) :
    answer domain mapping (some ⟨.iommuDomain, id, 0, Rights.map, 0, 0, 0⟩) deviceAddress =
        .ok (.segments [⟨deviceAddress, mapping.len⟩]) ↔
      domain.apertureBase.toNat ≤ deviceAddress.toNat ∧
      deviceAddress.toNat + mapping.len.toNat ≤
        domain.apertureBase.toNat + domain.apertureLen.toNat := by
  simp [answer, id_eq, device_eq, checkMode_present mode bounded]

/-- Records that get the same answers are alike. -/
theorem alike_of_answer {left right : IommuDomain} (generation : UInt64)
    (left_bounded : left.apertureBase.toNat + left.apertureLen.toNat < 2 ^ 64)
    (right_bounded : right.apertureBase.toNat + right.apertureLen.toNat < 2 ^ 64)
    (id_eq : left.id = right.id)
    (same : ∀ mapping domainCapability deviceAddress, mapping.domain = left.id →
      mapping.generation = generation →
      answer left mapping domainCapability deviceAddress =
        answer right mapping domainCapability deviceAddress) : left.Alike right := by
  have plain := same ⟨left.device, left.id, 0, 0, .toDevice, generation, .cpu⟩ none 0 rfl rfl
  have device_eq : left.device = right.device := by
    by_contra foreign
    cases mode : left.mode <;>
      simp [answer, checkMode, mode, rejectIf, okOr, Ne.symm foreign] at plain
  have mode_eq : left.mode = right.mode := by
    cases left_mode : left.mode <;> cases right_mode : right.mode <;>
      simp [answer, checkMode, rejectIf, okOr, device_eq, left_mode, right_mode] at plain ⊢
  refine ⟨id_eq, device_eq, mode_eq, fun mode => ?_⟩
  -- Each aperture as a whole is admitted by its own record, and so by the other.
  have admitted (base len : UInt64) :
      (left.apertureBase.toNat ≤ base.toNat ∧
        base.toNat + len.toNat ≤ left.apertureBase.toNat + left.apertureLen.toNat) ↔
      (right.apertureBase.toNat ≤ base.toNat ∧
        base.toNat + len.toNat ≤ right.apertureBase.toNat + right.apertureLen.toNat) := by
    let handle : DmaMapping := ⟨left.device, left.id, 0, len, .toDevice, generation, .cpu⟩
    rw [← answer_present handle base rfl rfl mode left_bounded,
      ← answer_present handle base id_eq.symm device_eq.symm (mode_eq ▸ mode) right_bounded,
      same handle _ base rfl rfl]
  have left_inside := (admitted left.apertureBase left.apertureLen).mp ⟨le_rfl, le_rfl⟩
  have right_inside := (admitted right.apertureBase right.apertureLen).mpr ⟨le_rfl, le_rfl⟩
  rw [← UInt64.toNat_inj, ← UInt64.toNat_inj]
  omega

/-- A record whose registration was accepted. -/
def Registered (past : List DmaEvent) (domain : IommuDomain) : Prop :=
  ∃ occurred ∈ past, occurred.input = .registerDomain domain ∧ occurred.outcome = .ok .done

/-- What `map_domain` shows to a device through a domain in `Present` mode lies inside an aperture
that was accepted for this domain and this device. -/
def Confined (past : List DmaEvent) (occurred : DmaEvent) : Prop :=
  ∀ slot mapping domainCapability deviceAddress segments domain,
    occurred.input = .mapDomain slot mapping domainCapability deviceAddress →
    occurred.outcome = .ok (.segments segments) →
    occurred.before.domains[mapping.domain]? = some domain → domain.mode = .present →
    ∃ registered, Registered past registered ∧ registered.id = mapping.domain ∧
      registered.device = mapping.device ∧
      ∀ segment ∈ segments, registered.apertureBase.toNat ≤ segment.deviceAddress.toNat ∧
        segment.deviceAddress.toNat + segment.len.toNat ≤
          registered.apertureBase.toNat + registered.apertureLen.toNat

/-- A refused `register_domain` makes no difference to any later `map_domain`. -/
def Inert (occurred : DmaEvent) : Prop :=
  ∀ domain reason, occurred.input = .registerDomain domain → occurred.outcome = .err reason →
    ∀ later slot mapping domainCapability deviceAddress,
      (perform (.mapDomain slot mapping domainCapability deviceAddress)
        (final perform occurred.before later)).1 =
      (perform (.mapDomain slot mapping domainCapability deviceAddress)
        (final perform occurred.after later)).1

/-- A registration with a valid aperture does not bring another record for a known identifier. -/
def Repeats (before : DmaState) : Request → Prop
  | .registerDomain domain =>
      domain.apertureLen ≠ 0 → domain.apertureBase.toNat + domain.apertureLen.toNat < 2 ^ 64 →
        ∀ known, before.domains[domain.id]? = some known → known.Alike domain
  | _ => True

/-- Every record in the table is one that was accepted, as far as `map_domain` can tell. -/
def Vouched (past : List DmaEvent) (state : DmaState) : Prop :=
  ∀ (id : UInt32) (domain : IommuDomain), state.domains[id]? = some domain →
    domain.apertureBase.toNat + domain.apertureLen.toNat < 2 ^ 64 ∧
      ∃ registered, Registered past registered ∧ registered.id = id ∧ registered.Alike domain

theorem perform_registerDomain_known {before : DmaState} {domain : IommuDomain}
    (positive : domain.apertureLen ≠ 0)
    (bounded : domain.apertureBase.toNat + domain.apertureLen.toNat < 2 ^ 64)
    (known : domain.id ∈ before.domains) :
    perform (.registerDomain domain) before =
      (.err .duplicateDomain,
        { before with domains := before.domains.insert domain.id domain }) := by
  simpa [perform, registerDomain, known, positive] using bounded

/-- The three ways a registration can end. -/
theorem perform_registerDomain (before : DmaState) (domain : IommuDomain) :
    perform (.registerDomain domain) before = (.err .segmentOverflow, before) ∨
    (domain.apertureLen ≠ 0 ∧ domain.apertureBase.toNat + domain.apertureLen.toNat < 2 ^ 64) ∧
      ((domain.id ∉ before.domains ∧ perform (.registerDomain domain) before =
        (.ok .done, { before with domains := before.domains.insert domain.id domain })) ∨
      (domain.id ∈ before.domains ∧ perform (.registerDomain domain) before =
        (.err .duplicateDomain,
          { before with domains := before.domains.insert domain.id domain }))) := by
  by_cases valid : domain.apertureLen ≠ 0 ∧
      domain.apertureBase.toNat + domain.apertureLen.toNat < 2 ^ 64
  · refine .inr ⟨valid, ?_⟩
    by_cases known : domain.id ∈ before.domains
    · exact .inr ⟨known, perform_registerDomain_known valid.1 valid.2 known⟩
    · exact .inl ⟨known, by simpa [perform, registerDomain, known] using valid⟩
  · left
    have invalid : domain.apertureLen = 0 ∨
        2 ^ 64 ≤ domain.apertureBase.toNat + domain.apertureLen.toNat := by
      by_contra neither
      rw [not_or] at neither
      exact valid ⟨neither.1, by omega⟩
    simp only [perform, registerDomain, Call.bind_apply, rejectIf, checkedAdd_eq_none, invalid]
    simp

theorem Registered.mono {past : List DmaEvent} {domain : IommuDomain}
    (registered : Registered past domain) (occurred : DmaEvent) :
    Registered (past ++ [occurred]) domain := by
  obtain ⟨earlier, member, accepted⟩ := registered
  exact ⟨earlier, List.mem_append_left _ member, accepted⟩

section Step

variable {past : List DmaEvent} {before after : DmaState} {request : Request}
  {outcome : Outcome DmaError Reply}

theorem Vouched.kept (vouched : Vouched past before) (domains_eq : after.domains = before.domains)
    (occurred : DmaEvent) : Vouched (past ++ [occurred]) after := by
  intro id domain found
  rw [domains_eq] at found
  obtain ⟨bounded, registered, accepted, id_eq, alike⟩ := vouched id domain found
  exact ⟨bounded, registered, accepted.mono occurred, id_eq, alike⟩

theorem Vouched.insert (vouched : Vouched past before) {domain registered : IommuDomain}
    {occurred : DmaEvent} (domains_eq : after.domains = before.domains.insert domain.id domain)
    (bounded : domain.apertureBase.toNat + domain.apertureLen.toNat < 2 ^ 64)
    (accepted : Registered (past ++ [occurred]) registered) (alike : registered.Alike domain) :
    Vouched (past ++ [occurred]) after := by
  intro id found_domain found
  rw [domains_eq] at found
  rcases BTreeMap.getElem?_insert_eq_some.mp found with ⟨rfl, rfl⟩ | ⟨_, old⟩
  · exact ⟨bounded, registered, accepted, alike.id, alike⟩
  · have kept : Vouched (past ++ [occurred]) before := vouched.kept rfl occurred
    exact kept id found_domain old

theorem domains_of_step (step : Step before request outcome after)
    (other : ∀ domain, request ≠ .registerDomain domain) : after.domains = before.domains := by
  cases step with
  | registered => exact (other _ rfl).elim
  | overwritten => exact (other _ rfl).elim
  | _ => rfl

/-- Registrations that repeat what is known keep the table vouched for. -/
theorem Vouched.event (vouched : Vouched past before) (repeats : Repeats before request) :
    Vouched (past ++ [event perform before request]) (event perform before request).after := by
  by_cases registers : ∃ domain, request = .registerDomain domain
  · obtain ⟨domain, rfl⟩ := registers
    rcases perform_registerDomain before domain with
      refused | ⟨valid, ⟨_, accepted⟩ | ⟨known, refused⟩⟩
    · exact vouched.kept (by simp only [Rust.event, refused]) _
    · refine vouched.insert (by simp only [Rust.event, accepted]) valid.2
        ⟨_, List.mem_append_right _ (List.mem_singleton_self _), ?_⟩ (.refl domain)
      exact ⟨rfl, by simp only [Rust.event, accepted]⟩
    · have present := Std.ExtTreeMap.getElem?_eq_some_getElem known
      obtain ⟨_, registered, earlier, id_eq, alike⟩ := vouched _ _ present
      exact vouched.insert (by simp only [Rust.event, refused]) valid.2 (earlier.mono _)
        (alike.trans (repeats valid.1 valid.2 _ present))
  · rw [not_exists] at registers
    exact vouched.kept (domains_of_step (step_perform request before) registers) _

/-- A device is confined to what is vouched for. -/
theorem Vouched.confined (vouched : Vouched past before)
    (step : Step before request outcome after) :
    Confined past ⟨before, request, outcome, after⟩ := by
  rintro slot mapping domainCapability deviceAddress segments domain rfl rfl found mode
  cases step with
  | @mapped _ _ live _ _ other visible =>
      obtain rfl : other = domain := Option.some.inj (visible.registered.symm.trans found)
      obtain ⟨bounded, registered, accepted, id_eq, alike⟩ := vouched _ _ found
      obtain ⟨base_eq, len_eq⟩ := alike.aperture (alike.mode.trans mode)
      obtain ⟨_, above, below⟩ := (checkMode_present mode bounded).mp visible.mode_ok
      refine ⟨registered, accepted, id_eq, alike.device.trans visible.device_eq, ?_⟩
      intro segment member
      obtain rfl := List.mem_singleton.mp member
      rw [base_eq, len_eq]
      exact ⟨above, below⟩

theorem Alike.refl (state : DmaState) : Alike state state := by
  refine ⟨rfl, rfl, rfl, fun id => ?_⟩
  cases state.domains[id]? with
  | none => exact .none
  | some found => exact .some (.refl found)

theorem alike_insert {domain known : IommuDomain}
    (present : before.domains[domain.id]? = some known)
    (alike : known.Alike domain) :
    Alike before { before with domains := before.domains.insert domain.id domain } := by
  refine ⟨rfl, rfl, rfl, fun id => ?_⟩
  by_cases same : domain.id = id
  · subst same
    simpa [present] using Option.Rel.some alike
  · rw [BTreeMap.getElem?_insert_of_ne _ _ same]
    exact (Alike.refl before).domains id

/-- A refused registration goes unnoticed exactly if it repeats what is known. -/
theorem inert_iff_repeats (vouched : Vouched past before) (tethered : Tethered before) :
    Inert (event perform before request) ↔ Repeats before request := by
  constructor
  · intro inert
    cases request with
    | registerDomain domain =>
        intro positive bounded known present
        obtain ⟨known_bounded, registered, _, id_eq, alike⟩ := vouched _ _ present
        have refused := perform_registerDomain_known positive bounded
          (BTreeMap.mem_of_present present)
        obtain ⟨later, live, ready⟩ := tethered.exists_ready 0
        have known_id : known.id = domain.id := alike.id.symm.trans id_eq
        refine alike_of_answer live.generation known_bounded bounded known_id ?_
        intro mapping domainCapability deviceAddress domain_eq generation_eq
        rw [known_id] at domain_eq
        have unnoticed := inert domain .duplicateDomain rfl (by simp only [Rust.event, refused])
          later 0 mapping domainCapability deviceAddress
        simp only [Rust.event, refused] at unnoticed
        obtain ⟨left_ready, left_domains⟩ := ready before.domains
        obtain ⟨right_ready, right_domains⟩ := ready (before.domains.insert domain.id domain)
        have left_answer := left_ready.mapDomain_eq generation_eq.symm
          (by rw [left_domains, domain_eq]; exact present) domainCapability deviceAddress
        have right_answer := right_ready.mapDomain_eq generation_eq.symm
          (by rw [right_domains, domain_eq]; exact Std.ExtTreeMap.getElem?_insert_self)
          domainCapability deviceAddress
        exact left_answer.symm.trans (unnoticed.trans right_answer)
    | _ => trivial
  · intro repeats domain reason input_eq refused later slot mapping domainCapability deviceAddress
    obtain rfl : request = .registerDomain domain := input_eq
    refine Alike.mapDomain_eq ?_ later slot mapping domainCapability deviceAddress
    rcases perform_registerDomain before domain with
      unchanged | ⟨valid, ⟨_, accepted⟩ | ⟨known, changed⟩⟩
    · simp only [Rust.event, unchanged]
      exact .refl before
    · simp [Rust.event, accepted] at refused
    · have present := Std.ExtTreeMap.getElem?_eq_some_getElem known
      simp only [Rust.event, changed]
      exact alike_insert present (repeats valid.1 valid.2 _ present)

end Step

/-- What a device is shown stays inside accepted apertures, and refused registrations go unnoticed,
in exactly the runs in which every registration with a valid aperture repeats what is known of its
identifier. -/
theorem confined_iff_repeats (requests : List Request) :
    Guarded (fun past occurred => Confined past occurred ∧ Inert occurred) []
        (history perform new requests) ↔
      ∀ occurred ∈ history perform new requests, Repeats occurred.before occurred.input := by
  rw [← guarded_iff_forall (fun occurred : DmaEvent => Repeats occurred.before occurred.input) []]
  refine guarded_iff_of_invariant perform
    (fun past state => Vouched past state ∧ Tethered state) ⟨?_, ?_⟩ ?_ ?_ requests
  · intro id domain found
    simp [new] at found
  · exact tethered_run []
  · rintro past state request ⟨vouched, tethered⟩
    have confined := vouched.confined (step_perform request state)
    exact (and_iff_right confined).trans (inert_iff_repeats vouched tethered)
  · rintro past state request ⟨vouched, tethered⟩ repeats
    exact ⟨vouched.event repeats, tethered.step (step_perform request state)⟩

/-- A registration that is refused moves the aperture of a domain, and memory is mapped there. -/
theorem mapped_through_refused_registration :
    ∃ requests, (history perform new requests).map (·.outcome) =
        [.ok .done, .err .duplicateDomain,
          .ok (.mapping ⟨1, 7, 0x1000, 0x1000, .bidirectional, 0, .cpu⟩),
          .ok (.segments [⟨0x8000, 0x1000⟩])] ∧
      (∀ registered, Registered (history perform new requests) registered →
        registered = ⟨7, 1, 0x1000, 0x1000, .present⟩) ∧
      ¬Guarded (fun past occurred => Confined past occurred ∧ Inert occurred) []
        (history perform new requests) := by
  let requests : List Request := [.registerDomain ⟨7, 1, 0x1000, 0x1000, .present⟩,
    .registerDomain ⟨7, 1, 0x8000, 0x1000, .present⟩,
    .pin ⟨.frame, 0, 0, Rights.read.union .write, 0, 0, 0x10000⟩
      ⟨0, 1, 7, 0x1000, 0x1000, .bidirectional⟩,
    .mapDomain 0 ⟨1, 7, 0x1000, 0x1000, .bidirectional, 0, .cpu⟩
      (some ⟨.iommuDomain, 7, 0, Rights.map, 0, 0, 0⟩) 0x8000]
  have accepted_once : ∀ occurred ∈ history perform new requests, occurred.outcome = .ok .done →
      occurred.input = .registerDomain ⟨7, 1, 0x1000, 0x1000, .present⟩ := by decide
  have only (registered : IommuDomain)
      (found : Registered (history perform new requests) registered) :
      registered = ⟨7, 1, 0x1000, 0x1000, .present⟩ := by
    obtain ⟨occurred, member, input_eq, accepted⟩ := found
    exact Request.registerDomain.inj (input_eq.symm.trans (accepted_once occurred member accepted))
  refine ⟨requests, by decide, only, fun guarded => ?_⟩
  obtain ⟨registered, ⟨occurred, member, accepted⟩, _, _, inside⟩ := guarded.2.2.2.1.1 0 _ _ _
    [⟨0x8000, 0x1000⟩] ⟨7, 1, 0x8000, 0x1000, .present⟩ rfl (by decide) (by decide) rfl
  obtain rfl := only registered ⟨occurred, List.mem_append_left [_] member, accepted⟩
  exact absurd (inside _ List.mem_cons_self).2 (by decide)

end DmaState

end Bulla.Kernel
