import Bulla.Kernel.Dma

/-!
# Device visibility and pins

`map_domain` compares nothing but the generation of the handle it is given with the mapping pinned
in the slot, and slots count their generations separately.  The segments of a slot describe its own
pin throughout a run exactly when every accepted handle agrees with the pin of the slot it is used
on.
-/

namespace Bulla.Kernel.DmaState

open Rust Outcome

abbrev DmaEvent : Type := Event DmaState Request DmaError Reply

/-- How a slot became visible: the handle that was given, and the domain it was mapped through. -/
structure Route where
  handle : DmaMapping
  domain : IommuDomain
  deriving DecidableEq, Repr

/-- The route of a successful `map_domain` on a slot. -/
def routed (slot : UInt32) (occurred : DmaEvent) : Option Route :=
  match occurred.input, occurred.outcome with
  | .mapDomain target mapping _ _, .ok _ =>
      if target = slot then (occurred.before.domains[mapping.domain]?).map (Route.mk mapping)
      else none
  | _, _ => none

/-- The route by which a slot last became visible. -/
def route (past : List DmaEvent) (slot : UInt32) : Option Route := latest (routed slot) past

/-- A segment that describes the memory pinned in its slot. -/
structure Describes (segment : DmaSegment) (route : Route) (live : DmaMapping) : Prop where
  len : segment.len = live.len
  domain : route.handle.domain = live.domain
  device : route.domain.device = live.device
  identity : route.domain.mode = .absentIdentity → segment.deviceAddress = live.base

/-- Whatever is visible in a slot is what is pinned there; an unpinned slot shows nothing. -/
def Bound (past : List DmaEvent) (state : DmaState) : Prop :=
  ∀ (slot : UInt32) (segments : List DmaSegment), state.segments[slot]? = some segments →
    ∃ live taken, state.mappings[slot]? = some live ∧ route past slot = some taken ∧
      ∀ segment ∈ segments, Describes segment taken live

/-- A handle that `map_domain` accepts on a slot agrees with what is pinned there. -/
def Agrees (before : DmaState) : Request → Prop
  | .mapDomain slot mapping domainCapability deviceAddress =>
      ∀ live domain, Visible before slot mapping domainCapability deviceAddress live domain →
        mapping.len = live.len ∧ mapping.domain = live.domain ∧ mapping.device = live.device ∧
          (domain.mode = .absentIdentity → mapping.base = live.base)
  | _ => True

/-- In identity mode the device address is the base of the handle. -/
theorem address_of_identity {domain : IommuDomain} {mapping : DmaMapping}
    {domainCapability : Option Capability} {deviceAddress : UInt64} {value : Unit}
    (accepted : checkMode domain mapping domainCapability deviceAddress = .ok value)
    (identity : domain.mode = .absentIdentity) : deviceAddress = mapping.base := by
  simp only [checkMode, identity, rejectIf_eq_ok, not_or, not_not] at accepted
  exact accepted.2

theorem perform_mapDomain {before : DmaState} {slot : UInt32} {mapping live : DmaMapping}
    {domainCapability : Option Capability} {deviceAddress : UInt64} {domain : IommuDomain}
    (visible : Visible before slot mapping domainCapability deviceAddress live domain) :
    perform (.mapDomain slot mapping domainCapability deviceAddress) before =
      (.ok (.segments [⟨deviceAddress, mapping.len⟩]),
        { before with
          segments := before.segments.insert slot [⟨deviceAddress, mapping.len⟩] }) := by
  have unmapped : slot ∉ before.segments := by
    simpa using visible.unmapped
  simp [perform, mapDomain]
  exact ⟨live, visible.pinned, visible.generation_eq, unmapped, domain, visible.registered,
    visible.device_eq, (), visible.mode_ok⟩

/-- A call that makes nothing visible and leaves visible slots pinned as they are. -/
theorem Bound.kept {past : List DmaEvent} {before after : DmaState} {occurred : DmaEvent}
    (bound : Bound past before)
    (segments_kept : ∀ (slot : UInt32) (segments : List DmaSegment),
      after.segments[slot]? = some segments → before.segments[slot]? = some segments)
    (pins_kept : ∀ (slot : UInt32) (segments : List DmaSegment) (live : DmaMapping),
      after.segments[slot]? = some segments → before.mappings[slot]? = some live →
      ∃ ownership, after.mappings[slot]? = some { live with ownership })
    (unrouted : ∀ slot, routed slot occurred = none) : Bound (past ++ [occurred]) after := by
  intro slot segments found
  obtain ⟨live, taken, pinned, route_eq, describes⟩ := bound slot segments (segments_kept _ _ found)
  obtain ⟨ownership, still_pinned⟩ := pins_kept slot segments live found pinned
  refine ⟨_, taken, still_pinned, ?_, ?_⟩
  · rw [route, latest_snoc, unrouted, Option.none_or]
    exact route_eq
  · intro segment member
    obtain ⟨len, domain, device, identity⟩ := describes segment member
    exact ⟨len, domain, device, identity⟩

/-- Handing a slot over changes the ownership of its pin and nothing else. -/
theorem pin_of_sync {mappings : BTreeMap UInt32 DmaMapping} {slot other : UInt32}
    {live pin : DmaMapping} {next : DmaOwnership} (present : mappings[slot]? = some live)
    (pinned : mappings[other]? = some pin) :
    ∃ ownership, (mappings.insert slot { live with ownership := next })[other]? =
      some { pin with ownership } := by
  by_cases same : slot = other
  · subst same
    obtain rfl : live = pin := by simpa [present] using pinned
    exact ⟨next, Std.ExtTreeMap.getElem?_insert_self⟩
  · exact ⟨pin.ownership, (BTreeMap.getElem?_insert_of_ne _ _ same).trans pinned⟩

/-- Every call whose handle agrees with its slot keeps segments bound to pins. -/
theorem bound_step {past : List DmaEvent} {before after : DmaState} {request : Request}
    {outcome : Outcome DmaError Reply} (bound : Bound past before) (agrees : Agrees before request)
    (step : Step before request outcome after) :
    Bound (past ++ [⟨before, request, outcome, after⟩]) after := by
  cases step with
  | rejected request reason =>
      refine bound.kept (fun _ _ found => found) (fun _ _ live _ pinned => ⟨_, pinned⟩) ?_
      intro slot
      cases request <;> rfl
  | @pinned region request mapping contained vacant mapping_eq =>
      refine bound.kept (fun _ _ found => found) ?_ (fun _ => rfl)
      intro slot segments live _ pinned
      have distinct : request.slot ≠ slot := by
        rintro rfl
        rw [vacant] at pinned
        cases pinned
      exact ⟨_, (BTreeMap.getElem?_insert_of_ne _ _ distinct).trans pinned⟩
  | registered bounded unknown =>
      exact bound.kept (fun _ _ found => found) (fun _ _ live _ pinned => ⟨_, pinned⟩)
        (fun _ => rfl)
  | overwritten bounded known =>
      exact bound.kept (fun _ _ found => found) (fun _ _ live _ pinned => ⟨_, pinned⟩)
        (fun _ => rfl)
  | @mapped slot mapping live domainCapability deviceAddress domain visible =>
      obtain ⟨len_eq, domain_eq, device_eq, base_eq⟩ := agrees live domain visible
      intro other segments found
      rw [route, latest_snoc, routed]
      rcases BTreeMap.getElem?_insert_eq_some.mp found with ⟨rfl, rfl⟩ | ⟨distinct, old⟩
      · refine ⟨live, ⟨mapping, domain⟩, visible.pinned, by simp [visible.registered], ?_⟩
        intro segment member
        obtain rfl := List.mem_singleton.mp member
        refine ⟨len_eq, domain_eq, visible.device_eq.trans device_eq, ?_⟩
        intro identity
        exact (address_of_identity visible.mode_ok identity).trans (base_eq identity)
      · obtain ⟨other_live, taken, pinned, route_eq, describes⟩ := bound other segments old
        exact ⟨other_live, taken, pinned, by simpa [distinct, route] using route_eq, describes⟩
  | unmapped present generation ownership visible =>
      refine bound.kept ?_ (fun _ _ live _ pinned => ⟨_, pinned⟩) (fun _ => rfl)
      intro slot segments found
      exact (BTreeMap.getElem?_erase_eq_some.mp found).2
  | @unpinned slot mapping live next present generation ownership invisible advanced =>
      refine bound.kept (fun _ _ found => found) ?_ (fun _ => rfl)
      intro other segments other_live found pinned
      have distinct : slot ≠ other := by
        rintro rfl
        rw [invisible] at found
        cases found
      exact ⟨_, (BTreeMap.getElem?_erase_of_ne _ distinct).trans pinned⟩
  | toDevice present generation ownership handle_ownership =>
      exact bound.kept (fun _ _ found => found)
        (fun _ _ _ _ pinned => pin_of_sync present pinned) (fun _ => rfl)
  | toCpu present generation ownership handle_ownership =>
      exact bound.kept (fun _ _ found => found)
        (fun _ _ _ _ pinned => pin_of_sync present pinned) (fun _ => rfl)

/-- A call that leaves segments bound to pins was given a handle that agrees with its slot. -/
theorem agrees_of_bound {past : List DmaEvent} {before : DmaState} {request : Request}
    (bound : Bound (past ++ [event perform before request])
      (event perform before request).after) : Agrees before request := by
  cases request with
  | mapDomain slot mapping domainCapability deviceAddress =>
      intro live domain visible
      have performed := perform_mapDomain visible
      simp only [event, performed] at bound
      obtain ⟨pin, taken, pinned, route_eq, describes⟩ :=
        bound slot [⟨deviceAddress, mapping.len⟩] Std.ExtTreeMap.getElem?_insert_self
      obtain rfl : live = pin := by simpa [visible.pinned] using pinned
      obtain rfl : ⟨mapping, domain⟩ = taken := by
        rw [route, latest_snoc, routed] at route_eq
        simpa [visible.registered] using route_eq
      obtain ⟨len, domain_eq, device_eq, identity⟩ := describes _ List.mem_cons_self
      refine ⟨len, domain_eq, visible.device_eq.symm.trans device_eq, ?_⟩
      intro mode
      exact (address_of_identity visible.mode_ok mode).symm.trans (identity mode)
  | _ => trivial

/-- Segments describe the pin of their own slot after every call of a run exactly when every handle
that `map_domain` accepts agrees with the pin of the slot. -/
theorem bound_iff_agrees (requests : List Request) :
    Guarded (fun past occurred => Bound (past ++ [occurred]) occurred.after) []
        (history perform new requests) ↔
      ∀ occurred ∈ history perform new requests, Agrees occurred.before occurred.input := by
  rw [← guarded_iff_forall (fun occurred : DmaEvent => Agrees occurred.before occurred.input) []]
  refine guarded_iff_of_invariant perform Bound ?_ ?_ ?_ requests
  · intro slot segments found
    simp [new] at found
  · intro past state request bound
    exact ⟨agrees_of_bound, fun agrees => bound_step bound agrees (step_perform request state)⟩
  · intro past state request bound agrees
    exact bound_step bound agrees (step_perform request state)

/-- The handles a call is given. -/
def handles : Request → List DmaMapping
  | .mapDomain _ mapping _ _ => [mapping]
  | .unmapDomain _ mapping => [mapping]
  | .unpin _ mapping => [mapping]
  | .syncForDevice _ mapping => [mapping]
  | .syncForCpu _ mapping => [mapping]
  | _ => []

/-- Every handle a call is given was returned by an earlier call. -/
def Returned (past : List DmaEvent) (occurred : DmaEvent) : Prop :=
  ∀ mapping ∈ handles occurred.input, ∃ earlier ∈ past, earlier.outcome = .ok (.mapping mapping)

instance (past : List DmaEvent) (occurred : DmaEvent) : Decidable (Returned past occurred) :=
  inferInstanceAs (Decidable (∀ mapping ∈ _, ∃ earlier ∈ _, _))

/-- The handle of one slot makes its memory visible in another, where it stays after the unpin. -/
theorem visible_after_unpin :
    ∃ requests, Guarded Returned [] (history perform new requests) ∧
      (final perform new requests).mappings[(1 : UInt32)]? = none ∧
      (final perform new requests).segments[(0 : UInt32)]? = some [⟨0x4000, 0x2000⟩] ∧
      (final perform new requests).mappings[(0 : UInt32)]? =
        some ⟨1, 7, 0x1000, 0x1000, .bidirectional, 0, .cpu⟩ ∧
      ¬Bound (history perform new requests) (final perform new requests) := by
  refine ⟨[.registerDomain ⟨7, 1, 0, 0x10000, .absentIdentity⟩,
    .pin ⟨.frame, 0, 0, Rights.read.union .write, 0, 0, 0x10000⟩
      ⟨0, 1, 7, 0x1000, 0x1000, .bidirectional⟩,
    .pin ⟨.frame, 0, 0, Rights.read.union .write, 0, 0, 0x10000⟩
      ⟨1, 1, 7, 0x4000, 0x2000, .bidirectional⟩,
    .mapDomain 0 ⟨1, 7, 0x4000, 0x2000, .bidirectional, 0, .cpu⟩ none 0x4000,
    .unpin 1 ⟨1, 7, 0x4000, 0x2000, .bidirectional, 0, .cpu⟩], by decide, by decide, by decide,
    by decide, ?_⟩
  intro bound
  obtain ⟨live, taken, pinned, -, describes⟩ := bound 0 [⟨0x4000, 0x2000⟩] (by decide)
  have pin_eq := Option.some.inj (pinned.symm.trans
    (show _ = some ⟨1, 7, 0x1000, 0x1000, .bidirectional, 0, .cpu⟩ by decide))
  have len_eq := (describes _ List.mem_cons_self).len
  rw [pin_eq] at len_eq
  exact absurd len_eq (by decide)

end Bulla.Kernel.DmaState
