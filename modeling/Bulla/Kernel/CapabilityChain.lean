import Bulla.Kernel.Capability
import Bulla.Rust.History

/-!
# Transfer chains

A history of ledger requests returns, for each kind and slot, a chain of capabilities: the minted
root and one more for each transfer.  The ledger's record of the slot is the end of that chain as
long as the slot has not been released.  Arguments of the requests are arbitrary, so the chain laws
also cover stale copies and handles that were never returned.
-/

namespace Bulla.Kernel

namespace CapabilityLedger

open Rust Outcome

/-- One request of a ledger history. -/
abbrev LedgerEvent : Type := Event CapabilityLedger Request CapabilityError (Option Capability)

/-- The authority a root capability is minted with. -/
structure Grant where
  owner : OwnerId
  rights : Rights
  base : UInt64
  len : UInt64
  deriving DecidableEq, Repr

/-- The capability an event returns for a kind and slot. -/
def issue (kind : CapabilityKind) (slot : UInt32) (occurred : LedgerEvent) : Option Capability :=
  match occurred.outcome with
  | .ok (some handle) => if handle.kind = kind ∧ handle.slot = slot then some handle else none
  | _ => none

/-- The authority an event mints for a kind and slot. -/
def mint (kind : CapabilityKind) (slot : UInt32) (occurred : LedgerEvent) : Option Grant :=
  match occurred.input, occurred.outcome with
  | .mintRoot mintedKind mintedSlot owner rights base len, .ok _ =>
      if mintedKind = kind ∧ mintedSlot = slot then some ⟨owner, rights, base, len⟩ else none
  | _, _ => none

/-- The owner an event sets for a kind and slot. -/
def assign (kind : CapabilityKind) (slot : UInt32) (occurred : LedgerEvent) : Option OwnerId :=
  match occurred.input, occurred.outcome with
  | .mintRoot mintedKind mintedSlot owner _ _ _, .ok _ =>
      if mintedKind = kind ∧ mintedSlot = slot then some owner else none
  | .transfer handle newOwner _, .ok _ =>
      if handle.kind = kind ∧ handle.slot = slot then some newOwner else none
  | _, _ => none

/-- An event releases a kind and slot. -/
def Releases (kind : CapabilityKind) (slot : UInt32) (occurred : LedgerEvent) : Prop :=
  ∃ handle reply, occurred.input = .release handle ∧ handle.kind = kind ∧ handle.slot = slot ∧
    occurred.outcome = .ok reply

/-- The capabilities a history returned for a kind and slot, oldest first. -/
def issued (past : List LedgerEvent) (kind : CapabilityKind) (slot : UInt32) : List Capability :=
  past.filterMap (issue kind slot)

/-- The authorities a history minted for a kind and slot. -/
def mints (past : List LedgerEvent) (kind : CapabilityKind) (slot : UInt32) : List Grant :=
  past.filterMap (mint kind slot)

/-- The owners a history set for a kind and slot, oldest first. -/
def owners (past : List LedgerEvent) (kind : CapabilityKind) (slot : UInt32) : List OwnerId :=
  past.filterMap (assign kind slot)

/-- A history released a kind and slot. -/
def Released (past : List LedgerEvent) (kind : CapabilityKind) (slot : UInt32) : Prop :=
  ∃ occurred ∈ past, Releases kind slot occurred

/-- A capability stays inside the authority it descends from. -/
def Grant.Bounds (grant : Grant) (handle : Capability) : Prop :=
  grant.rights.contains handle.rights = true ∧ handle.base = grant.base ∧ handle.len = grant.len

/-- How the record of a minted slot continues the history of that slot. -/
structure Chain (past : List LedgerEvent) (kind : CapabilityKind) (slot : UInt32)
    (record : Record) (grant : Grant) : Prop where
  /-- The slot was minted once. -/
  minted : mints past kind slot = [grant]
  /-- The minted rights are known rights. -/
  known : Rights.all.contains grant.rights = true
  /-- The minted range does not wrap. -/
  fits : grant.base.toNat + grant.len.toNat < 2 ^ 64
  /-- Nothing in the chain exceeds the minted authority. -/
  bounded : ∀ handle ∈ issued past kind slot, grant.Bounds handle
  /-- The record itself stays inside the minted authority. -/
  record_bounded : grant.Bounds (capability kind slot record)
  /-- Every transfer advances the generation. -/
  increasing : (issued past kind slot).Pairwise fun earlier later =>
    earlier.generation.toNat < later.generation.toNat
  /-- The record is at least as new as the whole chain. -/
  newest : ∀ handle ∈ issued past kind slot,
    handle.generation.toNat ≤ record.generation.toNat
  /-- A live record is the end of the chain and the slot is unreleased. -/
  live : record.live = true →
    (issued past kind slot).getLast? = some (capability kind slot record) ∧
      (owners past kind slot).getLast? = some record.owner ∧ ¬Released past kind slot
  /-- Only a release ends a chain. -/
  dead : record.live = false → Released past kind slot

/-- The ledger knows exactly what the history did to a slot. -/
def Tracks (past : List LedgerEvent) (ledger : CapabilityLedger) (kind : CapabilityKind)
    (slot : UInt32) : Prop :=
  match ledger.records[(kind, slot)]? with
  | none => mints past kind slot = [] ∧ issued past kind slot = [] ∧ ¬Released past kind slot
  | some record => ∃ grant, Chain past kind slot record grant

section Snoc

variable (past : List LedgerEvent) (occurred : LedgerEvent) (kind : CapabilityKind) (slot : UInt32)

@[simp] theorem issued_snoc :
    issued (past ++ [occurred]) kind slot =
      issued past kind slot ++ (issue kind slot occurred).toList := by
  rw [issued, filterMap_snoc, issued]

@[simp] theorem mints_snoc :
    mints (past ++ [occurred]) kind slot =
      mints past kind slot ++ (mint kind slot occurred).toList := by
  rw [mints, filterMap_snoc, mints]

@[simp] theorem owners_snoc :
    owners (past ++ [occurred]) kind slot =
      owners past kind slot ++ (assign kind slot occurred).toList := by
  rw [owners, filterMap_snoc, owners]

@[simp] theorem released_snoc :
    Released (past ++ [occurred]) kind slot ↔
      Released past kind slot ∨ Releases kind slot occurred := by
  simp [Released, or_and_right, exists_or]

end Snoc

/-- An event that concerns another slot, or none, continues a slot's history unchanged. -/
theorem tracks_of_unrelated {past : List LedgerEvent} {ledger : CapabilityLedger}
    {occurred : LedgerEvent} {kind : CapabilityKind} {slot : UInt32}
    (tracks : Tracks past ledger kind slot)
    (same_record : occurred.after.records[(kind, slot)]? = ledger.records[(kind, slot)]?)
    (no_issue : issue kind slot occurred = none) (no_mint : mint kind slot occurred = none)
    (no_owner : assign kind slot occurred = none) (no_release : ¬Releases kind slot occurred) :
    Tracks (past ++ [occurred]) occurred.after kind slot := by
  have issued_eq : issued (past ++ [occurred]) kind slot = issued past kind slot := by
    simp [no_issue]
  have mints_eq : mints (past ++ [occurred]) kind slot = mints past kind slot := by
    simp [no_mint]
  have owners_eq : owners (past ++ [occurred]) kind slot = owners past kind slot := by
    simp [no_owner]
  have released_iff : Released (past ++ [occurred]) kind slot ↔ Released past kind slot := by
    simp [no_release]
  unfold Tracks at *
  rw [same_record]
  rcases lookup : ledger.records[(kind, slot)]? with _ | record
  · simpa only [lookup, mints_eq, issued_eq, released_iff] using tracks
  · simp only [lookup] at tracks
    obtain ⟨grant, chain⟩ := tracks
    refine ⟨grant, ?_⟩
    constructor
    · simpa only [mints_eq] using chain.minted
    · exact chain.known
    · exact chain.fits
    · simpa only [issued_eq] using chain.bounded
    · exact chain.record_bounded
    · simpa only [issued_eq] using chain.increasing
    · simpa only [issued_eq] using chain.newest
    · simpa only [issued_eq, owners_eq, released_iff] using chain.live
    · simpa only [released_iff] using chain.dead

/-- Minting starts the chain of a slot that has none. -/
private theorem tracks_minted {past : List LedgerEvent} {before after : CapabilityLedger}
    {kind : CapabilityKind} {slot : UInt32} {owner : OwnerId} {rights : Rights}
    {base len : UInt64} (tracks : Tracks past before kind slot)
    (absent : before.records[(kind, slot)]? = none)
    (present : after.records[(kind, slot)]? = some ⟨owner, rights, 0, base, len, true⟩)
    (known : Rights.all.contains rights = true) (fits : base.toNat + len.toNat < 2 ^ 64) :
    Tracks (past ++ [⟨before, .mintRoot kind slot owner rights base len,
      .ok (some (capability kind slot ⟨owner, rights, 0, base, len, true⟩)), after⟩])
      after kind slot := by
  simp only [Tracks, absent] at tracks
  obtain ⟨no_mints, no_issues, unreleased⟩ := tracks
  simp only [Tracks, present]
  refine ⟨⟨owner, rights, base, len⟩, ?_⟩
  constructor
  · simp [no_mints, mint]
  · exact known
  · exact fits
  · simp [no_issues, issue, capability, Grant.Bounds]
  · simp [capability, Grant.Bounds]
  · simp [no_issues, issue, capability]
  · simp [no_issues, issue, capability]
  · simp [no_issues, issue, capability, assign, unreleased, Releases]
  · simp

/-- A transfer extends the chain of its slot by one narrower capability. -/
private theorem tracks_transferred {past : List LedgerEvent} {before after : CapabilityLedger}
    {handle : Capability} {newOwner : OwnerId} {newRights : Rights} {record : Record}
    {generation : UInt64} (tracks : Tracks past before handle.kind handle.slot)
    (current : before.Current handle record)
    (narrowed : record.rights.contains newRights = true)
    (advanced : generation.toNat = record.generation.toNat + 1)
    (present : after.records[(handle.kind, handle.slot)]? =
      some { record with generation, owner := newOwner, rights := newRights }) :
    Tracks (past ++ [⟨before, .transfer handle newOwner newRights,
      .ok (some (capability handle.kind handle.slot
        { record with generation, owner := newOwner, rights := newRights })), after⟩])
      after handle.kind handle.slot := by
  obtain ⟨found, live, handle_eq⟩ := current
  simp only [Tracks, found] at tracks
  obtain ⟨grant, chain⟩ := tracks
  obtain ⟨record_rights, record_base, record_len⟩ := chain.record_bounded
  have bounds : grant.Bounds (capability handle.kind handle.slot
      { record with generation, owner := newOwner, rights := newRights }) :=
    ⟨Rights.contains_trans record_rights narrowed, record_base, record_len⟩
  simp only [Tracks, present]
  refine ⟨grant, ?_⟩
  constructor
  · simp [mint, chain.minted]
  · exact chain.known
  · exact chain.fits
  · intro other member
    rw [issued_snoc, List.mem_append] at member
    rcases member with earlier | last
    · exact chain.bounded other earlier
    · simp [issue, capability] at last
      subst last
      exact bounds
  · exact bounds
  · rw [issued_snoc, List.pairwise_append]
    refine ⟨chain.increasing, by simp [issue, capability], ?_⟩
    intro earlier member last last_member
    simp [issue, capability] at last_member
    subst last_member
    have newest := chain.newest earlier member
    simp only [advanced]
    omega
  · intro other member
    rw [issued_snoc, List.mem_append] at member
    simp only [advanced]
    rcases member with earlier | last
    · have newest := chain.newest other earlier
      omega
    · simp [issue, capability] at last
      subst last
      simp [advanced]
  · intro _
    obtain ⟨_, _, unreleased⟩ := chain.live live
    simp [issue, capability, assign, unreleased, Releases]
  · intro dead
    simp [live] at dead

/-- A release ends the chain of its slot. -/
private theorem tracks_released {past : List LedgerEvent} {before after : CapabilityLedger}
    {handle : Capability} {record : Record} {generation : UInt64}
    (tracks : Tracks past before handle.kind handle.slot)
    (current : before.Current handle record)
    (advanced : generation.toNat = record.generation.toNat + 1)
    (present : after.records[(handle.kind, handle.slot)]? =
      some { record with generation, live := false }) :
    Tracks (past ++ [⟨before, .release handle, .ok none, after⟩])
      after handle.kind handle.slot := by
  obtain ⟨found, live, handle_eq⟩ := current
  simp only [Tracks, found] at tracks
  obtain ⟨grant, chain⟩ := tracks
  simp only [Tracks, present]
  refine ⟨grant, ?_⟩
  constructor
  · simp [mint, chain.minted]
  · exact chain.known
  · exact chain.fits
  · simpa [issue] using chain.bounded
  · exact chain.record_bounded
  · simpa [issue] using chain.increasing
  · intro other member
    have newest := chain.newest other (by simpa [issue] using member)
    simp only [advanced]
    omega
  · simp
  · simp [Releases]

/-- One request keeps the history and the ledger in step, for every slot. -/
theorem tracks_step {past : List LedgerEvent} {before after : CapabilityLedger}
    {request : Request} {outcome : Outcome CapabilityError (Option Capability)}
    {kind : CapabilityKind} {slot : UInt32} (tracks : Tracks past before kind slot)
    (step : Step before request outcome after) :
    Tracks (past ++ [⟨before, request, outcome, after⟩]) after kind slot := by
  cases step with
  | rejected reason =>
      apply tracks_of_unrelated tracks rfl
      · rfl
      · cases request <;> rfl
      · cases request <;> rfl
      · simp [Releases]
  | @minted mintedKind mintedSlot owner rights base len absent known fits =>
      by_cases same : (mintedKind, mintedSlot) = (kind, slot)
      · cases same
        exact tracks_minted tracks absent (by simp) known fits
      · apply tracks_of_unrelated tracks
          (BTreeMap.getElem?_insert_of_ne before.records _ same)
        · exact if_neg (by simpa [capability] using same)
        · simpa [mint] using same
        · simpa [assign] using same
        · simp [Releases]
  | @transferred handle newOwner newRights record generation current narrowed advanced =>
      by_cases same : (handle.kind, handle.slot) = (kind, slot)
      · cases same
        exact tracks_transferred tracks current narrowed advanced (by simp)
      · apply tracks_of_unrelated tracks
          (BTreeMap.getElem?_insert_of_ne before.records _ same)
        · exact if_neg (by simpa [capability] using same)
        · rfl
        · simpa [assign] using same
        · simp [Releases]
  | @released handle record generation current advanced =>
      by_cases same : (handle.kind, handle.slot) = (kind, slot)
      · cases same
        exact tracks_released tracks current advanced (by simp)
      · apply tracks_of_unrelated tracks
          (BTreeMap.getElem?_insert_of_ne before.records _ same)
        · rfl
        · rfl
        · rfl
        · simpa [Releases] using same

/-- The ledger reached by any requests knows exactly what they did to every slot. -/
theorem tracks_final (requests : List Request) (kind : CapabilityKind) (slot : UInt32) :
    Tracks (history perform new requests) (final perform new requests) kind slot :=
  run_induction perform (motive := fun past ledger => Tracks past ledger kind slot)
    (by simp [Tracks, new, mints, issued, Released])
    (fun _ ledger request tracks => tracks_step tracks (step_perform ledger request)) requests

/-- A handle is accepted by some ledger operation. -/
def Accepts (ledger : CapabilityLedger) (handle : Capability) : Prop :=
  (∃ owner required base len, ledger.validate handle owner required base len = .ok ()) ∨
    (∃ newOwner newRights moved after,
      transfer handle newOwner newRights ledger = (.ok moved, after)) ∨
    ∃ after, release handle ledger = (.ok (), after)

theorem exists_current_of_accepts {ledger : CapabilityLedger} {handle : Capability}
    (accepts : ledger.Accepts handle) : ∃ record, ledger.Current handle record := by
  rcases accepts with ⟨owner, required, base, len, accepted⟩ |
    ⟨newOwner, newRights, moved, after, accepted⟩ | ⟨after, accepted⟩
  · obtain ⟨record, current, _⟩ := validate_eq_ok.mp accepted
    exact ⟨record, current⟩
  · simp [transfer, validateRecord_eq_ok] at accepted
    obtain ⟨record, present, agrees, _⟩ := accepted
    exact ⟨record, present, agrees⟩
  · simp [release, validateRecord_eq_ok] at accepted
    obtain ⟨record, present, agrees, _⟩ := accepted
    exact ⟨record, present, agrees⟩

/-- A current handle is the end of its slot's chain. -/
theorem Tracks.chain_of_current {past : List LedgerEvent} {ledger : CapabilityLedger}
    {handle : Capability} {record : Record}
    (tracks : Tracks past ledger handle.kind handle.slot)
    (current : ledger.Current handle record) :
    ∃ grant, Chain past handle.kind handle.slot record grant ∧
      (issued past handle.kind handle.slot).getLast? = some handle := by
  obtain ⟨present, live, handle_eq⟩ := current
  simp only [Tracks, present] at tracks
  obtain ⟨grant, chain⟩ := tracks
  refine ⟨grant, chain, ?_⟩
  rw [(chain.live live).1, ← handle_eq]

/-- A slot that has issued a capability has a record with a chain. -/
theorem Tracks.exists_chain {past : List LedgerEvent} {ledger : CapabilityLedger}
    {kind : CapabilityKind} {slot : UInt32} {handle : Capability}
    (tracks : Tracks past ledger kind slot) (member : handle ∈ issued past kind slot) :
    ∃ record grant, ledger.records[(kind, slot)]? = some record ∧
      Chain past kind slot record grant := by
  unfold Tracks at tracks
  rcases lookup : ledger.records[(kind, slot)]? with _ | record
  · simp only [lookup] at tracks
    simp [tracks.2.1] at member
  · simp only [lookup] at tracks
    obtain ⟨grant, chain⟩ := tracks
    exact ⟨record, grant, rfl, chain⟩

/-- The latest capability of an unreleased slot is current, and its range does not wrap. -/
theorem Tracks.current_of_latest {past : List LedgerEvent} {ledger : CapabilityLedger}
    {kind : CapabilityKind} {slot : UInt32} {handle : Capability}
    (tracks : Tracks past ledger kind slot)
    (latest : (issued past kind slot).getLast? = some handle)
    (unreleased : ¬Released past kind slot) :
    ∃ record, ledger.Current handle record ∧ handle.base.toNat + handle.len.toNat < 2 ^ 64 := by
  obtain ⟨record, grant, lookup, chain⟩ := tracks.exists_chain (List.mem_of_getLast? latest)
  have live : record.live = true := by
    by_contra dead
    exact unreleased (chain.dead (by simpa using dead))
  have handle_eq : capability kind slot record = handle := by
    simpa [latest] using (chain.live live).1.symm
  subst handle_eq
  obtain ⟨_, base_eq, len_eq⟩ := chain.record_bounded
  refine ⟨record, ⟨lookup, live, rfl⟩, ?_⟩
  rw [base_eq, len_eq]
  exact chain.fits

/-- Generations grow along a chain, so no two of its capabilities are equal. -/
theorem Tracks.issued_nodup {past : List LedgerEvent} {ledger : CapabilityLedger}
    {kind : CapabilityKind} {slot : UInt32} (tracks : Tracks past ledger kind slot) :
    (issued past kind slot).Nodup := by
  rcases List.eq_nil_or_concat (issued past kind slot) with none_issued | ⟨front, last, issued_eq⟩
  · rw [none_issued]
    exact List.nodup_nil
  · obtain ⟨record, grant, -, chain⟩ := tracks.exists_chain
      (show last ∈ issued past kind slot by simp [issued_eq])
    refine chain.increasing.imp ?_
    rintro earlier later less rfl
    exact less.false

/-- A request that is not granted changes nothing. -/
theorem after_eq_of_refused {before after : CapabilityLedger} {request : Request}
    {outcome : Outcome CapabilityError (Option Capability)}
    (step : Step before request outcome after) (refused : ∀ reply, outcome ≠ .ok reply) :
    after = before := by
  cases step with
  | rejected => rfl
  | minted => exact (refused _ rfl).elim
  | transferred => exact (refused _ rfl).elim
  | released => exact (refused _ rfl).elim

/-- Over any run of requests, rejected ones and forged handles included, a slot accepts at most the
capability it returned last, accepts it until it is released, and accepts nothing and mints nothing
after its release.  A rejected request leaves the ledger unchanged. -/
theorem accepts_only_latest (requests : List Request) (kind : CapabilityKind) (slot : UInt32) :
    let past := history perform new requests
    let ledger := final perform new requests
    (issued past kind slot).Nodup ∧
      (∀ handle, handle.kind = kind → handle.slot = slot → ledger.Accepts handle →
        (issued past kind slot).getLast? = some handle) ∧
      (∀ handle, (issued past kind slot).getLast? = some handle → ¬Released past kind slot →
        ledger.validate handle handle.owner handle.rights handle.base handle.len = .ok ()) ∧
      (Released past kind slot →
        (∀ handle, handle.kind = kind → handle.slot = slot → ¬ledger.Accepts handle) ∧
          ∀ owner rights base len root after,
            mintRoot kind slot owner rights base len ledger ≠ (.ok root, after)) ∧
      ∀ occurred ∈ past, (∀ reply, occurred.outcome ≠ .ok reply) →
        occurred.after = occurred.before := by
  intro past ledger
  have tracks : Tracks past ledger kind slot := tracks_final requests kind slot
  refine ⟨?_, ?_, ?_, ?_, ?_⟩
  · exact tracks.issued_nodup
  · rintro handle rfl rfl accepts
    obtain ⟨record, current⟩ := exists_current_of_accepts accepts
    obtain ⟨grant, chain, latest⟩ := tracks.chain_of_current current
    exact latest
  · intro handle latest unreleased
    obtain ⟨record, current, handle_fits⟩ := tracks.current_of_latest latest unreleased
    refine validate_eq_ok.mpr ⟨record, current, ?_⟩
    have fields := congrArg Capability.owner current.2.2
    have rights := congrArg Capability.rights current.2.2
    simp only [capability] at fields rights
    refine ⟨fields.symm, by rw [rights]; exact Rights.contains_self _, ?_⟩
    exact Capability.containsRange_iff.mpr ⟨handle_fits, le_refl _, le_refl _⟩
  · intro released
    refine ⟨?_, ?_⟩
    · rintro handle rfl rfl accepts
      obtain ⟨record, current⟩ := exists_current_of_accepts accepts
      obtain ⟨grant, chain, latest⟩ := tracks.chain_of_current current
      exact (chain.live current.2.1).2.2 released
    · intro owner rights base len root after minted
      have absent : ledger.records[(kind, slot)]? = none := by
        simp [mintRoot] at minted
        simpa using minted.2.2.1
      simp only [Tracks, absent] at tracks
      exact tracks.2.2 released
  · intro occurred member refused
    have step := step_of_mem_history perform
      (fun request before => step_perform before request) member
    exact after_eq_of_refused step refused

end CapabilityLedger

end Bulla.Kernel
