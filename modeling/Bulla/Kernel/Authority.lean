import Bulla.Kernel.CapabilityChain
import Bulla.Kernel.Event

/-!
# Authority from mint to action

What the executor authorizes is covered by the root capability of the slot: transfers only narrow
the minted rights, every copy keeps the minted range, and an action is authorized only for the last
copy of an unreleased slot.
-/

namespace Bulla.Kernel.ActionExecutor

open Rust Outcome CapabilityLedger

/-- The grant of a root capability covers the rights and the range that an action demands. -/
structure Covers (grant : Grant) (authority : ActionAuthority) : Prop where
  rights : grant.rights.contains authority.rights = true
  base_le : grant.base.toNat ≤ authority.base.toNat
  end_le : authority.base.toNat + authority.len.toNat ≤ grant.base.toNat + grant.len.toNat
  fits : grant.base.toNat + grant.len.toNat < 2 ^ 64

/-- A capability that a history returned descends from the one mint of its slot. -/
theorem grant_of_issued {past : List LedgerEvent} {ledger : CapabilityLedger}
    {kind : CapabilityKind} {slot : UInt32} (tracks : Tracks past ledger kind slot)
    {handle : Capability} (member : handle ∈ issued past kind slot) :
    ∃ grant, mints past kind slot = [grant] ∧ Rights.all.contains grant.rights = true ∧
      grant.base.toNat + grant.len.toNat < 2 ^ 64 ∧ grant.Bounds handle := by
  obtain ⟨record, grant, -, chain⟩ := tracks.exists_chain member
  exact ⟨grant, chain.minted, chain.known, chain.fits, chain.bounded handle member⟩

/-- The demands that a current capability is accepted for are covered by the grant it descends
from. -/
theorem covers_of_accepted {past : List LedgerEvent} {handle : Capability} {record : Record}
    {grant : Grant} {authority : ActionAuthority}
    (chain : Chain past handle.kind handle.slot record grant)
    (handle_eq : handle = capability handle.kind handle.slot record)
    (rights : record.rights.contains authority.rights = true)
    (contained : handle.containsRange authority.base authority.len = true) :
    Covers grant authority := by
  obtain ⟨record_rights, base_eq, len_eq⟩ := chain.record_bounded
  rw [← handle_eq] at base_eq len_eq
  obtain ⟨fits, base_le, end_le⟩ := Capability.containsRange_iff.mp contained
  rw [base_eq, len_eq] at fits end_le
  rw [base_eq] at base_le
  exact ⟨Rights.contains_trans record_rights rights, base_le, end_le, fits⟩

/-- Over any run of ledger requests, every returned capability stays inside the grant its slot was
minted with, and an action is authorized only for the latest capability of an unreleased slot, for
its present owner, within the rights and the range of that grant. -/
theorem no_authority_amplification (requests : List Request) :
    let past := history perform new requests
    (∀ kind slot, ∀ handle ∈ issued past kind slot, ∃ grant, mints past kind slot = [grant] ∧
        Rights.all.contains grant.rights = true ∧
        grant.base.toNat + grant.len.toNat < 2 ^ 64 ∧ grant.Bounds handle) ∧
      ∀ owner capability action authorized,
        authorize (final perform new requests) owner capability action = .ok authorized →
          (issued past capability.kind capability.slot).getLast? = some capability ∧
          ¬Released past capability.kind capability.slot ∧
          (owners past capability.kind capability.slot).getLast? = some owner ∧
          ∃ grant authority, mints past capability.kind capability.slot = [grant] ∧
            actionAuthority action = .ok authority ∧ capability.kind = authority.kind ∧
            Covers grant authority := by
  intro past
  constructor
  · intro kind slot handle member
    exact grant_of_issued (tracks_final requests kind slot) member
  · intro owner handle action authorized accepted
    obtain ⟨-, ⟨authority, authority_eq, kind_eq, validated⟩, -⟩ := authorize_eq_ok.mp accepted
    obtain ⟨record, current, owner_eq, rights, contained⟩ := validate_eq_ok.mp validated
    obtain ⟨grant, chain, latest⟩ :=
      (tracks_final requests handle.kind handle.slot).chain_of_current current
    obtain ⟨-, owner_last, unreleased⟩ := chain.live current.2.1
    exact ⟨latest, unreleased, owner_eq ▸ owner_last, grant, authority, chain.minted, authority_eq,
      kind_eq, covers_of_accepted chain current.2.2 rights contained⟩

end Bulla.Kernel.ActionExecutor
