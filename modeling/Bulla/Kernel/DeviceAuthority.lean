import Bulla.Kernel.DeviceMemory
import Bulla.Kernel.Event

/-!
# Device accesses, authorized and performed

Whether an access to a device is allowed is decided twice: by the executor, from a table of numeric
widths and the ledger, and by the bus, from the capability itself.  The two agree for a current
capability, except that only the bus asks for alignment.
-/

namespace Bulla.Kernel

open Rust Outcome

namespace DeviceWidth

/-- The width of an action is a byte. -/
theorem toUInt64_bytes (width : DeviceWidth) : width.bytes.toUInt8.toUInt64 = width.bytes := by
  cases width <;> rfl

theorem bytes_mem (width : DeviceWidth) : width.bytes.toUInt8 ∈ [1, 2, 4, 8] := by
  cases width <;> decide

theorem bytes_mem_of_port {width : DeviceWidth} (supported : width ≠ .u64) :
    width.bytes.toUInt8 ∈ [1, 2, 4] := by
  cases width with
  | u8 | u16 | u32 => decide
  | u64 => exact absurd rfl supported

end DeviceWidth

namespace DeviceBus.Request

def capability : Request → Capability
  | .mmioRead capability _ _ => capability
  | .mmioWrite capability _ _ _ => capability
  | .pioRead capability _ _ => capability
  | .pioWrite capability _ _ _ => capability

/-- The bus has no ports of eight bytes. -/
def Supported : Request → Prop
  | .pioRead _ _ width => width ≠ .u64
  | .pioWrite _ _ width _ => width ≠ .u64
  | _ => True

/-- The action that asks for the same access. -/
def action : Request → Action
  | .mmioRead _ address width => .mmioRead address width.bytes.toUInt8
  | .mmioWrite _ address width value => .mmioWrite address width.bytes.toUInt8 value
  | .pioRead _ port width => .pioRead port width.bytes.toUInt8
  | .pioWrite _ port width value => .pioWrite port width.bytes.toUInt8 value

theorem validateAction_action {access : Request} (supported : access.Supported) :
    validateAction access.action = .ok () := by
  cases access with
  | mmioRead _ _ width => exact rejectIf_eq_ok.mpr (not_not.mpr width.bytes_mem)
  | mmioWrite _ _ width _ => exact rejectIf_eq_ok.mpr (not_not.mpr width.bytes_mem)
  | pioRead => exact rejectIf_eq_ok.mpr (not_not.mpr (DeviceWidth.bytes_mem_of_port supported))
  | pioWrite => exact rejectIf_eq_ok.mpr (not_not.mpr (DeviceWidth.bytes_mem_of_port supported))

/-- What the table demands is what the bus checks, without the alignment. -/
theorem check_eq_ok {access : Request} (supported : access.Supported) :
    access.check = .ok () ↔
      (∃ authority, actionAuthority access.action = .ok authority ∧
        access.capability.kind = authority.kind ∧
        access.capability.rights.contains authority.rights = true ∧
        access.capability.containsRange authority.base authority.len = true) ∧
      access.count ∣ access.start := by
  have demanded {capability : Capability} {kind : CapabilityKind} {rights : Rights}
      {address : UInt64} {width : DeviceWidth} :
      validateRange capability kind rights address width = .ok () ↔
        (∃ authority, (.ok ⟨kind, rights, address, width.bytes.toUInt8.toUInt64⟩ :
            Outcome PlatformError ActionAuthority) = .ok authority ∧
          capability.kind = authority.kind ∧ capability.rights.contains authority.rights = true ∧
          capability.containsRange authority.base authority.len = true) ∧
        width.bytes.toNat ∣ address.toNat := by
    simp [validateRange_eq_ok, width.toUInt64_bytes]
    tauto
  cases access with
  | mmioRead => exact demanded
  | mmioWrite => exact demanded
  | pioRead capability port width =>
      have narrow : width ≠ .u64 := supported
      rw [check, rejectIf, if_neg narrow, ok_bind, demanded, UInt16.toNat_toUInt64]
      rfl
  | pioWrite capability port width value =>
      have narrow : width ≠ .u64 := supported
      rw [check, rejectIf, if_neg narrow, ok_bind, demanded, UInt16.toNat_toUInt64]
      rfl

end DeviceBus.Request

/-- The bus performs an access exactly if it passes the checks. -/
theorem DeviceBus.exists_reply_iff (access : DeviceBus.Request) (bus : DeviceBus) :
    (∃ reply, (DeviceBus.perform access bus).1 = .ok reply) ↔ access.check = .ok () := by
  have step := DeviceBus.step_perform access bus
  generalize (DeviceBus.perform access bus).1 = outcome at step ⊢
  generalize (DeviceBus.perform access bus).2 = after at step
  cases step with
  | refused refused => simp [refused]
  | mmioRead valid | mmioWritten valid | pioRead valid | pioWritten valid => simp [valid]

namespace ActionExecutor

/-- A current capability is accepted for what it allows. -/
theorem exists_authorized_iff {ledger : CapabilityLedger} {capability : Capability}
    {record : Record} (current : ledger.Current capability record) {action : Action}
    (valid : validateAction action = .ok ()) :
    (∃ authorized, authorize ledger capability.owner capability action = .ok authorized) ↔
      ∃ authority, actionAuthority action = .ok authority ∧ capability.kind = authority.kind ∧
        capability.rights.contains authority.rights = true ∧
        capability.containsRange authority.base authority.len = true := by
  have handle_eq := current.2.2
  have owner_eq : record.owner = capability.owner := by rw [handle_eq]; rfl
  have rights_eq : record.rights = capability.rights := by rw [handle_eq]; rfl
  constructor
  · rintro ⟨authorized, accepted⟩
    obtain ⟨-, ⟨authority, authority_eq, kind_eq, validated⟩, -⟩ := authorize_eq_ok.mp accepted
    obtain ⟨found, found_current, -, rights, contained⟩ :=
      CapabilityLedger.validate_eq_ok.mp validated
    obtain rfl : record = found := Option.some.inj (current.1.symm.trans found_current.1)
    exact ⟨authority, authority_eq, kind_eq, rights_eq ▸ rights, contained⟩
  · rintro ⟨authority, authority_eq, kind_eq, rights, contained⟩
    have validated : ledger.validate capability capability.owner authority.rights authority.base
        authority.len = .ok () :=
      CapabilityLedger.validate_eq_ok.mpr
        ⟨record, current, owner_eq, rights_eq.symm ▸ rights, contained⟩
    exact ⟨_, authorize_eq_ok.mpr ⟨valid, ⟨authority, authority_eq, kind_eq, validated⟩, rfl⟩⟩

/-- In every ledger that a run reaches, the executor authorizes an access with a current capability
for its owner, and the access is aligned, exactly if the bus performs it. -/
theorem authorized_and_aligned_iff_performed (requests : List CapabilityLedger.Request)
    (access : DeviceBus.Request) (supported : access.Supported) (record : Record)
    (current : (final CapabilityLedger.perform CapabilityLedger.new requests).Current
      access.capability record) (bus : DeviceBus) :
    ((∃ authorized, authorize (final CapabilityLedger.perform CapabilityLedger.new requests)
          access.capability.owner access.capability access.action = .ok authorized) ∧
        access.count ∣ access.start) ↔
      ∃ reply, (DeviceBus.perform access bus).1 = .ok reply := by
  rw [exists_authorized_iff current (DeviceBus.Request.validateAction_action supported),
    DeviceBus.exists_reply_iff, DeviceBus.Request.check_eq_ok supported]

/-- A minted register is authorized to be read, and read. -/
theorem minted_register_read :
    let requests : List CapabilityLedger.Request := [.mintRoot .mmio 0 7 Rights.read 4096 256]
    let register : Capability := ⟨.mmio, 0, 7, Rights.read, 0, 4096, 256⟩
    (final CapabilityLedger.perform CapabilityLedger.new requests).Current register
        ⟨7, Rights.read, 0, 4096, 256, true⟩ ∧
      ∃ reply, (DeviceBus.perform (.mmioRead register 4100 .u32) DeviceBus.new).1 = .ok reply := by
  intro requests register
  have current : (final CapabilityLedger.perform CapabilityLedger.new requests).Current register
      ⟨7, Rights.read, 0, 4096, 256, true⟩ := ⟨by decide, rfl, rfl⟩
  refine ⟨current, ?_⟩
  rw [← authorized_and_aligned_iff_performed requests (.mmioRead register 4100 .u32) trivial _
    current]
  exact ⟨⟨_, rfl⟩, by decide⟩

end ActionExecutor

end Bulla.Kernel
