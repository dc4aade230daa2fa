import Bulla.Kernel.Device
import Bulla.Platform.BootCpus

/-!
# Device registers of the runtime

The runtime compares the offset of a register with the length of its region and aligns the offset,
where the kernel model compares the address with a capability and aligns the address.  Over a region
that starts at a multiple of eight bytes the two checks accept the same registers.
-/

namespace Bulla.Platform

open Rust Outcome Kernel

def checkedMmioAddress (base len offset width : UInt64) : Outcome PostFirmwareError UInt64 := do
  let stop ← okOr (checkedAdd offset width) PostFirmwareError.device
  rejectIf (width = 0 ∨ offset % width ≠ 0 ∨ len < stop) PostFirmwareError.device
  okOr (checkedAdd base offset) PostFirmwareError.device

theorem checkedMmioAddress_eq_ok {base len offset width address : UInt64} :
    checkedMmioAddress base len offset width = .ok address ↔
      0 < width.toNat ∧ width.toNat ∣ offset.toNat ∧ offset.toNat + width.toNat ≤ len.toNat ∧
        address.toNat = base.toNat + offset.toNat := by
  simp only [checkedMmioAddress, bind_eq_ok, okOr_eq_ok, checkedAdd_eq_some, rejectIf_eq_ok, not_or,
    not_not, mod_eq_zero_iff, UInt64.lt_iff_toNat_lt, Nat.not_lt]
  constructor
  · rintro ⟨stop, stop_eq, -, ⟨nonzero, aligned, stop_le⟩, address_eq⟩
    exact ⟨toNat_pos nonzero, aligned, stop_eq ▸ stop_le, address_eq⟩
  · rintro ⟨positive, aligned, stop_le, address_eq⟩
    obtain ⟨stop, stop_eq⟩ := exists_toNat_eq (stop_le.trans_lt len.toNat_lt)
    refine ⟨stop, stop_eq, (), ⟨?_, aligned, stop_eq ▸ stop_le⟩, address_eq⟩
    rintro rfl
    exact absurd positive (by decide)

/-- Every width divides eight. -/
theorem bytes_dvd (width : DeviceWidth) : width.bytes.toNat ∣ 8 := by
  cases width <;> decide

theorem bytes_pos (width : DeviceWidth) : 0 < width.bytes.toNat := by
  cases width <;> decide

/-- The runtime accepts an offset exactly if the model accepts the address it leads to, and the
register then is aligned and lies inside its region. -/
theorem runtime_check_refines_model {base len offset : UInt64} (width : DeviceWidth)
    {capability : Capability} {rights : Rights} (aligned : 8 ∣ base.toNat)
    (fits : base.toNat + len.toNat < 2 ^ 64) (kind_eq : capability.kind = .mmio)
    (base_eq : capability.base = base) (len_eq : capability.len = len)
    (allowed : capability.rights.contains rights = true) (address : UInt64) :
    (checkedMmioAddress base len offset width.bytes = .ok address ↔
        checkedAdd base offset = some address ∧
          validateRange capability .mmio rights address width = .ok ()) ∧
      (checkedMmioAddress base len offset width.bytes = .ok address →
        address.toNat = base.toNat + offset.toNat ∧ width.bytes.toNat ∣ address.toNat ∧
          base.toNat ≤ address.toNat ∧
          address.toNat + width.bytes.toNat ≤ base.toNat + len.toNat) := by
  have base_aligned : width.bytes.toNat ∣ base.toNat := (bytes_dvd width).trans aligned
  have inside (accepted : checkedMmioAddress base len offset width.bytes = .ok address) :
      address.toNat = base.toNat + offset.toNat ∧ width.bytes.toNat ∣ address.toNat ∧
        base.toNat ≤ address.toNat ∧
        address.toNat + width.bytes.toNat ≤ base.toNat + len.toNat := by
    obtain ⟨-, offset_aligned, stop_le, address_eq⟩ := checkedMmioAddress_eq_ok.mp accepted
    refine ⟨address_eq, ?_, by omega, by omega⟩
    rw [address_eq]
    exact Nat.dvd_add base_aligned offset_aligned
  refine ⟨?_, inside⟩
  rw [checkedAdd_eq_some, DeviceBus.validateRange_eq_ok, Capability.containsRange_iff, base_eq,
    len_eq]
  constructor
  · intro accepted
    obtain ⟨address_eq, address_aligned, base_le, stop_le⟩ := inside accepted
    exact ⟨address_eq, kind_eq, allowed, address_aligned, fits, base_le, stop_le⟩
  · rintro ⟨address_eq, -, -, address_aligned, -, -, stop_le⟩
    rw [address_eq] at address_aligned
    have offset_aligned := (Nat.dvd_add_right base_aligned).mp address_aligned
    exact checkedMmioAddress_eq_ok.mpr ⟨bytes_pos width, offset_aligned, by omega, address_eq⟩

/-- The second word of a region of two. -/
theorem second_word_of_region :
    let region : Capability := ⟨.mmio, 0, 0, Rights.read, 0, 4096, 16⟩
    checkedMmioAddress 4096 16 8 DeviceWidth.u64.bytes = .ok 4104 ∧
      validateRange region .mmio Rights.read 4104 .u64 = .ok () := by
  intro region
  have accepted : checkedMmioAddress 4096 16 8 DeviceWidth.u64.bytes = .ok 4104 := by decide
  have refined : checkedMmioAddress 4096 16 8 DeviceWidth.u64.bytes = .ok 4104 ↔ _ :=
    (runtime_check_refines_model .u64 (by decide) (by decide)
      (show region.kind = .mmio from rfl) rfl rfl (Rights.contains_self Rights.read) 4104).1
  exact ⟨accepted, (refined.mp accepted).2⟩

end Bulla.Platform
