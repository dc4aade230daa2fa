import Bulla.ByteMemory
import Bulla.Kernel.Capability
import Bulla.Rust.History

/-!
# The device bus

Device registers and ports are two byte memories.  An access is checked against a capability, its
alignment included, before a byte is touched.  The loop over ports could run out of ports in the
middle of a write, and the loop over addresses could overflow; the checks exclude both.
-/

namespace Bulla.Kernel

open Rust Outcome ByteMemory

inductive DeviceWidth where
  | u8
  | u16
  | u32
  | u64
  deriving DecidableEq, Repr

namespace DeviceWidth

def bytes : DeviceWidth → UInt64
  | .u8 => 1
  | .u16 => 2
  | .u32 => 4
  | .u64 => 8

def mask : DeviceWidth → UInt64
  | .u8 => 0xff
  | .u16 => 0xffff
  | .u32 => 0xffffffff
  | .u64 => 0xffffffffffffffff

/-- The range `0..self.bytes()`. -/
def indices (self : DeviceWidth) : List UInt64 := (List.range self.bytes.toNat).map UInt64.ofNat

theorem bytes_le (width : DeviceWidth) : width.bytes.toNat ≤ 8 := by
  cases width <;> decide

/-- Indices are small, so neither a sum nor a shift of them wraps. -/
theorem ofNat_index {width : DeviceWidth} {index : ℕ} (within : index < width.bytes.toNat) :
    index < 8 ∧ (UInt64.ofNat index).toNat = index := by
  have small : index < 8 := within.trans_le width.bytes_le
  exact ⟨small, UInt64.toNat_ofNat_of_lt' (small.trans (by decide))⟩

/-- The mask changes nothing that was read from the bytes of an access. -/
theorem and_mask {width : DeviceWidth} {word : UInt64}
    (small : word.toNat < 256 ^ width.bytes.toNat) :
    word &&& width.mask = word := by
  have mask_eq : width.mask.toNat = 2 ^ (8 * width.bytes.toNat) - 1 := by cases width <;> decide
  rw [pow_256] at small
  rw [← UInt64.toNat_inj, UInt64.toNat_and, mask_eq, Nat.and_two_pow_sub_one_eq_mod,
    Nat.mod_eq_of_lt small]

end DeviceWidth

inductive DeviceError where
  | wrongCapability
  | missingRights
  | outOfRange
  | misaligned
  | unsupportedWidth
  | rangeOverflow
  deriving DecidableEq, Repr

structure DeviceBus where
  mmio : BTreeMap UInt64 UInt8
  pio : BTreeMap UInt16 UInt8

def validateRange (capability : Capability) (kind : CapabilityKind) (rights : Rights)
    (address : UInt64) (width : DeviceWidth) : Outcome DeviceError Unit := do
  rejectIf (capability.kind ≠ kind) DeviceError.wrongCapability
  rejectIf (capability.rights.contains rights = false) DeviceError.missingRights
  rejectIf (address % width.bytes ≠ 0) DeviceError.misaligned
  rejectIf (capability.containsRange address width.bytes = false) DeviceError.outOfRange

def readBytes (values : BTreeMap UInt64 UInt8) (address : UInt64) (width : DeviceWidth) :
    Outcome DeviceError UInt64 :=
  width.indices.foldlM (fun value index => do
    let current ← unchecked (checkedAdd address index)
    return value ||| (values[current]?.getD 0).toUInt64 <<< (index * 8)) 0

def writeBytes (address : UInt64) (width : DeviceWidth) (value : UInt64) :
    Call (BTreeMap UInt64 UInt8) DeviceError Unit :=
  width.indices.forM fun index => do
    let current ← Call.unchecked (checkedAdd address index)
    modify fun values => values.insert current ((value >>> (index * 8)) &&& 0xff).toUInt8

def readPortBytes (values : BTreeMap UInt16 UInt8) (port : UInt16) (width : DeviceWidth) : UInt64 :=
  width.indices.foldl (fun value index =>
    let current := saturatingAdd16 port index.toUInt16
    value ||| (values[current]?.getD 0).toUInt64 <<< (index * 8)) 0

section Bytes

variable {width : DeviceWidth}

/-- The address of a byte of an access that ends within the address space. -/
theorem checkedAdd_index {address : UInt64} (fits : address.toNat + width.bytes.toNat ≤ 2 ^ 64)
    {index : ℕ} (within : index < width.bytes.toNat) :
    checkedAdd address (UInt64.ofNat index) = some (UInt64.ofNat (address.toNat + index)) := by
  have below : address.toNat + index < 2 ^ 64 := by omega
  rw [checkedAdd_eq_some, (DeviceWidth.ofNat_index within).2, UInt64.toNat_ofNat_of_lt' below]

theorem checkedAdd16_index {port : UInt16} (fits : port.toNat + width.bytes.toNat ≤ 2 ^ 16)
    {index : ℕ} (within : index < width.bytes.toNat) :
    checkedAdd16 port (UInt64.ofNat index).toUInt16 = some (UInt16.ofNat (port.toNat + index)) := by
  have below : port.toNat + index < 2 ^ 16 := by omega
  have index_eq : (UInt64.ofNat index).toUInt16.toNat = index := by
    rw [UInt64.toNat_toUInt16, (DeviceWidth.ofNat_index within).2, Nat.mod_eq_of_lt (by omega)]
  rw [checkedAdd16_eq_some (by omega), Option.some.injEq, ← UInt16.toNat_inj, UInt16.toNat_add,
    index_eq, Nat.mod_eq_of_lt below, UInt16.toNat_ofNat_of_lt' below]

theorem readBytes_eq {values : BTreeMap UInt64 UInt8} {address : UInt64}
    (fits : address.toNat + width.bytes.toNat ≤ 2 ^ 64) :
    ∃ value, readBytes values address width = .ok value ∧
      value.toNat =
        littleEndian (contents UInt64.ofNat values) address.toNat width.bytes.toNat := by
  refine ⟨_, ?_, collect_eq width.bytes_le⟩
  rw [readBytes, DeviceWidth.indices, List.foldlM_map]
  refine foldlM_eq_ok _ _ fun index member value => ?_
  rw [checkedAdd_index fits (List.mem_range.mp member)]
  rfl

theorem readPortBytes_eq {values : BTreeMap UInt16 UInt8} {port : UInt16}
    (fits : port.toNat + width.bytes.toNat ≤ 2 ^ 16) :
    (readPortBytes values port width).toNat =
      littleEndian (contents UInt16.ofNat values) port.toNat width.bytes.toNat := by
  rw [readPortBytes, DeviceWidth.indices, List.foldl_map, ← collect_eq width.bytes_le]
  congr 1
  refine List.foldl_ext _ _ _ fun value index member => ?_
  rw [saturatingAdd16, checkedAdd16_index fits (List.mem_range.mp member)]
  rfl

/-- A loop over the bytes of an access whose steps all succeed. -/
theorem forM_indices {σ : Type} {step : UInt64 → Call σ DeviceError Unit} (effect : σ → ℕ → σ)
    (succeeds : ∀ index < width.bytes.toNat, ∀ state,
      step (UInt64.ofNat index) state = (.ok (), effect state index)) (state : σ) :
    width.indices.forM step state =
      (.ok (), (List.range width.bytes.toNat).foldl effect state) := by
  rw [Call.forM_eq_ok (fun state index => effect state index.toNat), DeviceWidth.indices,
    List.foldl_map]
  · refine congrArg (Prod.mk _) (List.foldl_ext _ _ _ fun state index member => ?_)
    rw [(DeviceWidth.ofNat_index (List.mem_range.mp member)).2]
  · intro word member state
    obtain ⟨index, listed, rfl⟩ := List.mem_map.mp member
    have within := List.mem_range.mp listed
    rw [succeeds index within, (DeviceWidth.ofNat_index within).2]

theorem writeBytes_apply {address value : UInt64} {values : BTreeMap UInt64 UInt8}
    (fits : address.toNat + width.bytes.toNat ≤ 2 ^ 64) :
    writeBytes address width value values =
      (.ok (), store UInt64.ofNat address.toNat width.bytes.toNat value.toNat values) := by
  refine forM_indices _ (fun index within values => ?_) values
  rw [Call.bind_apply, checkedAdd_index fits within,
    cut_eq value (DeviceWidth.ofNat_index within).1]
  rfl

end Bytes

namespace DeviceBus

def new : DeviceBus := ⟨∅, ∅⟩

def mmioRead (self : DeviceBus) (capability : Capability) (address : UInt64) (width : DeviceWidth) :
    Outcome DeviceError UInt64 := do
  validateRange capability .mmio Rights.read address width
  return (← readBytes self.mmio address width) &&& width.mask

def mmioWrite (capability : Capability) (address : UInt64) (width : DeviceWidth) (value : UInt64) :
    Call DeviceBus DeviceError Unit := do
  validateRange capability .mmio Rights.write address width
  Call.borrow (·.mmio) (fun mmio self => { self with mmio }) (writeBytes address width value)

def pioRead (self : DeviceBus) (capability : Capability) (port : UInt16) (width : DeviceWidth) :
    Outcome DeviceError UInt32 := do
  rejectIf (width = .u64) DeviceError.unsupportedWidth
  validateRange capability .ioPort Rights.read port.toUInt64 width
  return (readPortBytes self.pio port width).toUInt32

/-- The loop of `pio_write`.  The ports before a missing one have been written when it stops. -/
def pioWriteBytes (port : UInt16) (width : DeviceWidth) (value : UInt32) :
    Call DeviceBus DeviceError Unit :=
  width.indices.forM fun index => do
    let current ← okOr (checkedAdd16 port index.toUInt16) DeviceError.rangeOverflow
    modify fun self => { self with
      pio := self.pio.insert current ((value.toUInt64 >>> (index * 8)) &&& 0xff).toUInt8 }

def pioWrite (capability : Capability) (port : UInt16) (width : DeviceWidth) (value : UInt32) :
    Call DeviceBus DeviceError Unit := do
  rejectIf (width = .u64) DeviceError.unsupportedWidth
  validateRange capability .ioPort Rights.write port.toUInt64 width
  pioWriteBytes port width value

/-- One call of the interface. -/
inductive Request where
  | mmioRead (capability : Capability) (address : UInt64) (width : DeviceWidth)
  | mmioWrite (capability : Capability) (address : UInt64) (width : DeviceWidth) (value : UInt64)
  | pioRead (capability : Capability) (port : UInt16) (width : DeviceWidth)
  | pioWrite (capability : Capability) (port : UInt16) (width : DeviceWidth) (value : UInt32)
  deriving DecidableEq, Repr

/-- What a successful call returns. -/
inductive Reply where
  | done
  | mmio (value : UInt64)
  | pio (value : UInt32)
  deriving DecidableEq, Repr

def perform : Request → Call DeviceBus DeviceError Reply
  | .mmioRead capability address width =>
      return .mmio (← (← get).mmioRead capability address width)
  | .mmioWrite capability address width value => do
      mmioWrite capability address width value
      return .done
  | .pioRead capability port width => return .pio (← (← get).pioRead capability port width)
  | .pioWrite capability port width value => do
      pioWrite capability port width value
      return .done

section Checks

variable {capability : Capability} {kind : CapabilityKind} {rights : Rights} {width : DeviceWidth}

theorem validateRange_ne_overflow {address : UInt64} :
    validateRange capability kind rights address width ≠ .overflow := by
  simp [validateRange]

theorem validateRange_eq_ok {address : UInt64} :
    validateRange capability kind rights address width = .ok () ↔
      capability.kind = kind ∧ capability.rights.contains rights = true ∧
        width.bytes.toNat ∣ address.toNat ∧
        capability.containsRange address width.bytes = true := by
  simp [validateRange, mod_eq_zero_iff]

/-- An access that passes the checks is aligned and does not wrap. -/
theorem validateRange_spec {address : UInt64}
    (valid : validateRange capability kind rights address width = .ok ()) :
    width.bytes.toNat ∣ address.toNat ∧ address.toNat + width.bytes.toNat < 2 ^ 64 := by
  obtain ⟨_, _, aligned, inside⟩ := validateRange_eq_ok.mp valid
  obtain ⟨own_fits, _, stop_le⟩ := Capability.containsRange_iff.mp inside
  exact ⟨aligned, by omega⟩

/-- At the top of the ports an aligned access ends with the last port. -/
theorem port_fits {port : UInt16}
    (valid : validateRange capability kind rights port.toUInt64 width = .ok ()) :
    port.toNat + width.bytes.toNat ≤ 2 ^ 16 := by
  have aligned := (validateRange_spec valid).1
  rw [UInt16.toNat_toUInt64] at aligned
  have port_lt := port.toNat_lt
  cases width <;> simp [DeviceWidth.bytes] at aligned ⊢ <;> omega

/-- What an accepted read of a register returns. -/
theorem readBytes_and_mask {bus : DeviceBus} {address word : UInt64}
    (valid : validateRange capability kind rights address width = .ok ())
    (read : readBytes bus.mmio address width = .ok word) :
    (word &&& width.mask).toNat =
      littleEndian (contents UInt64.ofNat bus.mmio) address.toNat width.bytes.toNat := by
  obtain ⟨value, read_eq, value_eq⟩ := readBytes_eq (validateRange_spec valid).2.le
  obtain rfl : word = value := by
    rw [read] at read_eq
    exact Outcome.ok.inj read_eq
  have small := littleEndian_lt (contents UInt64.ofNat bus.mmio) address.toNat width.bytes.toNat
  rw [← value_eq] at small
  rw [DeviceWidth.and_mask small, value_eq]

/-- What an accepted read of a port returns. -/
theorem readPortBytes_toUInt32 {bus : DeviceBus} {port : UInt16} (supported : width ≠ .u64)
    (valid : validateRange capability kind rights port.toUInt64 width = .ok ()) :
    (readPortBytes bus.pio port width).toUInt32.toNat =
      littleEndian (contents UInt16.ofNat bus.pio) port.toNat width.bytes.toNat := by
  have small := littleEndian_lt (contents UInt16.ofNat bus.pio) port.toNat width.bytes.toNat
  have word_le : 256 ^ width.bytes.toNat ≤ 2 ^ 32 := by
    cases width with
    | u8 | u16 | u32 => decide
    | u64 => exact absurd rfl supported
  rw [UInt64.toNat_toUInt32, readPortBytes_eq (port_fits valid),
    Nat.mod_eq_of_lt (small.trans_le word_le)]

theorem pioWriteBytes_apply {port : UInt16} {value : UInt32} (bus : DeviceBus)
    (fits : port.toNat + width.bytes.toNat ≤ 2 ^ 16) :
    pioWriteBytes port width value bus =
      (.ok (), { bus with
        pio := store UInt16.ofNat port.toNat width.bytes.toNat value.toNat bus.pio }) := by
  rw [pioWriteBytes, forM_indices fun self index => { self with
    pio := self.pio.insert (UInt16.ofNat (port.toNat + index)) (byteAt value.toNat index) }]
  · refine congrArg (Prod.mk _) (List.foldl_hom (fun pio => { bus with pio }) ?_)
    exact fun _ _ => rfl
  · intro index within self
    rw [Call.bind_apply, checkedAdd16_index fits within,
      cut_eq value.toUInt64 (DeviceWidth.ofNat_index within).1, UInt32.toNat_toUInt64]
    rfl

end Checks

end DeviceBus

end Bulla.Kernel
