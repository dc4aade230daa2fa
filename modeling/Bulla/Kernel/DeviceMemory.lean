import Bulla.Kernel.Device

/-!
# Device spaces as memories

Every accepted read returns, lowest byte first, the bytes that accepted writes to the same space
have stored last, however their widths overlap.  A refused call leaves both spaces as they are.
-/

namespace Bulla.Kernel.DeviceBus

open Rust Outcome ByteMemory

/-- The two spaces of the bus. -/
inductive Space where
  | mmio
  | pio
  deriving DecidableEq, Repr

def Space.size : Space → ℕ
  | .mmio => 2 ^ 64
  | .pio => 2 ^ 16

namespace Request

def space : Request → Space
  | .mmioRead _ _ _ => .mmio
  | .mmioWrite _ _ _ _ => .mmio
  | .pioRead _ _ _ => .pio
  | .pioWrite _ _ _ _ => .pio

/-- The first cell of an access. -/
def start : Request → ℕ
  | .mmioRead _ address _ => address.toNat
  | .mmioWrite _ address _ _ => address.toNat
  | .pioRead _ port _ => port.toNat
  | .pioWrite _ port _ _ => port.toNat

/-- How many cells an access has. -/
def count : Request → ℕ
  | .mmioRead _ _ width => width.bytes.toNat
  | .mmioWrite _ _ width _ => width.bytes.toNat
  | .pioRead _ _ width => width.bytes.toNat
  | .pioWrite _ _ width _ => width.bytes.toNat

/-- The checks that an access has to pass. -/
def check : Request → Outcome DeviceError Unit
  | .mmioRead capability address width => validateRange capability .mmio Rights.read address width
  | .mmioWrite capability address width _ =>
      validateRange capability .mmio Rights.write address width
  | .pioRead capability port width => do
      rejectIf (width = .u64) DeviceError.unsupportedWidth
      validateRange capability .ioPort Rights.read port.toUInt64 width
  | .pioWrite capability port width _ => do
      rejectIf (width = .u64) DeviceError.unsupportedWidth
      validateRange capability .ioPort Rights.write port.toUInt64 width

/-- An access that passes the checks ends within its space. -/
theorem fits_of_check {request : Request} (valid : request.check = .ok ()) :
    request.start + request.count ≤ request.space.size := by
  cases request with
  | mmioRead => exact (validateRange_spec valid).2.le
  | mmioWrite => exact (validateRange_spec valid).2.le
  | pioRead =>
      simp [check] at valid
      exact port_fits valid.2
  | pioWrite =>
      simp [check] at valid
      exact port_fits valid.2

end Request

/-- What lies in the cells of a space. -/
def memory (bus : DeviceBus) : Space → ℕ → UInt8
  | .mmio => contents UInt64.ofNat bus.mmio
  | .pio => contents UInt16.ofNat bus.pio

/-- The effect of each way a call can end. -/
inductive Step (before : DeviceBus) : Request → Outcome DeviceError Reply → DeviceBus → Prop
  | refused {request : Request} {reason : DeviceError} (refused : request.check = .err reason) :
      Step before request (.err reason) before
  | mmioRead {capability : Capability} {address : UInt64} {width : DeviceWidth} {value : UInt64}
      (valid : (Request.mmioRead capability address width).check = .ok ())
      (value_eq : value.toNat =
        littleEndian (before.memory .mmio) address.toNat width.bytes.toNat) :
      Step before (.mmioRead capability address width) (.ok (.mmio value)) before
  | mmioWritten {capability : Capability} {address : UInt64} {width : DeviceWidth} {value : UInt64}
      (valid : (Request.mmioWrite capability address width value).check = .ok ()) :
      Step before (.mmioWrite capability address width value) (.ok .done)
        { before with
          mmio := store UInt64.ofNat address.toNat width.bytes.toNat value.toNat before.mmio }
  | pioRead {capability : Capability} {port : UInt16} {width : DeviceWidth} {value : UInt32}
      (valid : (Request.pioRead capability port width).check = .ok ())
      (value_eq : value.toNat = littleEndian (before.memory .pio) port.toNat width.bytes.toNat) :
      Step before (.pioRead capability port width) (.ok (.pio value)) before
  | pioWritten {capability : Capability} {port : UInt16} {width : DeviceWidth} {value : UInt32}
      (valid : (Request.pioWrite capability port width value).check = .ok ()) :
      Step before (.pioWrite capability port width value) (.ok .done)
        { before with
          pio := store UInt16.ofNat port.toNat width.bytes.toNat value.toNat before.pio }

/-- Every call is one of the steps. -/
theorem step_perform (request : Request) (before : DeviceBus) :
    Step before request (perform request before).1 (perform request before).2 := by
  show Call.Ensures (perform request) (Step before request) before
  cases request with
  | mmioRead capability address width =>
      simp only [perform, DeviceBus.mmioRead]
      simp [validateRange_ne_overflow]
      refine ⟨?_, ?_, ?_⟩
      · rintro _ ⟨⟩ valid word read rfl
        exact .mmioRead valid (readBytes_and_mask valid read)
      · rintro reason (refused | ⟨⟨⟨⟩, valid⟩, broken⟩)
        · exact .refused refused
        · obtain ⟨value, read_eq, _⟩ := readBytes_eq (validateRange_spec valid).2.le
          cases read_eq.symm.trans broken
      · rintro ⟨⟩ valid broken
        obtain ⟨value, read_eq, _⟩ := readBytes_eq (validateRange_spec valid).2.le
        cases read_eq.symm.trans broken
  | mmioWrite capability address width value =>
      simp only [perform, mmioWrite]
      simp [validateRange_ne_overflow]
      refine ⟨?_, fun reason refused => .refused refused⟩
      rintro ⟨⟩ valid
      rw [Call.Ensures, writeBytes_apply (validateRange_spec valid).2.le]
      simp
      exact .mmioWritten valid
  | pioRead capability port width =>
      simp only [perform, DeviceBus.pioRead]
      simp [validateRange_ne_overflow]
      refine ⟨?_, fun reason refused => .refused ?_⟩
      · rintro _ supported ⟨⟩ valid rfl
        refine .pioRead ?_ (readPortBytes_toUInt32 supported valid)
        simp [Request.check, supported, valid]
      · simpa [Request.check] using refused
  | pioWrite capability port width value =>
      simp only [perform, pioWrite]
      simp [validateRange_ne_overflow]
      refine ⟨fun supported => ⟨?_, fun reason refused => .refused ?_⟩, fun wide => .refused ?_⟩
      · rintro ⟨⟩ valid
        rw [Call.ensures_bind_ok (pioWriteBytes_apply before (port_fits valid))]
        refine .pioWritten ?_
        simp [Request.check, supported, valid]
      · simp [Request.check, supported, refused]
      · simp [Request.check, wide]

abbrev DeviceEvent : Type := Rust.Event DeviceBus Request DeviceError Reply

/-- The byte that a call has stored in a cell of a space. -/
def written (space : Space) (cell : ℕ) (occurred : DeviceEvent) : Option UInt8 :=
  match occurred.input, occurred.outcome, space with
  | .mmioWrite _ address width value, .ok _, .mmio =>
      storedIn address.toNat width.bytes.toNat value.toNat cell
  | .pioWrite _ port width value, .ok _, .pio =>
      storedIn port.toNat width.bytes.toNat value.toNat cell
  | _, _, _ => none

/-- The byte that was stored in a cell last. -/
def lastByte (space : Space) (past : List DeviceEvent) (cell : ℕ) : UInt8 :=
  (latest (written space cell) past).getD 0

/-- The spaces hold what was stored last. -/
def Remembers (past : List DeviceEvent) (bus : DeviceBus) : Prop :=
  ∀ space, ∀ cell < space.size, bus.memory space cell = lastByte space past cell

/-- What a call does as an access to two memories. -/
structure Accurate (past : List DeviceEvent) (occurred : DeviceEvent) : Prop where
  mmio_read : ∀ capability address width,
    occurred.input = .mmioRead capability address width → occurred.input.check = .ok () →
      ∃ value, occurred.outcome = .ok (.mmio value) ∧
        value.toNat = littleEndian (lastByte .mmio past) address.toNat width.bytes.toNat
  pio_read : ∀ capability port width,
    occurred.input = .pioRead capability port width → occurred.input.check = .ok () →
      ∃ value, occurred.outcome = .ok (.pio value) ∧
        value.toNat = littleEndian (lastByte .pio past) port.toNat width.bytes.toNat
  accepted : occurred.input.check = .ok () → (∃ reply, occurred.outcome = .ok reply) ∧
    occurred.input.start + occurred.input.count ≤ occurred.input.space.size
  refused : ∀ reason, occurred.outcome = .err reason →
    occurred.input.check = .err reason ∧ occurred.after = occurred.before
  returns : occurred.outcome ≠ .overflow
  mmio_alone : occurred.input.space = .mmio → occurred.after.pio = occurred.before.pio
  pio_alone : occurred.input.space = .pio → occurred.after.mmio = occurred.before.mmio

section Step

variable {past : List DeviceEvent} {before after : DeviceBus} {request : Request}
  {outcome : Outcome DeviceError Reply}

theorem Remembers.littleEndian_eq (remembers : Remembers past before) {space : Space}
    {start count : ℕ} (fits : start + count ≤ space.size) :
    littleEndian (before.memory space) start count =
      littleEndian (lastByte space past) start count :=
  littleEndian_congr fun index within => remembers space (start + index) (by omega)

theorem lastByte_snoc (space : Space) (cell : ℕ) (occurred : DeviceEvent) :
    lastByte space (past ++ [occurred]) cell =
      (written space cell occurred).getD (lastByte space past cell) := by
  rw [lastByte, latest_snoc, lastByte]
  cases written space cell occurred <;> rfl

theorem Remembers.step (remembers : Remembers past before)
    (step : Step before request outcome after) :
    Remembers (past ++ [⟨before, request, outcome, after⟩]) after := by
  intro space cell inside
  have earlier := remembers space cell inside
  rw [lastByte_snoc]
  cases step with
  | @refused _ reason =>
      have silent : written space cell ⟨before, request, .err reason, before⟩ = none := by
        cases request <;> rfl
      rw [silent]
      exact earlier
  | mmioRead | pioRead => exact earlier
  | mmioWritten valid =>
      cases space with
      | mmio =>
          have numbered (cell : ℕ) (small : cell < 2 ^ 64) : (UInt64.ofNat cell).toNat = cell :=
            UInt64.toNat_ofNat_of_lt' small
          rw [← earlier]
          exact contents_store numbered (Request.fits_of_check valid) before.mmio _ inside
      | pio => exact earlier
  | pioWritten valid =>
      cases space with
      | mmio => exact earlier
      | pio =>
          have numbered (cell : ℕ) (small : cell < 2 ^ 16) : (UInt16.ofNat cell).toNat = cell :=
            UInt16.toNat_ofNat_of_lt' small
          rw [← earlier]
          exact contents_store numbered (Request.fits_of_check valid) before.pio _ inside

theorem Remembers.accurate (remembers : Remembers past before)
    (step : Step before request outcome after) :
    Accurate past ⟨before, request, outcome, after⟩ := by
  cases step with
  | @refused _ reason refused =>
      -- The checks have one result, so nothing that is refused is accepted.
      have exclusive (valid : request.check = .ok ()) : False := by
        cases valid.symm.trans refused
      refine ⟨fun _ _ _ _ valid => (exclusive valid).elim,
        fun _ _ _ _ valid => (exclusive valid).elim,
        fun valid => (exclusive valid).elim, ?_, by simp, fun _ => rfl, fun _ => rfl⟩
      rintro _ ⟨⟩
      exact ⟨refused, rfl⟩
  | mmioRead valid value_eq =>
      have fits := Request.fits_of_check valid
      refine ⟨?_, by simp, fun _ => ⟨⟨_, rfl⟩, fits⟩, by simp, by simp, fun _ => rfl, fun _ => rfl⟩
      rintro _ _ _ ⟨⟩ _
      exact ⟨_, rfl, value_eq.trans (remembers.littleEndian_eq fits)⟩
  | pioRead valid value_eq =>
      have fits := Request.fits_of_check valid
      refine ⟨by simp, ?_, fun _ => ⟨⟨_, rfl⟩, fits⟩, by simp, by simp, fun _ => rfl, fun _ => rfl⟩
      rintro _ _ _ ⟨⟩ _
      exact ⟨_, rfl, value_eq.trans (remembers.littleEndian_eq fits)⟩
  | mmioWritten valid =>
      exact ⟨by simp, by simp, fun _ => ⟨⟨_, rfl⟩, Request.fits_of_check valid⟩, by simp, by simp,
        fun _ => rfl, by simp [Request.space]⟩
  | pioWritten valid =>
      exact ⟨by simp, by simp, fun _ => ⟨⟨_, rfl⟩, Request.fits_of_check valid⟩, by simp, by simp,
        by simp [Request.space], fun _ => rfl⟩

end Step

theorem remembers_run (requests : List Request) :
    Remembers (history perform new requests) (final perform new requests) := by
  refine run_induction perform (motive := Remembers) ?_ ?_ requests
  · rintro (_ | _) cell _ <;> simp [new, memory, contents, lastByte, latest]
  · intro past bus request remembers
    exact remembers.step (step_perform request bus)

/-- Both spaces are memories of bytes, for any order of accesses with any capabilities, addresses,
ports, widths and values. -/
theorem byte_accurate (requests : List Request) :
    Guarded Accurate [] (history perform new requests) := by
  refine guarded_of_reached perform (fun earlier request => ?_) requests
  exact (remembers_run earlier).accurate (step_perform request _)

end Bulla.Kernel.DeviceBus
