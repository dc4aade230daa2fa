import Bulla.Kernel.MemoryMap
import Bulla.Rust.FixedArray

/-!
# User copies

A copy translates its whole range before it touches anything.  It succeeds exactly if every byte is
open to the user, and then each byte goes where it is translated to; otherwise the buffer or the
memory is as it was.
-/

namespace Bulla.Kernel

open Rust Outcome

namespace UserMemory

def new : UserMemory := ⟨∅⟩

/-- One round of the loop of `initialize`. -/
def initializeByte (physical : UInt64) (entry : UInt8 × ℕ) : Call UserMemory MapError Unit := do
  let address ← okOr (checkedAdd physical (UInt64.ofNat entry.2)) MapError.rangeOverflow
  modify fun memory => ⟨memory.bytes.insert address entry.1⟩

/-- `initialize`.  The bytes are written one by one until the end of the address space. -/
def initializeRange (physical : UInt64) (bytes : List UInt8) : Call UserMemory MapError Unit :=
  bytes.zipIdx.forM (initializeByte physical)

def byte (self : UserMemory) (physical : UInt64) : Option UInt8 := self.bytes[physical]?

end UserMemory

namespace AddressSpace

/-- `copy_from_user` on the caller's buffer; `copy_from_slice` panics unless the lengths agree. -/
def copyFromUserInto (self : AddressSpace) (memory : UserMemory) (userAddress : UInt64) :
    Call (List UInt8) MapError Unit := do
  let output ← get
  let staged ← self.copyFromUser memory userAddress output.length
  let copied ← Call.unchecked (if staged.length = output.length then some staged else none)
  modify fun _ => copied

/-- The byte at an offset of a user range is open to the user with a right, at a physical
address. -/
def Reaches (state : AddressSpace) (start : UInt64) (right : PagePermissions) (offset : ℕ)
    (physical : UInt64) : Prop :=
  ∃ (address : UInt64) (permissions : PagePermissions),
    address.toNat = start.toNat + offset ∧ state.translate address = .ok (physical, permissions) ∧
      permissions.contains .user = true ∧ permissions.contains right = true

section Reaches

variable {state : AddressSpace} {start physical other : UInt64} {right : PagePermissions}
  {offset len : ℕ}

/-- The physical address does not depend on the right. -/
theorem Reaches.unique {otherRight : PagePermissions}
    (reaches : Reaches state start right offset physical)
    (reaches_other : Reaches state start otherRight offset other) : physical = other := by
  obtain ⟨address, permissions, address_eq, translated, -⟩ := reaches
  obtain ⟨same, others, same_eq, also, -⟩ := reaches_other
  obtain rfl : address = same := UInt64.toNat_inj.mp (address_eq.trans same_eq.symm)
  rw [translated] at also
  exact congrArg Prod.fst (ok.inj also)

theorem validateUserByte_iff_reaches (small : offset < 2 ^ 64) :
    state.validateUserByte start right offset = .ok physical ↔
      Reaches state start right offset physical := by
  have offset_eq : (UInt64.ofNat offset).toNat = offset := UInt64.toNat_ofNat_of_lt small
  simp only [validateUserByte, bind_eq_ok, okOr_eq_ok, checkedAdd_eq_some, rejectIf_eq_ok, pure_eq,
    ok.injEq, offset_eq, Bool.not_eq_false, PagePermissions.contains_union]
  constructor
  · rintro ⟨address, address_eq, ⟨_, permissions⟩, translated, _, permitted, rfl⟩
    exact ⟨address, permissions, address_eq, translated, permitted⟩
  · rintro ⟨address, permissions, address_eq, translated, permitted⟩
    exact ⟨address, address_eq, (physical, permissions), translated, (), permitted, rfl⟩

theorem validateUserRange_eq_ok (small : len < 2 ^ 64) {addresses : List UInt64} :
    state.validateUserRange start len right = .ok addresses ↔
      addresses.length = len ∧ ∀ (offset : ℕ) (bound : offset < addresses.length),
        Reaches state start right offset addresses[offset] := by
  rw [validateUserRange, mapM_eq_ok, List.forall₂_iff_get]
  constructor
  · rintro ⟨same_length, each⟩
    rw [List.length_range] at same_length
    refine ⟨same_length.symm, fun offset bound => ?_⟩
    have bound_len : offset < len := same_length ▸ bound
    have validated := each offset (by simpa using bound_len) bound
    rw [List.get_eq_getElem, List.getElem_range, List.get_eq_getElem] at validated
    exact (validateUserByte_iff_reaches (bound_len.trans small)).mp validated
  · rintro ⟨same_length, each⟩
    refine ⟨by rw [List.length_range, same_length], fun offset _ bound => ?_⟩
    rw [List.get_eq_getElem, List.getElem_range, List.get_eq_getElem]
    have bound_len : offset < len := same_length ▸ bound
    exact (validateUserByte_iff_reaches (bound_len.trans small)).mpr (each offset bound)

/-- A range is accepted exactly if each of its bytes is. -/
theorem exists_validateUserRange_eq_ok (small : len < 2 ^ 64) :
    (∃ addresses, state.validateUserRange start len right = .ok addresses) ↔
      ∀ offset < len, ∃ physical, Reaches state start right offset physical := by
  rw [validateUserRange, exists_mapM_eq_ok]
  simp only [List.mem_range]
  refine forall₂_congr fun offset bound => exists_congr fun physical => ?_
  exact validateUserByte_iff_reaches (bound.trans small)

end Reaches

theorem Represented.validateUserRange_ne_overflow {past : List SpaceEvent} {state : AddressSpace}
    (represented : Represented past state) {start : UInt64} {len : ℕ} {right : PagePermissions} :
    state.validateUserRange start len right ≠ .overflow := by
  refine mapM_ne_overflow fun offset => ?_
  have translates (address : UInt64) : state.translate address ≠ .overflow := by
    rcases represented.translate_spec address with
      ⟨_, _, _, _, _, _, translated⟩ | ⟨_, _, refused⟩
    · simp [translated]
    · simp [refused]
  simp [validateUserByte, translates]

/-- What `copy_from_user` makes of the caller's buffer. -/
structure CopiesFrom (state : AddressSpace) (memory : UserMemory) (start : UInt64)
    (output : List UInt8) (outcome : Outcome MapError Unit) (after : List UInt8) : Prop where
  succeeds_iff : outcome = .ok () ↔ ∀ offset < output.length, ∃ (physical : UInt64) (byte : UInt8),
    Reaches state start .read offset physical ∧ memory.bytes[physical]? = some byte
  copied : outcome = .ok () → after.length = output.length ∧ ∀ offset < output.length,
    ∃ physical : UInt64, Reaches state start .read offset physical ∧
      after[offset]? = memory.bytes[physical]?
  refused : outcome ≠ .ok () → after = output
  returns : outcome ≠ .overflow

/-- What `copy_to_user` makes of the memory. -/
structure CopiesTo (state : AddressSpace) (before : UserMemory) (start : UInt64)
    (input : List UInt8) (outcome : Outcome MapError Unit) (after : UserMemory) : Prop where
  succeeds_iff : outcome = .ok () ↔ ∀ offset < input.length, ∃ physical,
    Reaches state start .write offset physical
  /-- The last byte for an address stays there. -/
  stored : outcome = .ok () → ∀ (offset : ℕ) (physical : UInt64), offset < input.length →
    Reaches state start .write offset physical →
    (∀ later < input.length, offset < later → ¬Reaches state start .write later physical) →
    after.bytes[physical]? = input[offset]?
  elsewhere : ∀ physical : UInt64,
    (∀ offset < input.length, ¬Reaches state start .write offset physical) →
    after.bytes[physical]? = before.bytes[physical]?
  refused : outcome ≠ .ok () → after = before
  returns : outcome ≠ .overflow

section Copies

variable {past : List SpaceEvent} {state : AddressSpace} {memory : UserMemory} {start : UInt64}
  {len : ℕ}

theorem copyFromUser_eq_ok (small : len < 2 ^ 64) {staged : List UInt8} :
    state.copyFromUser memory start len = .ok staged ↔
      staged.length = len ∧ ∀ (offset : ℕ) (bound : offset < staged.length), ∃ physical : UInt64,
        Reaches state start .read offset physical ∧
          memory.bytes[physical]? = some staged[offset] := by
  simp only [copyFromUser, bind_eq_ok, validateUserRange_eq_ok small, mapM_eq_ok,
    List.forall₂_iff_get, okOr_eq_ok, List.get_eq_getElem]
  constructor
  · rintro ⟨addresses, ⟨rfl, reached⟩, same_length, read⟩
    refine ⟨same_length.symm, fun offset bound => ?_⟩
    have bound_address : offset < addresses.length := same_length ▸ bound
    exact ⟨addresses[offset], reached offset bound_address, read offset bound_address bound⟩
  · rintro ⟨rfl, each⟩
    choose physical reached read using each
    refine ⟨List.ofFn fun index : Fin staged.length => physical index index.isLt,
      ⟨List.length_ofFn, ?_⟩, List.length_ofFn, ?_⟩
    · intro offset bound
      simpa using reached offset _
    · intro offset _ bound
      simpa using read offset bound

theorem exists_copyFromUser_eq_ok (small : len < 2 ^ 64) :
    (∃ staged, state.copyFromUser memory start len = .ok staged) ↔
      ∀ offset < len, ∃ (physical : UInt64) (byte : UInt8),
        Reaches state start .read offset physical ∧ memory.bytes[physical]? = some byte := by
  constructor
  · rintro ⟨staged, collected⟩ offset bound
    obtain ⟨rfl, each⟩ := (copyFromUser_eq_ok small).mp collected
    obtain ⟨physical, reached, read⟩ := each offset bound
    exact ⟨physical, _, reached, read⟩
  · intro each
    choose physical byte reached read using each
    refine ⟨List.ofFn fun index : Fin len => byte index index.isLt,
      (copyFromUser_eq_ok small).mpr ⟨List.length_ofFn, fun offset bound => ?_⟩⟩
    have bound_len : offset < len := by simpa using bound
    exact ⟨physical offset bound_len, reached offset bound_len, by simp [read]⟩

theorem Represented.copiesFrom (represented : Represented past state) {output : List UInt8}
    (small : output.length < 2 ^ 64) :
    CopiesFrom state memory start output (state.copyFromUserInto memory start output).1
      (state.copyFromUserInto memory start output).2 := by
  have runs : state.copyFromUser memory start output.length ≠ .overflow := by
    simp only [copyFromUser, ne_eq, bind_eq_overflow, represented.validateUserRange_ne_overflow,
      false_or, not_exists, not_and]
    exact fun _ _ => mapM_ne_overflow fun _ => okOr_ne_overflow
  rcases staged_eq : state.copyFromUser memory start output.length with staged | reason | _
  · obtain ⟨same_length, each⟩ := (copyFromUser_eq_ok small).mp staged_eq
    have result : state.copyFromUserInto memory start output = (.ok (), staged) := by
      simp [copyFromUserInto, staged_eq, same_length]
    rw [result]
    refine ⟨?_, ?_, by simp, by simp⟩
    · simp only [true_iff]
      exact (exists_copyFromUser_eq_ok small).mp ⟨staged, staged_eq⟩
    · intro _
      refine ⟨same_length, fun offset bound => ?_⟩
      have bound_staged : offset < staged.length := same_length ▸ bound
      obtain ⟨physical, reached, read⟩ := each offset bound_staged
      exact ⟨physical, reached, by rw [read, List.getElem?_eq_getElem bound_staged]⟩
  · have result : state.copyFromUserInto memory start output = (.err reason, output) := by
      simp [copyFromUserInto, staged_eq]
    rw [result]
    refine ⟨?_, by simp, by simp, by simp⟩
    simp only [reduceCtorEq, false_iff]
    intro each
    obtain ⟨staged, collected⟩ := (exists_copyFromUser_eq_ok small).mpr each
    rw [staged_eq] at collected
    cases collected
  · exact absurd staged_eq runs

/-- A write in a list of writes, with those before and after it. -/
theorem zip_eq_split {addresses : List UInt64} {input : List UInt8} {offset : ℕ}
    (bound_address : offset < addresses.length) (bound : offset < input.length) :
    addresses.zip input = (addresses.zip input).take offset ++
      (addresses[offset], input[offset]) :: (addresses.zip input).drop (offset + 1) := by
  have bound_zip : offset < (addresses.zip input).length := by
    rw [List.length_zip]
    omega
  rw [← List.getElem_zip (h := bound_zip), ← List.drop_eq_getElem_cons, List.take_append_drop]

theorem Represented.copiesTo (represented : Represented past state) {input : List UInt8}
    (small : input.length < 2 ^ 64) :
    CopiesTo state memory start input (state.copyToUser start input memory).1
      (state.copyToUser start input memory).2 := by
  have runs : state.validateUserRange start input.length .write ≠ .overflow :=
    represented.validateUserRange_ne_overflow
  rcases validated : state.validateUserRange start input.length .write with addresses | reason | _
  · obtain ⟨same_length, reached⟩ := (validateUserRange_eq_ok small).mp validated
    have result : state.copyToUser start input memory = (.ok (), ⟨(addresses.zip input).foldl
        (fun bytes write => bytes.insert write.1 write.2) memory.bytes⟩) := by
      simp [copyToUser, validated]
    rw [result]
    refine ⟨?_, ?_, ?_, by simp, by simp⟩
    · simp only [true_iff]
      exact (exists_validateUserRange_eq_ok small).mp ⟨addresses, validated⟩
    · intro _ offset physical bound here last
      have bound_address : offset < addresses.length := same_length ▸ bound
      obtain rfl := (reached offset bound_address).unique here
      rw [List.getElem?_eq_getElem bound, zip_eq_split bound_address bound]
      refine BTreeMap.getElem?_foldl_insert _ ?_
      rintro ⟨address, byte⟩ member rfl
      obtain ⟨index, index_bound, write_eq⟩ := List.getElem_of_mem member
      rw [List.getElem_drop, List.getElem_zip, Prod.mk.injEq] at write_eq
      rw [List.length_drop, List.length_zip] at index_bound
      refine last (offset + 1 + index) (by omega) (by omega) ?_
      rw [← write_eq.1]
      exact reached (offset + 1 + index) (by omega)
    · intro physical unreached
      refine BTreeMap.getElem?_foldl_insert_of_ne _ ?_
      rintro ⟨address, byte⟩ member rfl
      obtain ⟨offset, bound, address_eq⟩ := List.getElem_of_mem (List.of_mem_zip member).1
      refine unreached offset (same_length ▸ bound) ?_
      rw [← address_eq]
      exact reached offset bound
  · have result : state.copyToUser start input memory = (.err reason, memory) := by
      simp [copyToUser, validated]
    rw [result]
    refine ⟨?_, by simp, by simp, by simp, by simp⟩
    simp only [reduceCtorEq, false_iff]
    intro each
    obtain ⟨addresses, accepted⟩ := (exists_validateUserRange_eq_ok small).mpr each
    rw [validated] at accepted
    cases accepted
  · exact absurd validated runs

/-- What was copied to distinct readable bytes is copied back. -/
theorem CopiesTo.copied_back {written : UserMemory} {input output after : List UInt8}
    {outcome : Outcome MapError Unit}
    (written_to : CopiesTo state memory start input (.ok ()) written)
    (distinct : ∀ first < input.length, ∀ second < input.length, ∀ physical,
      Reaches state start .write first physical → Reaches state start .write second physical →
      first = second)
    (readable : ∀ offset < input.length, ∃ physical, Reaches state start .read offset physical)
    (read_from : CopiesFrom state written start output outcome after)
    (same_length : output.length = input.length) : outcome = .ok () ∧ after = input := by
  have found (offset : ℕ) (bound : offset < input.length) (physical : UInt64)
      (reached : Reaches state start .read offset physical) :
      written.bytes[physical]? = input[offset]? := by
    obtain ⟨target, target_reached⟩ := written_to.succeeds_iff.mp rfl offset bound
    obtain rfl := target_reached.unique reached
    refine written_to.stored rfl offset target bound target_reached ?_
    intro later later_bound after_offset later_reached
    have same := distinct offset bound later later_bound target target_reached later_reached
    omega
  have succeeded : outcome = .ok () := by
    refine read_from.succeeds_iff.mpr fun offset bound => ?_
    rw [same_length] at bound
    obtain ⟨physical, reached⟩ := readable offset bound
    refine ⟨physical, input[offset], reached, ?_⟩
    rw [found offset bound physical reached, List.getElem?_eq_getElem bound]
  refine ⟨succeeded, List.ext_getElem? fun offset => ?_⟩
  obtain ⟨after_length, copied⟩ := read_from.copied succeeded
  by_cases bound : offset < output.length
  · obtain ⟨physical, reached, after_eq⟩ := copied offset bound
    rw [after_eq, found offset (same_length ▸ bound) physical reached]
  · rw [List.getElem?_eq_none (by omega), List.getElem?_eq_none (by omega)]

end Copies

/-- In every reachable address space the user copies succeed exactly if every byte is open to the
user, change nothing otherwise, and put every byte where it is translated to; and what is written
through distinct readable bytes is read back. -/
theorem user_copies_exact (requests : List Request) (memory : UserMemory) (start : UInt64)
    (output input : Slice UInt8) :
    CopiesFrom (final perform new requests) memory start output
        ((final perform new requests).copyFromUserInto memory start output).1
        ((final perform new requests).copyFromUserInto memory start output).2 ∧
      CopiesTo (final perform new requests) memory start input
        ((final perform new requests).copyToUser start input memory).1
        ((final perform new requests).copyToUser start input memory).2 ∧
      (((final perform new requests).copyToUser start input memory).1 = .ok () →
        (∀ first < input.val.length, ∀ second < input.val.length, ∀ physical,
          Reaches (final perform new requests) start .write first physical →
          Reaches (final perform new requests) start .write second physical → first = second) →
        (∀ offset < input.val.length, ∃ physical,
          Reaches (final perform new requests) start .read offset physical) →
        output.val.length = input.val.length →
        (final perform new requests).copyFromUserInto
            ((final perform new requests).copyToUser start input memory).2 start output =
          (.ok (), input.val)) := by
  have represented := represented_run requests
  have written_to : CopiesTo (final perform new requests) memory start input _ _ :=
    represented.copiesTo input.property
  refine ⟨represented.copiesFrom output.property, written_to, ?_⟩
  intro accepted distinct readable same_length
  rw [accepted] at written_to
  obtain ⟨succeeded, after_eq⟩ := written_to.copied_back distinct readable
    (represented.copiesFrom output.property) same_length
  exact Prod.ext succeeded after_eq

end AddressSpace

end Bulla.Kernel
