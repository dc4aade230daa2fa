import Bulla.Rust.Bits
import Bulla.Rust.FixedArray

/-!
# The processors of a boot

The boot waits for processors in two ways: for a mask with the bit of each of them, and for a number
of them.  Both come from the list of identifiers without the one whose start fails.  The mask is
refused if an identifier occurs twice or has no bit, so otherwise the two describe the same set.
-/

namespace Bulla.Platform

open Rust Outcome

/-- A `Status` is what the firmware returned. -/
inductive PostFirmwareError where
  | unsupportedApic
  | invalidCpuId
  | trampolineTooLarge
  | trampolineAllocation (status : UInt64)
  | memoryMap (status : UInt64)
  | exitBootServices (status : UInt64)
  | apStartup
  | scheduler
  | ipi
  | timer
  | tlb
  | dma
  | entropy
  | injection
  | userMode
  | heap (status : UInt64)
  | device
  | model
  deriving DecidableEq, Repr

/-- `MAX_CPUS`. -/
def maxCpus : UInt64 := 64

/-- `bit`. -/
def cpuBit (cpu : UInt64) : Outcome PostFirmwareError UInt64 :=
  okOr (checkedShl 1 cpu.toUInt32) PostFirmwareError.invalidCpuId

/-- One round of the loop of `expected_mask`. -/
def addMember (mask : UInt64) (apic : UInt32) : Outcome PostFirmwareError UInt64 := do
  let member ← cpuBit apic.toUInt64
  rejectIf (mask &&& member ≠ 0) PostFirmwareError.invalidCpuId
  return mask ||| member

def expectedMask (apicIds : List UInt32) : Outcome PostFirmwareError UInt64 :=
  apicIds.foldlM addMember 0

/-- The first checks of `run`. -/
def checkIds (apicIds : List UInt32) (bsp : UInt32) (failed : Option UInt32) :
    Outcome PostFirmwareError Unit := do
  rejectIf (apicIds = [] ∨ maxCpus.toNat < apicIds.length ∨ bsp ∉ apicIds)
    PostFirmwareError.invalidCpuId
  rejectIf (failed = some bsp ∨ (failed.any fun apic => decide (apic ∉ apicIds)) = true)
    PostFirmwareError.injection

/-- `effective_ids` and `effective_count`. -/
structure Effective where
  ids : FixedArray UInt32 maxCpus
  count : UInt64

/-- `&effective_ids[..effective_count]`. -/
def Effective.slice (effective : Effective) : List UInt32 :=
  effective.ids.toList.take effective.count.toNat

/-- One round of the loop that leaves out the failed processor. -/
def keep (failed : Option UInt32) (effective : Effective) (apic : UInt32) :
    Outcome PostFirmwareError Effective :=
  if some apic ≠ failed then do
    let ids ← unchecked (effective.ids.store effective.count apic)
    let count ← unchecked (checkedAdd effective.count 1)
    return ⟨ids, count⟩
  else return effective

def effectiveIds (apicIds : List UInt32) (failed : Option UInt32) :
    Outcome PostFirmwareError Effective :=
  apicIds.foldlM (keep failed) ⟨Vector.replicate _ 0, 0⟩

/-- What `run` waits for. -/
structure BootCpus where
  fullMask : UInt64
  bspBit : UInt64
  apCount : UInt64
  apMask : UInt64
  deriving DecidableEq, Repr

/-- The masks and the count that `run` computes. -/
def bootCpus (apicIds : List UInt32) (bsp : UInt32) (failed : Option UInt32) :
    Outcome PostFirmwareError BootCpus := do
  checkIds apicIds bsp failed
  let effective ← effectiveIds apicIds failed
  rejectIf (effective.count = 0) PostFirmwareError.injection
  let apicIds := effective.slice
  let fullMask ← expectedMask apicIds
  let bspBit ← cpuBit bsp.toUInt64
  let apCount ← unchecked (checkedSub (UInt64.ofNat apicIds.length) 1)
  let apMask := fullMask &&& ~~~bspBit
  return { fullMask, bspBit, apCount, apMask }

theorem cpuBit_eq (apic : UInt32) :
    cpuBit apic.toUInt64 =
      if apic.toNat < 64 then .ok (1 <<< apic.toUInt64) else .err .invalidCpuId := by
  rw [cpuBit, checkedShl, UInt32.toUInt32_toUInt64]
  by_cases inside : apic.toNat < 64
  · rw [if_pos inside, if_pos (UInt32.lt_iff_toNat_lt.mpr inside), okOr]
  · rw [if_neg inside, if_neg (fun below => inside (UInt32.lt_iff_toNat_lt.mp below)), okOr]

/-- A mask with one more bit. -/
def withMember (mask : UInt64) (apic : UInt32) : UInt64 := mask ||| 1 <<< apic.toUInt64

theorem bit_withMember {apic : UInt32} (inside : apic.toNat < 64) (mask : UInt64) (index : ℕ) :
    bit (withMember mask apic) index = (bit mask index || decide (apic.toNat = index)) := by
  have shift_eq : apic.toUInt64.toNat = apic.toNat := UInt32.toNat_toUInt64 apic
  rw [withMember, bit_or, bit_one_shiftLeft (shift_eq ▸ inside), shift_eq]

theorem addMember_eq_ok {mask next : UInt64} {apic : UInt32} :
    addMember mask apic = .ok next ↔
      (apic.toNat < 64 ∧ bit mask apic.toNat = false) ∧ withMember mask apic = next := by
  by_cases inside : apic.toNat < 64
  · have shift_eq : apic.toUInt64.toNat = apic.toNat := UInt32.toNat_toUInt64 apic
    have taken := and_one_shiftLeft_ne_zero mask (shift_eq ▸ inside)
    rw [shift_eq] at taken
    simp [addMember, cpuBit_eq, inside, taken, withMember]
  · simp [addMember, cpuBit_eq, inside]

/-- A mask is built exactly from distinct identifiers that have a bit, none of them in the mask. -/
theorem foldlM_addMember {apicIds : List UInt32} {mask result : UInt64} :
    apicIds.foldlM addMember mask = .ok result ↔
      (apicIds.Nodup ∧ ∀ apic ∈ apicIds, apic.toNat < 64 ∧ bit mask apic.toNat = false) ∧
        apicIds.foldl withMember mask = result := by
  have free_iff (mask : UInt64) (apic other : UInt32) (inside : apic.toNat < 64) :
      bit (withMember mask apic) other.toNat = false ↔
        bit mask other.toNat = false ∧ apic ≠ other := by
    rw [bit_withMember inside, Bool.or_eq_false_iff, decide_eq_false_iff_not, UInt32.toNat_inj]
  rw [foldlM_eq_ok_iff_distinct id (fun mask apic => bit mask apic.toNat = false)
    (fun _ _ _ => addMember_eq_ok) free_iff, List.map_id]
  rfl

theorem bit_foldl_withMember {apicIds : List UInt32} (inside : ∀ apic ∈ apicIds, apic.toNat < 64)
    (mask : UInt64) (index : ℕ) :
    bit (apicIds.foldl withMember mask) index = true ↔
      bit mask index = true ∨ index ∈ apicIds.map (·.toNat) := by
  induction apicIds generalizing mask with
  | nil => simp
  | cons apic apicIds induction =>
      rw [List.forall_mem_cons] at inside
      rw [List.foldl_cons, induction inside.2, bit_withMember inside.1, Bool.or_eq_true,
        decide_eq_true_eq, List.map_cons, List.mem_cons, or_assoc, eq_comm (a := index)]

theorem expectedMask_eq_ok {apicIds : List UInt32} {mask : UInt64} :
    expectedMask apicIds = .ok mask ↔
      (apicIds.Nodup ∧ ∀ apic ∈ apicIds, apic.toNat < 64) ∧ apicIds.foldl withMember 0 = mask := by
  rw [expectedMask, foldlM_addMember]
  simp

section Mask

variable {apicIds : List UInt32} {mask : UInt64} (accepted : expectedMask apicIds = .ok mask)

include accepted

/-- A mask has the bits of its identifiers. -/
theorem bit_expectedMask (index : ℕ) :
    bit mask index = true ↔ index ∈ apicIds.map (·.toNat) := by
  obtain ⟨⟨-, inside⟩, rfl⟩ := expectedMask_eq_ok.mp accepted
  rw [bit_foldl_withMember inside]
  simp

theorem nodup_expectedMask : (apicIds.map (·.toNat)).Nodup :=
  (expectedMask_eq_ok.mp accepted).1.1.map fun _ _ => UInt32.toNat_inj.mp

theorem countOnes_expectedMask : countOnes mask = apicIds.length := by
  rw [countOnes_eq_length (nodup_expectedMask accepted) (bit_expectedMask accepted),
    List.length_map]

/-- Without the bit of one of its identifiers a mask has one bit less. -/
theorem countOnes_without {bsp : UInt32} {bspBit : UInt64} (member : bsp ∈ apicIds)
    (bsp_bits : ∀ index, bit bspBit index = decide (bsp.toNat = index)) :
    countOnes (mask &&& ~~~bspBit) = apicIds.length - 1 := by
  have distinct := nodup_expectedMask accepted
  have bits (index : ℕ) : bit (mask &&& ~~~bspBit) index = true ↔
      index ∈ (apicIds.map (·.toNat)).erase bsp.toNat := by
    rw [bit_and_not, Bool.and_eq_true, bit_expectedMask accepted, bsp_bits,
      distinct.mem_erase_iff, and_comm, Bool.not_eq_true', decide_eq_false_iff_not, eq_comm]
  rw [countOnes_eq_length (distinct.erase _) bits,
    List.length_erase_of_mem (List.mem_map_of_mem member), List.length_map]

end Mask

/-- A kept identifier goes behind those kept before. -/
theorem exists_keep (effective : Effective) (room : effective.count.toNat < maxCpus.toNat)
    {failed : Option UInt32} {apic : UInt32} (kept : some apic ≠ failed) :
    ∃ next, keep failed effective apic = .ok next ∧
      next.count.toNat = effective.count.toNat + 1 ∧ next.slice = effective.slice ++ [apic] := by
  have room_lt : effective.count.toNat + 1 < 2 ^ 64 := by
    have bound := maxCpus.toNat_lt
    omega
  obtain ⟨count, count_eq⟩ := exists_toNat_eq room_lt
  have stored : effective.ids.store effective.count apic =
      some (effective.ids.set effective.count.toNat apic room) :=
    FixedArray.store_eq_some.mpr ⟨room, rfl⟩
  refine ⟨⟨effective.ids.set effective.count.toNat apic room, count⟩, ?_, count_eq, ?_⟩
  · simp only [keep, kept, ne_eq, not_false_eq_true, if_true, bind_eq_ok, unchecked_eq_ok]
    exact ⟨_, stored, count, checkedAdd_eq_some.mpr count_eq, rfl⟩
  · simp only [Effective.slice, count_eq, Vector.toList_set, List.take_add_one]
    rw [List.take_set_of_le le_rfl, List.getElem?_set_self (by simpa using room),
      Option.toList_some]

/-- The kept identifiers follow those kept before. -/
theorem foldlM_keep (failed : Option UInt32) (apicIds : List UInt32) (effective : Effective)
    (room : effective.count.toNat + apicIds.length ≤ maxCpus.toNat) :
    ∃ after, apicIds.foldlM (keep failed) effective = .ok after ∧
      after.slice = effective.slice ++ apicIds.filter (fun apic => some apic ≠ failed) ∧
      after.count.toNat = after.slice.length := by
  induction apicIds generalizing effective with
  | nil =>
      refine ⟨effective, rfl, by simp, ?_⟩
      rw [Effective.slice, List.length_take, Vector.length_toList]
      exact (Nat.min_eq_left room).symm
  | cons apic apicIds induction =>
      rw [List.length_cons] at room
      by_cases kept : some apic ≠ failed
      · obtain ⟨next, next_eq, count_eq, slice_eq⟩ := exists_keep effective (by omega) kept
        obtain ⟨after, after_eq, after_slice, after_count⟩ := induction next (by omega)
        refine ⟨after, ?_, ?_, after_count⟩
        · rw [List.foldlM_cons, next_eq, ok_bind, after_eq]
        · rw [after_slice, slice_eq, List.filter_cons_of_pos (by simpa using kept),
            List.append_assoc, List.singleton_append]
      · obtain ⟨after, after_eq, after_slice, after_count⟩ := induction effective (by omega)
        refine ⟨after, ?_, ?_, after_count⟩
        · rw [List.foldlM_cons, keep, if_neg kept, pure_eq, ok_bind, after_eq]
        · rw [after_slice, List.filter_cons_of_neg (by simpa using kept)]

theorem checkIds_eq_ok {apicIds : List UInt32} {bsp : UInt32} {failed : Option UInt32} :
    checkIds apicIds bsp failed = .ok () ↔
      apicIds.length ≤ maxCpus.toNat ∧ bsp ∈ apicIds ∧ failed ≠ some bsp ∧
        ∀ apic, failed = some apic → apic ∈ apicIds := by
  have nonempty (present : bsp ∈ apicIds) : apicIds ≠ [] := List.ne_nil_of_mem present
  simp only [checkIds, bind_eq_ok, rejectIf_eq_ok]
  cases failed <;> simp <;> grind

/-- The loop keeps every processor but the one that fails. -/
theorem exists_effectiveIds {apicIds : List UInt32} (fits : apicIds.length ≤ maxCpus.toNat)
    (failed : Option UInt32) :
    ∃ effective, effectiveIds apicIds failed = .ok effective ∧
      effective.slice = apicIds.filter (fun apic => some apic ≠ failed) ∧
      effective.count.toNat = effective.slice.length := by
  obtain ⟨after, after_eq, slice_eq, count_eq⟩ :=
    foldlM_keep failed apicIds ⟨Vector.replicate _ 0, 0⟩ (by simpa using fits)
  refine ⟨after, after_eq, ?_, count_eq⟩
  rw [slice_eq]
  rfl

/-- A boot with a mask of its processors also gets past the other steps. -/
theorem exists_bootCpus {apicIds : List UInt32} {bsp : UInt32} {failed : Option UInt32}
    {effective : Effective} {mask : UInt64} (admitted : checkIds apicIds bsp failed = .ok ())
    (effective_eq : effectiveIds apicIds failed = .ok effective)
    (count_eq : effective.count.toNat = effective.slice.length) (bsp_kept : bsp ∈ effective.slice)
    (accepted : expectedMask effective.slice = .ok mask) :
    ∃ cpus, bootCpus apicIds bsp failed = .ok cpus ∧ cpus.fullMask = mask ∧
      cpus.bspBit = 1 <<< bsp.toUInt64 ∧ cpus.apMask = mask &&& ~~~cpus.bspBit ∧
      cpus.apCount.toNat + 1 = effective.slice.length := by
  have length_pos := List.length_pos_of_mem bsp_kept
  have length_lt := effective.count.toNat_lt
  have some_kept : effective.count ≠ 0 := by
    intro none_kept
    rw [none_kept, UInt64.toNat_zero] at count_eq
    omega
  have bsp_lt := (expectedMask_eq_ok.mp accepted).1.2 bsp bsp_kept
  obtain ⟨apCount, apCount_eq⟩ := exists_toNat_eq
    (show effective.slice.length - 1 < 2 ^ 64 by omega)
  have counted : checkedSub (UInt64.ofNat effective.slice.length) 1 = some apCount := by
    rw [checkedSub_eq_some, UInt64.toNat_ofNat_of_lt' (count_eq ▸ length_lt), apCount_eq,
      UInt64.toNat_one]
    omega
  have apCount_succ : apCount.toNat + 1 = effective.slice.length := by omega
  refine ⟨⟨mask, 1 <<< bsp.toUInt64, apCount, mask &&& ~~~(1 <<< bsp.toUInt64)⟩, ?_, rfl, rfl, rfl,
    apCount_succ⟩
  simp [bootCpus, admitted, effective_eq, rejectIf, some_kept, accepted, cpuBit_eq, bsp_lt, counted,
    unchecked]

/-- The masks and the counts that the boot waits for describe the same processors: those of the list
but the failed one, with or without the one that boots. -/
theorem cpu_masks_match_counts {apicIds : List UInt32} {bsp : UInt32} {failed : Option UInt32}
    (admitted : checkIds apicIds bsp failed = .ok ()) :
    ∃ effective, effectiveIds apicIds failed = .ok effective ∧
      effective.slice = apicIds.filter (fun apic => some apic ≠ failed) ∧
      ((∃ mask, expectedMask effective.slice = .ok mask) ↔
        effective.slice.Nodup ∧ ∀ apic ∈ effective.slice, apic.toNat < 64) ∧
      ∀ mask, expectedMask effective.slice = .ok mask →
        (∀ index, bit mask index = true ↔ ∃ apic ∈ effective.slice, apic.toNat = index) ∧
          countOnes mask = effective.count.toNat ∧ bit mask bsp.toNat = true ∧
          (∀ apic, failed = some apic → bit mask apic.toNat = false) ∧
          ∃ cpus, bootCpus apicIds bsp failed = .ok cpus ∧ cpus.fullMask = mask ∧
            cpus.apMask = mask &&& ~~~cpus.bspBit ∧
            (∀ index, bit cpus.bspBit index = true ↔ index = bsp.toNat) ∧
            cpus.apCount.toNat = effective.count.toNat - 1 ∧
            countOnes cpus.apMask = cpus.apCount.toNat := by
  obtain ⟨fits, present, starts, listed⟩ := checkIds_eq_ok.mp admitted
  obtain ⟨effective, effective_eq, slice_eq, count_eq⟩ := exists_effectiveIds fits failed
  refine ⟨effective, effective_eq, slice_eq, ?_, ?_⟩
  · constructor
    · rintro ⟨mask, accepted⟩
      exact (expectedMask_eq_ok.mp accepted).1
    · exact fun accepted => ⟨_, expectedMask_eq_ok.mpr ⟨accepted, rfl⟩⟩
  · intro mask accepted
    have bits := bit_expectedMask accepted
    have kept_iff (apic : UInt32) :
        apic ∈ effective.slice ↔ apic ∈ apicIds ∧ some apic ≠ failed := by
      rw [slice_eq, List.mem_filter, decide_eq_true_eq]
    have bsp_kept : bsp ∈ effective.slice := (kept_iff bsp).mpr ⟨present, starts.symm⟩
    refine ⟨fun index => ?_, ?_, (bits _).mpr (List.mem_map_of_mem bsp_kept),
      fun apic fails => ?_, ?_⟩
    · rw [bits, List.mem_map]
    · rw [countOnes_expectedMask accepted, count_eq]
    · rw [Bool.eq_false_iff, Ne, bits, List.mem_map]
      rintro ⟨other, other_kept, same⟩
      rw [UInt32.toNat_inj.mp same, kept_iff] at other_kept
      exact other_kept.2 fails.symm
    · obtain ⟨cpus, cpus_eq, full_eq, bsp_eq, ap_eq, ap_count⟩ :=
        exists_bootCpus admitted effective_eq count_eq bsp_kept accepted
      have bsp_bits (index : ℕ) : bit cpus.bspBit index = decide (bsp.toNat = index) := by
        have bsp_lt := (expectedMask_eq_ok.mp accepted).1.2 bsp bsp_kept
        have shift_eq : bsp.toUInt64.toNat = bsp.toNat := UInt32.toNat_toUInt64 bsp
        rw [bsp_eq, bit_one_shiftLeft (shift_eq ▸ bsp_lt), shift_eq]
      refine ⟨cpus, cpus_eq, full_eq, ap_eq, fun index => by simp [bsp_bits, eq_comm], by omega, ?_⟩
      rw [ap_eq, countOnes_without accepted bsp_kept bsp_bits]
      omega

/-- Processor 0 boots and processor 1 fails: processors 0 and 2 are waited for. -/
theorem two_of_three_cpus_awaited :
    checkIds [0, 1, 2] 0 (some 1) = .ok () ∧
      ∃ effective, effectiveIds [0, 1, 2] (some 1) = .ok effective ∧ effective.slice = [0, 2] ∧
        expectedMask effective.slice = .ok 5 ∧ countOnes 5 = effective.count.toNat := by
  have admitted : checkIds [0, 1, 2] 0 (some 1) = .ok () := by decide
  obtain ⟨effective, effective_eq, slice_eq, -, counts⟩ := cpu_masks_match_counts admitted
  have kept_eq : effective.slice = [0, 2] := slice_eq
  have mask_eq : expectedMask effective.slice = .ok 5 := by
    rw [kept_eq]
    decide
  exact ⟨admitted, effective, effective_eq, kept_eq, mask_eq, (counts 5 mask_eq).2.1⟩

end Bulla.Platform
