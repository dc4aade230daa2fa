import Bulla.Kernel.Policy

/-!
# Syscall numbers

The sequencer bounds syscall numbers by a 64-bit limit of its configuration, and the policy enters
the context named by the low half of the number.  The two fit together for limits below `2 ^ 32`
only.
-/

namespace Bulla.Kernel.EventSequencer

open Rust Outcome KernelPolicy

/-- A syscall that the sequencer accepts makes some policy enter the context. -/
def Enters (sequencer : EventSequencer) (number : UInt64) (context : UInt32) : Prop :=
  ∃ cpu correlation event policy batch,
    (ingress cpu (.syscall number) correlation sequencer).1 = .ok event ∧
      (step event policy).1 = .ok batch ∧ .enterContext context ∈ batch.actions

/-- The sequencer still numbers the events of some processor, and not with the identifier that every
policy takes for a stale one. -/
structure Accepting (sequencer : EventSequencer) : Prop where
  included : ∃ cpu, sequencer.excludes cpu = false
  nonzero : sequencer.nextEvent ≠ 0
  room : sequencer.nextEvent.toNat + 1 < 2 ^ 64

section Enters

variable {sequencer : EventSequencer} {policy : KernelPolicy} {number : UInt64} {context : UInt32}

theorem ingress_syscall_of_ok {cpu : CpuId} {correlation : Option ActionId} {event : Event}
    (accepted : (ingress cpu (.syscall number) correlation sequencer).1 = .ok event) :
    sequencer.excludes cpu = false ∧ number ≤ sequencer.maxSyscall ∧
      sequencer.nextEvent.toNat + 1 < 2 ^ 64 ∧
      event = ⟨cpu, sequencer.nextEvent, correlation, .syscall number⟩ := by
  revert accepted
  show Call.Ensures (ingress cpu (.syscall number) correlation) (fun outcome _ =>
    outcome = .ok event → _) sequencer
  simp only [ingress, validateKind]
  simp
  intro included bounded next advanced _ event_eq
  have next_lt := next.toNat_lt
  exact ⟨included, bounded, by omega, event_eq.symm⟩

theorem ingress_syscall {cpu : CpuId} (included : sequencer.excludes cpu = false)
    (bounded : number ≤ sequencer.maxSyscall) (room : sequencer.nextEvent.toNat + 1 < 2 ^ 64) :
    (ingress cpu (.syscall number) none sequencer).1 =
      .ok ⟨cpu, sequencer.nextEvent, none, .syscall number⟩ := by
  show Call.Ensures (ingress cpu (.syscall number) none)
    (fun outcome _ => outcome = .ok _) sequencer
  simp only [ingress, validateKind]
  simp [included, bounded]
  omega

/-- The only context that a syscall enters is the low half of its number. -/
theorem enterContext_mem_iff {cpu : CpuId} {shard : CpuShard} {batch : ActionBatch 4}
    (answered : (respond cpu shard (.syscall number) policy).1 = .ok batch) :
    .enterContext context ∈ batch.actions ↔ number ≠ 0 ∧ context = number.toUInt32 := by
  by_cases zero : number = 0
  · simp [respond, zero, ActionBatch.push, ActionBatch.new] at answered
    simp [← answered, zero]
  · simp [respond, zero, ActionBatch.push, ActionBatch.new] at answered
    simp [← answered, zero]

/-- Which syscalls enter which contexts. -/
theorem enters_iff : Enters sequencer number context ↔
    Accepting sequencer ∧ number ≤ sequencer.maxSyscall ∧ number ≠ 0 ∧
      context = number.toUInt32 := by
  constructor
  · rintro ⟨cpu, correlation, event, policy, batch, accepted, stepped, emitted⟩
    obtain ⟨included, bounded, room, rfl⟩ := ingress_syscall_of_ok accepted
    obtain ⟨shard, takes⟩ := exists_takes_of_ok stepped
    rw [takes.step_eq] at stepped
    have nonzero : sequencer.nextEvent ≠ 0 := by
      intro zero
      exact UInt64.not_lt_zero (zero ▸ takes.newer)
    exact ⟨⟨⟨cpu, included⟩, nonzero, room⟩, bounded, (enterContext_mem_iff stepped).mp emitted⟩
  · rintro ⟨⟨⟨cpu, included⟩, nonzero, room⟩, bounded, entered⟩
    have accepted := ingress_syscall included bounded room
    have takes : Takes ⟨(∅ : BTreeMap CpuId CpuShard).insert cpu ⟨cpu, 0, 0, 0, false⟩, 0⟩
        ⟨cpu, sequencer.nextEvent, none, .syscall number⟩ ⟨cpu, 0, 0, 0, false⟩ :=
      ⟨UInt64.pos_iff_ne_zero.mpr nonzero, Std.ExtTreeMap.getElem?_insert_self, rfl, rfl⟩
    obtain ⟨batch, stepped⟩ := takes.step_ok_iff.mpr ⟨nofun, nofun⟩
    refine ⟨cpu, none, _, _, batch, accepted, stepped, ?_⟩
    rw [takes.step_eq] at stepped
    exact (enterContext_mem_iff stepped).mpr entered

end Enters

/-- Syscalls enter the context of their number exactly if the limit is below `2 ^ 32`, and syscalls
with different numbers enter different contexts exactly if the limit is at most `2 ^ 32`, for every
sequencer that accepts events at all. -/
theorem syscalls_unaliased_iff (sequencer : EventSequencer) :
    ((∀ number context, Enters sequencer number context → context.toUInt64 = number) ↔
        (Accepting sequencer → sequencer.maxSyscall.toNat < 2 ^ 32)) ∧
      ((∀ number other context, Enters sequencer number context → Enters sequencer other context →
          number = other) ↔
        (Accepting sequencer → sequencer.maxSyscall.toNat ≤ 2 ^ 32)) := by
  simp only [enters_iff]
  refine ⟨⟨fun faithful accepting => ?_, fun small => ?_⟩,
    ⟨fun separate accepting => ?_, fun small => ?_⟩⟩
  · by_contra large
    have nonzero : sequencer.maxSyscall ≠ 0 := by
      intro zero
      simp [zero] at large
    have entered := faithful _ _ ⟨accepting, UInt64.le_refl _, nonzero, rfl⟩
    have low_eq := congrArg UInt64.toNat entered
    rw [UInt32.toNat_toUInt64, UInt64.toNat_toUInt32] at low_eq
    omega
  · rintro number context ⟨accepting, bounded, -, rfl⟩
    have limit := small accepting
    rw [UInt64.le_iff_toNat_le] at bounded
    rw [← UInt64.toNat_inj, UInt32.toNat_toUInt64, UInt64.toNat_toUInt32]
    omega
  · by_contra large
    have one_le : (1 : UInt64) ≤ sequencer.maxSyscall := by
      rw [UInt64.le_iff_toNat_le]
      exact le_trans (by decide) (Nat.le_of_not_le large)
    have alias_le : (0x100000001 : UInt64) ≤ sequencer.maxSyscall := by
      rw [UInt64.le_iff_toNat_le]
      exact Nat.lt_of_not_le large
    have same := separate 1 0x100000001 1 ⟨accepting, one_le, by decide, rfl⟩
      ⟨accepting, alias_le, by decide, rfl⟩
    exact absurd same (by decide)
  · rintro number other context ⟨accepting, number_le, number_ne, rfl⟩ ⟨-, other_le, other_ne, same⟩
    have limit := small accepting
    have number_pos := toNat_pos number_ne
    have other_pos := toNat_pos other_ne
    have low_eq := congrArg UInt32.toNat same
    rw [UInt64.toNat_toUInt32, UInt64.toNat_toUInt32] at low_eq
    rw [UInt64.le_iff_toNat_le] at number_le other_le
    rw [← UInt64.toNat_inj]
    omega

/-- With a limit beyond `2 ^ 32`, two syscalls enter the same context. -/
theorem syscall_aliased :
    let sequencer := withTopology (CpuSet.fromIds [0]) 0x100000005
    let policy := (addCpu 0 KernelPolicy.new).2
    ∀ number ∈ [5, 0x100000005],
      (ingress 0 (.syscall number) none sequencer).1 = .ok ⟨0, 1, none, .syscall number⟩ ∧
        (step ⟨0, 1, none, .syscall number⟩ policy).1 = .ok ⟨[.enterContext 5], by decide⟩ := by
  intro sequencer policy number member
  simp only [List.mem_cons, List.not_mem_nil, or_false] at member
  rcases member with rfl | rfl
  · exact ⟨by decide, rfl⟩
  · exact ⟨by decide, rfl⟩

end Bulla.Kernel.EventSequencer
