import Bulla.Kernel.Event
import Bulla.Kernel.MemoryMap

/-!
# The resources an action names

An action names processors, vectors, addresses, ports, device slots or a context.  Where the
authority table turns them into a range, an authorized action stays inside its capability.  The two
actions on a set of processors demand the empty range at zero instead, so their targets are not
compared with the capability at all.
-/

namespace Bulla.Kernel

open Rust Outcome

/-- `count` indices or addresses from `first` on. -/
def consecutive (first count : ℕ) : Span ℕ where
  lower := first
  upper := first + count
  ordered := Nat.le_add_right _ _

namespace Action

/-- The processors that an action is sent to. -/
def targets : Action → Option CpuSet
  | .sendIpi targets _ _ => some targets
  | .tlbShootdown targets _ _ _ => some targets
  | _ => none

/-- Everything that an action names by index or address. -/
def resources : Action → List (Span ℕ)
  | .startCpu cpu => [consecutive cpu.toNat 1]
  | .sendIpi targets _ _ => targets.iter.map fun cpu => consecutive cpu.toNat 1
  | .tlbShootdown targets _ _ _ => targets.iter.map fun cpu => consecutive cpu.toNat 1
  | .ackIrq vector => [consecutive vector.toNat 1]
  | .maskIrq vector => [consecutive vector.toNat 1]
  | .unmaskIrq vector => [consecutive vector.toNat 1]
  | .map virtualBase pageSize pages _ =>
      [consecutive virtualBase.toNat (pageSize.bytes.toNat * pages.toNat)]
  | .unmap virtualBase => [consecutive virtualBase.toNat 1]
  | .protect virtualBase _ => [consecutive virtualBase.toNat 1]
  | .mmioRead address width => [consecutive address.toNat width.toNat]
  | .mmioWrite address width _ => [consecutive address.toNat width.toNat]
  | .pioRead port width => [consecutive port.toNat width.toNat]
  | .pioWrite port width _ => [consecutive port.toNat width.toNat]
  | .submitDma slot => [consecutive slot.toNat 1]
  | .enqueueTask _ cpu => [consecutive cpu.toNat 1]
  | .enterContext context => [consecutive context.toNat 1]
  | .armTimer _ => []
  | .cancelTimer => []
  | .reboot => []
  | .powerOff => []
  | .halt => []

end Action

namespace ActionExecutor

/-- The authority of an action without targets demands exactly the resources it names. -/
theorem resources_of_authority {action : Action} {authority : ActionAuthority}
    (demanded : actionAuthority action = .ok authority) (untargeted : action.targets = none) :
    ∀ span ∈ action.resources, span = consecutive authority.base.toNat authority.len.toNat := by
  cases action with
  | sendIpi => simp [Action.targets] at untargeted
  | tlbShootdown => simp [Action.targets] at untargeted
  | map virtualBase pageSize pages permissions =>
      simp [actionAuthority] at demanded
      obtain ⟨bytes, bytes_eq, rfl⟩ := demanded
      simp [Action.resources, bytes_eq]
  | _ =>
      simp [actionAuthority] at demanded
      subst demanded
      simp [Action.resources]

theorem authority_of_targets {action : Action} {targets : CpuSet}
    (targeted : action.targets = some targets) :
    actionAuthority action = .ok ⟨.cpuSet, Rights.control, 0, 0⟩ ∧
      action.resources = targets.iter.map fun cpu => consecutive cpu.toNat 1 := by
  cases action <;> simp [Action.targets] at targeted
  · subst targeted
    exact ⟨rfl, rfl⟩
  · subst targeted
    exact ⟨rfl, rfl⟩

/-- A range that a capability contains lies inside its span. -/
theorem cells_subset_of_contained {capability : Capability} {base len : UInt64}
    (contained : capability.containsRange base len = true) :
    (consecutive base.toNat len.toNat).cells ⊆ capability.span.cells := by
  obtain ⟨-, base_le, end_le⟩ := Capability.containsRange_iff.mp contained
  exact Set.Ico_subset_Ico base_le end_le

/-- A capability that covers index zero covers the processors below its length. -/
theorem processor_subset_iff {capability : Capability} (from_zero : capability.base = 0)
    (cpu : CpuId) : (consecutive cpu.toNat 1).cells ⊆ capability.span.cells ↔
      cpu.toNat < capability.len.toNat := by
  have nonempty : (consecutive cpu.toNat 1).lower < (consecutive cpu.toNat 1).upper :=
    Nat.lt_succ_self _
  have base_eq : capability.base.toNat = 0 := congrArg UInt64.toNat from_zero
  rw [Span.cells, Span.cells, Set.Ico_subset_Ico_iff nonempty]
  simp only [consecutive, Capability.span, base_eq]
  omega

/-- The empty range at zero is accepted only for a capability that starts there. -/
theorem base_eq_zero_of_accepted {ledger : CapabilityLedger} {capability : Capability}
    {owner : OwnerId} {required : Rights}
    (accepted : ledger.validate capability owner required 0 0 = .ok ()) : capability.base = 0 := by
  obtain ⟨-, -, -, -, contained⟩ := CapabilityLedger.validate_eq_ok.mp accepted
  obtain ⟨-, base_le, -⟩ := Capability.containsRange_iff.mp contained
  exact UInt64.toNat_inj.mp (Nat.le_zero.mp base_le)

/-- An authorized action names only resources inside its capability exactly if the targets of an
action on a set of processors, presented with an accepted capability, lie below its length. -/
theorem resources_inside_iff (ledger : CapabilityLedger) (owner : OwnerId) (capability : Capability)
    (action : Action) :
    (∀ authorized, authorize ledger owner capability action = .ok authorized →
        ∀ span ∈ action.resources, span.cells ⊆ capability.span.cells) ↔
      ∀ targets, action.targets = some targets → validateAction action = .ok () →
        capability.kind = .cpuSet → ledger.validate capability owner Rights.control 0 0 = .ok () →
        ∀ cpu ∈ targets.iter, cpu.toNat < capability.len.toNat := by
  constructor
  · intro inside targets targeted valid kind_eq accepted cpu member
    obtain ⟨authority_eq, resources_eq⟩ := authority_of_targets targeted
    have authorized : authorize ledger owner capability action = .ok _ :=
      authorize_eq_ok.mpr ⟨valid, ⟨_, authority_eq, kind_eq, accepted⟩, rfl⟩
    refine (processor_subset_iff (base_eq_zero_of_accepted accepted) cpu).mp ?_
    apply inside _ authorized
    rw [resources_eq]
    exact List.mem_map_of_mem member
  · intro below authorized accepted span member
    obtain ⟨valid, ⟨authority, authority_eq, kind_eq, validated⟩, -⟩ := authorize_eq_ok.mp accepted
    rcases targeted : action.targets with _ | targets
    · rw [resources_of_authority authority_eq targeted span member]
      obtain ⟨-, -, -, -, contained⟩ := CapabilityLedger.validate_eq_ok.mp validated
      exact cells_subset_of_contained contained
    · obtain ⟨table_eq, resources_eq⟩ := authority_of_targets targeted
      obtain rfl : ⟨.cpuSet, Rights.control, 0, 0⟩ = authority := by
        simpa [table_eq] using authority_eq
      rw [resources_eq, List.mem_map] at member
      obtain ⟨cpu, cpu_member, rfl⟩ := member
      exact (processor_subset_iff (base_eq_zero_of_accepted validated) cpu).mpr
        (below targets targeted valid kind_eq validated cpu cpu_member)

/-- A capability for processor zero alone authorizes an interrupt to processor five. -/
theorem interrupt_outside_capability :
    ∃ ledger capability authorized,
      CapabilityLedger.mintRoot .cpuSet 3 7 Rights.control 0 1 CapabilityLedger.new =
        (.ok capability, ledger) ∧
      authorize ledger 7 capability (.sendIpi (CpuSet.fromIds [5]) 40 1) = .ok authorized ∧
      consecutive 5 1 ∈ (Action.sendIpi (CpuSet.fromIds [5]) 40 1).resources ∧
      ¬(consecutive 5 1).cells ⊆ capability.span.cells := by
  refine ⟨_, ⟨.cpuSet, 3, 7, Rights.control, 0, 0, 1⟩, _, rfl, rfl, ?_, ?_⟩
  · exact List.mem_map_of_mem (f := fun cpu : CpuId => consecutive cpu.toNat 1) (a := 5) (by decide)
  · intro inside
    exact absurd ((processor_subset_iff rfl 5).mp inside) (by decide)

end ActionExecutor

end Bulla.Kernel
