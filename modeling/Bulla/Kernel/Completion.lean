import Bulla.Kernel.Policy

/-!
# Completions seen by the policy

The sequencer reports every completed action to the kernel as an event correlated with the action.
The policy has its own list of the kinds that may carry a correlation, and the two lists differ:
only a started processor and a finished device transfer come back as an event that the policy takes.
-/

namespace Bulla.Kernel.EventSequencer

open Rust Outcome KernelPolicy

/-- The event of a completed action is correlated with it and tells how it ended. -/
theorem complete_eq_ok {issued : IssuedAction} {cpu : CpuId} {result : Except PlatformError Unit}
    {before after : EventSequencer} {completion : Completion} {event : Event}
    (completed : complete issued cpu result before = (.ok (completion, event), after)) :
    event = ⟨cpu, before.nextEvent, some issued.id, completionKind issued.action result⟩ := by
  have returned : Call.Ensures (complete issued cpu result) (fun outcome _ =>
      ∀ reply, outcome = .ok reply →
        reply.2 = ⟨cpu, before.nextEvent, some issued.id, completionKind issued.action result⟩)
      before := by
    simp only [complete, ingress]
    simp
  exact returned (completion, event) (by rw [completed])

/-- The completions that the policy expects. -/
theorem completionEvent_completionKind {action : Action} {result : Except PlatformError Unit} :
    completionEvent (completionKind action result) = true ↔
      result = .ok () ∧ ((∃ cpu, action = .startCpu cpu) ∨ ∃ slot, action = .submitDma slot) := by
  rcases result with reason | ⟨⟩
  · cases action <;> simp [completionKind, completionEvent]
  · cases action <;> simp [completionKind, completionEvent]

/-- The policy understands the completion of an action, on a running processor and as a new event,
exactly if a processor was started or a device transfer submitted and the action succeeded. -/
theorem understands_completion_iff {before after : EventSequencer} {policy : KernelPolicy}
    {issued : IssuedAction} {cpu : CpuId} {result : Except PlatformError Unit}
    {completion : Completion} {event : Event} {shard : CpuShard}
    (completed : complete issued cpu result before = (.ok (completion, event), after))
    (present : policy.shards[cpu]? = some shard) (running : shard.terminal = false)
    (newer : policy.lastGlobalEvent < event.id) :
    policy.Understands event ↔
      result = .ok () ∧
        ((∃ started, issued.action = .startCpu started) ∨
          ∃ slot, issued.action = .submitDma slot) := by
  obtain rfl := complete_eq_ok completed
  rw [understands_iff newer present running, ← completionEvent_completionKind]
  simp

/-- The first action starts a processor, and the policy takes its completion. -/
theorem understands_started_processor :
    Understands ⟨(∅ : BTreeMap CpuId CpuShard).insert 1 ⟨1, 0, 0, 0, false⟩, 0⟩
      ⟨1, 1, some 1, .cpuOnline⟩ := by
  have completed : complete ⟨1, .startCpu 1⟩ 1 (.ok ()) ⟨1, 2, none, ∅, ∅, 0⟩ =
      (.ok (⟨1, 1, .ok ()⟩, ⟨1, 1, some 1, .cpuOnline⟩), ⟨2, 2, none, ∅, ∅, 0⟩) := rfl
  have present : ((∅ : BTreeMap CpuId CpuShard).insert 1 ⟨1, 0, 0, 0, false⟩)[(1 : CpuId)]? =
      some ⟨1, 0, 0, 0, false⟩ := by simp
  exact (understands_completion_iff completed present rfl (by decide)).mpr ⟨rfl, .inl ⟨1, rfl⟩⟩

/-- A timer that was armed comes back as an event that the policy refuses. -/
theorem timer_completion_refused :
    ∃ issued sequencer completion event after,
      issue (.armTimer 100) new = (.ok issued, sequencer) ∧
      complete issued 0 (.ok ()) sequencer = (.ok (completion, event), after) ∧
      KernelPolicy.new.lastGlobalEvent < event.id ∧
      (addCpu 0 KernelPolicy.new).1 = .ok () ∧
      (addCpu 0 KernelPolicy.new).2.shards[event.cpu]? = some ⟨0, 0, 0, 0, false⟩ ∧
      (step event (addCpu 0 KernelPolicy.new).2).1 = .err .unexpectedCorrelation :=
  ⟨⟨1, .armTimer 100⟩, ⟨1, 2, none, ∅, ∅, 0⟩, ⟨1, 1, .ok ()⟩, ⟨0, 1, some 1, .timer⟩,
    ⟨2, 2, none, ∅, ∅, 0⟩, rfl, rfl, by decide, rfl, by decide, rfl⟩

end Bulla.Kernel.EventSequencer
