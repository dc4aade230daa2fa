import Bulla.Kernel.Event

/-!
# The kernel policy

The policy turns each event into a small batch of actions.  It keeps one shard for each processor
and takes events in the order of their identifiers; an event for a processor that has shut down is
refused.  Events that complete an action carry the identifier of the action, and no other event
does.
-/

namespace Bulla.Kernel

open Rust Outcome

/-- What the policy knows about one processor. -/
structure CpuShard where
  cpu : CpuId
  lastEvent : UInt64
  ticks : UInt64
  runnableTasks : UInt32
  terminal : Bool
  deriving DecidableEq, Repr

inductive PolicyError where
  | unknownCpu
  | duplicateCpu
  | staleEvent
  | correlationRequired
  | unexpectedCorrelation
  | actionOverflow
  | tickOverflow
  | taskOverflow
  | terminal
  | platform (reason : PlatformError)
  deriving DecidableEq, Repr

/-- At most `capacity` actions, in order. -/
structure ActionBatch (capacity : ℕ) where
  actions : List Action
  bounded : actions.length ≤ capacity

namespace ActionBatch

variable {capacity : ℕ}

def new : ActionBatch capacity := ⟨[], Nat.zero_le _⟩

def push (self : ActionBatch capacity) (action : Action) :
    Outcome PolicyError (ActionBatch capacity) :=
  if room : self.actions.length < capacity then
    .ok ⟨self.actions ++ [action], by rw [List.length_append]; exact room⟩
  else
    .err .actionOverflow

end ActionBatch

structure KernelPolicy where
  shards : BTreeMap CpuId CpuShard
  lastGlobalEvent : UInt64

namespace KernelPolicy

def new : KernelPolicy := ⟨∅, 0⟩

/-- The shard is overwritten before a duplicate is reported. -/
def addCpu (cpu : CpuId) : Call KernelPolicy PolicyError Unit := do
  let replaced := (← get).shards[cpu]?
  let shard : CpuShard := ⟨cpu, 0, 0, 0, false⟩
  modify fun self => { self with shards := self.shards.insert cpu shard }
  rejectIf (replaced.isSome = true) PolicyError.duplicateCpu

/-- The kinds that `step` takes for completions. -/
def completionEvent : EventKind → Bool
  | .cpuOnline => true
  | .cpuStartFailed _ => true
  | .dmaComplete _ => true
  | _ => false

/-- Write a shard through the reference that `step` holds. -/
def setShard (cpu : CpuId) (shard : CpuShard) : Call KernelPolicy PolicyError Unit :=
  modify fun self => { self with shards := self.shards.insert cpu shard }

/-- The actions for an accepted event, with its effect on the shard. -/
def respond (cpu : CpuId) (shard : CpuShard) :
    EventKind → Call KernelPolicy PolicyError (ActionBatch 4)
  | .boot => ActionBatch.new.push (.armTimer 1)
  | .cpuOnline => do
      let runnableTasks ← okOr (checkedAdd32 shard.runnableTasks 1) PolicyError.taskOverflow
      setShard cpu { shard with runnableTasks }
      ActionBatch.new.push (.enqueueTask cpu.toUInt32 cpu)
  | .cpuStartFailed _ => return ActionBatch.new
  | .irq vector => ActionBatch.new.push (.ackIrq vector)
  | .timer => do
      let ticks ← okOr (checkedAdd shard.ticks 1) PolicyError.tickOverflow
      setShard cpu { shard with ticks }
      let deadline ← Call.unchecked (checkedAdd ticks 1)
      ActionBatch.new.push (.armTimer deadline)
  | .ipi vector epoch => ActionBatch.new.push (.sendIpi (CpuSet.fromIds [cpu]) vector epoch)
  | .dmaComplete _ => do
      let runnableTasks ← okOr (checkedAdd32 shard.runnableTasks 1) PolicyError.taskOverflow
      setShard cpu { shard with runnableTasks }
      return ActionBatch.new
  | .syscall number =>
      if number = 0 then
        ActionBatch.new.push (.enqueueTask shard.runnableTasks cpu)
      else
        ActionBatch.new.push (.enterContext number.toUInt32)
  | .userFault _ _ => ActionBatch.new.push (.enterContext 0)
  | .deviceFault _ _ => ActionBatch.new.push (.maskIrq 0)
  | .actionComplete => return ActionBatch.new
  | .shutdownRequest => do
      setShard cpu { shard with terminal := true }
      ActionBatch.new.push .powerOff

def step (event : EventSequencer.Event) : Call KernelPolicy PolicyError (ActionBatch 4) := do
  rejectIf (event.id ≤ (← get).lastGlobalEvent) PolicyError.staleEvent
  let shard ← okOr (← get).shards[event.cpu]? PolicyError.unknownCpu
  rejectIf (shard.terminal = true) PolicyError.terminal
  rejectIf (completionEvent event.kind = true ∧ event.correlation = none)
    PolicyError.correlationRequired
  rejectIf (completionEvent event.kind = false ∧ event.correlation ≠ none)
    PolicyError.unexpectedCorrelation
  modify fun self => { self with lastGlobalEvent := event.id }
  let shard := { shard with lastEvent := event.id }
  setShard event.cpu shard
  respond event.cpu shard event.kind

/-- One call of the mutating interface. -/
inductive Request where
  | addCpu (cpu : CpuId)
  | step (event : EventSequencer.Event)
  deriving DecidableEq, Repr

/-- The actions of a step. -/
def perform : Request → Call KernelPolicy PolicyError (Option (ActionBatch 4))
  | .addCpu cpu => do
      addCpu cpu
      return none
  | .step event => return some (← step event)

/-- The events that count as a tick. -/
def ticking : EventKind → Bool
  | .timer => true
  | _ => false

/-- The events that make a task runnable. -/
def waking : EventKind → Bool
  | .cpuOnline => true
  | .dmaComplete _ => true
  | _ => false

/-- The event that ends the service of a processor. -/
def terminating : EventKind → Bool
  | .shutdownRequest => true
  | _ => false

/-- The effect of an event on its shard, apart from the identifier. -/
structure Updates (kind : EventKind) (shard updated : CpuShard) : Prop where
  lastEvent : updated.lastEvent = shard.lastEvent
  ticks : updated.ticks.toNat = shard.ticks.toNat + (ticking kind).toNat
  runnableTasks : updated.runnableTasks.toNat = shard.runnableTasks.toNat + (waking kind).toNat
  terminal : updated.terminal = (shard.terminal || terminating kind)

/-- What `step` has checked when it takes an event. -/
structure Takes (before : KernelPolicy) (event : EventSequencer.Event) (shard : CpuShard) :
    Prop where
  newer : before.lastGlobalEvent < event.id
  present : before.shards[event.cpu]? = some shard
  running : shard.terminal = false
  correlated : completionEvent event.kind = event.correlation.isSome

/-- The counters that an event raises have room for it, and so has the deadline of the next tick. -/
def Roomy (kind : EventKind) (shard : CpuShard) : Prop :=
  (ticking kind = true → shard.ticks.toNat + 2 < 2 ^ 64) ∧
    (waking kind = true → shard.runnableTasks.toNat + 1 < 2 ^ 32)

/-- The effect of each way a call can end. -/
inductive Step (before : KernelPolicy) :
    Request → Outcome PolicyError (Option (ActionBatch 4)) → KernelPolicy → Prop
  | rejected (request : Request) (reason : PolicyError) : Step before request (.err reason) before
  | added {cpu : CpuId} (unknown : before.shards[cpu]? = none) :
      Step before (.addCpu cpu) (.ok none)
        { before with shards := before.shards.insert cpu ⟨cpu, 0, 0, 0, false⟩ }
  | replaced {cpu : CpuId} {old : CpuShard} (known : before.shards[cpu]? = some old) :
      Step before (.addCpu cpu) (.err .duplicateCpu)
        { before with shards := before.shards.insert cpu ⟨cpu, 0, 0, 0, false⟩ }
  | taken {event : EventSequencer.Event} {shard updated : CpuShard} {batch : ActionBatch 4}
      (takes : Takes before event shard)
      (updates : Updates event.kind { shard with lastEvent := event.id } updated) :
      Step before (.step event) (.ok (some batch))
        ⟨before.shards.insert event.cpu updated, event.id⟩
  | overflowed {event : EventSequencer.Event} {shard updated : CpuShard}
      (takes : Takes before event shard) (timer : event.kind = .timer)
      (updates : Updates event.kind { shard with lastEvent := event.id } updated) :
      Step before (.step event) .overflow ⟨before.shards.insert event.cpu updated, event.id⟩
  | exhausted {event : EventSequencer.Event} {shard : CpuShard} {reason : PolicyError}
      (takes : Takes before event shard)
      (cause : reason = .tickOverflow ∨ reason = .taskOverflow) :
      Step before (.step event) (.err reason)
        ⟨before.shards.insert event.cpu { shard with lastEvent := event.id }, event.id⟩

/-- An accepted event updates its shard, unless a counter is exhausted. -/
theorem respond_spec {cpu : CpuId} {shard : CpuShard} (kind : EventKind) (policy : KernelPolicy)
    (present : policy.shards[cpu]? = some shard) :
    Call.Ensures (respond cpu shard kind) (fun outcome after =>
      (∃ reason, outcome = .err reason ∧ (reason = .tickOverflow ∨ reason = .taskOverflow) ∧
        after = policy) ∨
      ((∃ batch, outcome = .ok batch) ∨ outcome = .overflow ∧ kind = .timer) ∧
        ∃ updated, Updates kind shard updated ∧
          after = { policy with shards := policy.shards.insert cpu updated }) policy := by
  have kept (quiet : ticking kind = false ∧ waking kind = false ∧ terminating kind = false) :
      ∃ updated, Updates kind shard updated ∧
        policy = { policy with shards := policy.shards.insert cpu updated } := by
    refine ⟨shard, ⟨rfl, ?_, ?_, ?_⟩, ?_⟩
    · simp [quiet]
    · simp [quiet]
    · simp [quiet]
    · rw [BTreeMap.insert_of_present present]
  cases kind with
  | timer =>
      simp only [respond, setShard]
      simp [ActionBatch.push, ActionBatch.new]
      intro ticks counted
      have updates : Updates .timer shard { shard with ticks } :=
        ⟨rfl, counted, rfl, (Bool.or_false _).symm⟩
      exact ⟨fun _ _ => ⟨_, updates, rfl⟩, fun _ => ⟨_, updates, rfl⟩⟩
  | cpuOnline =>
      simp only [respond, setShard]
      simp [ActionBatch.push, ActionBatch.new]
      intro runnableTasks counted
      exact ⟨{ shard with runnableTasks }, ⟨rfl, rfl, counted, (Bool.or_false _).symm⟩, rfl⟩
  | dmaComplete slot =>
      simp only [respond, setShard]
      simp [ActionBatch.new]
      intro runnableTasks counted
      exact ⟨{ shard with runnableTasks }, ⟨rfl, rfl, counted, (Bool.or_false _).symm⟩, rfl⟩
  | shutdownRequest =>
      simp only [respond, setShard]
      simp [ActionBatch.push, ActionBatch.new]
      exact ⟨{ shard with terminal := true }, ⟨rfl, rfl, rfl, (Bool.or_true _).symm⟩, rfl⟩
  | syscall number =>
      simp only [respond]
      split <;> simp [ActionBatch.push, ActionBatch.new]
      · exact kept ⟨rfl, rfl, rfl⟩
      · exact kept ⟨rfl, rfl, rfl⟩
  | _ =>
      simp only [respond]
      simp [ActionBatch.push, ActionBatch.new]
      exact kept ⟨rfl, rfl, rfl⟩

section Step

variable {policy : KernelPolicy} {event : EventSequencer.Event} {shard : CpuShard}

/-- A taken event moves the policy and its shard to its identifier before it is answered. -/
theorem Takes.step_eq (takes : Takes policy event shard) :
    step event policy = respond event.cpu { shard with lastEvent := event.id } event.kind
      ⟨policy.shards.insert event.cpu { shard with lastEvent := event.id }, event.id⟩ := by
  have fresh : ¬event.id ≤ policy.lastGlobalEvent := UInt64.not_le.mpr takes.newer
  cases correlation : event.correlation with
  | none =>
      have plain : completionEvent event.kind = false := by simp [takes.correlated, correlation]
      simp [step, setShard, Call.bind_apply, rejectIf, okOr, fresh, takes.present,
        takes.running, correlation, plain]
  | some action =>
      have completes : completionEvent event.kind = true := by simp [takes.correlated, correlation]
      simp [step, setShard, Call.bind_apply, rejectIf, okOr, fresh, takes.present,
        takes.running, correlation, completes]

/-- An event that is not taken changes nothing. -/
theorem exists_step_eq_err (untaken : ∀ shard, ¬Takes policy event shard) :
    ∃ reason, step event policy = (.err reason, policy) := by
  have refused : Call.Ensures (step event)
      (fun outcome after => ∃ reason, outcome = .err reason ∧ after = policy) policy := by
    simp only [step, setShard]
    simp
    intro newer shard present running required unexpected
    refine (untaken shard ⟨newer, present, running, ?_⟩).elim
    cases completes : completionEvent event.kind with
    | false => simp [unexpected completes]
    | true => exact (Option.isSome_iff_ne_none.mpr (required completes)).symm
  obtain ⟨reason, outcome, unchanged⟩ := refused
  exact ⟨reason, Prod.ext outcome unchanged⟩

/-- The response to an event succeeds exactly if its counters have room. -/
theorem respond_ok_iff {cpu : CpuId} (kind : EventKind) :
    (∃ batch, (respond cpu shard kind policy).1 = .ok batch) ↔ Roomy kind shard := by
  show Call.Ensures (respond cpu shard kind)
    (fun outcome _ => (∃ batch, outcome = .ok batch) ↔ Roomy kind shard) policy
  cases kind with
  | timer =>
      simp only [respond, setShard]
      simp [ActionBatch.push, ActionBatch.new, Roomy, ticking, waking]
      refine ⟨fun ticks counted => ⟨fun deadline next => ?_, fun late => ?_⟩, fun full => ?_⟩
      · have bound := deadline.toNat_lt
        omega
      · omega
      · omega
  | syscall number =>
      simp only [respond]
      split <;> simp [ActionBatch.push, ActionBatch.new, Roomy, ticking, waking]
  | cpuOnline | dmaComplete =>
      simp only [respond, setShard]
      simp [ActionBatch.push, ActionBatch.new, Roomy, ticking, waking]
      exact fun tasks counted => counted ▸ tasks.toNat_lt
  | _ =>
      simp only [respond, setShard]
      simp [ActionBatch.push, ActionBatch.new, Roomy, ticking, waking]

/-- A taken event moves the policy to its identifier, whether it is answered or not. -/
theorem Takes.lastGlobalEvent_step (takes : Takes policy event shard) :
    (step event policy).2.lastGlobalEvent = event.id := by
  rw [takes.step_eq]
  have spec := respond_spec event.kind
    ⟨policy.shards.insert event.cpu { shard with lastEvent := event.id }, event.id⟩
    Std.ExtTreeMap.getElem?_insert_self
  rcases spec with ⟨reason, -, -, unchanged⟩ | ⟨-, updated, -, written⟩
  · rw [unchanged]
  · rw [written]

theorem Takes.step_ok_iff (takes : Takes policy event shard) :
    (∃ batch, (step event policy).1 = .ok batch) ↔ Roomy event.kind shard := by
  rw [takes.step_eq, respond_ok_iff]
  rfl

theorem perform_step_of_ok {batch : ActionBatch 4} (stepped : (step event policy).1 = .ok batch) :
    (perform (.step event) policy).1 = .ok (some batch) := by
  rcases ended : step event policy with ⟨outcome, after⟩
  rw [ended] at stepped
  obtain rfl : outcome = .ok batch := stepped
  rw [perform, Call.bind_apply, ended]
  rfl

/-- A step that succeeds has taken its event. -/
theorem exists_takes_of_ok {batch : ActionBatch 4} (stepped : (step event policy).1 = .ok batch) :
    ∃ shard, Takes policy event shard := by
  by_contra untaken
  obtain ⟨reason, refused⟩ := exists_step_eq_err (not_exists.mp untaken)
  simp [refused] at stepped

end Step

/-- Every call is one of the steps. -/
theorem step_perform (request : Request) (before : KernelPolicy) :
    Step before request (perform request before).1 (perform request before).2 := by
  show Call.Ensures (perform request) (Step before request) before
  cases request with
  | addCpu cpu =>
      simp only [perform, addCpu]
      simp
      refine ⟨fun unknown => ?_, fun known => ?_⟩
      · exact .added (Std.ExtTreeMap.getElem?_eq_none unknown)
      · exact .replaced (Std.ExtTreeMap.getElem?_eq_some_getElem known)
  | step event =>
      simp only [perform]
      rw [Call.ensures_bind]
      by_cases taken : ∃ shard, Takes before event shard
      · obtain ⟨shard, takes⟩ := taken
        -- The shard is written once with the new identifier and again with the effect of the event.
        have spec := respond_spec event.kind
          ⟨before.shards.insert event.cpu { shard with lastEvent := event.id }, event.id⟩
          Std.ExtTreeMap.getElem?_insert_self
        simp only [BTreeMap.insert_insert] at spec
        refine ⟨fun batch after returned => ?_, fun reason after refused => ?_,
          fun after stopped => ?_⟩
        · rw [takes.step_eq] at returned
          simp [Call.Ensures, returned] at spec
          obtain ⟨updated, updates, rfl⟩ := spec
          exact .taken takes updates
        · rw [takes.step_eq] at refused
          simp [Call.Ensures, refused] at spec
          obtain ⟨cause, rfl⟩ := spec
          exact .exhausted takes cause
        · rw [takes.step_eq] at stopped
          simp [Call.Ensures, stopped] at spec
          obtain ⟨timer, updated, updates, rfl⟩ := spec
          exact .overflowed takes timer updates
      · obtain ⟨reason, refused⟩ := exists_step_eq_err (not_exists.mp taken)
        simp [refused, Step.rejected]

/-- Errors that an accepted event can still run into. -/
theorem respond_err {cpu : CpuId} {shard : CpuShard} {kind : EventKind} (policy : KernelPolicy) :
    Call.Ensures (respond cpu shard kind) (fun outcome _ => ∀ reason, outcome = .err reason →
      reason = .actionOverflow ∨ reason = .tickOverflow ∨ reason = .taskOverflow) policy := by
  cases kind with
  | syscall number =>
      simp only [respond]
      split <;> simp [ActionBatch.push, ActionBatch.new]
  | _ => simp only [respond, setShard]; simp [ActionBatch.push, ActionBatch.new]

/-- The policy does not refuse an event for its correlation. -/
def Understands (policy : KernelPolicy) (event : EventSequencer.Event) : Prop :=
  (step event policy).1 ≠ .err .correlationRequired ∧
    (step event policy).1 ≠ .err .unexpectedCorrelation

/-- A new event for a running processor is understood exactly if it carries a correlation and is of
a kind that `step` takes for a completion, or neither. -/
theorem understands_iff {policy : KernelPolicy} {event : EventSequencer.Event} {shard : CpuShard}
    (newer : policy.lastGlobalEvent < event.id)
    (present : policy.shards[event.cpu]? = some shard) (running : shard.terminal = false) :
    policy.Understands event ↔ completionEvent event.kind = event.correlation.isSome := by
  show Call.Ensures (step event) (fun outcome _ => outcome ≠ .err .correlationRequired ∧
    outcome ≠ .err .unexpectedCorrelation) policy ↔ _
  have answered (shard : CpuShard) (policy : KernelPolicy) :
      Call.Ensures (respond event.cpu shard event.kind) (fun outcome _ =>
        ¬outcome = .err .correlationRequired ∧ ¬outcome = .err .unexpectedCorrelation) policy := by
    constructor
    · intro refused
      simpa using respond_err policy _ refused
    · intro refused
      simpa using respond_err policy _ refused
  simp only [step, setShard]
  simp [present, newer, running, answered]
  cases completionEvent event.kind <;> cases event.correlation <;> simp

end KernelPolicy

end Bulla.Kernel
