import Bulla.Rust.BTreeMap
import Bulla.Rust.History
import Bulla.Rust.Word

/-!
# Processors

Each processor has a lifecycle.  An interprocessor interrupt or a shootdown opens an epoch with the
processors that have to acknowledge it: an interrupt names them, a shootdown takes the processors
that are online when it begins.  A shootdown is completed when all of them have acknowledged.
-/

namespace Bulla.Kernel

open Rust Outcome

abbrev CpuId : Type := UInt16

inductive CpuFailure where
  | noStack
  | noLocalStorage
  | startupTimeout
  | descriptorInstall
  | interruptController
  deriving DecidableEq, Repr

inductive CpuLifecycle where
  | discovered
  | prepared
  | starting
  | online
  | failed (reason : CpuFailure)
  deriving DecidableEq, Repr

/-- A set of processors, iterated in ascending order. -/
structure CpuSet where
  members : BTreeSet CpuId

namespace CpuSet

def fromIds (ids : List CpuId) : CpuSet := ⟨Std.ExtTreeSet.ofList ids⟩

def contains (self : CpuSet) (cpu : CpuId) : Bool := self.members.contains cpu

def len (self : CpuSet) : ℕ := self.members.size

def iter (self : CpuSet) : List CpuId := self.members.toList

end CpuSet

inductive SmpError where
  | duplicateCpu
  | unknownCpu
  | illegalTransition
  | cpuNotOnline
  | epochOverflow
  | unknownEpoch
  | foreignCpu
  | duplicateAcknowledgement
  | staleEpoch
  | incomplete
  deriving DecidableEq, Repr

/-- An epoch that has begun: who has to acknowledge it, and who has. -/
structure PendingEpoch where
  targets : CpuSet
  acknowledgements : BTreeSet CpuId

structure SmpState where
  cpus : BTreeMap CpuId CpuLifecycle
  /-- Epoch of the latest interrupt. -/
  nextIpiEpoch : UInt64
  /-- Epoch of the latest shootdown. -/
  nextShootdownEpoch : UInt64
  ipis : BTreeMap UInt64 PendingEpoch
  shootdowns : BTreeMap UInt64 PendingEpoch

/-- Acknowledge an epoch; true if this was the last acknowledgement it was waiting for. -/
def acknowledge (epoch : UInt64) (cpu : CpuId) :
    Call (BTreeMap UInt64 PendingEpoch) SmpError Bool := do
  let current ← okOr (← get).toList.getLast? SmpError.unknownEpoch
  rejectIf (epoch < current.1) SmpError.staleEpoch
  let entry ← okOr (← get)[epoch]? SmpError.unknownEpoch
  rejectIf (entry.targets.contains cpu = false) SmpError.foreignCpu
  rejectIf (entry.acknowledgements.contains cpu = true) SmpError.duplicateAcknowledgement
  let entry := { entry with acknowledgements := entry.acknowledgements.insert cpu }
  modify fun pending => pending.insert epoch entry
  return decide (entry.acknowledgements = entry.targets.members)

/-- How an acknowledgement can end. -/
inductive Acknowledged (pending : BTreeMap UInt64 PendingEpoch) (epoch : UInt64) (cpu : CpuId) :
    Outcome SmpError Bool → BTreeMap UInt64 PendingEpoch → Prop
  | refused (reason : SmpError) : Acknowledged pending epoch cpu (.err reason) pending
  | accepted {entry : PendingEpoch} (found : pending[epoch]? = some entry)
      (target : cpu ∈ entry.targets.members) (fresh : cpu ∉ entry.acknowledgements) :
      Acknowledged pending epoch cpu
        (.ok (decide (entry.acknowledgements.insert cpu = entry.targets.members)))
        (pending.insert epoch
          { entry with acknowledgements := entry.acknowledgements.insert cpu })

theorem acknowledge_spec (pending : BTreeMap UInt64 PendingEpoch) (epoch : UInt64) (cpu : CpuId) :
    Call.Ensures (acknowledge epoch cpu) (Acknowledged pending epoch cpu) pending := by
  simp only [acknowledge]
  simp [Acknowledged.refused]
  intro current value _ unstale entry found target fresh
  refine .accepted found ?_ ?_
  · simpa [CpuSet.contains] using target
  · simpa using fresh

namespace SmpState

def new : SmpState := ⟨∅, 0, 0, ∅, ∅⟩

/-- The lifecycle is overwritten before a duplicate is reported. -/
def discover (cpu : CpuId) : Call SmpState SmpError Unit := do
  let replaced := (← get).cpus[cpu]?
  modify fun self => { self with cpus := self.cpus.insert cpu .discovered }
  rejectIf (replaced.isSome = true) SmpError.duplicateCpu

/-- The table of `transition`. -/
def legal : CpuLifecycle → CpuLifecycle → Bool
  | .discovered, .prepared => true
  | .prepared, .starting => true
  | .starting, .online => true
  | .prepared, .failed _ => true
  | .starting, .failed _ => true
  | _, _ => false

def transition (cpu : CpuId) (next : CpuLifecycle) : Call SmpState SmpError Unit := do
  let current ← okOr (← get).cpus[cpu]? SmpError.unknownCpu
  rejectIf (legal current next = false) SmpError.illegalTransition
  modify fun self => { self with cpus := self.cpus.insert cpu next }

def lifecycle (self : SmpState) (cpu : CpuId) : Option CpuLifecycle := self.cpus[cpu]?

def online (self : SmpState) : CpuSet :=
  CpuSet.fromIds (self.cpus.toList.filterMap fun entry =>
    if entry.2 = .online then some entry.1 else none)

def validateOnlineTargets (self : SmpState) (targets : CpuSet) : Outcome SmpError Unit :=
  rejectIf (targets.iter.any (fun cpu => decide (self.cpus[cpu]? ≠ some .online)) = true)
    SmpError.cpuNotOnline

def beginIpi (targets : CpuSet) : Call SmpState SmpError UInt64 := do
  (← get).validateOnlineTargets targets
  let epoch ← okOr (checkedAdd (← get).nextIpiEpoch 1) SmpError.epochOverflow
  modify fun self => { self with nextIpiEpoch := epoch }
  modify fun self => { self with ipis := self.ipis.insert epoch ⟨targets, ∅⟩ }
  return epoch

def acknowledgeIpi (epoch : UInt64) (cpu : CpuId) : Call SmpState SmpError Bool :=
  Call.borrow ipis (fun ipis self => { self with ipis }) (acknowledge epoch cpu)

def beginShootdown : Call SmpState SmpError UInt64 := do
  let targets := (← get).online
  let epoch ← okOr (checkedAdd (← get).nextShootdownEpoch 1) SmpError.epochOverflow
  modify fun self => { self with nextShootdownEpoch := epoch }
  modify fun self => { self with shootdowns := self.shootdowns.insert epoch ⟨targets, ∅⟩ }
  return epoch

def acknowledgeShootdown (epoch : UInt64) (cpu : CpuId) : Call SmpState SmpError Bool :=
  Call.borrow shootdowns (fun shootdowns self => { self with shootdowns }) (acknowledge epoch cpu)

def completeShootdown (epoch : UInt64) : Call SmpState SmpError Unit := do
  let pending ← okOr (← get).shootdowns[epoch]? SmpError.unknownEpoch
  rejectIf (pending.acknowledgements ≠ pending.targets.members) SmpError.incomplete
  modify fun self => { self with shootdowns := self.shootdowns.erase epoch }

/-- One call of the mutating interface. -/
inductive Request where
  | discover (cpu : CpuId)
  | transition (cpu : CpuId) (next : CpuLifecycle)
  | beginIpi (targets : CpuSet)
  | acknowledgeIpi (epoch : UInt64) (cpu : CpuId)
  | beginShootdown
  | acknowledgeShootdown (epoch : UInt64) (cpu : CpuId)
  | completeShootdown (epoch : UInt64)

/-- What a successful call returns. -/
inductive Reply where
  | done
  | epoch (epoch : UInt64)
  | last (last : Bool)
  deriving DecidableEq, Repr

def perform : Request → Call SmpState SmpError Reply
  | .discover cpu => do
      discover cpu
      return .done
  | .transition cpu next => do
      transition cpu next
      return .done
  | .beginIpi targets => return .epoch (← beginIpi targets)
  | .acknowledgeIpi epoch cpu => return .last (← acknowledgeIpi epoch cpu)
  | .beginShootdown => return .epoch (← beginShootdown)
  | .acknowledgeShootdown epoch cpu => return .last (← acknowledgeShootdown epoch cpu)
  | .completeShootdown epoch => do
      completeShootdown epoch
      return .done

/-- The effect of each way a call can end. -/
inductive Step (before : SmpState) : Request → Outcome SmpError Reply → SmpState → Prop
  | rejected {request : Request} (reason : SmpError)
      (known : ∀ cpu, request ≠ .discover cpu) : Step before request (.err reason) before
  | discovered {cpu : CpuId} (absent : before.cpus[cpu]? = none) :
      Step before (.discover cpu) (.ok .done)
        { before with cpus := before.cpus.insert cpu .discovered }
  | rediscovered {cpu : CpuId} {current : CpuLifecycle}
      (present : before.cpus[cpu]? = some current) :
      Step before (.discover cpu) (.err .duplicateCpu)
        { before with cpus := before.cpus.insert cpu .discovered }
  | moved {cpu : CpuId} {current next : CpuLifecycle} (present : before.cpus[cpu]? = some current)
      (allowed : legal current next = true) :
      Step before (.transition cpu next) (.ok .done)
        { before with cpus := before.cpus.insert cpu next }
  | ipiBegun {targets : CpuSet} {epoch : UInt64}
      (advanced : epoch.toNat = before.nextIpiEpoch.toNat + 1) :
      Step before (.beginIpi targets) (.ok (.epoch epoch))
        { before with nextIpiEpoch := epoch, ipis := before.ipis.insert epoch ⟨targets, ∅⟩ }
  | ipiAcknowledged {epoch : UInt64} {cpu : CpuId} {last : Bool}
      {ipis : BTreeMap UInt64 PendingEpoch}
      (acknowledged : Acknowledged before.ipis epoch cpu (.ok last) ipis) :
      Step before (.acknowledgeIpi epoch cpu) (.ok (.last last)) { before with ipis }
  | shootdownBegun {epoch : UInt64}
      (advanced : epoch.toNat = before.nextShootdownEpoch.toNat + 1) :
      Step before .beginShootdown (.ok (.epoch epoch))
        { before with
          nextShootdownEpoch := epoch
          shootdowns := before.shootdowns.insert epoch ⟨before.online, ∅⟩ }
  | shootdownAcknowledged {epoch : UInt64} {cpu : CpuId} {last : Bool}
      {shootdowns : BTreeMap UInt64 PendingEpoch}
      (acknowledged : Acknowledged before.shootdowns epoch cpu (.ok last) shootdowns) :
      Step before (.acknowledgeShootdown epoch cpu) (.ok (.last last)) { before with shootdowns }
  | shootdownCompleted {epoch : UInt64} {entry : PendingEpoch}
      (found : before.shootdowns[epoch]? = some entry)
      (complete : entry.acknowledgements = entry.targets.members) :
      Step before (.completeShootdown epoch) (.ok .done)
        { before with shootdowns := before.shootdowns.erase epoch }

/-- Every call is one of the steps. -/
theorem step_perform (request : Request) (before : SmpState) :
    Step before request (perform request before).1 (perform request before).2 := by
  show Call.Ensures (perform request) (Step before request) before
  cases request with
  | discover cpu =>
      simp only [perform, discover]
      simp
      constructor
      · exact fun absent => .discovered (Std.ExtTreeMap.getElem?_eq_none absent)
      · exact fun present => .rediscovered (Std.ExtTreeMap.getElem?_eq_some_getElem present)
  | transition cpu next =>
      have rejected (reason : SmpError) : Step before (.transition cpu next) (.err reason) before :=
        .rejected reason (by simp)
      simp only [perform, transition]
      simp [rejected]
      exact fun current present allowed => .moved present allowed
  | beginIpi targets =>
      have rejected (reason : SmpError) : Step before (.beginIpi targets) (.err reason) before :=
        .rejected reason (by simp)
      simp only [perform, beginIpi, validateOnlineTargets]
      simp [rejected]
      exact fun _ epoch advanced => .ipiBegun advanced
  | acknowledgeIpi epoch cpu =>
      simp only [perform, acknowledgeIpi]
      rw [Call.ensures_borrow_bind]
      refine (acknowledge_spec before.ipis epoch cpu).mono ?_
      rintro _ _ (reason | ⟨found, target, fresh⟩)
      · exact .rejected reason (by simp)
      · exact .ipiAcknowledged (.accepted found target fresh)
  | beginShootdown =>
      have rejected (reason : SmpError) : Step before .beginShootdown (.err reason) before :=
        .rejected reason (by simp)
      simp only [perform, beginShootdown]
      simp [rejected]
      exact fun epoch advanced => .shootdownBegun advanced
  | acknowledgeShootdown epoch cpu =>
      simp only [perform, acknowledgeShootdown]
      rw [Call.ensures_borrow_bind]
      refine (acknowledge_spec before.shootdowns epoch cpu).mono ?_
      rintro _ _ (reason | ⟨found, target, fresh⟩)
      · exact .rejected reason (by simp)
      · exact .shootdownAcknowledged (.accepted found target fresh)
  | completeShootdown epoch =>
      have rejected (reason : SmpError) :
          Step before (.completeShootdown epoch) (.err reason) before := .rejected reason (by simp)
      simp only [perform, completeShootdown]
      simp [rejected]
      exact fun entry found complete => .shootdownCompleted found complete

end SmpState

end Bulla.Kernel
