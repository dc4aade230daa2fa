import Mathlib.Data.List.MinMax
import Mathlib.Data.Prod.Lex
import Bulla.Kernel.Smp
import Bulla.Rust.History
import Bulla.Rust.Word

/-!
# The scheduler

Every processor has a run queue and at most one current task.  A processor without work of its own
steals from the back of the longest other queue.  The current task is taken off its processor before
its record is looked up, so a call that fails afterwards leaves the processor without a task.
-/

namespace Bulla.Kernel

open Rust Outcome

abbrev TaskId : Type := UInt32

inductive TaskState where
  | runnable
  | running (cpu : CpuId)
  | blocked
  | exited (code : Int32)
  deriving DecidableEq, Repr

structure Task where
  state : TaskState
  /-- Number of times the task has yielded. -/
  generation : UInt64
  deriving DecidableEq, Repr

inductive SchedulerError where
  | unknownCpu
  | duplicateTask
  | unknownTask
  | wrongState
  | foreignCpu
  | duplicateQueueEntry
  | generationOverflow
  deriving DecidableEq, Repr

structure Scheduler where
  /-- Run queues, front first. -/
  queues : BTreeMap CpuId (List TaskId)
  tasks : BTreeMap TaskId Task
  current : BTreeMap CpuId (Option TaskId)
  completedDispatches : UInt64
  steals : UInt64

namespace Scheduler

def withOnlineCpus (cpus : CpuSet) : Scheduler where
  queues := .ofList (cpus.iter.map fun cpu => (cpu, []))
  tasks := ∅
  current := .ofList (cpus.iter.map fun cpu => (cpu, none))
  completedDispatches := 0
  steals := 0

def createTask (task : TaskId) (cpu : CpuId) : Call Scheduler SchedulerError Unit := do
  let queue ← okOr (← get).queues[cpu]? SchedulerError.unknownCpu
  rejectIf ((← get).tasks.contains task = true) SchedulerError.duplicateTask
  modify fun self =>
    { self with tasks := self.tasks.insert task { state := .runnable, generation := 0 } }
  modify fun self => { self with queues := self.queues.insert cpu (queue ++ [task]) }

/-- The processor to steal from: the longest other queue, the lowest processor among equals. -/
def victim (queues : BTreeMap CpuId (List TaskId)) (requester : CpuId) : Option CpuId :=
  ((queues.toList.filter fun entry => entry.1 ≠ requester).argmax fun entry =>
    toLex (entry.2.length, OrderDual.toDual entry.1.toNat)).bind fun entry =>
      if entry.2.isEmpty then none else some entry.1

def steal (requester : CpuId) : Call Scheduler SchedulerError (Option TaskId) := do
  match victim (← get).queues requester with
  | none => return none
  | some victim =>
      let queue ← okOr (← get).queues[victim]? SchedulerError.unknownCpu
      modify fun self => { self with queues := self.queues.insert victim queue.dropLast }
      let task := queue.getLast?
      if task.isSome then
        modify fun self => { self with steals := saturatingAdd self.steals 1 }
      return task

/-- The task a processor runs next: the front of its own queue, or a stolen one. -/
def nextTask (cpu : CpuId) : Call Scheduler SchedulerError (Option TaskId) := do
  let queue ← okOr (← get).queues[cpu]? SchedulerError.unknownCpu
  modify fun self => { self with queues := self.queues.insert cpu queue.tail }
  match queue.head? with
  | some task => return some task
  | none => steal cpu

/-- Make a task that has left its queue the current one. -/
def start (cpu : CpuId) (task : TaskId) : Call Scheduler SchedulerError Unit := do
  let record ← okOr (← get).tasks[task]? SchedulerError.unknownTask
  rejectIf (record.state ≠ .runnable) SchedulerError.wrongState
  modify fun self =>
    { self with tasks := self.tasks.insert task { record with state := .running cpu } }
  let _ ← okOr (← get).current[cpu]? SchedulerError.unknownCpu
  modify fun self => { self with current := self.current.insert cpu (some task) }
  modify fun self =>
    { self with completedDispatches := saturatingAdd self.completedDispatches 1 }

def dispatch (cpu : CpuId) : Call Scheduler SchedulerError (Option TaskId) := do
  let current ← okOr (← get).current[cpu]? SchedulerError.unknownCpu
  rejectIf (current.isSome = true) SchedulerError.wrongState
  match ← nextTask cpu with
  | some task => do
      start cpu task
      return some task
  | none => return none

/-- Take the current task off its processor. -/
def takeCurrent (cpu : CpuId) : Call Scheduler SchedulerError TaskId := do
  let current ← okOr (← get).current[cpu]? SchedulerError.unknownCpu
  modify fun self => { self with current := self.current.insert cpu none }
  okOr current SchedulerError.wrongState

def yieldCurrent (cpu : CpuId) : Call Scheduler SchedulerError TaskId := do
  let task ← takeCurrent cpu
  let record ← okOr (← get).tasks[task]? SchedulerError.unknownTask
  rejectIf (record.state ≠ .running cpu) SchedulerError.foreignCpu
  let generation ← okOr (checkedAdd record.generation 1) SchedulerError.generationOverflow
  modify fun self =>
    { self with tasks := self.tasks.insert task { state := .runnable, generation } }
  let queue ← okOr (← get).queues[cpu]? SchedulerError.unknownCpu
  modify fun self => { self with queues := self.queues.insert cpu (queue ++ [task]) }
  return task

/-- Take the current task off its processor for good or until it is woken. -/
def leaveCurrent (next : TaskState) (cpu : CpuId) : Call Scheduler SchedulerError TaskId := do
  let task ← takeCurrent cpu
  let record ← okOr (← get).tasks[task]? SchedulerError.unknownTask
  rejectIf (record.state ≠ .running cpu) SchedulerError.foreignCpu
  modify fun self => { self with tasks := self.tasks.insert task { record with state := next } }
  return task

def blockCurrent (cpu : CpuId) : Call Scheduler SchedulerError TaskId := leaveCurrent .blocked cpu

def exitCurrent (cpu : CpuId) (code : Int32) : Call Scheduler SchedulerError TaskId :=
  leaveCurrent (.exited code) cpu

/-- Only the queue the task is woken on is searched for it. -/
def wake (task : TaskId) (cpu : CpuId) : Call Scheduler SchedulerError Unit := do
  let queue ← okOr (← get).queues[cpu]? SchedulerError.unknownCpu
  let record ← okOr (← get).tasks[task]? SchedulerError.unknownTask
  rejectIf (record.state ≠ .blocked) SchedulerError.wrongState
  rejectIf (queue.contains task = true) SchedulerError.duplicateQueueEntry
  modify fun self =>
    { self with tasks := self.tasks.insert task { record with state := .runnable } }
  modify fun self => { self with queues := self.queues.insert cpu (queue ++ [task]) }

def taskState (self : Scheduler) (task : TaskId) : Option TaskState :=
  (self.tasks[task]?).map Task.state

/-- One visit of `invariant_holds`: `none` ends the scan with `false`. -/
def visit (self : Scheduler) (seen : BTreeSet TaskId) (entry : TaskId × TaskState) :
    Option (BTreeSet TaskId) :=
  if seen.contains entry.1 = true ∨ self.taskState entry.1 ≠ some entry.2 then none
  else some (seen.insert entry.1)

/-- What `invariant_holds` visits for one processor, each task with the state it must have. -/
def visits (self : Scheduler) (entry : CpuId × List TaskId) : List (TaskId × TaskState) :=
  (entry.2.map fun task => (task, TaskState.runnable)) ++
    ((self.current[entry.1]?).join.toList.map fun task => (task, TaskState.running entry.1))

def invariantHolds (self : Scheduler) : Bool :=
  match self.queues.toList.foldlM
      (fun seen entry => (self.visits entry).foldlM self.visit seen) ∅ with
  | none => false
  | some seen => self.tasks.toList.all fun entry =>
      match entry.2.state with
      | .blocked => true
      | .exited _ => true
      | _ => seen.contains entry.1

/-- One call of the mutating interface. -/
inductive Request where
  | createTask (task : TaskId) (cpu : CpuId)
  | dispatch (cpu : CpuId)
  | yieldCurrent (cpu : CpuId)
  | blockCurrent (cpu : CpuId)
  | wake (task : TaskId) (cpu : CpuId)
  | exitCurrent (cpu : CpuId) (code : Int32)
  deriving DecidableEq, Repr

/-- What a successful call returns. -/
inductive Reply where
  | done
  | dispatched (task : Option TaskId)
  | task (task : TaskId)
  deriving DecidableEq, Repr

def perform : Request → Call Scheduler SchedulerError Reply
  | .createTask task cpu => do
      createTask task cpu
      return .done
  | .dispatch cpu => return .dispatched (← dispatch cpu)
  | .yieldCurrent cpu => return .task (← yieldCurrent cpu)
  | .blockCurrent cpu => return .task (← blockCurrent cpu)
  | .wake task cpu => do
      wake task cpu
      return .done
  | .exitCurrent cpu code => return .task (← exitCurrent cpu code)

end Scheduler

end Bulla.Kernel
