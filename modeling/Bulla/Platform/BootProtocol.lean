import Bulla.Agenda
import Bulla.Platform.BootCpus
import Bulla.Platform.LockOnce
import Bulla.Platform.Tasks

/-!
# The boot protocol

The processor that boots runs `run`, and the processors it starts run `thermite_ap_rust_entry`.
They meet in shared counters and masks, send each other interrupts, and each translates the address
of the test page through a cache of its own.  Both programs have no jumps, so what a processor still
has to do is a list of statements.  Processors are stopped between any two atomic operations;
interrupts, and what the caches hold or drop, may come at any time.

The protocol begins where the shared state is first touched, with the mask of the processor records,
and ends before the block device is used.
-/

namespace Bulla.Platform

open Rust Outcome

/-- The processors of a boot that `run` has accepted. -/
structure Roster where
  apicIds : List UInt32
  bspId : UInt32
  failed : Option UInt32
  effective : Effective
  masks : BootCpus
  effective_eq : effectiveIds apicIds failed = .ok effective
  accepted : bootCpus apicIds bspId failed = .ok masks

namespace Roster

variable (roster : Roster)

/-- `apic_ids`, without the processor whose start fails. -/
def ids : List UInt32 := roster.effective.slice

/-- `apic_ids.len()`. -/
def cpus : ℕ := roster.ids.length

def id (cpu : Fin roster.cpus) : UInt32 := roster.ids.get cpu

/-- `bit(cpu)`, which every accepted processor has. -/
def member (cpu : Fin roster.cpus) : UInt64 := 1 <<< (roster.id cpu).toUInt64

/-- The processors that the loops over `apic_ids` start, and send interrupts to. -/
def aps : List (Fin roster.cpus) :=
  (List.finRange roster.cpus).filter fun cpu => roster.id cpu ≠ roster.bspId

end Roster

/-- The counters and masks of the protocol, beside those of `run_tasks` and `lock_once`. -/
inductive Cell where
  | cpuLocalMask
  | onlineMask
  | ready
  | phase
  | ipiAckMask
  | ipiEpoch
  | messagePayload
  | messageReady
  | messageStale
  | messageMask
  | taskWorkers
  | taskDone
  | tlbPreMask
  | tlbPostMask
  | tlbStale
  | timerMask
  | timerIpiFallbacks
  deriving DecidableEq, Repr

/-- The page that the address of the shootdown test leads to. -/
inductive TestPage where
  | a
  | b
  deriving DecidableEq, Repr

/-- The first word of a test page, as `setup_page_tables` writes it. -/
def TestPage.word : TestPage → UInt64
  | .a => 0xaaaa555511112222
  | .b => 0xbbbb666633334444

/-- `IPI_VECTOR` and `TIMER_VECTOR`. -/
inductive Vector where
  | ipi
  | timer
  deriving DecidableEq, Repr

/-- Where a processor is in an interrupt handler. -/
inductive Handler where
  /-- `invlpg`, in `thermite_ipi_handler`. -/
  | flushing
  /-- `lock bts` on `POST_IPI_ACK_MASK`. -/
  | acknowledging
  /-- `lock bts` on `POST_TIMER_MASK`, in `thermite_timer_handler`. -/
  | signing
  /-- The end of the interrupt and `iretq`. -/
  | leaving
  deriving DecidableEq, Repr

/-- Where a handler begins. -/
def Vector.handler : Vector → Handler
  | .ipi => .flushing
  | .timer => .signing

/-- The state of a processor beside its program. -/
structure Machine where
  handler : Option Handler
  interrupts : Bool
  /-- The local timer has a deadline. -/
  armed : Bool
  /-- What the processor holds for the address of the test page. -/
  tlb : Option TestPage
  deriving DecidableEq, Repr

/-- What the processors share. -/
structure BootMemory (cpus : ℕ) where
  cells : Cell → UInt64
  tlbObserved : Fin cpus → UInt64
  tasks : TaskCounters
  locks : LockCounters
  /-- The page in `SHOOT_PT`. -/
  entry : TestPage
  started : Fin cpus → Bool
  /-- The interrupts that a processor has not taken yet. -/
  pending : Vector → Fin cpus → Bool

namespace BootMemory

variable {cpus : ℕ} (memory : BootMemory cpus)

def put (cell : Cell) (value : UInt64) : BootMemory cpus :=
  { memory with cells := Function.update memory.cells cell value }

def fetchOr (cell : Cell) (bits : UInt64) : BootMemory cpus :=
  memory.put cell (memory.cells cell ||| bits)

def fetchAdd (cell : Cell) : BootMemory cpus := memory.put cell (memory.cells cell + 1)

def setPending (vector : Vector) (target : Fin cpus) (value : Bool) : BootMemory cpus :=
  let pending := Function.update (memory.pending vector) target value
  { memory with pending := Function.update memory.pending vector pending }

/-- An interrupt that is already pending is not counted twice. -/
def interrupt (vector : Vector) (target : Fin cpus) : BootMemory cpus :=
  memory.setPending vector target true

end BootMemory

/-- The counters that the scheduler phase sets up. -/
inductive TaskField where
  | nextTask
  | taskReady
  | taskGate
  | expectedWorkers
  | taskSum
  | active
  | maxActive
  deriving DecidableEq, Repr

def TaskField.store (value : UInt64) (self : TaskCounters) : TaskField → TaskCounters
  | .nextTask => { self with nextTask := value }
  | .taskReady => { self with taskReady := value }
  | .taskGate => { self with taskGate := value }
  | .expectedWorkers => { self with expectedWorkers := value }
  | .taskSum => { self with taskSum := value }
  | .active => { self with active := value }
  | .maxActive => { self with maxActive := value }

/-- The conditions that `run` returns an error for. -/
inductive Check where
  | messageStale
  | workers
  | taskSum
  | lockEntries
  | once
  | parallel
  | tlbStale
  | timerGate
  deriving DecidableEq, Repr

/-- `required_ap_workers`. -/
def requiredApWorkers (masks : BootCpus) : ℕ :=
  if masks.apCount.toNat ≥ 2 then 2 else masks.apCount.toNat

def Check.Holds {cpus : ℕ} (masks : BootCpus) (memory : BootMemory cpus) : Check → Prop
  | .messageStale => memory.cells .messageStale = 0
  | .workers => 1 + requiredApWorkers masks ≤ countOnes (memory.cells .taskWorkers)
  | .taskSum => memory.tasks.taskSum = postTasks * (postTasks - 1) / 2
  | .lockEntries => memory.locks.lockEntries = .ofNat cpus
  | .once => memory.locks.once ≠ 0
  | .parallel => ¬(masks.apCount.toNat ≥ 2 ∧ memory.tasks.maxActive < 2)
  | .tlbStale => memory.cells .tlbStale = 0
  | .timerGate => memory.cells .timerMask &&& masks.bspBit ≠ 0

instance {cpus : ℕ} (masks : BootCpus) (memory : BootMemory cpus) (check : Check) :
    Decidable (check.Holds masks memory) := by
  cases check <;> unfold Check.Holds <;> infer_instance

def Check.error : Check → PostFirmwareError
  | .tlbStale => .tlb
  | .timerGate => .timer
  | _ => .scheduler

/-- The masks that `run` waits for. -/
inductive Crew where
  | all
  | aps
  deriving DecidableEq, Repr

/-- `full_mask` and `ap_mask`. -/
def Crew.mask (masks : BootCpus) : Crew → UInt64
  | .all => masks.fullMask
  | .aps => masks.apMask

/-- Where a processor is in `message_probe`. -/
inductive Messenger where
  /-- `POST_MESSAGE_READY.load()`. -/
  | polling
  /-- `POST_MESSAGE_PAYLOAD.load()`. -/
  | reading
  /-- `POST_MESSAGE_STALE.fetch_add(1)`. -/
  | reporting
  /-- `POST_MESSAGE_MASK.fetch_or(1 << cpu)`. -/
  | marking
  deriving DecidableEq, Repr

/-- Where a processor is in `shootdown_probe`. -/
inductive Prober where
  /-- `read_volatile(SHOOTDOWN_ADDRESS)`. -/
  | reading
  /-- `POST_TLB_OBSERVED[cpu].store(observed)`. -/
  | storing (observed : UInt64)
  /-- `POST_TLB_STALE.fetch_add(1)`. -/
  | reporting
  /-- `mask.fetch_or(1 << cpu)`. -/
  | marking
  deriving DecidableEq, Repr

/-- Where a processor is in `arm_timer`. -/
inductive Armer where
  /-- The deadline is written, and passes. -/
  | arming
  /-- `POST_TIMER_MASK.load()`. -/
  | checking
  /-- `POST_TIMER_IPI_FALLBACKS.fetch_add(1)`. -/
  | counting
  /-- The interrupt to the processor itself. -/
  | sending
  deriving DecidableEq, Repr

/-- The statements of the two programs.  A statement of several operations says where it is. -/
inductive Statement (cpus : ℕ) where
  /-- Until `start_ap`. -/
  | sleep
  /-- `cell.fetch_or(bit(cpu))`. -/
  | fetchOr (cell : Cell)
  /-- `cell.fetch_add(1)`. -/
  | fetchAdd (cell : Cell)
  | store (cell : Cell) (value : UInt64)
  /-- `cell.store(bit(cpu))`. -/
  | storeBit (cell : Cell)
  | setTask (field : TaskField) (value : UInt64)
  /-- `sti`. -/
  | enableInterrupts
  /-- `while cell.load() < least`. -/
  | await (cell : Cell) (least : UInt64)
  /-- `wait_for_mask`, with the rounds that are left. -/
  | waitForMask (cell : Cell) (crew : Crew) (error : PostFirmwareError) (polls : ℕ)
  /-- `wait_for_count` for `ap_count`, with the rounds that are left. -/
  | waitForCount (cell : Cell) (error : PostFirmwareError) (polls : ℕ)
  | check (condition : Check)
  /-- `POST_TLB_STALE.swap(0)`. -/
  | swapStale
  /-- The loop over `start_ap`. -/
  | start (targets : List (Fin cpus))
  /-- The loop over `send_fixed_ipi`. -/
  | send (targets : List (Fin cpus))
  /-- The loop that sends `TIMER_VECTOR` to the processors whose timer has not fired. -/
  | broker (missing : Option (Fin cpus)) (targets : List (Fin cpus))
  | message (messenger : Messenger)
  | tasks (worker : Worker)
  /-- `POST_TASK_WORKERS.fetch_or(1 << cpu)`, in `run_tasks`. -/
  | enlist (seedTask expectedWorkers : UInt64)
  | lock (locker : Locker)
  | probe (expected : TestPage) (mask : Cell) (prober : Prober)
  /-- The write to `SHOOT_PT` and the fences. -/
  | remap (page : TestPage)
  | invlpg
  /-- `int`. -/
  | interrupt (vector : Vector)
  /-- `arm_timer`; only the processor that boots heeds an error. -/
  | armTimer (heeded : Bool) (armer : Armer)

/-- How the local APIC takes a command: at once, or it stays busy before or after it has sent it. -/
inductive Icr where
  | accepts
  | busyBefore
  | busyAfter
  deriving DecidableEq, Repr

def Icr.sends : Icr → Bool
  | .busyBefore => false
  | _ => true

def Icr.fails : Icr → Bool
  | .accepts => false
  | _ => true

/-- What is not up to the program: whether a weak exchange fails, and what the APIC does. -/
structure Chance where
  spurious : Bool
  icr : Icr
  deriving DecidableEq, Repr

/-- What becomes of the statement in front. -/
inductive Next (cpus : ℕ) where
  | stay (statement : Statement cpus)
  | done
  | stop (error : PostFirmwareError)

namespace Statement

variable {cpus : ℕ}

/-- What follows an operation of `run_tasks`: the seed task is added before the processor is on the
list of the workers. -/
def afterTask : Worker → Worker → Next cpus
  | _, .returned => .done
  | .adding seedTask expectedWorkers, _ => .stay (.enlist seedTask expectedWorkers)
  | _, next => .stay (.tasks next)

/-- What follows an operation of `lock_once`. -/
def afterLock : Locker → Next cpus
  | .returned => .done
  | next => .stay (.lock next)

/-- A round of `wait_for_mask` or `wait_for_count`. -/
def poll (holds : Prop) [Decidable holds] (error : PostFirmwareError) (again : ℕ → Statement cpus) :
    ℕ → Next cpus
  | 0 => .stop error
  | polls + 1 => if holds then .done else .stay (again polls)

/-- The word in `POST_MESSAGE_PAYLOAD`. -/
def released : UInt64 := 0x52454c4541534544

/-- One operation of a processor. -/
def step (roster : Roster) (cpu : Fin roster.cpus) (chance : Chance)
    (memory : BootMemory roster.cpus) (machine : Machine) :
    Statement roster.cpus → Outcome Empty (BootMemory roster.cpus × Machine × Next roster.cpus)
  | .sleep => return (memory, machine, if memory.started cpu then .done else .stay .sleep)
  | .fetchOr cell => return (memory.fetchOr cell (roster.member cpu), machine, .done)
  | .fetchAdd cell => return (memory.fetchAdd cell, machine, .done)
  | .store cell value => return (memory.put cell value, machine, .done)
  | .storeBit cell => return (memory.put cell (roster.member cpu), machine, .done)
  | .setTask field value =>
      return ({ memory with tasks := field.store value memory.tasks }, machine, .done)
  | .enableInterrupts => return (memory, { machine with interrupts := true }, .done)
  | .await cell least =>
      return (memory, machine,
        if memory.cells cell < least then .stay (.await cell least) else .done)
  | .waitForMask cell crew error polls =>
      let wanted := crew.mask roster.masks
      return (memory, machine, poll (memory.cells cell &&& wanted = wanted) error
        (.waitForMask cell crew error) polls)
  | .waitForCount cell error polls =>
      return (memory, machine, poll (memory.cells cell ≥ roster.masks.apCount) error
        (.waitForCount cell error) polls)
  | .check condition =>
      return (memory, machine,
        if condition.Holds roster.masks memory then .done else .stop condition.error)
  | .swapStale =>
      return (memory.put .tlbStale 0, machine,
        if memory.cells .tlbStale ≠ 0 then .stop .tlb else .done)
  | .start [] => return (memory, machine, .done)
  | .start (target :: targets) =>
      return (if chance.icr.sends then
          { memory with started := Function.update memory.started target true } else memory,
        machine, if chance.icr.fails then .stop .ipi else .stay (.start targets))
  | .send [] => return (memory, machine, .done)
  | .send (target :: targets) =>
      return (if chance.icr.sends then memory.interrupt .ipi target else memory, machine,
        if chance.icr.fails then .stop .ipi else .stay (.send targets))
  | .broker (some missing) targets =>
      return (if chance.icr.sends then memory.interrupt .timer missing else memory, machine,
        if chance.icr.fails then .stop .ipi else .stay (.broker none targets))
  | .broker none [] => return (memory, machine, .done)
  | .broker none (target :: targets) =>
      return (memory, machine, .stay (.broker
        (if memory.cells .timerMask &&& roster.member target = 0 then some target else none)
        targets))
  | .message .polling =>
      return (memory, machine, .stay (.message
        (if memory.cells .messageReady = 0 then .polling else .reading)))
  | .message .reading =>
      return (memory, machine, .stay (.message
        (if memory.cells .messagePayload ≠ released then .reporting else .marking)))
  | .message .reporting =>
      return (memory.fetchAdd .messageStale, machine, .stay (.message .marking))
  | .message .marking => return (memory.fetchOr .messageMask (roster.member cpu), machine, .done)
  | .tasks worker =>
      return ({ memory with tasks := (worker.step chance.spurious memory.tasks).1 }, machine,
        afterTask worker (worker.step chance.spurious memory.tasks).2)
  | .enlist seedTask expectedWorkers =>
      return (memory.fetchOr .taskWorkers (roster.member cpu), machine,
        .stay (.tasks (.entering seedTask expectedWorkers)))
  | .lock locker => do
      let moved ← locker.step (roster.id cpu).toUInt64 memory.locks
      return ({ memory with locks := moved.1 }, machine, afterLock moved.2)
  | .probe expected mask .reading =>
      return (memory, machine, .stay (.probe expected mask
        (.storing (machine.tlb.getD memory.entry).word)))
  | .probe expected mask (.storing observed) =>
      return ({ memory with tlbObserved := Function.update memory.tlbObserved cpu observed },
        machine,
        .stay (.probe expected mask (if observed ≠ expected.word then .reporting else .marking)))
  | .probe expected mask .reporting =>
      return (memory.fetchAdd .tlbStale, machine, .stay (.probe expected mask .marking))
  | .probe _ mask .marking => return (memory.fetchOr mask (roster.member cpu), machine, .done)
  | .remap page => return ({ memory with entry := page }, machine, .done)
  | .invlpg => return (memory, { machine with tlb := none }, .done)
  | .interrupt vector => return (memory, { machine with handler := some vector.handler }, .done)
  | .armTimer heeded .arming =>
      return (memory, { machine with armed := true }, .stay (.armTimer heeded .checking))
  | .armTimer heeded .checking =>
      return (memory, machine, if memory.cells .timerMask &&& roster.member cpu = 0
        then .stay (.armTimer heeded .counting) else .done)
  | .armTimer heeded .counting =>
      return (memory.fetchAdd .timerIpiFallbacks, machine, .stay (.armTimer heeded .sending))
  | .armTimer heeded .sending =>
      return (if chance.icr.sends then memory.interrupt .timer cpu else memory, machine,
        if chance.icr.fails ∧ heeded then .stop .ipi else .done)

/-- What stays the same while a statement is underway. -/
inductive Kind where
  | sleep
  | fetchOr (cell : Cell)
  | fetchAdd (cell : Cell)
  | store (cell : Cell) (value : UInt64)
  | storeBit (cell : Cell)
  | setTask (field : TaskField)
  | enableInterrupts
  | await (cell : Cell) (least : UInt64)
  | waitForMask (cell : Cell) (crew : Crew) (error : PostFirmwareError)
  | waitForCount (cell : Cell)
  | check (condition : Check)
  | swapStale
  | start
  | send
  | broker
  | message
  | tasks
  | lock
  | probe (expected : TestPage) (mask : Cell)
  | remap (page : TestPage)
  | invlpg
  | interrupt (vector : Vector)
  | armTimer
  deriving DecidableEq, Repr

def kind : Statement cpus → Kind
  | .sleep => .sleep
  | .fetchOr cell => .fetchOr cell
  | .fetchAdd cell => .fetchAdd cell
  | .store cell value => .store cell value
  | .storeBit cell => .storeBit cell
  | .setTask field _ => .setTask field
  | .enableInterrupts => .enableInterrupts
  | .await cell least => .await cell least
  | .waitForMask cell crew error _ => .waitForMask cell crew error
  | .waitForCount cell _ _ => .waitForCount cell
  | .check condition => .check condition
  | .swapStale => .swapStale
  | .start _ => .start
  | .send _ => .send
  | .broker _ _ => .broker
  | .message _ => .message
  | .tasks _ => .tasks
  | .enlist _ _ => .tasks
  | .lock _ => .lock
  | .probe expected mask _ => .probe expected mask
  | .remap page => .remap page
  | .invlpg => .invlpg
  | .interrupt vector => .interrupt vector
  | .armTimer _ _ => .armTimer

end Statement

/-- One operation of an interrupt handler. -/
def Handler.step (roster : Roster) (cpu : Fin roster.cpus) (memory : BootMemory roster.cpus)
    (machine : Machine) : Handler → BootMemory roster.cpus × Machine
  | .flushing => (memory, { machine with handler := some .acknowledging, tlb := none })
  | .acknowledging =>
      (memory.fetchOr .ipiAckMask (roster.member cpu), { machine with handler := some .leaving })
  | .signing =>
      (memory.fetchOr .timerMask (roster.member cpu), { machine with handler := some .leaving })
  | .leaving => (memory, { machine with handler := none })

/-- The rounds of `wait_for_mask` and `wait_for_count`. -/
def pollLimit : ℕ := 50000000

/-- `thermite_ap_rust_entry`, from `install_cpu_local` on. -/
def apProgram (cpus : ℕ) : List (Statement cpus) := [
  .sleep,
  .fetchOr .cpuLocalMask,
  .enableInterrupts,
  .fetchOr .onlineMask,
  .fetchAdd .ready,
  .await .phase 1,
  .message .polling,
  .tasks .start,
  .lock .start,
  .probe .a .tlbPreMask .reading,
  .fetchAdd .taskDone,
  .await .phase 2,
  .probe .b .tlbPostMask .reading,
  .armTimer false .arming]

/-- `run`, from `install_cpu_local` to the last wait before the block device. -/
def bspProgram {cpus : ℕ} (aps : List (Fin cpus)) : List (Statement cpus) := [
  .fetchOr .cpuLocalMask,
  .storeBit .onlineMask,
  .start aps,
  .waitForMask .onlineMask .all .apStartup pollLimit,
  .waitForCount .ready .apStartup pollLimit,
  .waitForMask .cpuLocalMask .all .apStartup pollLimit,
  .enableInterrupts,
  -- Every processor takes an interrupt.
  .store .ipiAckMask 0,
  .store .ipiEpoch 1,
  .send aps,
  .waitForMask .ipiAckMask .aps .ipi pollLimit,
  -- The scheduler phase.
  .setTask .nextTask (.ofNat cpus),
  .setTask .taskReady 0,
  .setTask .taskGate 0,
  .setTask .expectedWorkers (.ofNat cpus),
  .setTask .taskSum 0,
  .store .taskWorkers 0,
  .store .taskDone 0,
  .setTask .active 0,
  .setTask .maxActive 0,
  .store .ready 0,
  .store .messagePayload Statement.released,
  .store .messageReady 1,
  .store .phase 1,
  .message .polling,
  .tasks .start,
  .lock .start,
  .probe .a .tlbPreMask .reading,
  .waitForCount .taskDone .scheduler pollLimit,
  .waitForMask .tlbPreMask .all .scheduler pollLimit,
  .waitForMask .messageMask .all .scheduler pollLimit,
  .check .messageStale,
  .swapStale,
  .check .workers,
  .check .taskSum,
  .check .lockEntries,
  .check .once,
  .check .parallel,
  -- The test page is exchanged.
  .remap .b,
  .invlpg,
  .store .ipiAckMask 0,
  .store .ipiEpoch 2,
  .send aps,
  .waitForMask .ipiAckMask .aps .tlb pollLimit,
  .store .phase 2,
  .probe .b .tlbPostMask .reading,
  .waitForMask .tlbPostMask .all .tlb pollLimit,
  .check .tlbStale,
  -- Every processor takes a timer interrupt.
  .store .timerMask 0,
  .interrupt .timer,
  .check .timerGate,
  .store .timerMask 0,
  .armTimer true .arming,
  .broker none aps,
  .waitForMask .timerMask .all .timer pollLimit]

/-- A processor: what it still has to do, the error it has stopped with, and its own state. -/
structure Core (cpus : ℕ) where
  program : List (Statement cpus)
  stopped : Option PostFirmwareError
  machine : Machine

/-- A processor after an operation of the statement in front. -/
def Core.follow {cpus : ℕ} (core : Core cpus) (machine : Machine) : Next cpus → Core cpus
  | .stay statement => { core with machine, program := statement :: core.program.tail }
  | .done => { core with machine, program := core.program.tail }
  | .stop error => { core with machine, stopped := some error }

/-- All processors and what they share. -/
abbrev Boot (roster : Roster) : Type :=
  Interleaved roster.cpus (BootMemory roster.cpus) (Core roster.cpus)

/-- What a processor does next, or what happens to it. -/
inductive Turn where
  /-- The next operation of its handler, or else of its program. -/
  | run (chance : Chance)
  /-- It takes a pending interrupt. -/
  | deliver (vector : Vector)
  /-- Its timer fires. -/
  | tick
  /-- It walks the tables for the address of the test page. -/
  | fill
  /-- It drops what it holds for that address. -/
  | evict
  deriving DecidableEq, Repr

namespace Boot

variable {roster : Roster}

def programOf (roster : Roster) (cpu : Fin roster.cpus) : List (Statement roster.cpus) :=
  if roster.id cpu = roster.bspId then bspProgram roster.aps else apProgram roster.cpus

/-- The counters as they are loaded, and the tables as `setup_page_tables` leaves them. -/
def start (roster : Roster) : Boot roster where
  shared := {
    cells := fun _ => 0
    tlbObserved := fun _ => 0
    tasks := ⟨0, 0, 0, 0, 0, 0, 0⟩
    locks := ⟨0, 0, 0, 0⟩
    entry := .a
    started := fun _ => false
    pending := fun _ _ => false }
  own := fun cpu => {
    program := programOf roster cpu
    stopped := none
    machine := ⟨none, false, false, none⟩ }

/-- The interrupt is no longer pending, and its handler begins with interrupts off. -/
def take (memory : BootMemory roster.cpus) (cpu : Fin roster.cpus) (core : Core roster.cpus)
    (vector : Vector) : BootMemory roster.cpus × Core roster.cpus :=
  (memory.setPending vector cpu false,
    { core with machine := { core.machine with handler := some vector.handler } })

/-- What a turn does to a processor and to what is shared. -/
def move (cpu : Fin roster.cpus) (memory : BootMemory roster.cpus) (core : Core roster.cpus) :
    Turn → Outcome Empty (BootMemory roster.cpus × Core roster.cpus)
  | .run chance =>
      match core.machine.handler, core.stopped, core.program with
      | some handler, _, _ =>
          let handled := handler.step roster cpu memory core.machine
          return (handled.1, { core with machine := handled.2 })
      | none, none, statement :: _ => do
          let (memory, machine, next) ← statement.step roster cpu chance memory core.machine
          return (memory, core.follow machine next)
      | none, _, _ => return (memory, core)
  | .deliver vector =>
      return if memory.pending vector cpu ∧ core.machine.interrupts ∧ core.machine.handler = none
        then take memory cpu core vector else (memory, core)
  | .tick =>
      return if core.machine.armed then (memory.interrupt .timer cpu,
          { core with machine := { core.machine with armed := false } })
        else (memory, core)
  | .fill => return (memory, { core with machine := { core.machine with tlb := memory.entry } })
  | .evict => return (memory, { core with machine := { core.machine with tlb := none } })

def perform (turn : Fin roster.cpus × Turn) : Call (Boot roster) Empty Unit := do
  let self ← get
  let moved ← move turn.1 self.shared (self.own turn.1) turn.2
  set (self.put turn.1 moved.1 moved.2)

end Boot

end Bulla.Platform
