import Bulla.Rust.Call
import Bulla.Rust.History
import Bulla.Rust.Word
import Bulla.Rust.Numeral
import Bulla.Rust.BTreeMap
import Bulla.Rust.FixedArray
import Bulla.Rust.Bits
import Bulla.Span
import Bulla.Rounds
import Bulla.Interleaving
import Bulla.Headed
import Bulla.Agenda
import Bulla.Fifo
import Bulla.ByteMemory
import Bulla.X86
import Bulla.Kernel.Storage
import Bulla.Kernel.FixedMap
import Bulla.Kernel.RingBuffer
import Bulla.Kernel.StorageEquality
import Bulla.Kernel.Bitmap
import Bulla.Kernel.Capability
import Bulla.Kernel.CapabilityChain
import Bulla.Kernel.CapabilityDelegation
import Bulla.Kernel.CapabilityIsolation
import Bulla.Kernel.Frame
import Bulla.Kernel.FrameLayout
import Bulla.Kernel.FrameOwnership
import Bulla.Kernel.FrameRuns
import Bulla.Kernel.FrameFit
import Bulla.Kernel.FrameGenerations
import Bulla.Kernel.FrameLoans
import Bulla.Kernel.Memory
import Bulla.Kernel.MemoryMap
import Bulla.Kernel.MemoryTranslation
import Bulla.Kernel.MemoryRights
import Bulla.Kernel.MemoryEpochs
import Bulla.Kernel.TemporaryWindow
import Bulla.Kernel.UserCopies
import Bulla.Kernel.Dma
import Bulla.Kernel.DmaBinding
import Bulla.Kernel.DmaSlots
import Bulla.Kernel.DmaDomains
import Bulla.Kernel.Context
import Bulla.Kernel.ContextFrames
import Bulla.Thermite.Context
import Bulla.Kernel.Atomic
import Bulla.Kernel.AtomicTrace
import Bulla.Kernel.AtomicEdges
import Bulla.Kernel.AtomicRefusals
import Bulla.Kernel.AtomicCell
import Bulla.Kernel.Device
import Bulla.Kernel.DeviceMemory
import Bulla.Kernel.Smp
import Bulla.Kernel.SmpLifecycle
import Bulla.Kernel.SmpRounds
import Bulla.Kernel.SmpStale
import Bulla.Kernel.Irq
import Bulla.Kernel.IrqTokens
import Bulla.Kernel.IrqRoutes
import Bulla.Kernel.IrqAuthority
import Bulla.Kernel.Services
import Bulla.Kernel.Sync
import Bulla.Kernel.Mpsc
import Bulla.Kernel.Barrier
import Bulla.Kernel.Scheduler
import Bulla.Kernel.SchedulerOwnership
import Bulla.Kernel.SchedulerInvariant
import Bulla.Kernel.Dispatch
import Bulla.Kernel.Event
import Bulla.Kernel.EventRuns
import Bulla.Kernel.EventOwners
import Bulla.Kernel.EventReports
import Bulla.Kernel.Policy
import Bulla.Kernel.PolicyRuns
import Bulla.Kernel.Completion
import Bulla.Kernel.Syscalls
import Bulla.Kernel.Refusals
import Bulla.Kernel.Authority
import Bulla.Kernel.ActionRange
import Bulla.Kernel.DeviceAuthority
import Bulla.Kernel.Registry
import Bulla.Kernel.Boundary
import Bulla.Platform.Descriptors
import Bulla.Platform.BootCpus
import Bulla.Platform.FwCfg
import Bulla.Platform.Mmio
import Bulla.Platform.Memmove
import Bulla.Platform.Tasks
import Bulla.Platform.TaskRuns
import Bulla.Platform.TaskPeak
import Bulla.Platform.LockOnce
import Bulla.Platform.LockRefinement
import Bulla.Platform.Heap
import Bulla.Platform.HeapOwnership
import Bulla.Platform.HeapAlone
import Bulla.Platform.BootProtocol
import Bulla.Platform.BootOrder
import Bulla.Platform.BootTasks
import Bulla.Platform.BootMasks
import Bulla.Platform.BootShootdown
import Bulla.Platform.BootTranslation
import Bulla.Platform.BootReport
import Bulla.Platform.BootEffort
import Bulla.Platform.BootProgress
import Bulla.Platform.BootCompletion
import Bulla.Tooling.Migrate
import Bulla.Tooling.MigrateRoundTrip
