import Bulla.Kernel.Capability

/-!
# The platform registry

The frozen table of platform operations.  A lookup by canonical name goes through the whole table
and refuses a name that occurs twice.  No canonical name does, so a lookup finds the one operation
of a name or reports that there is none.
-/

namespace Bulla.Kernel

open Rust Outcome

inductive PlatformDomain where
  | boot
  | memory
  | mmio
  | pio
  | irq
  | cpu
  | atomic
  | smp
  | dma
  | clock
  | entropy
  | power
  deriving DecidableEq, Repr

inductive RegistryError where
  | unknownName
  | duplicateName
  | signatureDrift
  | contractDrift
  | domainDrift
  | capabilityDrift
  | rightsDrift
  | symbolDrift
  | sourceContractDrift
  | reachabilityDrift
  | metadataDrift
  deriving DecidableEq, Repr

structure PlatformOperation where
  key : String
  signature : String
  contract : String
  domain : PlatformDomain
  capability : Option CapabilityKind
  rights : Rights
  symbol : String
  sourceContractSha256 : Option String
  sourceReachable : Bool
  secondaryDomains : List PlatformDomain
  abi : String
  alignment : UInt16
  ownership : String
  model : String
  concurrency : String
  failure : String
  evidence : String
  deriving DecidableEq, Repr

def op (key signature contract : String) (domain : PlatformDomain)
    (capability : Option CapabilityKind) (rights : Rights) (symbol : String) :
    PlatformOperation where
  key
  signature
  contract
  domain
  capability
  rights
  symbol
  sourceContractSha256 := none
  sourceReachable := false
  secondaryDomains := []
  abi := "C"
  alignment := 1
  ownership := "capability-generation-preserved-unless-contract-consumes"
  model := contract
  concurrency := "registry-model-defined"
  failure := "typed-platform-error-or-declared-terminal"
  evidence := "model-tests+symbol-inventory+qemu-transcript"

def sourceOp (operation : PlatformOperation) (sourceContractSha256 : String) :
    PlatformOperation :=
  { operation with
    sourceContractSha256 := some sourceContractSha256
    sourceReachable := true }

/-- `X86_64_PC_UEFI_SMP_V1`. -/
def x86_64PcUefiSmpV1 : List PlatformOperation :=
  [op "boot.handoff" "fn(BootInfo)->BootBytes" "bounded_handoff" .boot (some .bootInfo) .read
      "tpl_boot_handoff",
    op "memory.frame_split" "fn(Frame,u64)->(Frame,Frame)" "partition_exact" .memory (some .frame)
      .transfer "tpl_frame_split",
    op "memory.frame_join" "fn(Frame,Frame)->Frame" "adjacent_join" .memory (some .frame) .transfer
      "tpl_frame_join",
    op "memory.frame_zero" "fn(Frame)->Frame" "zero_exact" .memory (some .frame) .write
      "tpl_frame_zero",
    op "memory.frame_query" "fn(Frame)->FrameInfo" "query_exact_generation" .memory (some .frame)
      .read "tpl_frame_query",
    op "memory.frame_lend" "fn(Frame,u32)->Frame" "consume_generation_to_borrower" .memory
      (some .frame) .transfer "tpl_frame_lend",
    op "memory.frame_reclaim" "fn(Frame,u32)->Frame" "matching_borrower_next_generation" .memory
      (some .frame) .transfer "tpl_frame_reclaim",
    op "memory.temporary_map" "fn(VirtRegion,Frame)->TemporaryMapping" "bounded_window_generation"
      .memory (some .virtRegion) .map "tpl_temporary_map",
    op "memory.temporary_revoke" "fn(VirtRegion,TemporaryMapping)->()" "revoke_exact_generation"
      .memory (some .virtRegion) .map "tpl_temporary_revoke",
    op "memory.space_create" "fn(AddressSpace)->AddressSpace" "fresh_inactive_root" .memory
      (some .addressSpace) .control "tpl_space_create",
    op "memory.map" "fn(AddressSpace,Frame,MapRequest)->Mapping" "map_cap_bounded" .memory
      (some .addressSpace) .map "tpl_map",
    op "memory.unmap" "fn(AddressSpace,u64)->Mapping" "unmap_exact" .memory (some .addressSpace)
      .map "tpl_unmap",
    op "memory.protect" "fn(AddressSpace,u64,Perm)->()" "protect_exact" .memory (some .addressSpace)
      .map "tpl_protect",
    op "memory.activate" "fn(AddressSpace)->()" "activate_root" .memory (some .addressSpace)
      .control "tpl_activate",
    op "memory.inspect" "fn(AddressSpace,u64)->Result<Mapping>" "inspect_exact_mapping" .memory
      (some .addressSpace) .read "tpl_space_inspect",
    op "memory.destroy" "fn(AddressSpace)->()" "inactive_empty_consume_root" .memory
      (some .addressSpace) .control "tpl_space_destroy",
    op "memory.translation_validate" "fn(u64,PageSize,Perm,CachePolicy)->Result"
      "canonical_aligned_profile_translation" .memory none .empty "tpl_translation_validate",
    op "memory.tlb_local" "fn(AddressSpace,u64)->()" "invalidate_local" .memory (some .addressSpace)
      .map "tpl_tlb_local",
    op "memory.tlb_space" "fn(AddressSpace)->()" "invalidate_active_space" .memory
      (some .addressSpace) .map "tpl_tlb_space",
    op "memory.user_copy_in" "fn(AddressSpace,u64,&mut[u8])->Result" "copy_all_or_fault" .memory
      (some .addressSpace) .read "tpl_user_copy_in",
    op "memory.user_copy_out" "fn(AddressSpace,u64,&[u8])->Result" "copy_all_or_fault" .memory
      (some .addressSpace) .write "tpl_user_copy_out",
    op "mmio.read8" "fn(Mmio,u64)->u8" "aligned_in_range" .mmio (some .mmio) .read "tpl_mmio_read8",
    op "mmio.read16" "fn(Mmio,u64)->u16" "aligned_in_range" .mmio (some .mmio) .read
      "tpl_mmio_read16",
    op "mmio.read32" "fn(Mmio,u64)->u32" "aligned_in_range" .mmio (some .mmio) .read
      "tpl_mmio_read32",
    op "mmio.read64" "fn(Mmio,u64)->u64" "aligned_in_range" .mmio (some .mmio) .read
      "tpl_mmio_read64",
    op "mmio.write8" "fn(Mmio,u64,u8)->()" "aligned_in_range" .mmio (some .mmio) .write
      "tpl_mmio_write8",
    op "mmio.write16" "fn(Mmio,u64,u16)->()" "aligned_in_range" .mmio (some .mmio) .write
      "tpl_mmio_write16",
    op "mmio.write32" "fn(Mmio,u64,u32)->()" "aligned_in_range" .mmio (some .mmio) .write
      "tpl_mmio_write32",
    op "mmio.write64" "fn(Mmio,u64,u64)->()" "aligned_in_range" .mmio (some .mmio) .write
      "tpl_mmio_write64",
    op "pio.read8" "fn(IoPort,u16)->u8" "port_in_range" .pio (some .ioPort) .read "tpl_pio_read8",
    op "pio.read16" "fn(IoPort,u16)->u16" "port_in_range" .pio (some .ioPort) .read
      "tpl_pio_read16",
    op "pio.read32" "fn(IoPort,u16)->u32" "port_in_range" .pio (some .ioPort) .read
      "tpl_pio_read32",
    op "pio.write8" "fn(IoPort,u16,u8)->()" "port_in_range" .pio (some .ioPort) .write
      "tpl_pio_write8",
    op "pio.write16" "fn(IoPort,u16,u16)->()" "port_in_range" .pio (some .ioPort) .write
      "tpl_pio_write16",
    op "pio.write32" "fn(IoPort,u16,u32)->()" "port_in_range" .pio (some .ioPort) .write
      "tpl_pio_write32",
    op "mmio.compiler_fence" "fn()->()" "compiler_ordering_barrier" .mmio none .empty
      "tpl_mmio_compiler_fence",
    op "mmio.read_barrier" "fn()->()" "device_reads_before_after" .mmio none .empty
      "tpl_mmio_read_barrier",
    op "mmio.write_barrier" "fn()->()" "device_writes_before_after" .mmio none .empty
      "tpl_mmio_write_barrier",
    op "mmio.full_barrier" "fn()->()" "device_full_ordering_barrier" .mmio none .empty
      "tpl_mmio_full_barrier",
    op "pio.pci_config" "fn(IoPort,PciAddress,u32,Option<u32>)->u32" "bounded_pci_configuration"
      .pio (some .ioPort) (.union .read .write) "tpl_pci_config",
    op "mmio.feature_query" "fn(Mmio,u32)->FeatureRecord" "bounded_device_feature_record" .mmio
      (some .mmio) .read "tpl_device_feature_query",
    op "irq.save_disable" "fn(CpuLocal)->IrqState" "cpu_local_generation" .irq (some .cpuLocal)
      .control "tpl_irq_save_disable",
    op "irq.restore" "fn(CpuLocal,IrqState)->()" "matching_cpu_generation" .irq (some .cpuLocal)
      .control "tpl_irq_restore",
    op "irq.mask" "fn(Irq)->()" "mask_owned_route" .irq (some .irq) .control "tpl_irq_mask",
    op "irq.unmask" "fn(Irq)->()" "unmask_owned_route" .irq (some .irq) .control "tpl_irq_unmask",
    op "irq.route" "fn(Irq,Cpu,u8)->()" "route_owned_vector" .irq (some .irq) .route
      "tpl_irq_route",
    op "irq.eoi" "fn(Irq,u8)->()" "ack_owned_vector" .irq (some .irq) .control "tpl_irq_eoi",
    op "irq.state_validate" "fn(IrqState,CpuLocal)->Result" "matching_cpu_single_use_generation"
      .irq (some .irqState) .control "tpl_irq_state_validate",
    op "cpu.logical_id" "fn(Cpu)->u16" "stable_logical_id" .cpu (some .cpu) .read
      "tpl_cpu_logical_id",
    op "cpu.features" "fn(Cpu)->FeatureBits" "profile_subset" .cpu (some .cpu) .read
      "tpl_cpu_features",
    op "cpu.control_state" "fn(Cpu)->ControlState" "profile_masked_control_registers" .cpu
      (some .cpu) .read "tpl_cpu_control_state",
    op "cpu.msr_read" "fn(Cpu,u32)->u64" "allowlisted_model_specific_register" .cpu (some .cpu)
      .read "tpl_cpu_msr_read",
    op "cpu.msr_write" "fn(Cpu,u32,u64)->()" "allowlisted_model_specific_register" .cpu (some .cpu)
      .control "tpl_cpu_msr_write",
    op "cpu.supported_widths" "fn(Cpu)->WidthRecord" "page_and_atomic_width_subset" .cpu (some .cpu)
      .read "tpl_cpu_supported_widths",
    op "cpu.install_gdt" "fn(CpuLocal,DescriptorTable)->()" "checked_gdt_install" .cpu
      (some .cpuLocal) .control "tpl_cpu_install_gdt",
    op "cpu.install_idt" "fn(CpuLocal,DescriptorTable)->()" "checked_idt_install" .cpu
      (some .cpuLocal) .control "tpl_cpu_install_idt",
    op "cpu.install_tss" "fn(CpuLocal,TssDescriptor)->()" "checked_per_cpu_tss_install" .cpu
      (some .cpuLocal) .control "tpl_cpu_install_tss",
    op "cpu.install_syscall" "fn(CpuLocal,SyscallDescriptor)->()" "checked_syscall_msr_install" .cpu
      (some .cpuLocal) .control "tpl_cpu_install_syscall",
    op "cpu.install_local" "fn(Cpu,CpuLocal)->()" "install_once" .cpu (some .cpuLocal) .control
      "tpl_cpu_install_local",
    op "cpu.enter_context" "fn(Cpu,UserContext)->!" "exact_context_transition" .cpu (some .cpu)
      .control "tpl_enter_context",
    op "cpu.trap_construct" "fn(TrapFrame,TrapInput)->TrapRecord" "checked_trap_origin_and_frame"
      .cpu (some .trapFrame) .control "tpl_trap_construct",
    op "cpu.context_switch" "fn(UserContext,UserContext)->()" "unique_context_owner_transition" .cpu
      (some .userContext) .control "tpl_context_switch",
    op "cpu.return_kernel" "fn(TrapFrame)->!" "exact_kernel_return_frame" .cpu (some .trapFrame)
      .control "tpl_return_kernel",
    op "cpu.return_user" "fn(UserContext)->!" "exact_user_return_frame" .cpu (some .userContext)
      .control "tpl_return_user",
    op "cpu.pause" "fn(Cpu)->()" "bounded_spin_hint" .cpu (some .cpu) .control "tpl_cpu_pause",
    op "cpu.halt_interruptible" "fn(Cpu)->()" "interrupt_aware_idle" .cpu (some .cpu) .control
      "tpl_cpu_halt_interruptible",
    op "cpu.rendezvous" "fn(Cpu,u64)->()" "bounded_architecture_rendezvous" .cpu (some .cpu)
      .control "tpl_cpu_rendezvous",
    op "atomic.load" "fn(Atomic,Ordering)->u64" "legal_load_order" .atomic (some .physRegion) .read
      "tpl_atomic_load",
    op "atomic.store" "fn(Atomic,u64,Ordering)->()" "legal_store_order" .atomic (some .physRegion)
      .write "tpl_atomic_store",
    op "atomic.swap" "fn(Atomic,u64,Ordering)->u64" "modification_order" .atomic (some .physRegion)
      (.union .read .write) "tpl_atomic_swap",
    op "atomic.compare_exchange" "fn(Atomic,u64,u64,Ordering,Ordering)->Cas" "legal_cas_orders"
      .atomic (some .physRegion) (.union .read .write) "tpl_atomic_compare_exchange",
    op "atomic.compare_exchange_weak" "fn(Atomic,u64,u64,Ordering,Ordering)->Cas"
      "legal_cas_orders_and_spurious_failure" .atomic (some .physRegion) (.union .read .write)
      "tpl_atomic_compare_exchange_weak",
    op "atomic.fetch" "fn(Atomic,FetchOp,u64,Ordering)->u64" "modification_order" .atomic
      (some .physRegion) (.union .read .write) "tpl_atomic_fetch",
    op "atomic.compiler_fence" "fn(Ordering)->()" "legal_compiler_fence_order" .atomic none .empty
      "tpl_atomic_compiler_fence",
    op "atomic.hardware_fence" "fn(Ordering)->()" "legal_hardware_fence_order" .atomic none .empty
      "tpl_atomic_hardware_fence",
    op "smp.discover" "fn(CpuSet)->Topology" "unique_stable_ids" .smp (some .cpuSet) .read
      "tpl_smp_discover",
    op "smp.start" "fn(Cpu,CpuLocal)->StartResult" "monotonic_lifecycle" .smp (some .cpu) .control
      "tpl_smp_start",
    op "smp.ipi" "fn(CpuSet,u8,u64)->()" "epoch_targets_exact" .smp (some .cpuSet) .control
      "tpl_smp_ipi",
    op "smp.rendezvous" "fn(CpuSet,u64)->AckMask" "epoch_ack_exact" .smp (some .cpuSet) .control
      "tpl_smp_rendezvous",
    op "smp.online_snapshot" "fn(CpuSet)->OnlineSnapshot" "release_acquire_online_mask" .smp
      (some .cpuSet) .read "tpl_smp_online_snapshot",
    op "smp.stop_request" "fn(CpuSet,u64)->AckMask" "epoch_correlated_stop_ack" .smp (some .cpuSet)
      .control "tpl_smp_stop_request",
    op "smp.shootdown" "fn(CpuSet,u64,u64,u64)->AckMask" "mapping_epoch_exact" .smp (some .cpuSet)
      .control "tpl_smp_shootdown",
    op "dma.pin" "fn(Dma,PhysRegion)->DmaMapping" "device_domain_generation" .dma (some .dma)
      .transfer "tpl_dma_pin",
    op "dma.domain_create" "fn(IommuDomain,Device,Aperture)->Domain" "device_aperture_exact" .dma
      (some .iommuDomain) .map "tpl_dma_domain_create",
    op "dma.map" "fn(IommuDomain,DmaMapping,u64)->Segments" "iommu_or_identity_domain_exact" .dma
      (some .iommuDomain) .map "tpl_dma_map",
    op "dma.segments" "fn(DmaMapping)->Segments" "device_visible_segments_exact" .dma (some .dma)
      .read "tpl_dma_segments",
    op "dma.sync" "fn(DmaMapping,Direction)->()" "coherence_transition" .dma (some .dma) .control
      "tpl_dma_sync",
    op "dma.unmap" "fn(IommuDomain,DmaMapping)->Segments" "consume_domain_mapping" .dma
      (some .iommuDomain) .map "tpl_dma_unmap",
    op "dma.unpin" "fn(DmaMapping)->()" "consume_generation" .dma (some .dma) .transfer
      "tpl_dma_unpin",
    sourceOp (op "clock.read" "fn(Clock)->Instant" "monotonic_with_error" .clock (some .clock) .read
      "tpl_clock_read") "2a1b32cc68f553037a9d886f1d87aef36120a4a1b96b49534eb334e4ea62378c",
    op "clock.arm" "fn(Clock,Cpu,u64)->()" "per_cpu_deadline" .clock (some .clock) .control
      "tpl_clock_arm",
    op "clock.cancel" "fn(Clock,Cpu)->()" "cancel_current_per_cpu_deadline" .clock (some .clock)
      .control "tpl_clock_cancel",
    op "entropy.fill" "fn(Entropy,&mut[u8])->Result" "exact_or_failure" .entropy (some .entropy)
      .read "tpl_entropy_fill",
    op "power.reboot" "fn(Power)->!" "terminal_reboot" .power (some .power) .control
      "tpl_power_reboot",
    op "power.off" "fn(Power)->!" "terminal_poweroff" .power (some .power) .control "tpl_power_off",
    op "power.halt" "fn(Power)->!" "terminal_halt" .power (some .power) .control "tpl_power_halt",
    op "runtime.memcpy" "fn(*mut u8,*const u8,usize)->*mut u8" "exact_nonoverlap" .boot none .empty
      "memcpy",
    op "runtime.memmove" "fn(*mut u8,*const u8,usize)->*mut u8" "exact_overlap" .boot none .empty
      "memmove",
    op "runtime.memset" "fn(*mut u8,u8,usize)->*mut u8" "exact_fill" .boot none .empty "memset",
    op "runtime.panic" "fn(PanicInfo)->!" "terminal_named_panic" .boot none .empty
      "tpl_runtime_panic",
    op "runtime.contract_violation" "fn(ContractFailure)->!" "terminal_named_contract_failure" .boot
      none .empty "tpl_contract_violation",
    op "runtime.allocation_failure" "fn(Layout)->!" "terminal_named_allocation_failure" .boot none
      .empty "tpl_allocation_failure",
    op "runtime.stack_probe" "fn(usize)->()" "bounded_stack_probe" .boot none .empty
      "tpl_stack_probe",
    op "runtime.terminal_fault" "fn(FaultRecord)->!" "terminal_named_platform_fault" .boot none
      .empty "tpl_terminal_fault"]

def canonicalName : String → String
  | "boot.handoff" => "kernel::boot::handoff@v1"
  | "memory.frame_split" => "kernel::memory::frame_split@v1"
  | "memory.frame_join" => "kernel::memory::frame_join@v1"
  | "memory.frame_zero" => "kernel::memory::frame_zero@v1"
  | "memory.frame_query" => "kernel::memory::frame_query@v1"
  | "memory.frame_lend" => "kernel::memory::frame_lend@v1"
  | "memory.frame_reclaim" => "kernel::memory::frame_reclaim@v1"
  | "memory.temporary_map" => "kernel::memory::temporary_map@v1"
  | "memory.temporary_revoke" => "kernel::memory::temporary_revoke@v1"
  | "memory.space_create" => "kernel::memory::space_create@v1"
  | "memory.map" => "kernel::memory::map@v1"
  | "memory.unmap" => "kernel::memory::unmap@v1"
  | "memory.protect" => "kernel::memory::protect@v1"
  | "memory.activate" => "kernel::memory::activate@v1"
  | "memory.inspect" => "kernel::memory::inspect@v1"
  | "memory.destroy" => "kernel::memory::destroy@v1"
  | "memory.translation_validate" => "kernel::memory::translation_validate@v1"
  | "memory.tlb_local" => "kernel::memory::tlb_local@v1"
  | "memory.tlb_space" => "kernel::memory::tlb_space@v1"
  | "memory.user_copy_in" => "kernel::memory::user_copy_in@v1"
  | "memory.user_copy_out" => "kernel::memory::user_copy_out@v1"
  | "mmio.read8" => "kernel::mmio::read8@v1"
  | "mmio.read16" => "kernel::mmio::read16@v1"
  | "mmio.read32" => "kernel::mmio::read32@v1"
  | "mmio.read64" => "kernel::mmio::read64@v1"
  | "mmio.write8" => "kernel::mmio::write8@v1"
  | "mmio.write16" => "kernel::mmio::write16@v1"
  | "mmio.write32" => "kernel::mmio::write32@v1"
  | "mmio.write64" => "kernel::mmio::write64@v1"
  | "mmio.compiler_fence" => "kernel::mmio::compiler_fence@v1"
  | "mmio.read_barrier" => "kernel::mmio::read_barrier@v1"
  | "mmio.write_barrier" => "kernel::mmio::write_barrier@v1"
  | "mmio.full_barrier" => "kernel::mmio::full_barrier@v1"
  | "mmio.feature_query" => "kernel::mmio::feature_query@v1"
  | "pio.read8" => "kernel::pio::read8@v1"
  | "pio.read16" => "kernel::pio::read16@v1"
  | "pio.read32" => "kernel::pio::read32@v1"
  | "pio.write8" => "kernel::pio::write8@v1"
  | "pio.write16" => "kernel::pio::write16@v1"
  | "pio.write32" => "kernel::pio::write32@v1"
  | "pio.pci_config" => "kernel::pio::pci_config@v1"
  | "irq.save_disable" => "kernel::irq::save_disable@v1"
  | "irq.restore" => "kernel::irq::restore@v1"
  | "irq.mask" => "kernel::irq::mask@v1"
  | "irq.unmask" => "kernel::irq::unmask@v1"
  | "irq.route" => "kernel::irq::route@v1"
  | "irq.eoi" => "kernel::irq::eoi@v1"
  | "irq.state_validate" => "kernel::irq::state_validate@v1"
  | "cpu.logical_id" => "kernel::cpu::logical_id@v1"
  | "cpu.features" => "kernel::cpu::features@v1"
  | "cpu.control_state" => "kernel::cpu::control_state@v1"
  | "cpu.msr_read" => "kernel::cpu::msr_read@v1"
  | "cpu.msr_write" => "kernel::cpu::msr_write@v1"
  | "cpu.supported_widths" => "kernel::cpu::supported_widths@v1"
  | "cpu.install_gdt" => "kernel::cpu::install_gdt@v1"
  | "cpu.install_idt" => "kernel::cpu::install_idt@v1"
  | "cpu.install_tss" => "kernel::cpu::install_tss@v1"
  | "cpu.install_syscall" => "kernel::cpu::install_syscall@v1"
  | "cpu.install_local" => "kernel::cpu::install_local@v1"
  | "cpu.enter_context" => "kernel::cpu::enter_context@v1"
  | "cpu.trap_construct" => "kernel::cpu::trap_construct@v1"
  | "cpu.context_switch" => "kernel::cpu::context_switch@v1"
  | "cpu.return_kernel" => "kernel::cpu::return_kernel@v1"
  | "cpu.return_user" => "kernel::cpu::return_user@v1"
  | "cpu.pause" => "kernel::cpu::pause@v1"
  | "cpu.halt_interruptible" => "kernel::cpu::halt_interruptible@v1"
  | "cpu.rendezvous" => "kernel::cpu::rendezvous@v1"
  | "atomic.load" => "kernel::atomic::load@v1"
  | "atomic.store" => "kernel::atomic::store@v1"
  | "atomic.swap" => "kernel::atomic::swap@v1"
  | "atomic.compare_exchange" => "kernel::atomic::compare_exchange@v1"
  | "atomic.compare_exchange_weak" => "kernel::atomic::compare_exchange_weak@v1"
  | "atomic.fetch" => "kernel::atomic::fetch@v1"
  | "atomic.compiler_fence" => "kernel::atomic::compiler_fence@v1"
  | "atomic.hardware_fence" => "kernel::atomic::hardware_fence@v1"
  | "smp.discover" => "kernel::smp::discover@v1"
  | "smp.start" => "kernel::smp::start@v1"
  | "smp.ipi" => "kernel::smp::ipi@v1"
  | "smp.rendezvous" => "kernel::smp::rendezvous@v1"
  | "smp.online_snapshot" => "kernel::smp::online_snapshot@v1"
  | "smp.stop_request" => "kernel::smp::stop_request@v1"
  | "smp.shootdown" => "kernel::smp::shootdown@v1"
  | "dma.pin" => "kernel::dma::pin@v1"
  | "dma.domain_create" => "kernel::dma::domain_create@v1"
  | "dma.map" => "kernel::dma::map@v1"
  | "dma.segments" => "kernel::dma::segments@v1"
  | "dma.sync" => "kernel::dma::sync@v1"
  | "dma.unmap" => "kernel::dma::unmap@v1"
  | "dma.unpin" => "kernel::dma::unpin@v1"
  | "clock.read" => "kernel::clock::read@v1"
  | "clock.arm" => "kernel::clock::arm@v1"
  | "clock.cancel" => "kernel::clock::cancel@v1"
  | "entropy.fill" => "kernel::entropy::fill@v1"
  | "power.reboot" => "kernel::power::reboot@v1"
  | "power.off" => "kernel::power::off@v1"
  | "power.halt" => "kernel::power::halt@v1"
  | "runtime.memcpy" => "kernel::boot::memcpy@v1"
  | "runtime.memmove" => "kernel::boot::memmove@v1"
  | "runtime.memset" => "kernel::boot::memset@v1"
  | "runtime.panic" => "kernel::boot::panic@v1"
  | "runtime.contract_violation" => "kernel::boot::contract_violation@v1"
  | "runtime.allocation_failure" => "kernel::boot::allocation_failure@v1"
  | "runtime.stack_probe" => "kernel::boot::stack_probe@v1"
  | "runtime.terminal_fault" => "kernel::boot::terminal_fault@v1"
  | _ => "kernel::invalid@v1"

namespace PlatformOperation

def name (self : PlatformOperation) : String := canonicalName self.key

def exactMatch (self candidate : PlatformOperation) : Outcome RegistryError Unit := do
  rejectIf (self.key ≠ candidate.key) .unknownName
  rejectIf (self.signature ≠ candidate.signature) .signatureDrift
  rejectIf (self.contract ≠ candidate.contract) .contractDrift
  rejectIf (self.domain ≠ candidate.domain) .domainDrift
  rejectIf (self.capability ≠ candidate.capability) .capabilityDrift
  rejectIf (self.rights ≠ candidate.rights) .rightsDrift
  rejectIf (self.symbol ≠ candidate.symbol) .symbolDrift
  rejectIf (self.sourceContractSha256 ≠ candidate.sourceContractSha256) .sourceContractDrift
  rejectIf (self.sourceReachable ≠ candidate.sourceReachable) .reachabilityDrift
  rejectIf (self.secondaryDomains ≠ candidate.secondaryDomains ∨ self.abi ≠ candidate.abi ∨
    self.alignment ≠ candidate.alignment ∨ self.ownership ≠ candidate.ownership ∨
    self.model ≠ candidate.model ∨ self.concurrency ≠ candidate.concurrency ∨
    self.failure ≠ candidate.failure ∨ self.evidence ≠ candidate.evidence) .metadataDrift

/-- The comparison leaves out no field. -/
theorem exactMatch_eq_ok {self candidate : PlatformOperation} :
    self.exactMatch candidate = .ok () ↔ self = candidate := by
  cases self
  cases candidate
  simp only [exactMatch, bind_eq_ok, rejectIf_eq_ok, exists_const, not_or, ne_eq, not_not, mk.injEq]

end PlatformOperation

section Lookup

/-- One round of the loop of `lookup`. -/
def visitEntry (name : String) (found : Option PlatformOperation) (entry : PlatformOperation) :
    Outcome RegistryError (Option PlatformOperation) :=
  if entry.name = name then do
    rejectIf (found.isSome = true) .duplicateName
    return some entry
  else return found

def lookup (name : String) : Outcome RegistryError PlatformOperation := do
  let found ← x86_64PcUefiSmpV1.foldlM (visitEntry name) none
  okOr found .unknownName

variable {name : String} {entries : List PlatformOperation}

theorem foldlM_visitEntry_of_absent (found : Option PlatformOperation)
    (absent : name ∉ entries.map PlatformOperation.name) :
    entries.foldlM (visitEntry name) found = .ok found := by
  induction entries with
  | nil => rfl
  | cons entry entries induction =>
      rw [List.map_cons, List.mem_cons, not_or] at absent
      rw [List.foldlM_cons, visitEntry, if_neg (Ne.symm absent.1)]
      exact induction absent.2

/-- Among distinct names the loop finds the first entry of a name, since it is the only one. -/
theorem foldlM_visitEntry (distinct : (entries.map PlatformOperation.name).Nodup) :
    entries.foldlM (visitEntry name) none = .ok (entries.find? (·.name = name)) := by
  induction entries with
  | nil => rfl
  | cons entry entries induction =>
      rw [List.map_cons, List.nodup_cons] at distinct
      rw [List.foldlM_cons, visitEntry]
      by_cases here : entry.name = name
      · rw [if_pos here, List.find?_cons_of_pos (by simpa using here)]
        exact foldlM_visitEntry_of_absent _ (here ▸ distinct.1)
      · rw [if_neg here, List.find?_cons_of_neg (by simpa using here)]
        exact induction distinct.2

/-- The bytes of a name as one number.  Names are told apart by it at once. -/
def nameCode (name : String) : ℕ :=
  name.toByteArray.data.toList.foldl (fun code byte => 256 * code + byte.toNat) 0

theorem nodup_names : (x86_64PcUefiSmpV1.map PlatformOperation.name).Nodup := by
  apply List.Nodup.of_map nameCode
  decide +kernel

theorem lookup_eq_ok {entry : PlatformOperation} :
    lookup name = .ok entry ↔ entry ∈ x86_64PcUefiSmpV1 ∧ entry.name = name := by
  rw [lookup, foldlM_visitEntry nodup_names, ok_bind, okOr_eq_ok]
  constructor
  · intro found
    exact ⟨List.mem_of_find?_eq_some found, by simpa using List.find?_some found⟩
  · rintro ⟨member, rfl⟩
    obtain ⟨found, found_eq⟩ :
        ∃ found, x86_64PcUefiSmpV1.find? (·.name = entry.name) = some found :=
      Option.isSome_iff_exists.mp (List.find?_isSome.mpr ⟨entry, member, by simp⟩)
    have same_name : found.name = entry.name := by simpa using List.find?_some found_eq
    rw [found_eq, List.inj_on_of_nodup_map nodup_names (List.mem_of_find?_eq_some found_eq) member
      same_name]

end Lookup

end Bulla.Kernel
