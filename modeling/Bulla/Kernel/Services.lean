import Bulla.Rust.Bits
import Bulla.Kernel.Capability
import Bulla.Kernel.Smp

/-!
# Platform services

The clock with its deadlines, the entropy source and the power state.  Entropy is one stream: a word
is moved on by three exclusive ors with its own shifts for every byte, none of which loses a bit, so
that a word that is not zero never becomes zero.
-/

namespace Bulla.Kernel

open Rust Outcome

structure Instant where
  ticks : UInt64
  scaleNumerator : UInt64
  scaleDenominator : UInt64
  errorTicks : UInt64
  deriving DecidableEq, Repr

inductive TerminalState where
  | running
  | reboot
  | powerOff
  | halt
  deriving DecidableEq, Repr

inductive ServiceError where
  | wrongCapability
  | missingRights
  | clockWentBackward
  | invalidScale
  | deadlineInPast
  | noDeadline
  | entropyUnavailable
  | bufferTooLarge
  | alreadyTerminal
  deriving DecidableEq, Repr

structure PlatformServices where
  now : UInt64
  scaleNumerator : UInt64
  scaleDenominator : UInt64
  errorTicks : UInt64
  deadlines : BTreeMap CpuId UInt64
  entropyState : UInt64
  entropyHealthy : Bool
  /-- The field `terminal`, which `terminal_state` returns. -/
  terminalState : TerminalState

namespace PlatformServices

def new (scaleNumerator scaleDenominator : UInt64) : Outcome ServiceError PlatformServices := do
  rejectIf (scaleNumerator = 0 ∨ scaleDenominator = 0) ServiceError.invalidScale
  return {
    now := 0
    scaleNumerator
    scaleDenominator
    errorTicks := 0
    deadlines := ∅
    entropyState := 0x6a09e667f3bcc909
    entropyHealthy := true
    terminalState := .running }

def require (capability : Capability) (kind : CapabilityKind) (rights : Rights) :
    Outcome ServiceError Unit := do
  rejectIf (capability.kind ≠ kind) ServiceError.wrongCapability
  rejectIf (capability.rights.contains rights = false) ServiceError.missingRights

def updateClock (ticks errorTicks : UInt64) : Call PlatformServices ServiceError Unit := do
  rejectIf (ticks < (← get).now) ServiceError.clockWentBackward
  modify fun self => { self with now := ticks, errorTicks }

def readClock (self : PlatformServices) (capability : Capability) :
    Outcome ServiceError Instant := do
  require capability .clock .read
  return {
    ticks := self.now
    scaleNumerator := self.scaleNumerator
    scaleDenominator := self.scaleDenominator
    errorTicks := self.errorTicks }

def armDeadline (capability : Capability) (cpu : CpuId) (deadline : UInt64) :
    Call PlatformServices ServiceError Unit := do
  require capability .clock .control
  rejectIf (deadline ≤ (← get).now) ServiceError.deadlineInPast
  modify fun self => { self with deadlines := self.deadlines.insert cpu deadline }

def cancelDeadline (capability : Capability) (cpu : CpuId) :
    Call PlatformServices ServiceError UInt64 := do
  require capability .clock .control
  let deadline ← okOr (← get).deadlines[cpu]? ServiceError.noDeadline
  modify fun self => { self with deadlines := self.deadlines.erase cpu }
  return deadline

def due (self : PlatformServices) : List CpuId :=
  self.deadlines.toList.filterMap fun (cpu, deadline) =>
    if deadline ≤ self.now then some cpu else none

def setEntropyHealth (healthy : Bool) (self : PlatformServices) : PlatformServices :=
  { self with entropyHealthy := healthy }

/-- One round of the loop of `fill_entropy`. -/
def entropyRound (state : UInt64) : UInt64 :=
  let state := state ^^^ state <<< 13
  let state := state ^^^ state >>> 7
  state ^^^ state <<< 17

/-- The loop of `fill_entropy`: the bytes that are written and the state that is left. -/
def fillBytes : List UInt8 → UInt64 → List UInt8 × UInt64
  | [], state => ([], state)
  | _ :: output, state =>
      let state := entropyRound state
      let (bytes, last) := fillBytes output state
      (state.toUInt8 :: bytes, last)

/-- What `fill_entropy` borrows mutably. -/
structure Fill where
  services : PlatformServices
  output : List UInt8

/-- The checks of `fill_entropy`. -/
def admitFill (self : PlatformServices) (capability : Capability) (len : ℕ) :
    Outcome ServiceError Unit := do
  require capability .entropy .read
  rejectIf (self.entropyHealthy = false) ServiceError.entropyUnavailable
  rejectIf (4096 < len) ServiceError.bufferTooLarge

def Fill.filled (fill : Fill) : Fill where
  services := { fill.services with
    entropyState := (fillBytes fill.output fill.services.entropyState).2 }
  output := (fillBytes fill.output fill.services.entropyState).1

def fillEntropy (capability : Capability) : Call Fill ServiceError Unit := do
  (← get).services.admitFill capability (← get).output.length
  modify Fill.filled

def terminal (capability : Capability) (state : TerminalState) :
    Call PlatformServices ServiceError Unit := do
  require capability .power .control
  rejectIf ((← get).terminalState ≠ .running ∨ state = .running) ServiceError.alreadyTerminal
  modify fun self => { self with terminalState := state }

/-- One call of the interface. -/
inductive Request where
  | updateClock (ticks errorTicks : UInt64)
  | readClock (capability : Capability)
  | armDeadline (capability : Capability) (cpu : CpuId) (deadline : UInt64)
  | cancelDeadline (capability : Capability) (cpu : CpuId)
  | due
  | setEntropyHealth (healthy : Bool)
  | fillEntropy (capability : Capability) (output : List UInt8)
  | terminal (capability : Capability) (state : TerminalState)
  | terminalState
  deriving DecidableEq, Repr

/-- What a successful call returns. -/
inductive Reply where
  | done
  | instant (instant : Instant)
  | deadline (deadline : UInt64)
  | cpus (cpus : List CpuId)
  | bytes (output : List UInt8)
  | state (state : TerminalState)
  deriving DecidableEq, Repr

def perform : Request → Call PlatformServices ServiceError Reply
  | .updateClock ticks errorTicks => do
      updateClock ticks errorTicks
      return .done
  | .readClock capability => return .instant (← (← get).readClock capability)
  | .armDeadline capability cpu deadline => do
      armDeadline capability cpu deadline
      return .done
  | .cancelDeadline capability cpu => return .deadline (← cancelDeadline capability cpu)
  | .due => return .cpus (← get).due
  | .setEntropyHealth healthy => do
      modify (setEntropyHealth healthy)
      return .done
  | .fillEntropy capability output => fun services =>
      let (outcome, fill) := fillEntropy capability ⟨services, output⟩
      (outcome >>= fun _ => .ok (.bytes fill.output), fill.services)
  | .terminal capability state => do
      terminal capability state
      return .done
  | .terminalState => return .state (← get).terminalState

/-- The steps of a round: no step loses a bit, and zero stays zero. -/
theorem bijective_steps :
    ∀ step ∈ [fun state : UInt64 => state ^^^ state <<< 13, fun state => state ^^^ state >>> 7,
        fun state => state ^^^ state <<< 17],
      Function.Bijective step ∧ step 0 = 0 := by
  simp only [List.forall_mem_cons]
  refine ⟨⟨?_, rfl⟩, ⟨?_, rfl⟩, ⟨?_, rfl⟩, List.forall_mem_nil _⟩
  · exact bijective_of_injective (injective_xor_shiftLeft (by decide) (by decide))
  · exact bijective_of_injective (injective_xor_shiftRight (by decide) (by decide))
  · exact bijective_of_injective (injective_xor_shiftLeft (by decide) (by decide))

theorem bijective_entropyRound : Function.Bijective entropyRound := by
  obtain ⟨⟨first, -⟩, ⟨second, -⟩, ⟨third, -⟩, -⟩ :=
    by simpa only [List.forall_mem_cons] using bijective_steps
  exact third.comp (second.comp first)

@[simp] theorem entropyRound_zero : entropyRound 0 = 0 := rfl

theorem iterate_entropyRound_ne_zero {state : UInt64} (nonzero : state ≠ 0) (count : ℕ) :
    entropyRound^[count] state ≠ 0 := by
  rw [← Function.iterate_fixed entropyRound_zero count]
  exact (bijective_entropyRound.injective.iterate count).ne nonzero

/-- A buffer takes one round for each of its bytes. -/
theorem fillBytes_snd (output : List UInt8) (state : UInt64) :
    (fillBytes output state).2 = entropyRound^[output.length] state := by
  induction output generalizing state with
  | nil => rfl
  | cons byte output induction => exact induction (entropyRound state)

/-- A byte is the low end of the state after its round. -/
theorem fillBytes_getElem? (output : List UInt8) (state : UInt64) (index : ℕ) :
    (fillBytes output state).1[index]? =
      if index < output.length then some (entropyRound^[index + 1] state).toUInt8 else none := by
  induction output generalizing state index with
  | nil => rfl
  | cons byte output induction =>
      rw [fillBytes]
      cases index with
      | zero => simp
      | succ index => simp [induction]

/-- Only the length of the buffer matters. -/
theorem fillBytes_congr {left right : List UInt8} (same : left.length = right.length)
    (state : UInt64) : fillBytes left state = fillBytes right state := by
  induction left generalizing right state with
  | nil => rw [List.length_eq_zero_iff.mp same.symm]
  | cons byte left induction =>
      obtain ⟨other, rest, rfl⟩ := List.exists_cons_of_length_eq_add_one same.symm
      rw [fillBytes, fillBytes, induction (Nat.succ.inj same)]

theorem fillBytes_append (first second : List UInt8) (state : UInt64) :
    fillBytes (first ++ second) state =
      ((fillBytes first state).1 ++ (fillBytes second (fillBytes first state).2).1,
        (fillBytes second (fillBytes first state).2).2) := by
  induction first generalizing state with
  | nil => rfl
  | cons byte first induction =>
      rw [List.cons_append, fillBytes, induction, fillBytes]
      rfl

/-- A fill is judged first and then writes the whole buffer. -/
theorem fillEntropy_eq (capability : Capability) (fill : Fill) :
    fillEntropy capability fill =
      (fill.services.admitFill capability fill.output.length,
        if fill.services.admitFill capability fill.output.length = .ok () then fill.filled
        else fill) := by
  show (liftM (fill.services.admitFill capability fill.output.length) >>=
    fun _ => modify Fill.filled : Call Fill ServiceError Unit) fill = _
  rw [Call.bind_apply, Call.lift_apply]
  cases fill.services.admitFill capability fill.output.length <;> rfl

/-- How much of a buffer is asked for does not matter up to the limit. -/
theorem admitFill_congr {left right : PlatformServices} (capability : Capability) {short long : ℕ}
    (healthy : left.entropyHealthy = right.entropyHealthy) (short_le : short ≤ 4096)
    (long_le : long ≤ 4096) :
    left.admitFill capability short = right.admitFill capability long := by
  have short_fits : ¬4096 < short := Nat.not_lt.mpr short_le
  have long_fits : ¬4096 < long := Nat.not_lt.mpr long_le
  simp only [admitFill, rejectIf, healthy, short_fits, long_fits, if_false]

/-- Every call draws some rounds from the stream. -/
theorem entropyState_perform (request : Request) (before : PlatformServices) :
    ∃ count, (perform request before).2.entropyState =
      entropyRound^[count] before.entropyState := by
  show Call.Ensures (perform request) (fun _ after =>
    ∃ count, after.entropyState = entropyRound^[count] before.entropyState) before
  have kept : ∃ count, before.entropyState = entropyRound^[count] before.entropyState := ⟨0, rfl⟩
  cases request with
  | updateClock ticks errorTicks =>
      simp only [perform, updateClock]
      simp [kept]
  | readClock capability =>
      simp only [perform, readClock, require]
      simp [kept]
  | armDeadline capability cpu deadline =>
      simp only [perform, armDeadline, require]
      simp [kept]
  | cancelDeadline capability cpu =>
      simp only [perform, cancelDeadline, require]
      simp [kept]
  | due =>
      simp only [perform]
      simp [kept]
  | setEntropyHealth healthy =>
      exact kept
  | fillEntropy capability output =>
      show ∃ count, (fillEntropy capability ⟨before, output⟩).2.services.entropyState = _
      rw [fillEntropy_eq]
      split
      · exact ⟨output.length, fillBytes_snd output before.entropyState⟩
      · exact kept
  | terminal capability state =>
      simp only [perform, terminal, require]
      simp [kept]
  | terminalState =>
      simp only [perform]
      simp [kept]

theorem entropyState_final {start : PlatformServices} (nonzero : start.entropyState ≠ 0)
    (requests : List Request) : (final perform start requests).entropyState ≠ 0 := by
  refine run_induction perform (motive := fun _ state => state.entropyState ≠ 0) nonzero ?_ requests
  intro past state request kept
  obtain ⟨count, drawn⟩ := entropyState_perform request state
  show (perform request state).2.entropyState ≠ 0
  rw [drawn]
  exact iterate_entropyRound_ne_zero kept count

/-- What an accepted fill draws from the stream. -/
theorem fillEntropy_draws {capability : Capability} {fill after : Fill}
    (filled : fillEntropy capability fill = (.ok (), after)) :
    after.services = { fill.services with
        entropyState := entropyRound^[fill.output.length] fill.services.entropyState } ∧
      ∀ index, after.output[index]? = if index < fill.output.length then
        some (entropyRound^[index + 1] fill.services.entropyState).toUInt8 else none := by
  rw [fillEntropy_eq, Prod.mk.injEq] at filled
  obtain ⟨admitted, rfl⟩ := filled
  rw [if_pos admitted, Fill.filled, fillBytes_snd]
  exact ⟨rfl, fillBytes_getElem? fill.output fill.services.entropyState⟩

theorem inert_fillEntropy (capability : Capability) (fill : Fill) :
    (fillEntropy capability).Inert fill := by
  intro reason refused
  rw [fillEntropy_eq] at refused ⊢
  replace refused : fill.services.admitFill capability fill.output.length = .err reason := refused
  exact if_neg (by rw [refused]; simp)

theorem entropyState_new {numerator denominator : UInt64} {start : PlatformServices}
    (created : new numerator denominator = .ok start) : start.entropyState ≠ 0 := by
  simp only [new, bind_eq_ok, pure_eq, ok.injEq] at created
  obtain ⟨-, -, rfl⟩ := created
  show (0x6a09e667f3bcc909 : UInt64) ≠ 0
  decide

/-- Two fills and the fill of one buffer as long as both. -/
theorem fillEntropy_append (capability : Capability) (services : PlatformServices)
    {first second whole : List UInt8} (length_eq : whole.length = first.length + second.length)
    (fits : whole.length ≤ 4096) :
    let once := fillEntropy capability ⟨services, whole⟩
    let earlier := fillEntropy capability ⟨services, first⟩
    let later := fillEntropy capability ⟨earlier.2.services, second⟩
    earlier.1 = once.1 ∧ later.1 = once.1 ∧ later.2.services = once.2.services ∧
      (once.1 = .ok () → earlier.2.output ++ later.2.output = once.2.output) := by
  intro once earlier later
  have parts_eq : fillBytes whole services.entropyState = _ :=
    (fillBytes_congr (by rw [length_eq, List.length_append]) _).trans
      (fillBytes_append first second services.entropyState)
  have healthy : earlier.2.services.entropyHealthy = services.entropyHealthy := by
    simp only [earlier, fillEntropy_eq]
    split <;> rfl
  have first_admitted : services.admitFill capability first.length =
      services.admitFill capability whole.length := admitFill_congr capability rfl (by omega) fits
  have second_admitted : earlier.2.services.admitFill capability second.length =
      services.admitFill capability whole.length :=
    admitFill_congr capability healthy (by omega) fits
  have once_eq : once = _ := fillEntropy_eq capability ⟨services, whole⟩
  have earlier_eq : earlier = _ := fillEntropy_eq capability ⟨services, first⟩
  have later_eq : later = _ := fillEntropy_eq capability ⟨earlier.2.services, second⟩
  simp only [first_admitted, second_admitted] at earlier_eq later_eq once_eq
  by_cases admitted : services.admitFill capability whole.length = .ok ()
  · simp only [admitted, if_true] at once_eq earlier_eq later_eq
    simp only [once_eq, later_eq, earlier_eq, Fill.filled, parts_eq]
    simp
  · simp only [admitted, if_false] at once_eq earlier_eq later_eq
    simp [once_eq, later_eq, earlier_eq, admitted]

/-- The entropy state is never zero, since no round loses a bit; a refused fill changes nothing; an
accepted one draws a round for each byte; and filling in two parts is filling at once. -/
theorem entropy_is_one_stream :
    (∀ step ∈ [fun state : UInt64 => state ^^^ state <<< 13, fun state => state ^^^ state >>> 7,
        fun state => state ^^^ state <<< 17], Function.Bijective step ∧ step 0 = 0) ∧
      (Function.Bijective entropyRound ∧ entropyRound 0 = 0) ∧
      (∀ numerator denominator start, new numerator denominator = .ok start →
        ∀ requests, (final perform start requests).entropyState ≠ 0) ∧
      (∀ capability fill reason after,
        fillEntropy capability fill = (.err reason, after) → after = fill) ∧
      (∀ capability fill after, fillEntropy capability fill = (.ok (), after) →
        after.services = { fill.services with
            entropyState := entropyRound^[fill.output.length] fill.services.entropyState } ∧
          ∀ index, after.output[index]? = if index < fill.output.length then
            some (entropyRound^[index + 1] fill.services.entropyState).toUInt8 else none) ∧
      ∀ capability services (first second whole : List UInt8),
        whole.length = first.length + second.length → whole.length ≤ 4096 →
        let once := fillEntropy capability ⟨services, whole⟩
        let earlier := fillEntropy capability ⟨services, first⟩
        let later := fillEntropy capability ⟨earlier.2.services, second⟩
        earlier.1 = once.1 ∧ later.1 = once.1 ∧ later.2.services = once.2.services ∧
          (once.1 = .ok () → earlier.2.output ++ later.2.output = once.2.output) := by
  refine ⟨bijective_steps, ⟨bijective_entropyRound, entropyRound_zero⟩, ?_, ?_,
    fun _ _ _ => fillEntropy_draws, ?_⟩
  · intro numerator denominator start created requests
    exact entropyState_final (entropyState_new created) requests
  · intro capability fill reason after refused
    exact (inert_fillEntropy capability fill).unchanged refused
  · intro capability services first second whole length_eq fits
    exact fillEntropy_append capability services length_eq fits

/-- Five bytes are drawn at once, and as two bytes and three; a clock capability draws none. -/
theorem five_bytes_drawn_in_two_fills :
    let entropy : Capability := ⟨.entropy, 0, 0, .read, 1, 0, 0⟩
    let clock : Capability := ⟨.clock, 0, 0, .read, 1, 0, 0⟩
    ∃ start, new 1 1 = .ok start ∧
      (final perform start [.fillEntropy entropy [0, 0], .fillEntropy clock [0]]).entropyState ≠ 0 ∧
      (fillEntropy clock ⟨start, [7]⟩).2 = ⟨start, [7]⟩ ∧
      (fillEntropy entropy ⟨start, [0, 0, 0, 0, 0]⟩).1 = .ok () ∧
      (fillEntropy entropy ⟨start, [0, 0]⟩).2.output ++
          (fillEntropy entropy ⟨(fillEntropy entropy ⟨start, [0, 0]⟩).2.services,
            [0, 0, 0]⟩).2.output =
        (fillEntropy entropy ⟨start, [0, 0, 0, 0, 0]⟩).2.output ∧
      (fillEntropy entropy ⟨start, [0, 0]⟩).2.services.entropyState =
        entropyRound^[2] 0x6a09e667f3bcc909 := by
  intro entropy clock
  obtain ⟨-, -, nonzero, inert, draws, stream⟩ := entropy_is_one_stream
  refine ⟨_, rfl, nonzero 1 1 _ rfl _, inert clock _ .wrongCapability _ rfl, by decide, ?_, ?_⟩
  · exact (stream entropy _ [0, 0] [0, 0, 0] [0, 0, 0, 0, 0] rfl (by decide)).2.2.2 (by decide)
  · exact congrArg entropyState (draws entropy ⟨_, [0, 0]⟩ _ (Prod.ext (by decide) rfl)).1

end PlatformServices

end Bulla.Kernel
