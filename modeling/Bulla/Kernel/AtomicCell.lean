import Bulla.Kernel.Atomic
import Bulla.Kernel.Capability

/-!
# Atomic cells

A cell of a given width is kept in a 64-bit word.  Every operation computes on whole words and cuts
the result to the width, and a comparison cuts only the operand.  So a cell does what a cell of its
width would do, and this is the reference that the histories of a cell are compared with.
-/

namespace Bulla.Kernel

open Rust Outcome

inductive AtomicWidth where
  | bool
  | u32
  | u64
  | usize
  deriving DecidableEq, Repr

namespace AtomicWidth

def bytes : AtomicWidth → UInt64
  | .bool => 1
  | .u32 => 4
  | .u64 => 8
  | .usize => 8

def mask : AtomicWidth → UInt64
  | .bool => 1
  | .u32 => 0xffffffff
  | .u64 => 0xffffffffffffffff
  | .usize => 0xffffffffffffffff

/-- How many bits a cell has. -/
def bits : AtomicWidth → ℕ
  | .bool => 1
  | .u32 => 32
  | .u64 => 64
  | .usize => 64

theorem bits_le (width : AtomicWidth) : width.bits ≤ 64 := by
  cases width <;> decide

theorem mask_low (width : AtomicWidth) : width.mask.toNat + 1 = 2 ^ width.bits := by
  cases width <;> decide

end AtomicWidth

structure CompareExchange where
  previous : UInt64
  exchanged : Bool
  deriving DecidableEq, Repr

def validateCompareExchange (success failure : AtomicOrdering) : Outcome AtomicError Unit := do
  rejectIf (failure = .release ∨ failure = .acqRel) AtomicError.illegalFailureOrdering
  let permitted : Bool := match success with
    | .relaxed => decide (failure = .relaxed)
    | .acquire => decide (failure = .relaxed ∨ failure = .acquire)
    | .release => decide (failure = .relaxed)
    | .acqRel => decide (failure = .relaxed ∨ failure = .acquire)
    | .seqCst => decide (failure = .relaxed ∨ failure = .acquire ∨ failure = .seqCst)
  rejectIf (permitted = false) AtomicError.failureStrongerThanSuccess

structure AtomicCell where
  width : AtomicWidth
  address : UInt64
  value : UInt64
  modificationOrder : UInt64
  deriving DecidableEq, Repr

namespace AtomicCell

def create (backing : Capability) (width : AtomicWidth) (address initial : UInt64) :
    Outcome AtomicError AtomicCell := do
  rejectIf (¬(backing.kind = .physRegion ∨ backing.kind = .virtRegion ∨ backing.kind = .cpuLocal))
    AtomicError.wrongCapability
  rejectIf (backing.rights.contains (Rights.read.union Rights.write) = false)
    AtomicError.missingRights
  rejectIf (address % width.bytes ≠ 0) AtomicError.misaligned
  rejectIf (backing.containsRange address width.bytes = false) AtomicError.outOfRange
  return { width, address, value := initial &&& width.mask, modificationOrder := 0 }

/-- The order of modifications is a wrapping counter. -/
def write (value : UInt64) : Call AtomicCell AtomicError Unit :=
  modify fun self =>
    { self with
      value := value &&& self.width.mask
      modificationOrder := self.modificationOrder + 1 }

def load (self : AtomicCell) (ordering : AtomicOrdering) : Outcome AtomicError UInt64 := do
  rejectIf (ordering = .release ∨ ordering = .acqRel) AtomicError.illegalLoadOrdering
  return self.value

def store (value : UInt64) (ordering : AtomicOrdering) : Call AtomicCell AtomicError Unit := do
  rejectIf (ordering = .acquire ∨ ordering = .acqRel) AtomicError.illegalStoreOrdering
  write value

/-- A read-modify-write that always writes: the family of `swap` and the `fetch` operations. -/
def update (next : UInt64 → UInt64) : Call AtomicCell AtomicError UInt64 := do
  let previous := (← get).value
  write (next previous)
  return previous

def swap (value : UInt64) (_ordering : AtomicOrdering) : Call AtomicCell AtomicError UInt64 :=
  update fun _ => value

def compareExchange (current new : UInt64) (success failure : AtomicOrdering) :
    Call AtomicCell AtomicError CompareExchange := do
  validateCompareExchange success failure
  let previous := (← get).value
  let exchanged := decide (previous = current &&& (← get).width.mask)
  if exchanged then write new
  return { previous, exchanged }

def compareExchangeWeak (current new : UInt64) (success failure : AtomicOrdering)
    (spuriousFailure : Bool) : Call AtomicCell AtomicError CompareExchange := do
  validateCompareExchange success failure
  let previous := (← get).value
  if spuriousFailure && decide (previous = current &&& (← get).width.mask) then
    return { previous, exchanged := false }
  compareExchange current new success failure

def fetchAdd (value : UInt64) (_ordering : AtomicOrdering) : Call AtomicCell AtomicError UInt64 :=
  update fun previous => previous + value

def fetchSub (value : UInt64) (_ordering : AtomicOrdering) : Call AtomicCell AtomicError UInt64 :=
  update fun previous => previous - value

def fetchAnd (value : UInt64) (_ordering : AtomicOrdering) : Call AtomicCell AtomicError UInt64 :=
  update fun previous => previous &&& value

def fetchOr (value : UInt64) (_ordering : AtomicOrdering) : Call AtomicCell AtomicError UInt64 :=
  update fun previous => previous ||| value

def fetchXor (value : UInt64) (_ordering : AtomicOrdering) : Call AtomicCell AtomicError UInt64 :=
  update fun previous => previous ^^^ value

/-- One call of the interface. -/
inductive Request where
  | load (ordering : AtomicOrdering)
  | store (value : UInt64) (ordering : AtomicOrdering)
  | swap (value : UInt64) (ordering : AtomicOrdering)
  | compareExchange (current new : UInt64) (success failure : AtomicOrdering)
  | compareExchangeWeak (current new : UInt64) (success failure : AtomicOrdering)
      (spuriousFailure : Bool)
  | fetchAdd (value : UInt64) (ordering : AtomicOrdering)
  | fetchSub (value : UInt64) (ordering : AtomicOrdering)
  | fetchAnd (value : UInt64) (ordering : AtomicOrdering)
  | fetchOr (value : UInt64) (ordering : AtomicOrdering)
  | fetchXor (value : UInt64) (ordering : AtomicOrdering)
  deriving DecidableEq, Repr

def Request.isLoad : Request → Bool
  | .load _ => true
  | _ => false

/-- What a successful call returns. -/
inductive Reply where
  | done
  | value (value : UInt64)
  | exchange (result : CompareExchange)
  deriving DecidableEq, Repr

def perform : Request → Call AtomicCell AtomicError Reply
  | .load ordering => return .value (← (← get).load ordering)
  | .store value ordering => do
      store value ordering
      return .done
  | .swap value ordering => return .value (← swap value ordering)
  | .compareExchange current new success failure =>
      return .exchange (← compareExchange current new success failure)
  | .compareExchangeWeak current new success failure spuriousFailure =>
      return .exchange (← compareExchangeWeak current new success failure spuriousFailure)
  | .fetchAdd value ordering => return .value (← fetchAdd value ordering)
  | .fetchSub value ordering => return .value (← fetchSub value ordering)
  | .fetchAnd value ordering => return .value (← fetchAnd value ordering)
  | .fetchOr value ordering => return .value (← fetchOr value ordering)
  | .fetchXor value ordering => return .value (← fetchXor value ordering)

/-! ### The reference cell -/

/-- Whether the orderings of a call are allowed. -/
def admits : Request → Outcome AtomicError Unit
  | .load ordering => rejectIf (ordering = .release ∨ ordering = .acqRel) .illegalLoadOrdering
  | .store _ ordering => rejectIf (ordering = .acquire ∨ ordering = .acqRel) .illegalStoreOrdering
  | .compareExchange _ _ success failure => validateCompareExchange success failure
  | .compareExchangeWeak _ _ success failure _ => validateCompareExchange success failure
  | _ => .ok ()

/-- What a cell of the given width returns, and what it writes if it writes. -/
def answer (width : ℕ) (held : BitVec width) : Request → Reply × Option (BitVec width)
  | .load _ => (.value (widen held), none)
  | .store value _ => (.done, some (narrow width value))
  | .swap value _ => (.value (widen held), some (narrow width value))
  | .compareExchange current new _ _ =>
      if held = narrow width current then (.exchange ⟨widen held, true⟩, some (narrow width new))
      else (.exchange ⟨widen held, false⟩, none)
  | .compareExchangeWeak current new _ _ spuriousFailure =>
      if held = narrow width current ∧ spuriousFailure = false then
        (.exchange ⟨widen held, true⟩, some (narrow width new))
      else (.exchange ⟨widen held, false⟩, none)
  | .fetchAdd value _ => (.value (widen held), some (held + narrow width value))
  | .fetchSub value _ => (.value (widen held), some (held - narrow width value))
  | .fetchAnd value _ => (.value (widen held), some (held &&& narrow width value))
  | .fetchOr value _ => (.value (widen held), some (held ||| narrow width value))
  | .fetchXor value _ => (.value (widen held), some (held ^^^ narrow width value))

/-- A cell of the given width, driven by the same calls. -/
def reference (width : ℕ) (request : Request) : Call (BitVec width) AtomicError Reply := do
  admits request
  let held ← get
  modify fun _ => (answer width held request).2.getD held
  return (answer width held request).1

/-- A cell after a write. -/
def written (cell : AtomicCell) (next : BitVec cell.width.bits) : AtomicCell :=
  { cell with value := widen next, modificationOrder := cell.modificationOrder + 1 }

/-- The effect of each way a call can end on a cell that holds the given bits. -/
inductive Step (before : AtomicCell) (held : BitVec before.width.bits) (request : Request) :
    Outcome AtomicError Reply → AtomicCell → Prop
  | refused {reason : AtomicError} (refused : admits request = .err reason) :
      Step before held request (.err reason) before
  | kept {reply : Reply} (admitted : admits request = .ok ())
      (answered : answer _ held request = (reply, none)) :
      Step before held request (.ok reply) before
  | wrote {reply : Reply} {next : BitVec before.width.bits} (admitted : admits request = .ok ())
      (answered : answer _ held request = (reply, some next)) :
      Step before held request (.ok reply) (before.written next)

section Step

variable {before : AtomicCell} {held : BitVec before.width.bits}

theorem validateCompareExchange_ne_overflow (success failure : AtomicOrdering) :
    validateCompareExchange success failure ≠ .overflow := by
  cases success <;> cases failure <;> decide

theorem and_mask (word : UInt64) :
    word &&& before.width.mask = widen (narrow before.width.bits word) :=
  and_mask_eq before.width.bits_le before.width.mask_low word

theorem write_apply (value : UInt64) :
    write value before = (.ok (), before.written (narrow before.width.bits value)) := by
  rw [write, Call.modify_apply, and_mask]
  rfl

/-- The read-modify-writes that always write. -/
theorem step_update {request : Request} {next : UInt64 → UInt64} {result : BitVec before.width.bits}
    (performs : perform request = (do return .value (← update next)))
    (admitted : admits request = .ok ())
    (answered : answer _ held request = (.value (widen held), some result))
    (value_eq : before.value = widen held)
    (next_eq : narrow before.width.bits (next before.value) = result) :
    Step before held request (perform request before).1 (perform request before).2 := by
  have ends : perform request before = (.ok (.value (widen held)), before.written result) := by
    rw [performs, Call.bind_apply, update, Call.bind_apply, Call.get_apply]
    simp only
    rw [Call.bind_apply, write_apply, next_eq, ← value_eq]
    rfl
  rw [ends]
  exact .wrote admitted answered

/-- Both sides of a comparison are cut to the width. -/
theorem compareExchange_apply {current new : UInt64} {success failure : AtomicOrdering}
    (valid : validateCompareExchange success failure = .ok ())
    (value_eq : before.value = widen held) :
    compareExchange current new success failure before =
      if held = narrow before.width.bits current then
        (.ok ⟨widen held, true⟩, before.written (narrow before.width.bits new))
      else (.ok ⟨widen held, false⟩, before) := by
  rw [compareExchange, valid]
  by_cases same : held = narrow before.width.bits current
  · simp [Call.bind_apply, value_eq, and_mask, same, write_apply]
  · simp [Call.bind_apply, value_eq, and_mask, widen_inj before.width.bits_le, same]

theorem compareExchangeWeak_apply {current new : UInt64} {success failure : AtomicOrdering}
    {spuriousFailure : Bool} (valid : validateCompareExchange success failure = .ok ())
    (value_eq : before.value = widen held) :
    compareExchangeWeak current new success failure spuriousFailure before =
      if held = narrow before.width.bits current ∧ spuriousFailure = false then
        (.ok ⟨widen held, true⟩, before.written (narrow before.width.bits new))
      else (.ok ⟨widen held, false⟩, before) := by
  rw [compareExchangeWeak, valid]
  by_cases same : held = narrow before.width.bits current
  · cases spuriousFailure with
    | true => simp [Call.bind_apply, value_eq, and_mask, same]
    | false => simp [Call.bind_apply, compareExchange_apply valid value_eq, same]
  · simp [Call.bind_apply, compareExchange_apply valid value_eq, value_eq, and_mask,
      widen_inj before.width.bits_le, same]

/-- The exchanges: their orderings are validated before the cell is read. -/
theorem step_exchange {request : Request} {call : Call AtomicCell AtomicError CompareExchange}
    {success failure : AtomicOrdering} {condition : Prop} [Decidable condition]
    {next : BitVec before.width.bits}
    (performs : perform request = (do return .exchange (← call)))
    (admits_eq : admits request = validateCompareExchange success failure)
    (refuses : ∀ reason, validateCompareExchange success failure = .err reason →
      call before = (.err reason, before))
    (ends : validateCompareExchange success failure = .ok () → call before =
      if condition then (.ok ⟨widen held, true⟩, before.written next)
      else (.ok ⟨widen held, false⟩, before))
    (answered : answer _ held request =
      if condition then (.exchange ⟨widen held, true⟩, some next)
      else (.exchange ⟨widen held, false⟩, none)) :
    Step before held request (perform request before).1 (perform request before).2 := by
  rw [performs, Call.bind_apply]
  cases valid : validateCompareExchange success failure with
  | ok =>
      rw [ends valid]
      by_cases exchanged : condition
      · rw [if_pos exchanged] at answered ⊢
        exact .wrote (admits_eq.trans valid) answered
      · rw [if_neg exchanged] at answered ⊢
        exact .kept (admits_eq.trans valid) answered
  | err reason =>
      rw [refuses reason valid]
      exact .refused (admits_eq.trans valid)
  | overflow => exact absurd valid (validateCompareExchange_ne_overflow success failure)

/-- Every call is one of the steps. -/
theorem step_perform (request : Request) (value_eq : before.value = widen held) :
    Step before held request (perform request before).1 (perform request before).2 := by
  have le := before.width.bits_le
  have cut := narrow_widen le held
  cases request with
  | load ordering =>
      show Call.Ensures (perform _) (Step before held _) before
      simp only [perform, load]
      simp
      refine ⟨fun first second => ?_, fun illegal => .refused ?_⟩
      · rw [value_eq]
        exact .kept (by simp [admits, first, second]) rfl
      · simpa [admits] using illegal
  | store value ordering =>
      show Call.Ensures (perform _) (Step before held _) before
      simp only [perform, store]
      simp
      refine ⟨fun first second => ?_, fun illegal => .refused ?_⟩
      · rw [Call.ensures_bind_ok (write_apply value)]
        exact .wrote (by simp [admits, first, second]) rfl
      · simpa [admits] using illegal
  | compareExchange current new success failure =>
      refine step_exchange rfl rfl (fun reason refused => ?_)
        (fun valid => compareExchange_apply valid value_eq) rfl
      simp [compareExchange, refused]
  | compareExchangeWeak current new success failure spuriousFailure =>
      refine step_exchange rfl rfl (fun reason refused => ?_)
        (fun valid => compareExchangeWeak_apply valid value_eq) rfl
      simp [compareExchangeWeak, refused]
  | swap value ordering => exact step_update rfl rfl rfl value_eq rfl
  | fetchAdd value ordering =>
      exact step_update rfl rfl rfl value_eq (by rw [value_eq, narrow_add le, cut])
  | fetchSub value ordering =>
      exact step_update rfl rfl rfl value_eq (by rw [value_eq, narrow_sub le, cut])
  | fetchAnd value ordering =>
      exact step_update rfl rfl rfl value_eq (by rw [value_eq, narrow_and, cut])
  | fetchOr value ordering =>
      exact step_update rfl rfl rfl value_eq (by rw [value_eq, narrow_or, cut])
  | fetchXor value ordering =>
      exact step_update rfl rfl rfl value_eq (by rw [value_eq, narrow_xor, cut])

end Step

/-- A cell of the given width that holds the given bits. -/
def Represents (width : AtomicWidth) (cell : AtomicCell) (held : BitVec width.bits) : Prop :=
  cell.width = width ∧ cell.value = widen held

theorem reference_apply {width : ℕ} {held : BitVec width} {request : Request}
    (admitted : admits request = .ok ()) :
    reference width request held =
      (.ok (answer width held request).1, (answer width held request).2.getD held) := by
  rw [reference, admitted]
  rfl

theorem reference_refuses {width : ℕ} {held : BitVec width} {request : Request}
    {reason : AtomicError} (refused : admits request = .err reason) :
    reference width request held = (.err reason, held) := by
  rw [reference, refused]
  rfl

theorem simulates {width : AtomicWidth} (request : Request) (cell : AtomicCell)
    (held : BitVec width.bits) (represents : Represents width cell held) :
    (perform request cell).1 = (reference width.bits request held).1 ∧
      Represents width (perform request cell).2 (reference width.bits request held).2 := by
  obtain ⟨rfl, value_eq⟩ := represents
  have step := step_perform request value_eq
  generalize (perform request cell).1 = outcome at step ⊢
  generalize (perform request cell).2 = after at step ⊢
  cases step with
  | refused refused =>
      rw [reference_refuses refused]
      exact ⟨rfl, rfl, value_eq⟩
  | kept admitted answered =>
      rw [reference_apply admitted, answered]
      exact ⟨rfl, rfl, value_eq⟩
  | wrote admitted answered =>
      rw [reference_apply admitted, answered]
      exact ⟨rfl, rfl, rfl⟩

abbrev CellEvent : Type := Rust.Event AtomicCell Request AtomicError Reply

/-- Whether a call has written the cell: it has unless it was refused, only loads, or is an exchange
that reports a failure. -/
def wrote (occurred : CellEvent) : Bool :=
  match occurred.outcome with
  | .ok (.exchange result) => result.exchanged
  | .ok .done => true
  | .ok (.value _) => !occurred.input.isLoad
  | _ => false

/-- What a call does to the cell, by whether it has written. -/
inductive Effect (occurred : CellEvent) : Prop
  | inert (silent : wrote occurred = false) (same : occurred.after = occurred.before)
  | counted (written : wrote occurred = true) (order_eq : occurred.after.modificationOrder =
      occurred.before.modificationOrder + 1)

theorem wrote_of_answer {before after : AtomicCell} {request : Request}
    {held : BitVec before.width.bits} {reply : Reply} {next : Option (BitVec before.width.bits)}
    (answered : answer _ held request = (reply, next)) :
    wrote ⟨before, request, .ok reply, after⟩ = next.isSome := by
  cases request with
  | compareExchange current new success failure =>
      rw [answer] at answered
      split at answered <;> cases answered <;> rfl
  | compareExchangeWeak current new success failure spuriousFailure =>
      rw [answer] at answered
      split at answered <;> cases answered <;> rfl
  | load | store | swap | fetchAdd | fetchSub | fetchAnd | fetchOr | fetchXor =>
      cases answered
      rfl

theorem effect {before : AtomicCell} {held : BitVec before.width.bits} (request : Request)
    (value_eq : before.value = widen held) : Effect (event perform before request) := by
  have step := step_perform request value_eq
  rw [event]
  generalize (perform request before).1 = outcome at step ⊢
  generalize (perform request before).2 = after at step ⊢
  cases step with
  | refused => exact .inert rfl rfl
  | kept admitted answered => exact .inert (wrote_of_answer answered) rfl
  | wrote admitted answered => exact .counted (wrote_of_answer answered) rfl

/-- A cell is the machine of its width: its calls return what the reference returns, it stays within
its width, only writes change it, and its order of modifications counts them. -/
structure Machine (width : AtomicWidth) (initial : UInt64) (cell : AtomicCell)
    (requests : List Request) : Prop where
  outcomes : (history perform cell requests).map (·.outcome) =
    (history (reference width.bits) (narrow width.bits initial) requests).map (·.outcome)
  bounded : (final perform cell requests).value.toNat < 2 ^ width.bits
  inert : ∀ occurred ∈ history perform cell requests, wrote occurred = false →
    occurred.after = occurred.before
  order : (final perform cell requests).modificationOrder.toNat =
    (history perform cell requests).countP wrote % 2 ^ 64

theorem represents_run {width : AtomicWidth} {initial : UInt64} {cell : AtomicCell}
    (represents : Represents width cell (narrow width.bits initial)) (requests : List Request) :
    Represents width (final perform cell requests)
      (final (reference width.bits) (narrow width.bits initial) requests) :=
  (outcomes_eq_of_simulation perform simulates represents requests).2

theorem effect_of_mem {width : AtomicWidth} {initial : UInt64} {cell : AtomicCell}
    (represents : Represents width cell (narrow width.bits initial)) {requests : List Request}
    {occurred : CellEvent} (member : occurred ∈ history perform cell requests) :
    Effect occurred := by
  obtain ⟨earlier, later, _, occurred_eq⟩ := exists_split_of_mem_history perform member
  obtain ⟨rfl, value_eq⟩ := represents_run represents earlier
  rw [occurred_eq]
  exact effect occurred.input value_eq

theorem order_run {width : AtomicWidth} {initial : UInt64} {cell : AtomicCell}
    (represents : Represents width cell (narrow width.bits initial))
    (fresh : cell.modificationOrder = 0) (requests : List Request) :
    (final perform cell requests).modificationOrder.toNat =
      (history perform cell requests).countP wrote % 2 ^ 64 := by
  refine run_induction_reached perform (motive := fun past state =>
    state.modificationOrder.toNat = past.countP wrote % 2 ^ 64) (by rw [fresh]; rfl) ?_ requests
  intro earlier request order_eq
  obtain ⟨rfl, value_eq⟩ := represents_run represents earlier
  rw [List.countP_append, List.countP_singleton]
  cases effect request value_eq with
  | inert silent same =>
      rw [same, silent]
      exact order_eq
  | counted written next_eq =>
      rw [next_eq, written, UInt64.toNat_add]
      show ((final perform cell earlier).modificationOrder.toNat + 1) % 2 ^ 64 = _
      rw [order_eq, Nat.mod_add_mod]
      rfl

theorem create_spec {backing : Capability} {width : AtomicWidth} {address initial : UInt64}
    {cell : AtomicCell} (created : create backing width address initial = .ok cell) :
    Represents width cell (narrow width.bits initial) ∧ cell.modificationOrder = 0 := by
  simp [create] at created
  obtain ⟨_, _, _, _, rfl⟩ := created
  exact ⟨⟨rfl, and_mask_eq width.bits_le width.mask_low initial⟩, rfl⟩

/-- A created cell is the machine of its width. -/
theorem machine_of_create {backing : Capability} {width : AtomicWidth} {address initial : UInt64}
    {cell : AtomicCell} (created : create backing width address initial = .ok cell)
    (requests : List Request) : Machine width initial cell requests := by
  obtain ⟨represents, fresh⟩ := create_spec created
  refine ⟨(outcomes_eq_of_simulation perform simulates represents requests).1, ?_, ?_,
    order_run represents fresh requests⟩
  · rw [(represents_run represents requests).2, widen_toNat width.bits_le]
    exact BitVec.isLt _
  · intro occurred member silent
    cases effect_of_mem represents member with
    | inert _ same => exact same
    | counted written => exact absurd (silent.symm.trans written) Bool.false_ne_true

theorem machine_of_create_bool :
    Machine .bool 3 ⟨.bool, 0x1001, 1, 0⟩
      [.fetchSub 2 .relaxed, .fetchAdd 5 .seqCst, .compareExchange 6 9 .acqRel .seqCst,
        .compareExchangeWeak 6 9 .seqCst .acquire true] := by
  have created : create ⟨.cpuLocal, 1, 0, Rights.read.union Rights.write, 1, 0x1000, 0x1000⟩ .bool
      0x1001 3 = .ok ⟨.bool, 0x1001, 1, 0⟩ := by decide
  exact machine_of_create created _

end AtomicCell

end Bulla.Kernel
