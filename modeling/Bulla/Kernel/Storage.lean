import Bulla.Rust.FixedArray
import Bulla.Rust.History

/-!
# Storage without allocation

The containers that are used before there is a heap.  Their capacity is part of their type, and
their values lie in an array whose slots past the length keep whatever was stored there last.
-/

namespace Bulla.Kernel

open Rust Outcome

inductive StorageError where
  | outOfBounds
  | full
  | empty
  | duplicateKey
  | missingKey
  deriving DecidableEq, Repr

/-- The comparison is the derived one: it looks at every slot. -/
structure FixedVec (T : Type) (N : UInt64) where
  values : FixedArray T N
  len : UInt64
  deriving BEq

namespace FixedVec

variable {T : Type} {N : UInt64}

def new [Inhabited T] : FixedVec T N := ⟨Vector.replicate N.toNat default, 0⟩

protected def get (self : FixedVec T N) (index : UInt64) : Outcome StorageError T := do
  rejectIf (self.len ≤ index) StorageError.outOfBounds
  unchecked (self.values.load index)

protected def set (index : UInt64) (value : T) : Call (FixedVec T N) StorageError Unit := do
  rejectIf ((← get).len ≤ index) StorageError.outOfBounds
  let values ← Call.unchecked ((← get).values.store index value)
  modify fun self => { self with values }

def push (value : T) : Call (FixedVec T N) StorageError Unit := do
  rejectIf ((← get).len = N) StorageError.full
  let values ← Call.unchecked ((← get).values.store (← get).len value)
  modify fun self => { self with values }
  let len ← Call.unchecked (checkedAdd (← get).len 1)
  modify fun self => { self with len }

/-- The slot of the value is left as it is. -/
def pop : Call (FixedVec T N) StorageError T := do
  rejectIf ((← get).len = 0) StorageError.empty
  let len ← Call.unchecked (checkedSub (← get).len 1)
  modify fun self => { self with len }
  let value ← Call.unchecked ((← get).values.load (← get).len)
  return value

def asSlice (self : FixedVec T N) : Outcome StorageError (List T) :=
  unchecked (if self.len ≤ N then some (self.values.toList.take self.len.toNat) else none)

/-- `self.as_mut_slice()[index] = value`. -/
def asMutSlice (index : UInt64) (value : T) : Call (FixedVec T N) StorageError Unit := do
  let slice ← (← get).asSlice
  let _ ← Call.unchecked slice[index.toNat]?
  let values ← Call.unchecked ((← get).values.store index value)
  modify fun self => { self with values }

/-- One call of the interface. -/
inductive Request (T : Type) where
  | get (index : UInt64)
  | set (index : UInt64) (value : T)
  | push (value : T)
  | pop
  | asMutSlice (index : UInt64) (value : T)
  deriving DecidableEq, Repr

/-- What a successful call returns. -/
inductive Reply (T : Type) where
  | done
  | value (value : T)
  deriving DecidableEq, Repr

def perform : Request T → Call (FixedVec T N) StorageError (Reply T)
  | .get index => return .value (← (← get).get index)
  | .set index value => do
      FixedVec.set index value
      return .done
  | .push value => do
      push value
      return .done
  | .pop => return .value (← pop)
  | .asMutSlice index value => do
      asMutSlice index value
      return .done

/-- The effect of each way a call can end. -/
inductive Step (before : FixedVec T N) :
    Request T → Outcome StorageError (Reply T) → FixedVec T N → Prop
  | refused {request : Request T} {reason : StorageError} : Step before request (.err reason) before
  | got {index : UInt64} {value : T} (loaded : before.values.load index = some value) :
      Step before (.get index) (.ok (.value value)) before
  | replaced {index : UInt64} {value : T} {values : FixedArray T N}
      (stored : before.values.store index value = some values) :
      Step before (.set index value) (.ok .done) { before with values }
  | pushed {value : T} {len : UInt64} {values : FixedArray T N} (room : before.len.toNat < N.toNat)
      (stored : before.values.store before.len value = some values)
      (len_eq : len.toNat = before.len.toNat + 1) :
      Step before (.push value) (.ok .done) { before with values, len }
  | popped {value : T} {len : UInt64} (len_eq : before.len.toNat = len.toNat + 1)
      (loaded : before.values.load len = some value) :
      Step before .pop (.ok (.value value)) { before with len }
  | written {index : UInt64} {value : T} {values : FixedArray T N}
      (stored : before.values.store index value = some values) :
      Step before (.asMutSlice index value) (.ok .done) { before with values }
  | panicked {index : UInt64} {value : T} : Step before (.asMutSlice index value) .overflow before

theorem asSlice_eq {self : FixedVec T N} (len_le : self.len.toNat ≤ N.toNat) :
    self.asSlice = .ok (self.values.toList.take self.len.toNat) := by
  rw [asSlice, if_pos (UInt64.le_iff_toNat_le.mpr len_le)]
  rfl

/-- Every call is one of the steps. -/
theorem step_perform (request : Request T) {before : FixedVec T N}
    (len_le : before.len.toNat ≤ N.toNat) :
    Step before request (perform request before).1 (perform request before).2 := by
  show Call.Ensures (perform request) (Step before request) before
  have capacity_lt := N.toNat_lt
  cases request with
  | get index =>
      simp only [perform, FixedVec.get]
      simp [Step.refused, UInt64.le_iff_toNat_le]
      refine ⟨fun value _ loaded => .got loaded, fun within outside => ?_⟩
      rw [FixedArray.load_eq_none] at outside
      omega
  | set index value =>
      simp only [perform, FixedVec.set]
      simp [Step.refused, UInt64.lt_iff_toNat_lt]
      refine fun within => ⟨fun values stored => .replaced stored, fun outside => ?_⟩
      rw [FixedArray.store_eq_none] at outside
      omega
  | push value =>
      have full_iff : before.len = N ↔ before.len.toNat = N.toNat := UInt64.toNat_inj.symm
      simp only [perform, push]
      simp [Step.refused, full_iff]
      refine fun room => ⟨fun values stored => ⟨fun len len_eq => ?_, ?_⟩, fun outside => ?_⟩
      · exact .pushed (by omega) stored len_eq
      · intro last
        omega
      · rw [FixedArray.store_eq_none] at outside
        omega
  | pop =>
      simp only [perform, pop]
      simp [Step.refused]
      refine fun held => ⟨fun len len_eq => ⟨fun value loaded => .popped len_eq loaded, ?_⟩, ?_⟩
      · intro outside
        rw [FixedArray.load_eq_none] at outside
        omega
      · exact fun empty => (held (UInt64.toNat_inj.mp empty)).elim
  | asMutSlice index value =>
      simp only [perform, asMutSlice]
      simp [asSlice_eq len_le, Step.panicked]
      exact fun _ _ values stored => .written stored

theorem len_le_step {before after : FixedVec T N} {request : Request T}
    {outcome : Outcome StorageError (Reply T)} (len_le : before.len.toNat ≤ N.toNat)
    (step : Step before request outcome after) : after.len.toNat ≤ N.toNat := by
  cases step with
  | refused | got | replaced | written | panicked => exact len_le
  | pushed room stored len_eq => exact len_eq ▸ room
  | popped len_eq => exact Nat.le_of_succ_le (len_eq.ge.trans len_le)

end FixedVec

end Bulla.Kernel
