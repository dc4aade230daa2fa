import Bulla.Kernel.Capability
import Bulla.Rust.History

/-!
# Isolation of slots

Every call on a ledger names one kind and slot, reads the record there and writes at most this
record.  Calls on other keys make no difference to its result.
-/

namespace Bulla.Kernel.CapabilityLedger

open Rust Outcome

/-- One call of the ledger's interface, `validate` included. -/
inductive Query where
  | change (request : Request)
  | validate (handle : Capability) (owner : OwnerId) (required : Rights) (base len : UInt64)
  deriving DecidableEq, Repr

/-- The kind and slot that a request names. -/
def Request.key : Request → CapabilityKind × UInt32
  | .mintRoot kind slot _ _ _ _ => (kind, slot)
  | .transfer handle _ _ => (handle.kind, handle.slot)
  | .release handle => (handle.kind, handle.slot)

def Query.key : Query → CapabilityKind × UInt32
  | .change request => request.key
  | .validate handle _ _ _ _ => (handle.kind, handle.slot)

def answer : Query → Call CapabilityLedger CapabilityError (Option Capability)
  | .change request => perform request
  | .validate handle owner required base len => do
      (← get).validate handle owner required base len
      return none

/-- The results of the calls of a run that name a key. -/
def resultsAt (key : CapabilityKind × UInt32) (ledger : CapabilityLedger) (queries : List Query) :
    List (Outcome CapabilityError (Option Capability)) :=
  ((history answer ledger queries).filter fun occurred => occurred.input.key = key).map (·.outcome)

/-- Ledgers with the same record at a key. -/
def AgreeAt (key : CapabilityKind × UInt32) (left right : CapabilityLedger) : Prop :=
  left.records[key]? = right.records[key]?

section Step

variable {key : CapabilityKind × UInt32} {left right : CapabilityLedger}

theorem AgreeAt.insert (record : Record) :
    AgreeAt key ⟨left.records.insert key record⟩ ⟨right.records.insert key record⟩ := by
  simp [AgreeAt]

/-- A call that names the key cannot tell the ledgers apart. -/
theorem AgreeAt.coupled {query : Query} (names : query.key = key) (agree : AgreeAt key left right) :
    Call.Coupled (AgreeAt key) (answer query) (answer query) left right := by
  have found : left.records[key]? = right.records[key]? := agree
  subst names
  rcases query with (⟨kind, slot, owner, rights, base, len⟩ | ⟨handle, newOwner, newRights⟩ |
    ⟨handle⟩) | ⟨handle, owner, required, base, len⟩
  · simp only [Query.key, Request.key] at agree found ⊢
    have known : (kind, slot) ∈ left.records ↔ (kind, slot) ∈ right.records := by
      rw [Std.ExtTreeMap.mem_iff_isSome_getElem?, Std.ExtTreeMap.mem_iff_isSome_getElem?, found]
    simp only [answer, perform, mintRoot]
    simp [agree, known, AgreeAt.insert]
  · simp only [Query.key, Request.key] at agree found ⊢
    simp only [answer, perform, transfer]
    simp [agree, found, AgreeAt.insert]
  · simp only [Query.key, Request.key] at agree found ⊢
    simp only [answer, perform, release]
    simp [agree, found, AgreeAt.insert]
  · simp only [Query.key] at agree found ⊢
    simp only [answer, validate]
    simp [agree, found]

/-- A call that names another key does not change the record. -/
theorem AgreeAt.unnoticed {query : Query} (names : query.key ≠ key)
    (agree : AgreeAt key left right) : AgreeAt key (answer query left).2 right := by
  refine Eq.trans ?_ agree
  cases query with
  | change request =>
      have step := step_perform left request
      simp only [answer]
      generalize (perform request left).1 = outcome at step
      generalize (perform request left).2 = after at step ⊢
      cases step with
      | rejected => rfl
      | minted => exact BTreeMap.getElem?_insert_of_ne _ _ names
      | transferred => exact BTreeMap.getElem?_insert_of_ne _ _ names
      | released => exact BTreeMap.getElem?_insert_of_ne _ _ names
  | validate handle owner required base len =>
      show Call.Ensures (answer (.validate handle owner required base len))
        (fun _ after => after.records[key]? = left.records[key]?) left
      simp [answer]

end Step

/-- The results of the calls that name a key are those of the same calls alone, so that two runs
with the same calls on every key give the same results, however the keys are interleaved. -/
theorem results_isolated (ledger : CapabilityLedger) :
    (∀ queries key, resultsAt key ledger queries =
      (history answer ledger (queries.filter fun query => query.key = key)).map (·.outcome)) ∧
      ∀ queries reordered : List Query,
        (∀ key, queries.filter (fun query => query.key = key) =
          reordered.filter fun query => query.key = key) →
        ∀ key, resultsAt key ledger queries = resultsAt key ledger reordered := by
  have alone (queries : List Query) (key : CapabilityKind × UInt32) :
      resultsAt key ledger queries =
        (history answer ledger (queries.filter fun query => query.key = key)).map (·.outcome) := by
    have start : AgreeAt key ledger ledger := rfl
    refine outcomes_filter answer (fun query => decide (query.key = key)) start ?_ ?_ queries
    · exact fun query left right names agree => agree.coupled (of_decide_eq_true names)
    · exact fun query left right names agree => agree.unnoticed (of_decide_eq_false names)
  refine ⟨alone, fun queries reordered same key => ?_⟩
  rw [alone, alone, same key]

end Bulla.Kernel.CapabilityLedger
