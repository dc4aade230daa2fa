import Bulla.Kernel.CapabilityChain

/-!
# The right to transfer

`transfer` compares the new rights with the recorded ones and asks for no right of its own.  Rights
only shrink along a chain, so `TRANSFER` governs delegation exactly in the runs that pass no handle
without it to a `transfer` that goes through.
-/

namespace Bulla.Kernel.CapabilityLedger

open Rust Outcome

/-- The record of a slot keeps an owner and rights. -/
def Holds (key : CapabilityKind × UInt32) (owner : OwnerId) (rights : Rights)
    (self : CapabilityLedger) : Prop :=
  ∃ record, self.records[key]? = some record ∧ record.owner = owner ∧ record.rights = rights

/-- What it means that `TRANSFER` governs delegation in a run. -/
structure TransferGoverned (requests : List Request) : Prop where
  /-- A transfer succeeds only for a handle that holds the right. -/
  required : ∀ occurred ∈ history perform new requests, ∀ handle newOwner newRights reply,
    occurred.input = .transfer handle newOwner newRights → occurred.outcome = .ok reply →
      handle.rights.contains Rights.transfer = true
  /-- A slot that has lost the right keeps its owner and its rights. -/
  settled : ∀ earlier between later, requests = earlier ++ between ++ later → ∀ key owner rights,
    Holds key owner rights (final perform new earlier) → rights.contains Rights.transfer = false →
      Holds key owner rights (final perform new (earlier ++ between))

/-- A transfer that the ledger lets through is asked for with a handle that holds the right. -/
def Delegable (before : CapabilityLedger) : Request → Prop
  | .transfer handle _ newRights =>
      ∀ record, before.Current handle record → record.rights.contains newRights = true →
        record.generation.toNat + 1 < 2 ^ 64 → handle.rights.contains Rights.transfer = true
  | _ => True

/-- The checks of `transfer` are all there is to it. -/
theorem exists_transfer {before : CapabilityLedger} {handle : Capability} {newOwner : OwnerId}
    {newRights : Rights} {record : Record} (current : before.Current handle record)
    (narrowed : record.rights.contains newRights = true)
    (room : record.generation.toNat + 1 < 2 ^ 64) :
    ∃ reply, (perform (.transfer handle newOwner newRights) before).1 = .ok reply := by
  obtain ⟨present, live, handle_eq⟩ := current
  show Call.Ensures (perform (.transfer handle newOwner newRights))
    (fun outcome _ => ∃ reply, outcome = .ok reply) before
  have valid : validateRecord record handle = .ok () := validateRecord_eq_ok.mpr ⟨live, handle_eq⟩
  simp only [perform, transfer]
  simp [present, valid, narrowed]
  omega

/-- A slot without the right is left alone by every delegable call. -/
theorem holds_step {key : CapabilityKind × UInt32} {owner : OwnerId} {rights : Rights}
    {before after : CapabilityLedger} {request : Request}
    {outcome : Outcome CapabilityError (Option Capability)}
    (holds : Holds key owner rights before) (lacking : rights.contains Rights.transfer = false)
    (delegable : Delegable before request) (step : Step before request outcome after) :
    Holds key owner rights after := by
  obtain ⟨record, present, rfl, rfl⟩ := holds
  cases step with
  | rejected => exact ⟨record, present, rfl, rfl⟩
  | @minted kind slot owner rights base len absent known fits =>
      have distinct : (kind, slot) ≠ key := by
        rintro rfl
        rw [absent] at present
        cases present
      exact ⟨record, (BTreeMap.getElem?_insert_of_ne _ _ distinct).trans present, rfl, rfl⟩
  | @transferred handle newOwner newRights found generation current narrowed advanced =>
      have distinct : (handle.kind, handle.slot) ≠ key := by
        rintro rfl
        obtain rfl : found = record := Option.some.inj (current.1.symm.trans present)
        -- A handle that is let through carries the rights of the record.
        have held := delegable found current narrowed (advanced ▸ UInt64.toNat_lt generation)
        rw [show handle.rights = found.rights by rw [current.2.2]; rfl, lacking] at held
        cases held
      exact ⟨record, (BTreeMap.getElem?_insert_of_ne _ _ distinct).trans present, rfl, rfl⟩
  | @released handle found generation current advanced =>
      by_cases same : (handle.kind, handle.slot) = key
      · subst same
        obtain rfl : found = record := Option.some.inj (current.1.symm.trans present)
        exact ⟨{ found with generation, live := false }, Std.ExtTreeMap.getElem?_insert_self,
          rfl, rfl⟩
      · exact ⟨record, (BTreeMap.getElem?_insert_of_ne _ _ same).trans present, rfl, rfl⟩

/-- The right to transfer governs delegation in exactly the runs all of whose calls are
delegable. -/
theorem transfer_governed_iff (requests : List Request) :
    TransferGoverned requests ↔
      ∀ occurred ∈ history perform new requests, Delegable occurred.before occurred.input := by
  constructor
  · intro governed occurred member
    rcases input_eq : occurred.input with _ | ⟨handle, newOwner, newRights⟩ | _
    · trivial
    · intro record current narrowed room
      obtain ⟨reply, returned⟩ : ∃ reply, occurred.outcome = .ok reply := by
        rw [event_of_mem_history perform member, input_eq]
        exact exists_transfer current narrowed room
      exact governed.required occurred member handle newOwner newRights reply input_eq returned
    · trivial
  · intro delegable
    have steps {occurred : LedgerEvent} (member : occurred ∈ history perform new requests) :
        Step occurred.before occurred.input occurred.outcome occurred.after :=
      step_of_mem_history perform (fun request before => step_perform before request) member
    constructor
    · intro occurred member handle newOwner newRights reply input_eq returned
      have step := steps member
      have allowed := delegable occurred member
      rw [input_eq, returned] at step
      rw [input_eq] at allowed
      generalize occurred.after = after at step
      cases step with
      | transferred current narrowed advanced =>
          exact allowed _ current narrowed (advanced ▸ UInt64.toNat_lt _)
    · rintro earlier between later rfl key owner rights holds lacking
      rw [final_append]
      refine final_of_events perform (motive := Holds key owner rights) holds ?_
      intro occurred member holds
      have member : occurred ∈ history perform new (earlier ++ between ++ later) := by
        rw [history_append]
        exact List.mem_append_left _ (mem_history_of_later perform member)
      exact holds_step holds lacking (delegable occurred member) (steps member)

/-- A handle without the right is transferred, and its slot changes hands. -/
theorem transferred_without_right :
    (history perform new [.mintRoot .frame 1 10 Rights.read 0 4096,
        .transfer ⟨.frame, 1, 10, Rights.read, 0, 0, 4096⟩ 20 Rights.read]).map Event.outcome =
      [.ok (some ⟨.frame, 1, 10, Rights.read, 0, 0, 4096⟩),
        .ok (some ⟨.frame, 1, 20, Rights.read, 1, 0, 4096⟩)] ∧
      Rights.read.contains Rights.transfer = false := by
  decide

end Bulla.Kernel.CapabilityLedger
