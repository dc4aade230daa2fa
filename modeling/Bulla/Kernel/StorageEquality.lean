import Bulla.Kernel.RingBuffer

/-!
# Comparing containers

The comparison of containers is derived from their fields, so it also sees what cannot be observed:
the slots that hold no value, which keep what was stored in them last, and where a ring has its
head.  Containers with the same contents are equal exactly when these traces of their histories
agree too.
-/

namespace Bulla.Kernel

open Rust Outcome

namespace FixedVec

variable {T : Type} {N : UInt64}

abbrev VecEvent (T : Type) (N : UInt64) : Type :=
  Rust.Event (FixedVec T N) (Request T) StorageError (Reply T)

/-- The value that a call has stored in a slot. -/
def storedAt (slot : ℕ) (occurred : VecEvent T N) : Option T :=
  match occurred.input, occurred.outcome with
  | .push value, .ok _ => if occurred.before.len.toNat = slot then some value else none
  | .set index value, .ok _ => if index.toNat = slot then some value else none
  | .asMutSlice index value, .ok _ => if index.toNat = slot then some value else none
  | _, _ => none

/-- The slices compare equal. -/
def SameSlice [BEq T] (left right : FixedVec T N) : Prop :=
  ∃ first second, left.asSlice = .ok first ∧ right.asSlice = .ok second ∧ (first == second) = true

variable [Inhabited T]

def lastStored (slot : ℕ) (past : List (VecEvent T N)) : T :=
  (latest (storedAt slot) past).getD default

/-- Behind the values the same was stored last. -/
def SameBehind [BEq T] (len : UInt64) (left right : List (VecEvent T N)) : Prop :=
  ∀ slot, len.toNat ≤ slot → slot < N.toNat → (lastStored slot left == lastStored slot right) = true

/-- The vector that a list of calls makes. -/
abbrev made (N : UInt64) (requests : List (Request T)) : FixedVec T N := final perform new requests

/-- The history of the vector that a list of calls makes. -/
abbrev past (N : UInt64) (requests : List (Request T)) : List (VecEvent T N) :=
  history perform new requests

theorem remembers_run (N : UInt64) (requests : List (Request T)) :
    (made N requests).len.toNat ≤ N.toNat ∧
      FixedArray.Remembers default storedAt (past N requests) (made N requests).values := by
  refine run_induction perform (motive := fun past state =>
    state.len.toNat ≤ N.toNat ∧ FixedArray.Remembers default storedAt past state.values)
    ⟨Nat.zero_le _, FixedArray.remembers_replicate⟩ ?_ requests
  rintro past state request ⟨len_le, remembers⟩
  have step := step_perform request len_le
  refine ⟨len_le_step len_le step, ?_⟩
  rw [event]
  generalize (perform request state).1 = outcome at step ⊢
  generalize (perform request state).2 = after at step ⊢
  cases step with
  | refused => exact remembers.silent fun slot => by cases request <;> rfl
  | got => exact remembers.silent fun _ => rfl
  | popped => exact remembers.silent fun _ => rfl
  | panicked => exact remembers.silent fun _ => rfl
  | replaced stored => exact remembers.store stored fun _ => rfl
  | pushed room stored len_eq => exact remembers.store stored fun _ => rfl
  | written stored => exact remembers.store stored fun _ => rfl

theorem beq_iff_sameBehind [BEq T] {left right : FixedVec T N} {past other : List (VecEvent T N)}
    (left_le : left.len.toNat ≤ N.toNat) (right_le : right.len.toNat ≤ N.toNat)
    (remembers : FixedArray.Remembers default storedAt past left.values)
    (other_remembers : FixedArray.Remembers default storedAt other right.values)
    (same : SameSlice left right) : (left == right) = true ↔ SameBehind left.len past other := by
  obtain ⟨first, second, first_eq, second_eq, equal⟩ := same
  rw [asSlice_eq left_le, Outcome.ok.injEq] at first_eq
  rw [asSlice_eq right_le, Outcome.ok.injEq] at second_eq
  subst first_eq second_eq
  obtain ⟨lengths, entries⟩ := FixedArray.slice_beq_iff.mp equal
  have len_eq : left.len = right.len := by
    simp at lengths
    rw [← UInt64.toNat_inj]
    omega
  show (left.values == right.values && left.len == right.len) = true ↔ _
  rw [Bool.and_eq_true, and_iff_left (beq_iff_eq.mpr len_eq), remembers.beq_iff other_remembers]
  constructor
  · exact fun every slot _ within => every slot within
  · intro behind slot within
    rcases Nat.lt_or_ge slot left.len.toNat with held | free
    · refine entries slot _ _ ?_ ?_
      · rw [List.getElem?_take_of_lt held, Vector.getElem?_toList, remembers slot within]
      · rw [List.getElem?_take_of_lt (len_eq ▸ held), Vector.getElem?_toList,
          other_remembers slot within]
    · exact behind slot free within

end FixedVec

namespace RingBuffer

variable {T : Type} {N : UInt64}

/-- The value that a call has stored in a slot. -/
def storedAt (slot : ℕ) (occurred : RingEvent T N) : Option T :=
  match occurred.input, occurred.outcome with
  | .push value, .ok _ =>
      if (occurred.before.head.toNat + occurred.before.len.toNat) % N.toNat = slot then some value
      else none
  | _, _ => none

/-- How many values a history has popped. -/
def pops (past : List (RingEvent T N)) : ℕ := (past.filterMap popped).length

/-- The values that a number of pops return. -/
def yields (ring : RingBuffer T N) (count : ℕ) : List T :=
  (history perform ring (List.replicate count .pop)).filterMap popped

/-- However often they are popped, the values that are returned compare equal. -/
def SameYield [BEq T] (left right : RingBuffer T N) : Prop :=
  ∀ count, (left.yields count == right.yields count) = true

variable [Inhabited T]

def lastStored (slot : ℕ) (past : List (RingEvent T N)) : T :=
  (latest (storedAt slot) past).getD default

/-- The heads agree, and behind the values the same was stored last. -/
def SameBehind [BEq T] (len : UInt64) (left right : List (RingEvent T N)) : Prop :=
  pops left % N.toNat = pops right % N.toNat ∧
    ∀ offset, len.toNat ≤ offset → offset < N.toNat →
      (lastStored ((pops left + offset) % N.toNat) left ==
        lastStored ((pops left + offset) % N.toNat) right) = true

/-- The ring that a list of calls makes. -/
abbrev made (N : UInt64) (requests : List (Request T)) : RingBuffer T N :=
  final perform new requests

/-- The history of the ring that a list of calls makes. -/
abbrev past (N : UInt64) (requests : List (Request T)) : List (RingEvent T N) :=
  history perform new requests

theorem remembers_run (N : UInt64) (requests : List (Request T)) :
    Within (made N requests) ∧ (made N requests).head.toNat = pops (past N requests) % N.toNat ∧
      FixedArray.Remembers default storedAt (past N requests) (made N requests).values := by
  refine run_induction perform (motive := fun past state =>
    Within state ∧ state.head.toNat = pops past % N.toNat ∧
      FixedArray.Remembers default storedAt past state.values)
    ⟨within_new, (Nat.zero_mod _).symm, FixedArray.remembers_replicate⟩ ?_ requests
  rintro past state request ⟨within, head_eq, remembers⟩
  have step := step_perform request within
  refine ⟨within.step step, ?_⟩
  rw [event, pops, filterMap_snoc, List.length_append]
  generalize (perform request state).1 = outcome at step ⊢
  generalize (perform request state).2 = after at step ⊢
  cases step with
  | full => exact ⟨head_eq, remembers.silent fun _ => rfl⟩
  | jammed => exact ⟨head_eq, remembers.silent fun _ => rfl⟩
  | empty => exact ⟨head_eq, remembers.silent fun _ => rfl⟩
  | pushed room tail_eq stored =>
      refine ⟨head_eq, remembers.store stored fun slot => ?_⟩
      rw [tail_eq]
      rfl
  | @popped value head len loaded next_eq =>
      refine ⟨?_, remembers.silent fun _ => rfl⟩
      show head.toNat = (pops past + 1) % N.toNat
      rw [next_eq, head_eq, Nat.mod_add_mod]

/-- Popping takes the values from the front. -/
theorem yields_eq_take {ring : RingBuffer T N} (within : Within ring) (count : ℕ) :
    ring.yields count = ring.contents.take count := by
  induction count generalizing ring with
  | zero => rfl
  | succ count induction =>
      have step := step_perform .pop within
      have next_within := within.step step
      have yields_succ : ring.yields (count + 1) =
          (popped (event perform ring .pop)).toList ++ (perform .pop ring).2.yields count := by
        rw [yields, List.replicate_succ, history, List.filterMap_cons]
        cases popped (event perform ring .pop) <;> rfl
      rw [yields_succ, induction next_within, event]
      generalize (perform .pop ring).1 = outcome at step ⊢
      generalize (perform .pop ring).2 = after at step ⊢
      cases step with
      | empty empty =>
          rw [← length_contents, List.length_eq_zero_iff] at empty
          simp [empty, popped]
      | popped loaded head_eq len_eq =>
          rw [contents_pop within loaded head_eq len_eq]
          rfl

theorem sameYield_of_contents_eq [BEq T] [ReflBEq T] {left right : RingBuffer T N}
    (left_within : Within left) (right_within : Within right)
    (same : left.contents = right.contents) : SameYield left right := by
  intro count
  rw [yields_eq_take left_within, yields_eq_take right_within, same]
  exact BEq.rfl

theorem getElem?_contents {ring : RingBuffer T N} {past : List (RingEvent T N)} {offset : ℕ}
    (remembers : FixedArray.Remembers default storedAt past ring.values)
    (within : Within ring) (held : offset < ring.len.toNat) :
    ring.contents[offset]? = some (lastStored ((ring.head.toNat + offset) % N.toNat) past) := by
  have slot_lt : (ring.head.toNat + offset) % N.toNat < N.toNat :=
    Nat.mod_lt _ (Nat.zero_lt_of_lt (held.trans_le within.len_le))
  rw [contents, Fifo.getElem?_window held, cells, remembers _ slot_lt, Option.getD_some]
  rfl

theorem beq_iff_sameBehind [BEq T] {left right : RingBuffer T N} {past other : List (RingEvent T N)}
    (left_within : Within left) (right_within : Within right)
    (left_head : left.head.toNat = pops past % N.toNat)
    (right_head : right.head.toNat = pops other % N.toNat)
    (remembers : FixedArray.Remembers default storedAt past left.values)
    (other_remembers : FixedArray.Remembers default storedAt other right.values)
    (same : SameYield left right) :
    (left == right) = true ↔ SameBehind left.len past other := by
  have equal := same (left.len.toNat + right.len.toNat)
  rw [yields_eq_take left_within, yields_eq_take right_within, List.take_of_length_le (by simp),
    List.take_of_length_le (by simp)] at equal
  obtain ⟨lengths, entries⟩ := FixedArray.slice_beq_iff.mp equal
  rw [length_contents, length_contents] at lengths
  have len_eq : left.len = right.len := UInt64.toNat_inj.mp lengths
  have head_iff : left.head = right.head ↔ pops past % N.toNat = pops other % N.toNat := by
    rw [← UInt64.toNat_inj, left_head, right_head]
  have beq_iff : (left == right) = true ↔
      (left.values == right.values) = true ∧ left.head = right.head := by
    show (left.values == right.values &&
      (left.head == right.head && left.len == right.len)) = true ↔ _
    simp [len_eq]
  rw [beq_iff, head_iff, remembers.beq_iff other_remembers, and_comm, SameBehind]
  refine and_congr_right fun heads => ?_
  constructor
  · exact fun every offset _ within => every _ (Nat.mod_lt _ (Nat.zero_lt_of_lt within))
  · intro behind slot within
    have head_lt := left_within.head_lt (Nat.zero_lt_of_lt within)
    obtain ⟨offset, offset_lt, rfl⟩ := Fifo.exists_offset within head_lt
    rcases Nat.lt_or_ge offset left.len.toNat with held | free
    · refine entries offset _ _ (getElem?_contents remembers left_within held) ?_
      rw [head_iff.mpr heads]
      exact getElem?_contents other_remembers right_within (len_eq ▸ held)
    · rw [left_head, Nat.mod_add_mod]
      exact behind offset free offset_lt

end RingBuffer

/-- Vectors with the same slice, and rings that yield the same values, compare equal exactly if the
same was stored last in the slots behind their values and, for rings, if the heads agree. -/
theorem compares_equal_iff {T : Type} [Inhabited T] [BEq T] (N : UInt64)
    (left right : List (FixedVec.Request T)) (first second : List (RingBuffer.Request T)) :
    (FixedVec.SameSlice (FixedVec.made N left) (FixedVec.made N right) →
      ((FixedVec.made N left == FixedVec.made N right) = true ↔
        FixedVec.SameBehind (FixedVec.made N left).len (FixedVec.past N left)
          (FixedVec.past N right))) ∧
    (RingBuffer.SameYield (RingBuffer.made N first) (RingBuffer.made N second) →
      ((RingBuffer.made N first == RingBuffer.made N second) = true ↔
        RingBuffer.SameBehind (RingBuffer.made N first).len (RingBuffer.past N first)
          (RingBuffer.past N second))) := by
  constructor
  · obtain ⟨left_le, left_remembers⟩ := FixedVec.remembers_run N left
    obtain ⟨right_le, right_remembers⟩ := FixedVec.remembers_run N right
    exact FixedVec.beq_iff_sameBehind left_le right_le left_remembers right_remembers
  · obtain ⟨first_within, first_head, first_remembers⟩ := RingBuffer.remembers_run N first
    obtain ⟨second_within, second_head, second_remembers⟩ := RingBuffer.remembers_run N second
    exact RingBuffer.beq_iff_sameBehind first_within second_within first_head second_head
      first_remembers second_remembers

/-- A slot that was reused leaves no trace. -/
theorem compares_equal_after_reuse :
    (FixedVec.made 1 [.push (1 : UInt8), .pop, .push 2] == FixedVec.made 1 [.push 2]) = true ∧
      (RingBuffer.made 1 [.push (1 : UInt8), .pop, .push 2] == RingBuffer.made 1 [.push 2]) =
        true := by
  have equal := compares_equal_iff 1 [.push (1 : UInt8), .pop, .push 2] [.push 2]
    [.push 1, .pop, .push 2] [.push 2]
  refine ⟨(equal.1 ⟨[2], [2], by decide, by decide, by decide⟩).mpr ?_, (equal.2 ?_).mpr ?_⟩
  · intro slot behind within
    exact absurd within (Nat.not_lt.mpr behind)
  · exact RingBuffer.sameYield_of_contents_eq (RingBuffer.remembers_run 1 _).1
      (RingBuffer.remembers_run 1 _).1 (by decide)
  · refine ⟨by decide, fun offset behind within => ?_⟩
    exact absurd within (Nat.not_lt.mpr behind)

/-- A popped value and a head that has moved are compared although nothing is held. -/
theorem emptied_compares_unequal :
    (FixedVec.SameSlice (FixedVec.made 2 [.push (1 : UInt8), .pop]) (FixedVec.made 2 []) ∧
      (FixedVec.made 2 [.push (1 : UInt8), .pop] == FixedVec.made 2 []) = false) ∧
    RingBuffer.SameYield (RingBuffer.made 2 [.push (0 : UInt8), .pop]) (RingBuffer.made 2 []) ∧
      (RingBuffer.made 2 [.push (0 : UInt8), .pop] == RingBuffer.made 2 []) = false := by
  refine ⟨⟨⟨[], [], by decide, by decide, by decide⟩, by decide⟩, ?_, by decide⟩
  exact RingBuffer.sameYield_of_contents_eq (RingBuffer.remembers_run 2 _).1
    (RingBuffer.remembers_run 2 _).1 (by decide)

end Bulla.Kernel
