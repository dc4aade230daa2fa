import Mathlib.Data.Set.Card
import Bulla.Kernel.Storage

/-!
# The map of fixed capacity

The entries lie in the first slots of an array.  Removing an entry moves the last one into its slot,
so the occupied slots stay together and only the order of the entries is lost.  Over all histories
the map is a partial function with a bounded number of keys.
-/

namespace Bulla.Kernel

open Rust Outcome

structure FixedMap (K V : Type) (N : UInt64) where
  entries : FixedArray (Option (K × V)) N
  len : UInt64

namespace FixedMap

variable {K V : Type} {N : UInt64}

def new : FixedMap K V N := ⟨Vector.replicate N.toNat none, 0⟩

/-- `self.entries.iter().flatten()`. -/
def flattened (self : FixedMap K V N) : List (K × V) := self.entries.toList.filterMap id

/-- `self.entries.iter().take(self.len)`. -/
def occupied (self : FixedMap K V N) : List (Option (K × V)) :=
  self.entries.toList.take self.len.toNat

section Interface

variable [DecidableEq K]

def insert (key : K) (value : V) : Call (FixedMap K V N) StorageError Unit := do
  rejectIf ((← get).flattened.any (·.1 = key) = true) StorageError.duplicateKey
  rejectIf ((← get).len = N) StorageError.full
  let entries ← Call.unchecked ((← get).entries.store (← get).len (some (key, value)))
  modify fun self => { self with entries }
  let len ← Call.unchecked (checkedAdd (← get).len 1)
  modify fun self => { self with len }

protected def get (self : FixedMap K V N) (key : K) : Outcome StorageError V :=
  okOr (self.flattened.findSome? fun entry => if entry.1 = key then some entry.2 else none)
    StorageError.missingKey

/-- The last entry takes the place of the removed one. -/
def remove (key : K) : Call (FixedMap K V N) StorageError V := do
  let position ← okOr ((← get).occupied.findIdx? fun entry => entry.any (·.1 = key))
    StorageError.missingKey
  let index := UInt64.ofNat position
  let entry ← Call.unchecked ((← get).entries.load index)
  let found ← okOr entry StorageError.missingKey
  let last ← Call.unchecked (checkedSub (← get).len 1)
  let moved ← Call.unchecked ((← get).entries.load last)
  let entries ← Call.unchecked ((← get).entries.store index moved)
  modify fun self => { self with entries }
  let entries ← Call.unchecked ((← get).entries.store last none)
  modify fun self => { self with entries }
  modify fun self => { self with len := last }
  return found.2

/-- One call of the interface. -/
inductive Request (K V : Type) where
  | insert (key : K) (value : V)
  | get (key : K)
  | remove (key : K)
  | len
  deriving DecidableEq, Repr

/-- What a successful call returns. -/
inductive Reply (V : Type) where
  | done
  | value (value : V)
  | len (len : UInt64)
  deriving DecidableEq, Repr

def perform : Request K V → Call (FixedMap K V N) StorageError (Reply V)
  | .insert key value => do
      insert key value
      return .done
  | .get key => return .value (← (← get).get key)
  | .remove key => return .value (← remove key)
  | .len => return .len (← get).len

end Interface

/-- Slots that hold the given entries and nothing behind them. -/
def slots (capacity : ℕ) (held : List (K × V)) : List (Option (K × V)) :=
  held.map some ++ List.replicate (capacity - held.length) none

/-- The entries of a map, in the order of their slots. -/
structure Holds (map : FixedMap K V N) (held : List (K × V)) : Prop where
  entries_eq : map.entries.toList = slots N.toNat held
  len_eq : map.len.toNat = held.length
  distinct : (held.map Prod.fst).Nodup

/-- The effect of each way a call can end on the entries. -/
inductive Step (N : UInt64) (held : List (K × V)) :
    Request K V → Outcome StorageError (Reply V) → List (K × V) → Prop
  | duplicate {key : K} {value found : V} (present : (key, found) ∈ held) :
      Step N held (.insert key value) (.err .duplicateKey) held
  | full {key : K} {value : V} (absent : ∀ found, (key, found) ∉ held)
      (full : held.length = N.toNat) : Step N held (.insert key value) (.err .full) held
  | inserted {key : K} {value : V} (absent : ∀ found, (key, found) ∉ held)
      (room : held.length < N.toNat) :
      Step N held (.insert key value) (.ok .done) (held ++ [(key, value)])
  | found {key : K} {value : V} (present : (key, value) ∈ held) :
      Step N held (.get key) (.ok (.value value)) held
  | missing {key : K} (absent : ∀ found, (key, found) ∉ held) :
      Step N held (.get key) (.err .missingKey) held
  | removed {key : K} {value : V} {rest : List (K × V)} (perm : held.Perm ((key, value) :: rest)) :
      Step N held (.remove key) (.ok (.value value)) rest
  | kept {key : K} (absent : ∀ found, (key, found) ∉ held) :
      Step N held (.remove key) (.err .missingKey) held
  | len {len : UInt64} (len_eq : len.toNat = held.length) : Step N held .len (.ok (.len len)) held

section Slots

variable {capacity : ℕ} {held front back : List (K × V)} {entry other : K × V}

theorem getElem?_slots :
    (slots capacity (front ++ entry :: back))[front.length]? = some (some entry) := by
  simp [slots]

theorem set_slots :
    (slots capacity (front ++ entry :: back)).set front.length (some other) =
      slots capacity (front ++ other :: back) := by
  simp [slots]

/-- The first empty slot. -/
theorem slots_eq_append (room : held.length < capacity) :
    slots capacity held =
      held.map some ++ none :: List.replicate (capacity - (held.length + 1)) none := by
  have empty : capacity - held.length = capacity - (held.length + 1) + 1 := by omega
  rw [slots, empty, List.replicate_succ]

/-- Filling the first empty slot. -/
theorem slots_snoc (room : held.length < capacity) :
    (slots capacity held).set held.length (some entry) = slots capacity (held ++ [entry]) := by
  rw [slots_eq_append room]
  simp [slots]

/-- Clearing the last occupied slot. -/
theorem slots_dropLast (room : held.length < capacity) :
    (slots capacity (held ++ [entry])).set held.length none = slots capacity held := by
  rw [slots_eq_append room]
  simp [slots]

/-- With an entry replaced by the last one, the last one can be dropped and only the entry is
gone. -/
theorem exists_last_moved (front : List (K × V)) (entry : K × V) (back : List (K × V)) :
    ∃ init moved rest, front ++ entry :: back = init ++ [moved] ∧
      front ++ moved :: back = rest ++ [moved] ∧ rest.Perm (front ++ back) := by
  cases back using List.reverseRecOn with
  | nil => exact ⟨front, entry, front, rfl, rfl, by simp⟩
  | append_singleton back moved =>
      refine ⟨front ++ entry :: back, moved, front ++ moved :: back, by simp, by simp, ?_⟩
      exact List.Perm.append_left front (List.perm_append_singleton moved back).symm

/-- Where a search for a key ends. -/
theorem exists_split_of_findIdx? [DecidableEq K] {key : K} {position : ℕ}
    (located : held.findIdx? (fun entry => decide (entry.1 = key)) = some position) :
    ∃ front value back, held = front ++ (key, value) :: back ∧ front.length = position := by
  obtain ⟨within, found, _⟩ := List.findIdx?_eq_some_iff_getElem.mp located
  obtain rfl : held[position].1 = key := by simpa using found
  refine ⟨held.take position, held[position].2, held.drop (position + 1), ?_, ?_⟩
  · rw [Prod.mk.eta, ← List.drop_eq_getElem_cons within, List.take_append_drop]
  · exact List.length_take_of_le within.le

end Slots

section Holds

variable {map : FixedMap K V N} {held : List (K × V)}

/-- Only the entries are seen through the empty slots. -/
theorem Holds.flattened_eq (holds : Holds map held) : map.flattened = held := by
  rw [flattened, holds.entries_eq, slots, List.filterMap_append, List.filterMap_map]
  simp

theorem Holds.occupied_eq (holds : Holds map held) : map.occupied = held.map some := by
  rw [occupied, holds.entries_eq, holds.len_eq, slots, List.take_left' (List.length_map _)]

theorem Holds.length_le (holds : Holds map held) : held.length ≤ N.toNat := by
  have lengths := congrArg List.length holds.entries_eq
  simp [slots] at lengths
  omega

theorem holds_new : Holds (new : FixedMap K V N) [] := by
  refine ⟨?_, rfl, List.nodup_nil⟩
  simp [new, slots, Vector.toList_replicate]

/-- The slots of a map from which an entry is removed. -/
theorem Holds.exists_rest (holds : Holds map held) {front back : List (K × V)} {entry : K × V}
    {moved : Option (K × V)} {index last : UInt64}
    {replaced cleared : FixedArray (Option (K × V)) N}
    (held_eq : held = front ++ entry :: back) (index_eq : index.toNat = front.length)
    (last_eq : map.len.toNat = last.toNat + 1) (loaded : map.entries.load last = some moved)
    (stored : map.entries.store index moved = some replaced)
    (erased : replaced.store last none = some cleared) :
    ∃ rest, Holds (⟨cleared, last⟩ : FixedMap K V N) rest ∧ held.Perm (entry :: rest) := by
  obtain ⟨init, final, rest, held_last, moved_last, perm⟩ := exists_last_moved front entry back
  have held_perm : held.Perm (entry :: rest) := by
    rw [held_eq]
    exact List.perm_middle.trans (perm.symm.cons entry)
  have len_eq := holds.len_eq
  have length_le := holds.length_le
  have rest_length : held.length = rest.length + 1 := held_perm.length_eq
  have init_length : held.length = init.length + 1 := by simp [held_eq, held_last]
  have last_rest : last.toNat = rest.length := by omega
  have moved_eq : moved = some final := by
    have last_init : last.toNat = init.length := by omega
    rw [FixedArray.load_eq_toList, holds.entries_eq, last_init, held_eq, held_last, getElem?_slots]
      at loaded
    exact (Option.some.inj loaded).symm
  refine ⟨rest, ⟨?_, last_rest, ?_⟩, held_perm⟩
  · have room : rest.length < N.toNat := by omega
    show cleared.toList = _
    rw [FixedArray.toList_of_store erased, FixedArray.toList_of_store stored, holds.entries_eq,
      index_eq, moved_eq, held_eq, set_slots, moved_last, last_rest, slots_dropLast room]
  · exact ((held_perm.map Prod.fst).nodup_iff.mp holds.distinct).of_cons

end Holds

section Step

variable [DecidableEq K] {map : FixedMap K V N} {held : List (K × V)}

theorem insert_spec (holds : Holds map held) (key : K) (value : V) :
    Call.Ensures (perform (.insert key value))
      (fun outcome after => ∃ rest, Holds after rest ∧
        Step N held (.insert key value) outcome rest) map := by
  have length_le := holds.length_le
  have capacity_lt := N.toNat_lt
  have len_eq := holds.len_eq
  have full_iff : map.len = N ↔ held.length = N.toNat := by
    rw [← UInt64.toNat_inj, holds.len_eq]
  simp only [perform, insert]
  simp [holds.flattened_eq, full_iff]
  refine ⟨fun absent => ⟨fun room => ⟨fun entries stored => ⟨fun len next => ?_, ?_⟩, ?_⟩, ?_⟩, ?_⟩
  · have room : held.length < N.toNat := by omega
    refine ⟨held ++ [(key, value)], ⟨?_, ?_, ?_⟩, .inserted absent room⟩
    · show entries.toList = _
      rw [FixedArray.toList_of_store stored, holds.entries_eq, len_eq, slots_snoc room]
    · show len.toNat = _
      rw [next, len_eq, List.length_append, List.length_singleton]
    · rw [List.map_append, List.nodup_append]
      refine ⟨holds.distinct, List.nodup_singleton _, ?_⟩
      simpa using fun key value present (same : key = _) => absent _ (same ▸ present)
  · intro last
    omega
  · intro outside
    rw [FixedArray.store_eq_none] at outside
    omega
  · exact fun full => ⟨held, holds, .full absent full⟩
  · exact fun found present => ⟨held, holds, .duplicate present⟩

theorem get_spec (holds : Holds map held) (key : K) :
    Call.Ensures (perform (.get key))
      (fun outcome after => ∃ rest, Holds after rest ∧ Step N held (.get key) outcome rest)
      map := by
  simp only [perform, FixedMap.get]
  simp [holds.flattened_eq]
  refine ⟨fun value searched => ⟨held, holds, .found ?_⟩, fun absent => ⟨held, holds, .missing ?_⟩⟩
  · obtain ⟨entry, member, here⟩ := List.exists_of_findSome?_eq_some searched
    split at here
    · obtain rfl := Option.some.inj here
      subst key
      exact member
    · cases here
  · exact fun found present => absent key found present rfl

theorem remove_spec (holds : Holds map held) (key : K) :
    Call.Ensures (perform (.remove key))
      (fun outcome after => ∃ rest, Holds after rest ∧ Step N held (.remove key) outcome rest)
      map := by
  have length_le := holds.length_le
  have capacity_lt := N.toNat_lt
  have len_eq := holds.len_eq
  simp only [perform, remove]
  simp [holds.occupied_eq, Function.comp_def]
  refine ⟨fun position located => ?_, fun absent => ⟨held, holds, .kept ?_⟩⟩
  · obtain ⟨front, value, back, held_eq, rfl⟩ := exists_split_of_findIdx? located
    have held_length : held.length = front.length + (back.length + 1) := by simp [held_eq]
    have index_eq : (UInt64.ofNat front.length).toNat = front.length := by
      have fits : front.length < 2 ^ 64 := by omega
      exact UInt64.toNat_ofNat_of_lt' fits
    have found_eq : map.entries.load (UInt64.ofNat front.length) = some (some (key, value)) := by
      rw [FixedArray.load_eq_toList, holds.entries_eq, index_eq, held_eq, getElem?_slots]
    simp only [found_eq, Option.some.injEq, forall_eq', reduceCtorEq, false_implies, and_true,
      Prod.mk.injEq, and_imp]
    rintro _ _ rfl rfl
    -- Every index is that of an occupied slot, so no access panics.
    refine ⟨fun last last_eq => ⟨fun moved loaded => ⟨fun replaced stored =>
      ⟨fun cleared erased => ?_, fun outside => ?_⟩, fun outside => ?_⟩, fun outside => ?_⟩, ?_⟩
    · obtain ⟨rest, next, perm⟩ := holds.exists_rest held_eq index_eq last_eq loaded stored erased
      exact ⟨rest, next, .removed perm⟩
    · rw [FixedArray.store_eq_none] at outside
      omega
    · rw [FixedArray.store_eq_none] at outside
      omega
    · rw [FixedArray.load_eq_none] at outside
      omega
    · intro zero
      omega
  · exact fun found present => absent key found present rfl

/-- Every call is one of the steps. -/
theorem step_perform (holds : Holds map held) (request : Request K V) :
    ∃ rest, Holds (perform request map).2 rest ∧
      Step N held request (perform request map).1 rest := by
  cases request with
  | insert key value => exact insert_spec holds key value
  | get key => exact get_spec holds key
  | remove key => exact remove_spec holds key
  | len => exact ⟨held, holds, .len holds.len_eq⟩

end Step

/-! ### The partial function -/

/-- Where a partial function is defined. -/
def keys (function : K → Option V) : Set K := {key | (function key).isSome = true}

/-- A partial function with at most `N` keys, driven by the same calls. -/
noncomputable def reference [DecidableEq K] (N : UInt64) :
    Request K V → Call (K → Option V) StorageError (Reply V)
  | .insert key value => do
      rejectIf (((← get) key).isSome = true) StorageError.duplicateKey
      rejectIf (N.toNat ≤ (keys (← get)).ncard) StorageError.full
      modify fun function => Function.update function key (some value)
      return .done
  | .get key => return .value (← okOr ((← get) key) StorageError.missingKey)
  | .remove key => do
      let value ← okOr ((← get) key) StorageError.missingKey
      modify fun function => Function.update function key none
      return .value value
  | .len => return .len (UInt64.ofNat (keys (← get)).ncard)

/-- The entries are the graph of the function. -/
def Graph (held : List (K × V)) (function : K → Option V) : Prop :=
  ∀ key value, (key, value) ∈ held ↔ function key = some value

/-- A map that stands for a partial function. -/
def Represents (map : FixedMap K V N) (function : K → Option V) : Prop :=
  ∃ held, Holds map held ∧ Graph held function

section Reference

variable [DecidableEq K] {map : FixedMap K V N} {held rest : List (K × V)}
  {function : K → Option V} {key : K} {value : V}

omit [DecidableEq K] in
theorem Graph.eq_none (graph : Graph held function) (absent : ∀ found, (key, found) ∉ held) :
    function key = none := by
  rw [Option.eq_none_iff_forall_ne_some]
  intro found present
  exact absent found ((graph key found).mpr present)

theorem Graph.ncard_keys (graph : Graph held function) (distinct : (held.map Prod.fst).Nodup) :
    (keys function).ncard = held.length := by
  have keys_eq : keys function = ↑(held.map Prod.fst).toFinset := by
    ext key
    simp [keys, Option.isSome_iff_exists]
    exact exists_congr fun found => (graph key found).symm
  rw [keys_eq, Set.ncard_coe_finset, List.toFinset_card_of_nodup distinct, List.length_map]

theorem Graph.insert (graph : Graph held function) (absent : ∀ found, (key, found) ∉ held) :
    Graph (held ++ [(key, value)]) (Function.update function key (some value)) := by
  intro other found
  by_cases same : other = key
  · subst same
    simp [absent, eq_comm]
  · simp [same, graph other found]

theorem Graph.remove (graph : Graph held function) (distinct : (held.map Prod.fst).Nodup)
    (perm : held.Perm ((key, value) :: rest)) :
    Graph rest (Function.update function key none) := by
  have fresh : key ∉ rest.map Prod.fst :=
    (List.nodup_cons.mp ((perm.map Prod.fst).nodup_iff.mp distinct)).1
  intro other found
  by_cases same : other = key
  · subst same
    simpa using fun present => fresh (List.mem_map_of_mem present)
  · rw [Function.update_of_ne same, ← graph, perm.mem_iff]
    simp [same]

theorem simulates (request : Request K V) (represents : Represents map function) :
    Call.Ensures (reference N request) (fun outcome after =>
      (perform request map).1 = outcome ∧ Represents (perform request map).2 after) function := by
  obtain ⟨held, holds, graph⟩ := represents
  obtain ⟨rest, next, step⟩ := step_perform holds request
  have size_eq := graph.ncard_keys holds.distinct
  have length_le := holds.length_le
  generalize (perform request map).1 = outcome at step ⊢
  generalize (perform request map).2 = after at next ⊢
  cases step with
  | duplicate present =>
      have found := (graph _ _).mp present
      simp [reference, found]
      exact ⟨held, next, graph⟩
  | full absent full =>
      have missing := graph.eq_none absent
      simp [reference, missing, size_eq, full]
      exact ⟨held, next, graph⟩
  | inserted absent room =>
      have missing := graph.eq_none absent
      simp [reference, missing, size_eq, room]
      exact ⟨_, next, graph.insert absent⟩
  | found present =>
      have found := (graph _ _).mp present
      simp [reference, found]
      exact ⟨held, next, graph⟩
  | missing absent =>
      have missing := graph.eq_none absent
      simp [reference, missing]
      exact ⟨held, next, graph⟩
  | removed perm =>
      have found := (graph _ _).mp (perm.mem_iff.mpr List.mem_cons_self)
      simp [reference, found]
      exact ⟨rest, next, graph.remove holds.distinct perm⟩
  | kept absent =>
      have missing := graph.eq_none absent
      simp [reference, missing]
      exact ⟨held, next, graph⟩
  | len len_eq =>
      simp [reference, size_eq, ← len_eq]
      exact ⟨held, next, graph⟩

end Reference

/-- Every call of every run returns what the partial function returns; the number of its keys stays
within the capacity, and the map keeps its entries under distinct keys in its first slots. -/
theorem refines_partial_function [DecidableEq K] (requests : List (Request K V)) :
    (history perform (new : FixedMap K V N) requests).map (·.outcome) =
        (history (reference N) (fun _ => none) requests).map (·.outcome) ∧
      (keys (final (reference N) (fun _ => none) requests)).ncard ≤ N.toNat ∧
      ∃ held, Holds (final perform (new : FixedMap K V N) requests) held ∧
        Graph held (final (reference N) (fun _ => none) requests) := by
  have start : Represents (new : FixedMap K V N) fun _ => none := by
    exact ⟨[], holds_new, by simp [Graph]⟩
  obtain ⟨same, held, holds, graph⟩ := outcomes_eq_of_simulation perform
    (fun request _ _ related => simulates request related) start requests
  refine ⟨same, ?_, held, holds, graph⟩
  rw [graph.ncard_keys holds.distinct]
  exact holds.length_le

end FixedMap

end Bulla.Kernel
