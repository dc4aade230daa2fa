import Mathlib.Algebra.BigOperators.Group.Finset.Basic
import Mathlib.Algebra.BigOperators.Fin
import Mathlib.Algebra.Order.BigOperators.Group.Finset
import Mathlib.Tactic.Abel

/-!
# Processors that share a memory

An interleaved system is a shared memory and an own state for each processor.  In one step, one
processor changes the memory and its own state.  What the own states amount to together changes in a
step by as much as the own state of the processor that takes it.
-/

/-- A shared memory, and what each processor has of its own. -/
structure Interleaved (processors : ℕ) (σ τ : Type) where
  shared : σ
  own : Fin processors → τ

namespace Interleaved

variable {processors : ℕ} {σ τ : Type}

/-- The system after a step of one processor. -/
def put (system : Interleaved processors σ τ) (cpu : Fin processors) (shared : σ) (next : τ) :
    Interleaved processors σ τ where
  shared := shared
  own := Function.update system.own cpu next

variable {system : Interleaved processors σ τ} {cpu other : Fin processors} {shared : σ} {next : τ}

@[simp] theorem put_shared : (system.put cpu shared next).shared = shared := rfl

@[simp] theorem put_own : (system.put cpu shared next).own cpu = next := by
  simp [put]

theorem put_own_of_ne (distinct : other ≠ cpu) :
    (system.put cpu shared next).own other = system.own other := by
  simp [put, distinct]

@[simp] theorem put_self (system : Interleaved processors σ τ) (cpu : Fin processors) :
    system.put cpu system.shared (system.own cpu) = system := by
  simp [put]

/-- A view of all own states changes where a step is taken. -/
theorem view_own_put {β : Type} (view : τ → β) :
    (fun other => view ((system.put cpu shared next).own other)) =
      Function.update (fun other => view (system.own other)) cpu (view next) := by
  funext other
  by_cases same : other = cpu
  · subst same
    rw [put_own, Function.update_self]
  · rw [put_own_of_ne same, Function.update_of_ne same]

/-- A property of own states survives a step if the processor that takes it has the property
afterwards and the others do not lose it. -/
theorem forall_own_put {property kept : τ → Prop} (holds : ∀ cpu, property (system.own cpu))
    (here : kept next) (elsewhere : ∀ own, property own → kept own) (other : Fin processors) :
    kept ((system.put cpu shared next).own other) := by
  by_cases same : other = cpu
  · rw [same, put_own]
    exact here
  · rw [put_own_of_ne same]
    exact elsewhere _ (holds other)

/-- What the own states of all processors amount to. -/
def tally {M : Type} [AddCommMonoid M] (count : τ → M) (system : Interleaved processors σ τ) : M :=
  ∑ cpu, count (system.own cpu)

theorem tally_put {M : Type} [AddCommMonoid M] (count : τ → M)
    (system : Interleaved processors σ τ) (cpu : Fin processors) (shared : σ) (next : τ) :
    (system.put cpu shared next).tally count + count (system.own cpu) =
      system.tally count + count next := by
  have others : ∑ other ∈ Finset.univ.erase cpu, count ((system.put cpu shared next).own other) =
      ∑ other ∈ Finset.univ.erase cpu, count (system.own other) :=
    Finset.sum_congr rfl fun other member => by rw [put_own_of_ne (Finset.ne_of_mem_erase member)]
  rw [tally, tally, ← Finset.add_sum_erase _ _ (Finset.mem_univ cpu), others, put_own,
    ← Finset.add_sum_erase _ (fun other => count (system.own other)) (Finset.mem_univ cpu)]
  abel

theorem tally_add {M : Type} [AddCommMonoid M] (left right : τ → M)
    (system : Interleaved processors σ τ) :
    (system.tally fun own => left own + right own) = system.tally left + system.tally right :=
  Finset.sum_add_distrib

/-- What the processors show, in their order. -/
def collect {β : Type} (view : τ → Option β) (system : Interleaved processors σ τ) : List β :=
  (List.finRange processors).filterMap fun cpu => view (system.own cpu)

theorem countP_collect {β : Type} (view : τ → Option β) (property : β → Bool)
    (system : Interleaved processors σ τ) :
    (system.collect view).countP property =
      system.tally fun own => ((view own).any property).toNat := by
  rw [tally, collect, Fin.sum_univ_def]
  induction List.finRange processors with
  | nil => rfl
  | cons cpu cpus induction =>
      rw [List.map_cons, List.sum_cons, ← induction, List.filterMap_cons]
      cases view (system.own cpu) with
      | none => simp
      | some shown => cases holds : property shown <;> simp [holds, Nat.add_comm]

section Bound

variable {count : τ → ℕ}

theorem le_tally (count : τ → ℕ) (system : Interleaved processors σ τ) (cpu : Fin processors) :
    count (system.own cpu) ≤ system.tally count :=
  Finset.single_le_sum (f := fun cpu => count (system.own cpu)) (fun _ _ => Nat.zero_le _)
    (Finset.mem_univ cpu)

theorem tally_le (at_most : ∀ own, count own ≤ 1) : system.tally count ≤ processors := by
  calc system.tally count ≤ ∑ _cpu : Fin processors, 1 := Finset.sum_le_sum fun _ _ => at_most _
    _ = processors := by simp

theorem tally_lt (at_most : ∀ own, count own ≤ 1) (none : count (system.own cpu) = 0) :
    system.tally count < processors := by
  calc system.tally count < ∑ _cpu : Fin processors, 1 :=
        Finset.sum_lt_sum (fun _ _ => at_most _) ⟨cpu, Finset.mem_univ cpu, by omega⟩
    _ = processors := by simp

end Bound

end Interleaved
