import Mathlib.Data.List.Forall2
import Mathlib.Tactic.Common

/-!
# Fallible calls on a mutable receiver

A Rust method that takes `&mut self` and returns `Result<T, E>` ends in one of three ways: it
returns `Ok`, it returns `Err`, or an unchecked arithmetic operation overflows.  The receiver keeps
whatever was written before the call ended, so a call is a function from the receiver to an outcome
together with the receiver it leaves behind.  An early `Err` does not undo earlier writes.
-/

namespace Rust

/-- How a Rust call ends. -/
inductive Outcome (ε α : Type) where
  | ok (value : α)
  | err (reason : ε)
  | overflow
  deriving DecidableEq, Repr

namespace Outcome

variable {ε α β : Type}

instance : Monad (Outcome ε) where
  pure := ok
  bind
    | ok value, next => next value
    | err reason, _ => err reason
    | overflow, _ => overflow

instance : LawfulMonad (Outcome ε) :=
  LawfulMonad.mk' _ (fun outcome => by cases outcome <;> rfl) (fun _ _ => rfl)
    (fun outcome _ _ => by cases outcome <;> rfl)

/-- `Option::ok_or`. -/
def okOr (value : Option α) (reason : ε) : Outcome ε α :=
  match value with
  | some value => ok value
  | none => err reason

/-- The guard `if condition { return Err(reason); }`. -/
def rejectIf (condition : Prop) [Decidable condition] (reason : ε) : Outcome ε Unit :=
  if condition then err reason else ok ()

/-- An unchecked operation, given by its checked counterpart: `None` is the overflow panic. -/
def unchecked (value : Option α) : Outcome ε α :=
  match value with
  | some value => ok value
  | none => overflow

/-- `Result::map_err`. -/
def mapErr {δ : Type} (relabel : ε → δ) : Outcome ε α → Outcome δ α
  | ok value => ok value
  | err reason => err (relabel reason)
  | overflow => overflow

/-- Whether a call ends in a given error can be decided without comparing results. -/
instance [DecidableEq ε] (outcome : Outcome ε α) (reason : ε) : Decidable (outcome = err reason) :=
  match outcome with
  | ok _ => isFalse (by simp)
  | err found => decidable_of_iff (found = reason) (by simp)
  | overflow => isFalse (by simp)

instance (outcome : Outcome ε α) (property : α → Prop) [∀ value, Decidable (property value)] :
    Decidable (∀ value, outcome = ok value → property value) :=
  match outcome with
  | ok value => decidable_of_iff (property value) (by simp)
  | err _ => isTrue (by simp)
  | overflow => isTrue (by simp)

@[simp] theorem pure_eq (value : α) : (pure value : Outcome ε α) = ok value := rfl

@[simp] theorem ok_bind (value : α) (next : α → Outcome ε β) :
    (ok value >>= next) = next value := rfl

@[simp] theorem err_bind (reason : ε) (next : α → Outcome ε β) :
    (err reason >>= next) = err reason := rfl

@[simp] theorem overflow_bind (next : α → Outcome ε β) :
    (overflow >>= next : Outcome ε β) = overflow := rfl

@[simp] theorem bind_eq_ok {first : Outcome ε α} {next : α → Outcome ε β} {result : β} :
    (first >>= next) = ok result ↔ ∃ value, first = ok value ∧ next value = ok result := by
  cases first <;> simp

@[simp] theorem bind_eq_err {first : Outcome ε α} {next : α → Outcome ε β} {reason : ε} :
    (first >>= next) = err reason ↔
      first = err reason ∨ ∃ value, first = ok value ∧ next value = err reason := by
  cases first <;> simp

@[simp] theorem bind_eq_overflow {first : Outcome ε α} {next : α → Outcome ε β} :
    (first >>= next) = overflow ↔
      first = overflow ∨ ∃ value, first = ok value ∧ next value = overflow := by
  cases first <;> simp

@[simp] theorem okOr_eq_ok {value : Option α} {reason : ε} {result : α} :
    okOr value reason = ok result ↔ value = some result := by
  cases value <;> simp [okOr]

@[simp] theorem okOr_eq_err {value : Option α} {reason actual : ε} :
    okOr value reason = err actual ↔ value = none ∧ reason = actual := by
  cases value <;> simp [okOr]

@[simp] theorem okOr_ne_overflow {value : Option α} {reason : ε} :
    okOr value reason ≠ overflow := by
  cases value <;> simp [okOr]

@[simp] theorem rejectIf_eq_ok {condition : Prop} [Decidable condition] {reason : ε}
    {value : Unit} :
    rejectIf condition reason = ok value ↔ ¬condition := by
  by_cases holds : condition <;> simp [rejectIf, holds]

@[simp] theorem rejectIf_eq_err {condition : Prop} [Decidable condition] {reason actual : ε} :
    rejectIf condition reason = err actual ↔ condition ∧ reason = actual := by
  by_cases holds : condition <;> simp [rejectIf, holds]

@[simp] theorem rejectIf_ne_overflow {condition : Prop} [Decidable condition] {reason : ε} :
    rejectIf condition reason ≠ overflow := by
  by_cases holds : condition <;> simp [rejectIf, holds]

@[simp] theorem unchecked_eq_ok {value : Option α} {result : α} :
    (unchecked value : Outcome ε α) = ok result ↔ value = some result := by
  cases value <;> simp [unchecked]

@[simp] theorem unchecked_ne_err {value : Option α} {reason : ε} :
    unchecked value ≠ err reason := by
  cases value <;> simp [unchecked]

@[simp] theorem unchecked_eq_overflow {value : Option α} :
    (unchecked value : Outcome ε α) = overflow ↔ value = none := by
  cases value <;> simp [unchecked]

@[simp] theorem mapErr_eq_ok {δ : Type} {relabel : ε → δ} {outcome : Outcome ε α} {result : α} :
    outcome.mapErr relabel = ok result ↔ outcome = ok result := by
  cases outcome <;> simp [mapErr]

/-- A loop whose steps all succeed folds their results. -/
theorem foldlM_eq_ok {step : β → α → Outcome ε β} {next : β → α → β} (inputs : List α) (start : β)
    (succeeds : ∀ input ∈ inputs, ∀ value, step value input = ok (next value input)) :
    inputs.foldlM step start = ok (inputs.foldl next start) := by
  induction inputs generalizing start with
  | nil => rfl
  | cons input inputs induction =>
      rw [List.foldlM_cons, succeeds input List.mem_cons_self, ok_bind, List.foldl_cons]
      exact induction _ fun later member => succeeds later (List.mem_cons_of_mem _ member)

/-- A loop that refuses a key a second time accepts exactly the fit inputs with distinct keys, all
of them free at its start. -/
theorem foldlM_eq_ok_iff_distinct {κ : Type} (key : α → κ) (free : β → κ → Prop) {fit : α → Prop}
    {step : β → α → Outcome ε β} {next : β → α → β}
    (step_iff : ∀ value input result, step value input = ok result ↔
      (fit input ∧ free value (key input)) ∧ next value input = result)
    (free_next : ∀ value input other, fit input →
      (free (next value input) other ↔ free value other ∧ key input ≠ other))
    {inputs : List α} {start result : β} :
    inputs.foldlM step start = ok result ↔
      ((inputs.map key).Nodup ∧ ∀ input ∈ inputs, fit input ∧ free start (key input)) ∧
        inputs.foldl next start = result := by
  induction inputs generalizing start with
  | nil => simp
  | cons input inputs induction =>
      simp only [List.foldlM_cons, bind_eq_ok, step_iff, induction, List.map_cons, List.nodup_cons,
        List.forall_mem_cons, List.foldl_cons, List.mem_map, not_exists, not_and]
      constructor
      · rintro ⟨_, ⟨first, rfl⟩, ⟨distinct, later⟩, result_eq⟩
        refine ⟨⟨⟨?_, distinct⟩, first, ?_⟩, result_eq⟩
        · intro other member same
          exact ((free_next _ _ _ first.1).mp (later other member).2).2 same.symm
        · intro other member
          exact ⟨(later other member).1, ((free_next _ _ _ first.1).mp (later other member).2).1⟩
      · rintro ⟨⟨⟨fresh, distinct⟩, first, later⟩, result_eq⟩
        refine ⟨_, ⟨first, rfl⟩, ⟨distinct, ?_⟩, result_eq⟩
        intro other member
        refine ⟨(later other member).1, (free_next _ _ _ first.1).mpr ⟨(later other member).2, ?_⟩⟩
        exact fun same => fresh other member same.symm

/-- A loop that collects results collects one for each input. -/
theorem mapM_eq_ok {step : α → Outcome ε β} {inputs : List α} {results : List β} :
    inputs.mapM step = ok results ↔
      List.Forall₂ (fun input result => step input = ok result) inputs results := by
  induction inputs generalizing results with
  | nil => simp [eq_comm]
  | cons input inputs induction =>
      rw [List.mapM_cons, List.forall₂_cons_left_iff]
      simp only [bind_eq_ok, induction, pure_eq, ok.injEq]
      constructor
      · rintro ⟨first, first_eq, rest, collected, rfl⟩
        exact ⟨first, rest, first_eq, collected, rfl⟩
      · rintro ⟨first, rest, first_eq, collected, rfl⟩
        exact ⟨first, first_eq, rest, collected, rfl⟩

/-- A loop that collects results succeeds exactly if each of its steps does. -/
theorem exists_mapM_eq_ok {step : α → Outcome ε β} {inputs : List α} :
    (∃ results, inputs.mapM step = ok results) ↔
      ∀ input ∈ inputs, ∃ result, step input = ok result := by
  induction inputs with
  | nil => simp
  | cons input inputs induction =>
      rw [List.forall_mem_cons, ← induction, List.mapM_cons]
      simp only [bind_eq_ok, pure_eq, ok.injEq]
      constructor
      · rintro ⟨_, first, first_eq, rest, collected, rfl⟩
        exact ⟨⟨first, first_eq⟩, rest, collected⟩
      · rintro ⟨⟨first, first_eq⟩, rest, collected⟩
        exact ⟨first :: rest, first, first_eq, rest, collected, rfl⟩

theorem mapM_ne_overflow {step : α → Outcome ε β} {inputs : List α}
    (never : ∀ input, step input ≠ overflow) : inputs.mapM step ≠ overflow := by
  induction inputs with
  | nil => simp
  | cons input inputs induction => simp [List.mapM_cons, never, induction]

/-- A loop that collects results has produced each of them from one of its inputs. -/
theorem exists_of_mapM_eq_ok {step : α → Outcome ε β} {inputs : List α} {results : List β}
    (collected : inputs.mapM step = ok results) :
    ∀ result ∈ results, ∃ input ∈ inputs, step input = ok result := by
  have each := mapM_eq_ok.mp collected
  intro result member
  obtain ⟨index, bound, rfl⟩ := List.getElem_of_mem member
  have same_length := each.length_eq
  exact ⟨inputs[index], List.getElem_mem _, each.get (same_length ▸ bound) bound⟩

end Outcome

/-- A call on a receiver of type `σ`: its outcome and the receiver it leaves. -/
def Call (σ ε α : Type) : Type := σ → Outcome ε α × σ

namespace Call

variable {σ ε α β : Type}

instance : Monad (Call σ ε) where
  pure value := fun state => (.ok value, state)
  bind first next := fun state =>
    match first state with
    | (.ok value, state) => next value state
    | (.err reason, state) => (.err reason, state)
    | (.overflow, state) => (.overflow, state)

instance : MonadStateOf σ (Call σ ε) where
  get := fun state => (.ok state, state)
  set state := fun _ => (.ok ⟨⟩, state)
  modifyGet update := fun state => (.ok (update state).1, (update state).2)

instance : MonadLift (Outcome ε) (Call σ ε) where
  monadLift outcome := fun state => (outcome, state)

/-- A method without a `Result` never returns `Err`. -/
instance : MonadLift (Call σ Empty) (Call σ ε) where
  monadLift call := fun state => ((call state).1.mapErr Empty.elim, (call state).2)

/-- Unchecked arithmetic inside a call. -/
def unchecked (value : Option α) : Call σ ε α := fun state => (Outcome.unchecked value, state)

/-- A call on a part of the receiver that is borrowed mutably. -/
def borrow {τ : Type} (view : σ → τ) (put : τ → σ → σ) (call : Call τ ε α) : Call σ ε α :=
  fun state => ((call (view state)).1, put (call (view state)).2 state)

@[simp] theorem unchecked_apply (value : Option α) (state : σ) :
    (unchecked value : Call σ ε α) state = (Outcome.unchecked value, state) := rfl

@[simp] theorem pure_apply (value : α) (state : σ) :
    (pure value : Call σ ε α) state = (.ok value, state) := rfl

@[simp] theorem get_apply (state : σ) : (get : Call σ ε σ) state = (.ok state, state) := rfl

@[simp] theorem modify_apply (update : σ → σ) (state : σ) :
    (modify update : Call σ ε PUnit) state = (.ok ⟨⟩, update state) := rfl

@[simp] theorem lift_apply (outcome : Outcome ε α) (state : σ) :
    (liftM outcome : Call σ ε α) state = (outcome, state) := rfl

@[simp] theorem infallible_eq_ok {call : Call σ Empty α} {before after : σ} {result : α} :
    (liftM call : Call σ ε α) before = (.ok result, after) ↔
      call before = (.ok result, after) := by
  change ((call before).1.mapErr Empty.elim, (call before).2) = _ ↔ _
  rcases call before with ⟨_ | reason | _, _⟩ <;> simp [Outcome.mapErr]

@[simp] theorem infallible_ne_err {call : Call σ Empty α} {before after : σ} {reason : ε} :
    (liftM call : Call σ ε α) before ≠ (.err reason, after) := by
  change ((call before).1.mapErr Empty.elim, (call before).2) ≠ _
  rcases call before with ⟨_ | reason | _, _⟩
  · simp [Outcome.mapErr]
  · exact reason.elim
  · simp [Outcome.mapErr]

@[simp] theorem infallible_eq_overflow {call : Call σ Empty α} {before after : σ} :
    (liftM call : Call σ ε α) before = (.overflow, after) ↔
      call before = (.overflow, after) := by
  change ((call before).1.mapErr Empty.elim, (call before).2) = _ ↔ _
  rcases call before with ⟨_ | reason | _, _⟩ <;> simp [Outcome.mapErr]

theorem bind_apply (first : Call σ ε α) (next : α → Call σ ε β) (state : σ) :
    (first >>= next) state =
      match first state with
      | (.ok value, state) => next value state
      | (.err reason, state) => (.err reason, state)
      | (.overflow, state) => (.overflow, state) := rfl

/-- What a call on a borrowed part returns. -/
theorem borrow_map_fst {τ : Type} {view : σ → τ} {put : τ → σ → σ} {call : Call τ ε α}
    {wrap : α → β} {state : σ} :
    ((borrow view put call >>= fun value => pure (wrap value)) state).1 =
      (call (view state)).1 >>= fun value => .ok (wrap value) := by
  rw [bind_apply, borrow]
  rcases (call (view state)).1 with _ | _ | _ <;> rfl

theorem bind_bind {γ : Type} (first : Call σ ε α) (second : α → Call σ ε γ)
    (next : γ → Call σ ε β) :
    (first >>= second) >>= next = first >>= fun value => second value >>= next := by
  funext state
  rw [bind_apply, bind_apply, bind_apply]
  rcases first state with ⟨_ | _ | _, _⟩ <;> rfl

/-- A loop whose steps all succeed folds their effects. -/
theorem forM_eq_ok {step : α → Call σ ε PUnit} (effect : σ → α → σ) (inputs : List α) (state : σ)
    (succeeds : ∀ input ∈ inputs, ∀ state, step input state = (.ok ⟨⟩, effect state input)) :
    inputs.forM step state = (.ok ⟨⟩, inputs.foldl effect state) := by
  induction inputs generalizing state with
  | nil => rfl
  | cons input inputs induction =>
      show (step input >>= fun _ => inputs.forM step) state = _
      rw [bind_apply, succeeds input List.mem_cons_self, List.foldl_cons]
      exact induction _ fun later member => succeeds later (List.mem_cons_of_mem _ member)

/-- A loop stops at the first step that fails, with the effects of the steps before it. -/
theorem forM_eq_err {step : α → Call σ ε PUnit} (effect : σ → α → σ) {earlier later : List α}
    {input : α} {reason : ε} (state : σ)
    (succeeds : ∀ input ∈ earlier, ∀ state, step input state = (.ok ⟨⟩, effect state input))
    (fails : ∀ state, step input state = (.err reason, state)) :
    (earlier ++ input :: later).forM step state = (.err reason, earlier.foldl effect state) := by
  induction earlier generalizing state with
  | nil =>
      show (step input >>= fun _ => later.forM step) state = _
      rw [bind_apply, fails, List.foldl_nil]
  | cons first earlier induction =>
      show (step first >>= fun _ => (earlier ++ input :: later).forM step) state = _
      rw [bind_apply, succeeds first List.mem_cons_self, List.foldl_cons]
      exact induction _ fun other member => succeeds other (List.mem_cons_of_mem _ member)

@[simp] theorem bind_eq_ok {first : Call σ ε α} {next : α → Call σ ε β} {before after : σ}
    {result : β} :
    (first >>= next) before = (.ok result, after) ↔
      ∃ value middle, first before = (.ok value, middle) ∧
        next value middle = (.ok result, after) := by
  rw [bind_apply]
  rcases first before with ⟨_ | _ | _, middle⟩ <;> simp

@[simp] theorem bind_eq_err {first : Call σ ε α} {next : α → Call σ ε β} {before after : σ}
    {reason : ε} :
    (first >>= next) before = (.err reason, after) ↔
      first before = (.err reason, after) ∨
        ∃ value middle, first before = (.ok value, middle) ∧
          next value middle = (.err reason, after) := by
  rw [bind_apply]
  rcases first before with ⟨_ | _ | _, middle⟩ <;> simp

@[simp] theorem bind_eq_overflow {first : Call σ ε α} {next : α → Call σ ε β}
    {before after : σ} :
    (first >>= next) before = (.overflow, after) ↔
      first before = (.overflow, after) ∨
        ∃ value middle, first before = (.ok value, middle) ∧
          next value middle = (.overflow, after) := by
  rw [bind_apply]
  rcases first before with ⟨_ | _ | _, middle⟩ <;> simp

/-- How a call ends and the receiver it leaves meet a postcondition. -/
def Ensures (call : Call σ ε α) (post : Outcome ε α → σ → Prop) (state : σ) : Prop :=
  post (call state).1 (call state).2

/-- What a call does as a postcondition. -/
theorem eq_iff_ensures {call : Call σ ε α} {state after : σ} {outcome : Outcome ε α} :
    call state = (outcome, after) ↔
      Ensures call (fun found left => found = outcome ∧ left = after) state := Prod.ext_iff

/-- A call that returns `Err` on this receiver leaves it as it was. -/
def Inert (call : Call σ ε α) (state : σ) : Prop :=
  ∀ reason, (call state).1 = .err reason → (call state).2 = state

theorem Inert.unchanged {call : Call σ ε α} {state after : σ} {reason : ε}
    (inert : call.Inert state) (refused : call state = (.err reason, after)) : after = state := by
  have same := inert reason (congrArg Prod.fst refused)
  rw [refused] at same
  exact same

/-- A call is inert if none of the steps that end in `Err` changes the receiver. -/
theorem inert_of_step {call : Call σ ε α} {state : σ} {step : Outcome ε α → σ → Prop}
    (taken : step (call state).1 (call state).2)
    (unchanged : ∀ reason after, call state = (.err reason, after) → step (.err reason) after →
      after = state) : call.Inert state := by
  intro reason refused
  rw [refused] at taken
  exact unchanged reason _ (Prod.ext refused rfl) taken

section Ensures

-- The rules apply from the outside in, so that the conditions of guards are simplified as
-- propositions and not inside the guards, where their decision procedures would change with them.

variable {γ : Type} {post : Outcome ε β → σ → Prop} {state : σ}

/-- A weaker postcondition. -/
theorem Ensures.mono {call : Call σ ε β} {weaker : Outcome ε β → σ → Prop}
    (ensured : Ensures call post state)
    (weaken : ∀ outcome after, post outcome after → weaker outcome after) :
    Ensures call weaker state := weaken _ _ ensured

@[simp ↓] theorem ensures_pure {value : β} :
    Ensures (pure value) post state ↔ post (.ok value) state := Iff.rfl

@[simp ↓] theorem ensures_lift {outcome : Outcome ε β} :
    Ensures (liftM outcome) post state ↔ post outcome state := Iff.rfl

@[simp ↓] theorem ensures_pure_bind {value : α} {next : α → Call σ ε β} :
    Ensures (pure value >>= next) post state ↔ Ensures (next value) post state := Iff.rfl

@[simp ↓] theorem ensures_get_bind {next : σ → Call σ ε β} :
    Ensures (get >>= next) post state ↔ Ensures (next state) post state := Iff.rfl

@[simp ↓] theorem ensures_modify_bind {update : σ → σ} {next : PUnit → Call σ ε β} :
    Ensures (modify update >>= next) post state ↔ Ensures (next ⟨⟩) post (update state) := Iff.rfl

/-- A call runs its first part, and the rest of it if that returns `Ok`. -/
theorem ensures_bind {first : Call σ ε α} {next : α → Call σ ε β} :
    Ensures (first >>= next) post state ↔
      (∀ value middle, first state = (.ok value, middle) → Ensures (next value) post middle) ∧
        (∀ reason middle, first state = (.err reason, middle) → post (.err reason) middle) ∧
        ∀ middle, first state = (.overflow, middle) → post .overflow middle := by
  rw [Ensures, bind_apply]
  rcases first state with ⟨_ | _ | _, middle⟩ <;> simp [Ensures]

theorem ensures_bind_ok {first : Call σ ε α} {next : α → Call σ ε β} {value : α} {middle : σ}
    (returned : first state = (.ok value, middle)) :
    Ensures (first >>= next) post state ↔ Ensures (next value) post middle := by
  rw [Ensures, bind_apply, returned]
  rfl

theorem ensures_bind_err {first : Call σ ε α} {next : α → Call σ ε β} {reason : ε} {middle : σ}
    (refused : first state = (.err reason, middle)) :
    Ensures (first >>= next) post state ↔ post (.err reason) middle := by
  rw [Ensures, bind_apply, refused]

@[simp ↓] theorem ensures_lift_bind {outcome : Outcome ε α} {next : α → Call σ ε β} :
    Ensures (liftM outcome >>= next) post state ↔
      (∀ value, outcome = .ok value → Ensures (next value) post state) ∧
        (∀ reason, outcome = .err reason → post (.err reason) state) ∧
        (outcome = .overflow → post .overflow state) := by
  rw [ensures_bind]
  cases outcome <;> simp

@[simp ↓ high] theorem ensures_rejectIf_bind {condition : Prop} [Decidable condition] {reason : ε}
    {next : Unit → Call σ ε β} :
    Ensures (liftM (Outcome.rejectIf condition reason) >>= next) post state ↔
      (¬condition → Ensures (next ()) post state) ∧ (condition → post (.err reason) state) := by
  rw [ensures_lift_bind]
  by_cases holds : condition
  · simp [holds]
  · simp [holds]
    exact ⟨fun every => every (), fun here _ => here⟩

@[simp ↓ high] theorem ensures_okOr_bind {value : Option α} {reason : ε} {next : α → Call σ ε β} :
    Ensures (liftM (Outcome.okOr value reason) >>= next) post state ↔
      (∀ result, value = some result → Ensures (next result) post state) ∧
        (value = none → post (.err reason) state) := by
  rw [ensures_lift_bind]
  cases value <;> simp

@[simp ↓] theorem ensures_unchecked_bind {value : Option α} {next : α → Call σ ε β} :
    Ensures (unchecked value >>= next) post state ↔
      (∀ result, value = some result → Ensures (next result) post state) ∧
        (value = none → post .overflow state) := by
  rw [ensures_bind]
  cases value <;> simp [Outcome.unchecked]

/-- A borrowed part is judged by what the whole receiver becomes. -/
@[simp ↓] theorem ensures_borrow_bind {τ : Type} {view : σ → τ} {put : τ → σ → σ}
    {call : Call τ ε α} {next : α → Call σ ε β} :
    Ensures (borrow view put call >>= next) post state ↔
      Ensures call (fun outcome part => Ensures (liftM outcome >>= next) post (put part state))
        (view state) := by
  rw [Ensures, bind_apply, Ensures, Ensures, bind_apply]
  rfl

@[simp ↓] theorem ensures_bind_bind {first : Call σ ε α} {second : α → Call σ ε γ}
    {next : γ → Call σ ε β} :
    Ensures ((first >>= second) >>= next) post state ↔
      Ensures (first >>= fun value => second value >>= next) post state := by
  rw [bind_bind]

end Ensures

/-- Two calls on two receivers end alike and leave related receivers. -/
def Coupled (related : σ → σ → Prop) (first second : Call σ ε α) (left right : σ) : Prop :=
  (first left).1 = (second right).1 ∧ related (first left).2 (second right).2

section Coupled

variable {γ : Type} {related : σ → σ → Prop} {left right : σ}

@[simp ↓] theorem coupled_pure {value : α} :
    Coupled related (pure value : Call σ ε α) (pure value) left right ↔ related left right := by
  simp [Coupled]

@[simp ↓] theorem coupled_pure_bind {first second : α} {firstNext secondNext : α → Call σ ε β} :
    Coupled related (pure first >>= firstNext) (pure second >>= secondNext) left right ↔
      Coupled related (firstNext first) (secondNext second) left right := Iff.rfl

@[simp ↓] theorem coupled_get_bind {first second : σ → Call σ ε α} :
    Coupled related (get >>= first) (get >>= second) left right ↔
      Coupled related (first left) (second right) left right := Iff.rfl

@[simp ↓] theorem coupled_modify_bind {first second : σ → σ}
    {firstNext secondNext : PUnit → Call σ ε α} :
    Coupled related (modify first >>= firstNext) (modify second >>= secondNext) left right ↔
      Coupled related (firstNext ⟨⟩) (secondNext ⟨⟩) (first left) (second right) := Iff.rfl

@[simp ↓] theorem coupled_bind_bind {first second : Call σ ε α}
    {firstNext secondNext : α → Call σ ε β} {firstLast secondLast : β → Call σ ε γ} :
    Coupled related (first >>= firstNext >>= firstLast) (second >>= secondNext >>= secondLast)
        left right ↔
      Coupled related (first >>= fun value => firstNext value >>= firstLast)
        (second >>= fun value => secondNext value >>= secondLast) left right := by
  rw [bind_bind, bind_bind]

/-- The same fallible step on both sides. -/
theorem coupled_lift_bind_of_eq {outcome other : Outcome ε α} {first second : α → Call σ ε β}
    (here : related left right) (same : outcome = other) :
    Coupled related (liftM outcome >>= first) (liftM other >>= second) left right ↔
      ∀ value, outcome = .ok value → Coupled related (first value) (second value) left right := by
  subst same
  cases outcome <;> simp [Coupled, bind_apply, here]

@[simp ↓] theorem coupled_lift_bind {outcome : Outcome ε α} {first second : α → Call σ ε β}
    (here : related left right) :
    Coupled related (liftM outcome >>= first) (liftM outcome >>= second) left right ↔
      ∀ value, outcome = .ok value → Coupled related (first value) (second value) left right :=
  coupled_lift_bind_of_eq here rfl

@[simp ↓ high] theorem coupled_ok_bind {first second : α} {firstNext secondNext : α → Call σ ε β} :
    Coupled related (liftM (Outcome.ok first : Outcome ε α) >>= firstNext)
        (liftM (Outcome.ok second : Outcome ε α) >>= secondNext) left right ↔
      Coupled related (firstNext first) (secondNext second) left right := Iff.rfl

end Coupled

/-- A call that never changes what `view` shows of the receiver, however it ends. -/
def Keeps {τ : Type} (view : σ → τ) (call : Call σ ε α) : Prop :=
  ∀ state, view (call state).2 = view state

section Keeps

variable {τ : Type} {view : σ → τ}

theorem keeps_pure (value : α) : Keeps view (pure value : Call σ ε α) := fun _ => rfl

theorem keeps_get : Keeps view (get : Call σ ε σ) := fun _ => rfl

theorem keeps_unchecked (value : Option α) : Keeps view (unchecked value : Call σ ε α) :=
  fun _ => rfl

theorem keeps_modify {update : σ → σ} (same : ∀ state, view (update state) = view state) :
    Keeps view (modify update : Call σ ε PUnit) := same

theorem keeps_infallible {call : Call σ Empty α} (keeps : Keeps view call) :
    Keeps view (liftM call : Call σ ε α) := keeps

theorem keeps_bind {first : Call σ ε α} {next : α → Call σ ε β} (first_keeps : Keeps view first)
    (next_keeps : ∀ value, Keeps view (next value)) : Keeps view (first >>= next) := by
  intro state
  have first_same := first_keeps state
  rw [bind_apply]
  rcases result : first state with ⟨value | _ | _, middle⟩ <;> rw [result] at first_same
  · exact (next_keeps value middle).trans first_same
  · exact first_same
  · exact first_same

end Keeps

end Call

end Rust
