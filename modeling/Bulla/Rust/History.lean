import Mathlib.Data.List.Induction
import Bulla.Rust.Call

/-!
# Histories of calls

A component is driven by a list of inputs.  Its history records every call in order, rejected calls
included, with the receiver before and after it.  A property of every state and every event of every
run is proved by `run_induction`: it holds of the empty history and survives one more call.
-/

namespace Rust

/-- One call of a run. -/
structure Event (σ ι ε ω : Type) where
  /-- Receiver when the call is made. -/
  before : σ
  /-- Which operation is called, with its arguments. -/
  input : ι
  /-- How the call ends. -/
  outcome : Outcome ε ω
  /-- Receiver the call leaves. -/
  after : σ

variable {σ ι ε ω : Type} (perform : ι → Call σ ε ω)

/-- The event of performing one input on a receiver. -/
def event (state : σ) (input : ι) : Event σ ι ε ω where
  before := state
  input := input
  outcome := (perform input state).1
  after := (perform input state).2

/-- The events of a list of inputs, in order. -/
def history : σ → List ι → List (Event σ ι ε ω)
  | _, [] => []
  | state, input :: inputs =>
      event perform state input :: history (event perform state input).after inputs

/-- The receiver after a list of inputs. -/
def final : σ → List ι → σ
  | state, [] => state
  | state, input :: inputs => final (event perform state input).after inputs

@[simp] theorem event_input (state : σ) (input : ι) :
    (event perform state input).input = input := rfl

theorem history_append (state : σ) (earlier later : List ι) :
    history perform state (earlier ++ later) =
      history perform state earlier ++ history perform (final perform state earlier) later := by
  induction earlier generalizing state with
  | nil => rfl
  | cons input inputs induction => simp [history, final, induction]

theorem final_append (state : σ) (earlier later : List ι) :
    final perform state (earlier ++ later) =
      final perform (final perform state earlier) later := by
  induction earlier generalizing state with
  | nil => rfl
  | cons input inputs induction => simp [final, induction]

/-- A relation between histories and states holds of every run if it survives one more call after
any run.  What is known of all runs can be used for the step. -/
theorem run_induction_reached {motive : List (Event σ ι ε ω) → σ → Prop} {initial : σ}
    (nil : motive [] initial)
    (snoc : ∀ inputs input,
      motive (history perform initial inputs) (final perform initial inputs) →
      motive (history perform initial inputs ++
          [event perform (final perform initial inputs) input])
        (event perform (final perform initial inputs) input).after) (inputs : List ι) :
    motive (history perform initial inputs) (final perform initial inputs) := by
  induction inputs using List.reverseRecOn with
  | nil => exact nil
  | append_singleton inputs input induction =>
      rw [history_append, final_append]
      exact snoc inputs input induction

/-- A relation between histories and states that survives one more call holds of every run. -/
theorem run_induction {motive : List (Event σ ι ε ω) → σ → Prop} {initial : σ}
    (nil : motive [] initial)
    (snoc : ∀ past state input, motive past state →
      motive (past ++ [event perform state input]) (event perform state input).after)
    (inputs : List ι) :
    motive (history perform initial inputs) (final perform initial inputs) :=
  run_induction_reached perform nil (fun _ input => snoc _ _ input) inputs

/-- What every event of a run keeps holds at its end if it holds at its start. -/
theorem final_of_events {motive : σ → Prop} {initial : σ} {inputs : List ι} (start : motive initial)
    (kept : ∀ occurred ∈ history perform initial inputs,
      motive occurred.before → motive occurred.after) :
    motive (final perform initial inputs) := by
  induction inputs generalizing initial with
  | nil => exact start
  | cons input inputs induction =>
      refine induction (kept _ List.mem_cons_self start) ?_
      exact fun occurred later => kept occurred (List.mem_cons_of_mem _ later)

/-- Receivers that every call leaves related are related at the end of every run. -/
theorem related_final {related : σ → σ → Prop} {left right : σ} (start : related left right)
    (coupled : ∀ input left right, related left right →
      Call.Coupled related (perform input) (perform input) left right) (inputs : List ι) :
    related (final perform left inputs) (final perform right inputs) := by
  induction inputs generalizing left right with
  | nil => exact start
  | cons input inputs induction => exact induction (coupled input left right start).2

/-- A component and a reference whose calls end alike on related receivers end every call of every
run alike. -/
theorem outcomes_eq_of_simulation {τ : Type} {reference : ι → Call τ ε ω} {related : σ → τ → Prop}
    (simulates : ∀ input concrete abstract, related concrete abstract →
      (perform input concrete).1 = (reference input abstract).1 ∧
        related (perform input concrete).2 (reference input abstract).2)
    {concrete : σ} {abstract : τ} (start : related concrete abstract) (inputs : List ι) :
    (history perform concrete inputs).map (·.outcome) =
        (history reference abstract inputs).map (·.outcome) ∧
      related (final perform concrete inputs) (final reference abstract inputs) := by
  induction inputs generalizing concrete abstract with
  | nil => exact ⟨rfl, start⟩
  | cons input inputs induction =>
      obtain ⟨same, next⟩ := simulates input concrete abstract start
      obtain ⟨later, ends⟩ := induction next
      exact ⟨congrArg₂ List.cons same later, ends⟩

/-- A component whose steps each make at most one call of a reference, and see of it what the
reference shows, sees in every run what the run of those calls shows. -/
theorem filterMap_eq_of_simulation {τ κ δ χ β : Type} {reference : κ → Call τ δ χ}
    {related : σ → τ → Prop} {call : Event σ ι ε ω → Option κ} {seen : Event σ ι ε ω → Option β}
    {view : Event τ κ δ χ → β}
    (silent : ∀ input concrete abstract, related concrete abstract →
      call (event perform concrete input) = none →
      seen (event perform concrete input) = none ∧
        related (event perform concrete input).after abstract)
    (called : ∀ input concrete abstract request, related concrete abstract →
      call (event perform concrete input) = some request →
      seen (event perform concrete input) = some (view (event reference abstract request)) ∧
        related (event perform concrete input).after (event reference abstract request).after)
    {concrete : σ} {abstract : τ} (start : related concrete abstract) (inputs : List ι) :
    (history perform concrete inputs).filterMap seen =
        (history reference abstract ((history perform concrete inputs).filterMap call)).map view ∧
      related (final perform concrete inputs)
        (final reference abstract ((history perform concrete inputs).filterMap call)) := by
  induction inputs generalizing concrete abstract with
  | nil => exact ⟨rfl, start⟩
  | cons input inputs induction =>
      rcases made : call (event perform concrete input) with _ | request
      · obtain ⟨unseen, next⟩ := silent input concrete abstract start made
        simp only [history, List.filterMap_cons, made, unseen]
        exact induction next
      · obtain ⟨shown, next⟩ := called input concrete abstract request start made
        obtain ⟨later, ends⟩ := induction next
        simp only [history, List.filterMap_cons, made, shown, List.map_cons]
        exact ⟨congrArg (List.cons _) later, ends⟩

/-- A goal is within reach of a run if, as long as nothing has gone wrong, some more inputs bring it
closer and nothing goes wrong. -/
theorem exists_final_of_progress_while (goal alive : σ → Prop) {initial : σ} (measure : σ → ℕ)
    (progress : ∀ inputs, alive (final perform initial inputs) →
      ¬goal (final perform initial inputs) →
      ∃ more, alive (final perform (final perform initial inputs) more) ∧
        measure (final perform (final perform initial inputs) more) <
          measure (final perform initial inputs)) (inputs : List ι)
    (unharmed : alive (final perform initial inputs)) :
    ∃ later, alive (final perform initial (inputs ++ later)) ∧
      goal (final perform initial (inputs ++ later)) := by
  -- Induction on what is left to do.
  induction left : measure (final perform initial inputs) using Nat.strongRecOn
    generalizing inputs with
  | ind left_to_do induction =>
      subst left
      by_cases reached : goal (final perform initial inputs)
      · exact ⟨[], by rwa [List.append_nil], by rwa [List.append_nil]⟩
      · obtain ⟨more, unharmed, less⟩ := progress inputs unharmed reached
        rw [← final_append] at unharmed less
        obtain ⟨later, reached⟩ := induction _ less (inputs ++ more) unharmed rfl
        exact ⟨more ++ later, by rwa [← List.append_assoc]⟩

/-- A goal is within reach of every run if, whatever has happened, some more inputs bring it
closer. -/
theorem exists_final_of_progress (goal : σ → Prop) {initial : σ} (measure : σ → ℕ)
    (progress : ∀ inputs, ¬goal (final perform initial inputs) →
      ∃ more, measure (final perform (final perform initial inputs) more) <
        measure (final perform initial inputs)) (inputs : List ι) :
    ∃ later, goal (final perform initial (inputs ++ later)) := by
  obtain ⟨later, _, reached⟩ := exists_final_of_progress_while perform goal (fun _ => True) measure
    (fun inputs _ unreached => (progress inputs unreached).imp fun _ less => ⟨trivial, less⟩)
    inputs trivial
  exact ⟨later, reached⟩

/-- The outcomes of the chosen calls of a run are those of a run of the chosen calls alone, if these
keep the receivers of the two runs related and the other calls cannot be noticed. -/
theorem outcomes_filter (chosen : ι → Bool) {related : σ → σ → Prop} {left right : σ}
    (start : related left right)
    (coupled : ∀ input left right, chosen input = true → related left right →
      Call.Coupled related (perform input) (perform input) left right)
    (unnoticed : ∀ input left right, chosen input = false → related left right →
      related (perform input left).2 right) (inputs : List ι) :
    ((history perform left inputs).filter fun occurred => chosen occurred.input).map (·.outcome) =
      (history perform right (inputs.filter chosen)).map (·.outcome) := by
  induction inputs generalizing left right with
  | nil => rfl
  | cons input inputs induction =>
      cases choice : chosen input with
      | true =>
          obtain ⟨same, next⟩ := coupled input left right choice start
          simp only [history, List.filter_cons, event_input, choice, if_true, List.map_cons]
          exact congrArg₂ List.cons same (induction next)
      | false =>
          simp only [history, List.filter_cons, event_input, choice, Bool.false_eq_true, if_false]
          exact induction (unnoticed input left right choice start)

/-- The events of a later part of a run are events of the run. -/
theorem mem_history_of_later {initial : σ} {earlier later : List ι} {occurred : Event σ ι ε ω}
    (member : occurred ∈ history perform (final perform initial earlier) later) :
    occurred ∈ history perform initial (earlier ++ later) := by
  rw [history_append]
  exact List.mem_append_right _ member

/-- Every event of a run is performed on a state reached by an initial part of the inputs. -/
theorem exists_split_of_mem_history {initial : σ} {inputs : List ι} {occurred : Event σ ι ε ω}
    (member : occurred ∈ history perform initial inputs) :
    ∃ earlier later, inputs = earlier ++ occurred.input :: later ∧
      occurred = event perform (final perform initial earlier) occurred.input := by
  induction inputs generalizing initial with
  | nil => simp [history] at member
  | cons input inputs induction =>
      rcases List.mem_cons.mp member with rfl | later
      · exact ⟨[], inputs, rfl, rfl⟩
      · obtain ⟨earlier, rest, inputs_eq, occurred_eq⟩ := induction later
        exact ⟨input :: earlier, rest, by rw [inputs_eq]; rfl, occurred_eq⟩

theorem event_of_mem_history {initial : σ} {inputs : List ι} {occurred : Event σ ι ε ω}
    (member : occurred ∈ history perform initial inputs) :
    occurred = event perform occurred.before occurred.input := by
  obtain ⟨earlier, later, _, occurred_eq⟩ := exists_split_of_mem_history perform member
  rw [occurred_eq]
  rfl

/-- Every event of a run is a step, if every call is. -/
theorem step_of_mem_history {step : σ → ι → Outcome ε ω → σ → Prop}
    (performs : ∀ input state, step state input (perform input state).1 (perform input state).2)
    {initial : σ} {inputs : List ι} {occurred : Event σ ι ε ω}
    (member : occurred ∈ history perform initial inputs) :
    step occurred.before occurred.input occurred.outcome occurred.after := by
  rw [event_of_mem_history perform member]
  exact performs occurred.input occurred.before

/-- What a history shows, with one more event. -/
theorem filterMap_snoc {τ β : Type} (view : τ → Option β) (past : List τ) (occurred : τ) :
    (past ++ [occurred]).filterMap view = past.filterMap view ++ (view occurred).toList := by
  rw [List.filterMap_append, List.filterMap_cons]
  cases view occurred <;> rfl

/-- An event that shows nothing does not count. -/
theorem filterMap_snoc_of_none {τ β : Type} {view : τ → Option β} (past : List τ) {occurred : τ}
    (silent : view occurred = none) :
    (past ++ [occurred]).filterMap view = past.filterMap view := by
  rw [filterMap_snoc, silent, Option.toList_none, List.append_nil]

theorem mem_filterMap_snoc {τ β : Type} {view : τ → Option β} {past : List τ} {occurred : τ}
    {value : β} :
    value ∈ (past ++ [occurred]).filterMap view ↔
      value ∈ past.filterMap view ∨ view occurred = some value := by
  rw [filterMap_snoc, List.mem_append, Option.mem_toList]

/-- An event that shows something is not the last one, if that shows nothing. -/
theorem mem_of_mem_snoc {τ β : Type} {view : τ → Option β} {past : List τ} {occurred other : τ}
    {value : β} (silent : view occurred = none) (member : other ∈ past ++ [occurred])
    (shown : view other = some value) : other ∈ past := by
  rcases List.mem_append.mp member with earlier | last
  · exact earlier
  · rw [List.mem_singleton.mp last, silent] at shown
    cases shown

/-- Entries stay in order if the last one comes after all others. -/
theorem pairwise_map_snoc {τ β : Type} {related : β → β → Prop} {key : τ → β} {past : List τ}
    {last : τ} (ordered : (past.map key).Pairwise related)
    (after : ∀ earlier ∈ past, related (key earlier) (key last)) :
    ((past ++ [last]).map key).Pairwise related := by
  rw [List.map_append, List.pairwise_append]
  refine ⟨ordered, List.pairwise_singleton _ _, ?_⟩
  intro first member second second_member
  obtain ⟨earlier, found, rfl⟩ := List.mem_map.mp member
  obtain rfl := List.mem_singleton.mp second_member
  exact after earlier found

/-- What the last event to show anything shows. -/
def latest {τ β : Type} (view : τ → Option β) (events : List τ) : Option β :=
  (events.filterMap view).getLast?

theorem latest_snoc {τ β : Type} (view : τ → Option β) (past : List τ) (occurred : τ) :
    latest view (past ++ [occurred]) = (view occurred).or (latest view past) := by
  rw [latest, filterMap_snoc, List.getLast?_append, latest]
  cases view occurred <;> rfl

/-- Every event of a history meets a condition that may mention the events before it. -/
def Guarded {τ : Type} (guard : List τ → τ → Prop) : List τ → List τ → Prop
  | _, [] => True
  | past, occurred :: rest => guard past occurred ∧ Guarded guard (past ++ [occurred]) rest

instance {τ : Type} (guard : List τ → τ → Prop) [∀ past occurred, Decidable (guard past occurred)] :
    (past events : List τ) → Decidable (Guarded guard past events)
  | _, [] => instDecidableTrue
  | past, occurred :: rest =>
      have : Decidable (Guarded guard (past ++ [occurred]) rest) :=
        instDecidableGuarded guard (past ++ [occurred]) rest
      inferInstanceAs (Decidable (_ ∧ _))

theorem guarded_append {τ : Type} (guard : List τ → τ → Prop) (past earlier later : List τ) :
    Guarded guard past (earlier ++ later) ↔
      Guarded guard past earlier ∧ Guarded guard (past ++ earlier) later := by
  induction earlier generalizing past with
  | nil => simp [Guarded]
  | cons occurred rest induction => simp [Guarded, induction, and_assoc]

theorem guarded_snoc {τ : Type} (guard : List τ → τ → Prop) (past : List τ) (occurred : τ) :
    Guarded guard [] (past ++ [occurred]) ↔ Guarded guard [] past ∧ guard past occurred := by
  simp [guarded_append, Guarded]

theorem Guarded.mono {τ : Type} {guard weaker : List τ → τ → Prop} {past events : List τ}
    (guarded : Guarded guard past events)
    (weaken : ∀ past occurred, guard past occurred → weaker past occurred) :
    Guarded weaker past events := by
  induction events generalizing past with
  | nil => trivial
  | cons occurred rest induction => exact ⟨weaken _ _ guarded.1, induction guarded.2⟩

/-- The guard holds wherever the history is split. -/
theorem guarded_iff_split {τ : Type} {guard : List τ → τ → Prop} {events : List τ} :
    Guarded guard [] events ↔
      ∀ earlier occurred later, events = earlier ++ occurred :: later → guard earlier occurred := by
  constructor
  · rintro guarded earlier occurred later rfl
    exact ((guarded_append guard [] earlier _).mp guarded).2.1
  · intro split
    induction events using List.reverseRecOn with
    | nil => trivial
    | append_singleton events occurred induction =>
        rw [guarded_snoc]
        refine ⟨induction fun earlier found later events_eq => ?_, split events occurred [] rfl⟩
        exact split earlier found (later ++ [occurred]) (by simp [events_eq])

theorem guarded_iff_forall {τ : Type} (property : τ → Prop) (past events : List τ) :
    Guarded (fun _ occurred => property occurred) past events ↔
      ∀ occurred ∈ events, property occurred := by
  induction events generalizing past with
  | nil => simp [Guarded]
  | cons occurred rest induction => simp [Guarded, induction]

/-- What events show is never shown twice if no event shows anything that was shown before. -/
theorem nodup_filterMap_iff {τ β : Type} (view : τ → Option β) (events : List τ) :
    (events.filterMap view).Nodup ↔
      Guarded (fun past occurred => ∀ value ∈ view occurred, value ∉ past.filterMap view) []
        events := by
  induction events using List.reverseRecOn with
  | nil => simp [Guarded]
  | append_singleton events occurred induction =>
      rw [guarded_snoc, ← induction, filterMap_snoc, List.nodup_append]
      refine and_congr_right fun _ => ?_
      constructor
      · rintro ⟨_, differ⟩ value shown found
        exact differ value found value (Option.mem_toList.mpr shown) rfl
      · intro fresh
        refine ⟨by cases view occurred <;> simp, ?_⟩
        rintro earlier found value shown rfl
        exact fresh earlier (Option.mem_toList.mp shown) found

/-- Every event of a run passes a guard that the next call passes after any run. -/
theorem guarded_of_reached {shown : List (Event σ ι ε ω) → Event σ ι ε ω → Prop} {initial : σ}
    (passes : ∀ inputs input, shown (history perform initial inputs)
      (event perform (final perform initial inputs) input)) (inputs : List ι) :
    Guarded shown [] (history perform initial inputs) := by
  refine run_induction_reached perform (motive := fun past _ => Guarded shown [] past) trivial ?_
    inputs
  intro earlier input passed
  exact (guarded_snoc shown _ _).mpr ⟨passed, passes earlier input⟩

/-- A run that passes one guard passes another if an invariant that the first guard keeps implies
it. -/
theorem guarded_of_invariant (inv : List (Event σ ι ε ω) → σ → Prop)
    {shown condition : List (Event σ ι ε ω) → Event σ ι ε ω → Prop} {initial : σ}
    (nil : inv [] initial)
    (step : ∀ past state input, inv past state → condition past (event perform state input) →
      shown past (event perform state input) ∧
        inv (past ++ [event perform state input]) (event perform state input).after)
    (inputs : List ι) (passed : Guarded condition [] (history perform initial inputs)) :
    Guarded shown [] (history perform initial inputs) := by
  refine (run_induction perform (motive := fun past state =>
    Guarded condition [] past → Guarded shown [] past ∧ inv past state)
    (fun _ => ⟨trivial, nil⟩) ?_ inputs passed).1
  intro past state input induction extended
  rw [guarded_snoc] at extended
  obtain ⟨earlier, kept⟩ := induction extended.1
  obtain ⟨here, next⟩ := step past state input kept extended.2
  exact ⟨(guarded_snoc shown past _).mpr ⟨earlier, here⟩, next⟩

/-- Two guards hold of the same runs if an invariant makes them agree on the next call and is kept
by every call that passes the second. -/
theorem guarded_iff_of_invariant (inv : List (Event σ ι ε ω) → σ → Prop)
    {shown condition : List (Event σ ι ε ω) → Event σ ι ε ω → Prop} {initial : σ}
    (nil : inv [] initial)
    (agree : ∀ past state input, inv past state →
      (shown past (event perform state input) ↔ condition past (event perform state input)))
    (kept : ∀ past state input, inv past state → condition past (event perform state input) →
      inv (past ++ [event perform state input]) (event perform state input).after)
    (inputs : List ι) :
    Guarded shown [] (history perform initial inputs) ↔
      Guarded condition [] (history perform initial inputs) := by
  refine (run_induction perform (motive := fun past state =>
    (Guarded shown [] past ↔ Guarded condition [] past) ∧
      (Guarded condition [] past → inv past state))
    ⟨by simp [Guarded], fun _ => nil⟩ ?_ inputs).1
  rintro past state input ⟨same, inv_of_condition⟩
  simp only [guarded_snoc]
  constructor
  · rw [same]
    exact and_congr_right fun passed => agree past state input (inv_of_condition passed)
  · exact fun passed => kept past state input (inv_of_condition passed.1) passed.2

end Rust
