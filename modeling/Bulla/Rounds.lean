import Mathlib.Order.BooleanAlgebra.Set
import Mathlib.Data.List.Induction
import Mathlib.Logic.Function.Basic

/-!
# Rounds of acknowledgements

A coordinator opens numbered rounds, each with the set of participants it waits for.  A participant
acknowledges a round once, and a round is closed when everyone it waits for has acknowledged it.
Any number of rounds may be open at a time, and the moves of different rounds interleave freely.
-/

namespace Rounds

variable {α : Type*}

/-- What an observer sees of the protocol. -/
inductive Move (α : Type*) where
  | opened (round : ℕ) (targets : Set α)
  /-- `last` is the answer the participant gets: nobody else is waited for. -/
  | acknowledged (round : ℕ) (member : α) (last : Bool)
  | closed (round : ℕ)

namespace Move

/-- The round that a move is about. -/
def round : Move α → ℕ
  | opened round _ => round
  | acknowledged round _ _ => round
  | closed round => round

/-- The round that a move opens. -/
def opens : Move α → Option ℕ
  | opened round _ => some round
  | _ => none

/-- A participant acknowledges a round. -/
def Answers (round : ℕ) (member : α) : Move α → Prop
  | acknowledged answered sender _ => answered = round ∧ sender = member
  | _ => False

end Move

/-- An open round: those it waits for, and those who have acknowledged it. -/
structure Round (α : Type*) where
  targets : Set α
  answered : Set α

structure State (α : Type*) where
  /-- Number of the latest round. -/
  newest : ℕ
  pending : ℕ → Option (Round α)

/-- No round has been opened. -/
def idle : State α := ⟨0, fun _ => none⟩

/-- One move of the protocol. -/
inductive Step (before : State α) : Move α → State α → Prop
  | opened {round : ℕ} {targets : Set α} (newer : before.newest < round) :
      Step before (.opened round targets)
        ⟨round, Function.update before.pending round (some ⟨targets, ∅⟩)⟩
  | acknowledged {round : ℕ} {member : α} {last : Bool} {current : Round α}
      (found : before.pending round = some current) (target : member ∈ current.targets)
      (fresh : member ∉ current.answered)
      (last_iff : last = true ↔ insert member current.answered = current.targets) :
      Step before (.acknowledged round member last)
        { before with
          pending := Function.update before.pending round
            (some { current with answered := insert member current.answered }) }
  | closed {round : ℕ} {current : Round α} (found : before.pending round = some current)
      (complete : current.answered = current.targets) :
      Step before (.closed round)
        { before with pending := Function.update before.pending round none }

/-- The traces of the protocol, presented by their last move. -/
inductive Run : List (Move α) → State α → Prop
  | nil : Run [] idle
  | snoc {trace : List (Move α)} {before after : State α} {move : Move α} :
      Run trace before → Step before move after → Run (trace ++ [move]) after

/-- A step of a system that may show a move or none. -/
inductive Follows (before : State α) : Option (Move α) → State α → Prop
  | silent : Follows before none before
  | move {move : Move α} {after : State α} (step : Step before move after) :
      Follows before (some move) after

/-- A system whose steps follow the protocol shows traces of it. -/
theorem Run.follows {τ : Type*} {view : τ → Option (Move α)} {past : List τ} {occurred : τ}
    {before after : State α} (run : Run (past.filterMap view) before)
    (follows : Follows before (view occurred) after) :
    Run ((past ++ [occurred]).filterMap view) after := by
  rw [List.filterMap_append]
  generalize shown : view occurred = move at follows
  cases follows with
  | silent => simpa [shown] using run
  | move step => simpa [shown] using run.snoc step

open Classical in
/-- How often a participant acknowledges a round. -/
noncomputable def answers (round : ℕ) (member : α) (trace : List (Move α)) : ℕ :=
  trace.countP fun move => decide (move.Answers round member)

section Answers

variable (round : ℕ) (member : α)

@[simp] theorem answers_nil : answers round member [] = 0 := rfl

theorem answers_append (earlier later : List (Move α)) :
    answers round member (earlier ++ later) =
      answers round member earlier + answers round member later := by
  rw [answers, List.countP_append]
  rfl

theorem answers_of_not {move : Move α} (silent : ¬move.Answers round member) :
    answers round member [move] = 0 := by
  simp [answers, silent]

theorem answers_acknowledged (last : Bool) :
    answers round member [.acknowledged round member last] = 1 := by
  simp [answers, Move.Answers]

end Answers

/-- A round is open in a trace: since it was opened exactly those who have answered have
acknowledged it, once each. -/
structure Open (trace : List (Move α)) (round : ℕ) (current : Round α) (since : List (Move α)) :
    Prop where
  begun : ∃ earlier, trace = earlier ++ .opened round current.targets :: since
  unclosed : .closed round ∉ trace
  awaited : current.answered ⊆ current.targets
  once : ∀ member ∈ current.answered, answers round member since = 1
  silent : ∀ member ∉ current.answered, answers round member since = 0

/-- A round that has been opened and not closed. -/
def Live (trace : List (Move α)) (round : ℕ) : Prop :=
  round ∈ trace.filterMap Move.opens ∧ .closed round ∉ trace

/-- What a trace says about the state it leads to. -/
structure Accounts (trace : List (Move α)) (state : State α) : Prop where
  bounded : ∀ move ∈ trace, move.round ≤ state.newest
  increasing : (trace.filterMap Move.opens).Pairwise (· < ·)
  pending : ∀ round current, state.pending round = some current →
    ∃ since, Open trace round current since
  live : ∀ round, Live trace round → ∃ current, state.pending round = some current

/-- Moves that neither close a round nor acknowledge it leave it as it is. -/
theorem Open.snoc {trace since : List (Move α)} {round : ℕ} {current : Round α} {move : Move α}
    (open_ : Open trace round current since) (unclosed : .closed round ≠ move)
    (silent : ∀ member, ¬move.Answers round member) :
    Open (trace ++ [move]) round current (since ++ [move]) := by
  obtain ⟨earlier, trace_eq⟩ := open_.begun
  refine ⟨⟨earlier, ?_⟩, ?_, open_.awaited, ?_, ?_⟩
  · rw [trace_eq]
    simp
  · simp [open_.unclosed, unclosed]
  · intro member answered
    rw [answers_append, answers_of_not _ _ (silent member), open_.once member answered]
  · intro member unanswered
    rw [answers_append, answers_of_not _ _ (silent member), open_.silent member unanswered]

/-- A round that has just been opened is open. -/
theorem open_opened {trace : List (Move α)} {round : ℕ} {targets : Set α}
    (unclosed : .closed round ∉ trace) :
    Open (trace ++ [.opened round targets]) round ⟨targets, ∅⟩ [] where
  begun := ⟨trace, rfl⟩
  unclosed := by simp [unclosed]
  awaited := Set.empty_subset _
  once := by simp
  silent := by simp

/-- An acknowledgement adds its sender to those who have answered. -/
theorem Open.acknowledged {trace since : List (Move α)} {round : ℕ} {current : Round α}
    {member : α} (last : Bool) (open_ : Open trace round current since)
    (target : member ∈ current.targets) (fresh : member ∉ current.answered) :
    Open (trace ++ [.acknowledged round member last]) round
      { current with answered := insert member current.answered }
      (since ++ [.acknowledged round member last]) := by
  obtain ⟨earlier, trace_eq⟩ := open_.begun
  have others {other : α} (distinct : other ≠ member) :
      ¬(Move.acknowledged round member last).Answers round other := fun answers =>
    distinct answers.2.symm
  refine ⟨⟨earlier, ?_⟩, ?_, ?_, ?_, ?_⟩
  · rw [trace_eq]
    simp
  · simp [open_.unclosed]
  · exact Set.insert_subset target open_.awaited
  · rintro other (rfl | answered)
    · rw [answers_append, open_.silent other fresh, answers_acknowledged]
    · have distinct : other ≠ member := fun same => fresh (same ▸ answered)
      rw [answers_append, open_.once other answered, answers_of_not _ _ (others distinct)]
  · intro other unanswered
    have distinct : other ≠ member := fun same => unanswered (.inl same)
    rw [answers_append, answers_of_not _ _ (others distinct),
      open_.silent other fun answered => unanswered (.inr answered)]

theorem round_of_opens {move : Move α} {round : ℕ} (opens : move.opens = some round) :
    move.round = round := by
  cases move <;> simp_all [Move.opens, Move.round]

theorem Live.of_snoc {trace : List (Move α)} {move : Move α} {round : ℕ}
    (live : Live (trace ++ [move]) round) (opens : move.opens ≠ some round) :
    Live trace round := by
  obtain ⟨opened, unclosed⟩ := live
  simp only [List.filterMap_append, List.mem_append, List.mem_filterMap, List.mem_singleton,
    exists_eq_left, opens, or_false] at opened unclosed
  exact ⟨List.mem_filterMap.mpr opened, fun closed => unclosed (.inl closed)⟩

/-- A move about an open round keeps the account if it keeps the account of the open rounds. -/
theorem Accounts.snoc {trace : List (Move α)} {before : State α} {move : Move α}
    {current : Round α} {pending : ℕ → Option (Round α)} (accounts : Accounts trace before)
    (found : before.pending move.round = some current) (opens : move.opens = none)
    (kept : ∀ round current, pending round = some current →
      ∃ since, Open (trace ++ [move]) round current since)
    (live : ∀ round current, .closed round ≠ move → before.pending round = some current →
      ∃ current, pending round = some current) :
    Accounts (trace ++ [move]) { before with pending } := by
  refine ⟨?_, ?_, kept, fun round alive => ?_⟩
  · intro other member
    rcases List.mem_append.mp member with earlier | last
    · exact accounts.bounded other earlier
    · rw [List.mem_singleton.mp last]
      obtain ⟨since, open_⟩ := accounts.pending move.round current found
      obtain ⟨earlier, trace_eq⟩ := open_.begun
      exact accounts.bounded (.opened move.round current.targets) (by simp [trace_eq])
  · rw [List.filterMap_append, List.filterMap_cons_none opens, List.filterMap_nil, List.append_nil]
    exact accounts.increasing
  · obtain ⟨current, old⟩ := accounts.live round (alive.of_snoc (by simp [opens]))
    refine live round current ?_ old
    rintro rfl
    exact alive.2 (by simp)

theorem exists_update {pending : ℕ → Option (Round α)} {round other : ℕ} (current : Round α)
    (old : other ≠ round → ∃ current, pending other = some current) :
    ∃ found, Function.update pending round (some current) other = some found := by
  by_cases same : other = round
  · rw [same, Function.update_self]
    exact ⟨current, rfl⟩
  · rw [Function.update_of_ne same]
    exact old same

/-- A round that is opened is later than all there were. -/
theorem Accounts.opened {trace : List (Move α)} {before : State α} {round : ℕ}
    {targets : Set α} (accounts : Accounts trace before) (newer : before.newest < round) :
    Accounts (trace ++ [.opened round targets])
      ⟨round, Function.update before.pending round (some ⟨targets, ∅⟩)⟩ := by
  have unseen : ∀ move ∈ trace, move.round < round := fun move member =>
    (accounts.bounded move member).trans_lt newer
  refine ⟨?_, ?_, ?_, ?_⟩
  · intro move member
    rcases List.mem_append.mp member with earlier | last
    · exact (unseen move earlier).le
    · rw [List.mem_singleton.mp last]
      exact le_refl _
  · rw [List.filterMap_append, List.pairwise_append]
    refine ⟨accounts.increasing, List.pairwise_singleton _ _, ?_⟩
    intro earlier opened last last_member
    obtain ⟨move, member, opens⟩ := List.mem_filterMap.mp opened
    have last_eq : last = round := by simpa [Move.opens] using last_member
    rw [last_eq, ← round_of_opens opens]
    exact unseen move member
  · intro other current found
    by_cases same : other = round
    · subst same
      simp only [Function.update_self, Option.some.injEq] at found
      subst found
      exact ⟨[], open_opened fun closed => (unseen _ closed).ne rfl⟩
    · simp only [Function.update_of_ne same] at found
      obtain ⟨since, open_⟩ := accounts.pending other current found
      exact ⟨_, open_.snoc nofun fun _ => id⟩
  · intro other live
    refine exists_update _ fun distinct => accounts.live other (live.of_snoc fun opens => ?_)
    exact distinct (Option.some.inj opens).symm

/-- One move keeps the account. -/
theorem accounts_step {trace : List (Move α)} {before after : State α} {move : Move α}
    (accounts : Accounts trace before) (step : Step before move after) :
    Accounts (trace ++ [move]) after := by
  cases step with
  | opened newer => exact accounts.opened newer
  | @acknowledged round member last answered found target fresh last_iff =>
      refine accounts.snoc found rfl ?_ fun other current _ old =>
        exists_update _ fun _ => ⟨current, old⟩
      intro other current other_found
      by_cases same : other = round
      · subst same
        simp only [Function.update_self, Option.some.injEq] at other_found
        subst other_found
        obtain ⟨since, open_⟩ := accounts.pending other answered found
        exact ⟨_, open_.acknowledged last target fresh⟩
      · simp only [Function.update_of_ne same] at other_found
        obtain ⟨since, open_⟩ := accounts.pending other current other_found
        exact ⟨_, open_.snoc nofun fun _ answers => same answers.1.symm⟩
  | @closed round answered found complete =>
      refine accounts.snoc found rfl ?_ fun other current distinct old =>
        ⟨current, by rwa [Function.update_of_ne fun same => distinct (by rw [same])]⟩
      intro other current other_found
      by_cases same : other = round
      · subst same
        simp at other_found
      · simp only [Function.update_of_ne same] at other_found
        obtain ⟨since, open_⟩ := accounts.pending other current other_found
        exact ⟨_, open_.snoc (fun closed => same (Move.closed.inj closed)) fun _ => id⟩

theorem Run.accounts {trace : List (Move α)} {state : State α} (run : Run trace state) :
    Accounts trace state := by
  induction run with
  | nil => exact ⟨by simp, by simp, by simp [idle], by simp [Live]⟩
  | snoc _ step induction => exact accounts_step induction step

/-- The last move of a trace is made in a state that the moves before it lead to. -/
theorem Run.last {trace : List (Move α)} {move : Move α} {state : State α}
    (run : Run (trace ++ [move]) state) : ∃ before, Run trace before ∧ Step before move state := by
  generalize trace_eq : trace ++ [move] = moves at run
  cases run with
  | nil => simp at trace_eq
  | snoc run step =>
      obtain ⟨rfl, move_eq⟩ := List.append_inj' trace_eq rfl
      cases move_eq
      exact ⟨_, run, step⟩

theorem Run.step_at {earlier later : List (Move α)} {move : Move α} {state : State α}
    (run : Run (earlier ++ move :: later) state) :
    ∃ before after, Run earlier before ∧ Step before move after := by
  induction later using List.reverseRecOn generalizing state with
  | nil =>
      obtain ⟨before, reached, step⟩ := run.last
      exact ⟨before, state, reached, step⟩
  | append_singleton later final induction =>
      rw [← List.cons_append, ← List.append_assoc] at run
      obtain ⟨before, reached, -⟩ := run.last
      exact induction reached

/-- One more answer completes a round exactly if it is the only one missing. -/
theorem Open.insert_eq_targets_iff {trace since : List (Move α)} {round : ℕ} {current : Round α}
    {member : α} (open_ : Open trace round current since) (fresh : member ∉ current.answered) :
    insert member current.answered = current.targets ↔
      {other ∈ current.targets | answers round other since = 0} = {member} := by
  have missing : {other ∈ current.targets | answers round other since = 0} =
      current.targets \ current.answered := by
    ext other
    by_cases answered : other ∈ current.answered
    · simp [answered, open_.once other answered]
    · simp [answered, open_.silent other answered]
  rw [missing]
  constructor
  · intro complete
    rw [← complete, Set.insert_sdiff_of_notMem _ fresh, Set.sdiff_self, insert_empty_eq]
  · intro only
    rw [← Set.union_sdiff_cancel open_.awaited, only, Set.union_singleton]

/-- A round that still waits for the participant. -/
def Awaits (trace : List (Move α)) (round : ℕ) (member : α) : Prop :=
  .closed round ∉ trace ∧ ∃ before targets between,
    trace = before ++ .opened round targets :: between ∧ member ∈ targets ∧
      answers round member between = 0

/-- A round that everyone it waits for has acknowledged. -/
def Complete (trace : List (Move α)) (round : ℕ) : Prop :=
  .closed round ∉ trace ∧ ∃ before targets between,
    trace = before ++ .opened round targets :: between ∧
      ∀ member ∈ targets, answers round member between = 1

/-- A round is opened in one place. -/
theorem opened_unique {round : ℕ} {targets others : Set α} {front back since later : List (Move α)}
    (increasing : ((front ++ .opened round targets :: since).filterMap Move.opens).Pairwise (· < ·))
    (same : front ++ .opened round targets :: since = back ++ .opened round others :: later) :
    targets = others ∧ since = later := by
  -- Otherwise one of the two moves comes after the other, with the same number.
  have apart {first second : Set α} {gap rest : List (Move α)}
      (pairwise : ((.opened round first :: (gap ++ .opened round second :: rest)).filterMap
        Move.opens).Pairwise (· < ·)) : False := by
    simp only [List.filterMap_cons, Move.opens, List.filterMap_append,
      List.pairwise_cons] at pairwise
    exact lt_irrefl round (pairwise.1 round (by simp))
  rcases List.append_eq_append_iff.mp same with ⟨gap, back_eq, rest_eq⟩ | ⟨gap, front_eq, rest_eq⟩
  · cases gap with
    | nil => simpa using rest_eq
    | cons move gap =>
        obtain ⟨rfl, rfl⟩ := List.cons.inj rest_eq
        rw [List.filterMap_append, List.pairwise_append] at increasing
        exact (apart increasing.2.1).elim
  · cases gap with
    | nil =>
        obtain ⟨move_eq, rfl⟩ := List.cons.inj rest_eq
        exact ⟨(Move.opened.inj move_eq).2.symm, rfl⟩
    | cons move gap =>
        obtain ⟨rfl, rfl⟩ := List.cons.inj rest_eq
        rw [same, List.filterMap_append, List.pairwise_append] at increasing
        exact (apart increasing.2.1).elim

section Live

variable {trace : List (Move α)} {state : State α} {round : ℕ}

/-- An open round is pending, with the answers since it was opened. -/
theorem Run.open_of_opened (run : Run trace state) (unclosed : .closed round ∉ trace)
    {before between : List (Move α)} {targets : Set α}
    (trace_eq : trace = before ++ .opened round targets :: between) :
    ∃ answered, state.pending round = some ⟨targets, answered⟩ ∧
      Open trace round ⟨targets, answered⟩ between := by
  have opened : round ∈ trace.filterMap Move.opens := by
    simp [trace_eq, List.filterMap_append, Move.opens]
  obtain ⟨⟨found_targets, answered⟩, found⟩ := run.accounts.live round ⟨opened, unclosed⟩
  obtain ⟨since, open_⟩ := run.accounts.pending round _ found
  obtain ⟨front, front_eq⟩ := open_.begun
  have increasing := run.accounts.increasing
  rw [trace_eq] at increasing front_eq
  obtain ⟨rfl, rfl⟩ := opened_unique increasing front_eq
  exact ⟨answered, found, open_⟩

theorem Run.live_iff (run : Run trace state) :
    Live trace round ↔ ∃ current, state.pending round = some current := by
  refine ⟨run.accounts.live round, ?_⟩
  rintro ⟨current, found⟩
  obtain ⟨since, open_⟩ := run.accounts.pending round current found
  obtain ⟨front, trace_eq⟩ := open_.begun
  exact ⟨by simp [trace_eq, List.filterMap_append, Move.opens], open_.unclosed⟩

theorem Run.awaits_iff (run : Run trace state) {member : α} :
    Awaits trace round member ↔ ∃ current, state.pending round = some current ∧
      member ∈ current.targets ∧ member ∉ current.answered := by
  constructor
  · rintro ⟨unclosed, before, targets, between, trace_eq, target, missing⟩
    obtain ⟨answered, found, open_⟩ := run.open_of_opened unclosed trace_eq
    refine ⟨_, found, target, fun given => ?_⟩
    rw [open_.once member given] at missing
    cases missing
  · rintro ⟨current, found, target, fresh⟩
    obtain ⟨since, open_⟩ := run.accounts.pending round current found
    obtain ⟨front, trace_eq⟩ := open_.begun
    exact ⟨open_.unclosed, front, _, since, trace_eq, target, open_.silent member fresh⟩

theorem Run.complete_iff (run : Run trace state) :
    Complete trace round ↔
      ∃ current, state.pending round = some current ∧ current.answered = current.targets := by
  constructor
  · rintro ⟨unclosed, before, targets, between, trace_eq, all⟩
    obtain ⟨answered, found, open_⟩ := run.open_of_opened unclosed trace_eq
    refine ⟨_, found, open_.awaited.antisymm fun member target => ?_⟩
    by_contra fresh
    have once := all member target
    rw [open_.silent member fresh] at once
    cases once
  · rintro ⟨current, found, complete⟩
    obtain ⟨since, open_⟩ := run.accounts.pending round current found
    obtain ⟨front, trace_eq⟩ := open_.begun
    refine ⟨open_.unclosed, front, _, since, trace_eq, fun member target => ?_⟩
    exact open_.once member (complete ▸ target)

end Live

/-- What the participants of a trace can rely on. -/
structure Agreed (trace : List (Move α)) : Prop where
  /-- Rounds are numbered in ascending order, and no number is used twice. -/
  increasing : (trace.filterMap Move.opens).Pairwise (· < ·)
  /-- A round is closed once, after it was opened, and in between everyone it waits for has
  acknowledged it exactly once and nobody else has. -/
  closed : ∀ earlier round later, trace = earlier ++ .closed round :: later →
    .closed round ∉ earlier ∧
      ∃ before targets between, earlier = before ++ .opened round targets :: between ∧
        (∀ member ∈ targets, answers round member between = 1) ∧
        ∀ member ∉ targets, answers round member between = 0
  /-- An acknowledgement is taken from those an open round still waits for, and is the last one
  exactly if it is the only one missing. -/
  acknowledged : ∀ earlier round member last later,
    trace = earlier ++ .acknowledged round member last :: later →
      .closed round ∉ earlier ∧
        ∃ before targets between, earlier = before ++ .opened round targets :: between ∧
          member ∈ targets ∧ answers round member between = 0 ∧
          (last = true ↔ {other ∈ targets | answers round other between = 0} = {member})

theorem Run.agreed {trace : List (Move α)} {state : State α} (run : Run trace state) :
    Agreed trace where
  increasing := run.accounts.increasing
  closed := by
    rintro earlier round later rfl
    obtain ⟨before, after, reached, step⟩ := run.step_at
    cases step with
    | @closed _ current found complete =>
        obtain ⟨since, open_⟩ := reached.accounts.pending round current found
        obtain ⟨front, earlier_eq⟩ := open_.begun
        refine ⟨open_.unclosed, front, current.targets, since, earlier_eq, ?_, ?_⟩
        · exact fun member target => open_.once member (complete ▸ target)
        · exact fun member foreign => open_.silent member (complete ▸ foreign)
  acknowledged := by
    rintro earlier round member last later rfl
    obtain ⟨before, after, reached, step⟩ := run.step_at
    cases step with
    | @acknowledged _ _ _ current found target fresh last_iff =>
        obtain ⟨since, open_⟩ := reached.accounts.pending round current found
        obtain ⟨front, earlier_eq⟩ := open_.begun
        refine ⟨open_.unclosed, front, current.targets, since, earlier_eq, target,
          open_.silent member fresh, last_iff.trans (open_.insert_eq_targets_iff fresh)⟩

end Rounds
