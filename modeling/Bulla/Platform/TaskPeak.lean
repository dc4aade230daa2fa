import Bulla.Platform.TaskRuns

/-!
# How many processors work at once

A processor in `run_tasks` adds itself to `POST_ACTIVE` once it has its first task, and has the
count in hand until `observe_max` has compared it with `POST_MAX_ACTIVE`.  The exchange there may
fail for no reason and is tried again, so no count gets lost: when all have returned, the maximum is
the number of processors that were counted at once.
-/

namespace Bulla.Platform

open Rust

namespace Worker

/-- The count that a processor has in hand, in `observe_max`. -/
def candidate : Worker → Option UInt64
  | .observing _ _ candidate => some candidate
  | .raising _ _ candidate _ => some candidate
  | _ => none

/-- An exchange is only tried with a higher count. -/
def Raises : Worker → Prop
  | .raising _ _ candidate observed => candidate > observed
  | _ => True

/-- What an operation does to the counts and to the maximum. -/
inductive Counts (before after : TaskCounters) (worker moved : Worker) : Prop
  /-- The processor is counted. -/
  | enters (idle : worker.candidate = none) (outside : worker.inside = 0)
      (counts : moved.candidate = some (before.active + 1)) (inside : moved.inside = 1)
      (same : after.maxActive = before.maxActive)
  /-- `observe_max` is over. -/
  | settles (candidate : UInt64) (counts : worker.candidate = some candidate)
      (idle : moved.candidate = none) (stays : moved.inside = worker.inside)
      (least : candidate ≤ after.maxActive) (mono : before.maxActive ≤ after.maxActive)
      (most : after.maxActive = before.maxActive ∨ after.maxActive = candidate)
  /-- Anything else. -/
  | keeps (counts : moved.candidate = worker.candidate) (leaves : moved.inside ≤ worker.inside)
      (same : after.maxActive = before.maxActive)

theorem candidate_entered (seedTask expectedWorkers : UInt64) :
    (entered seedTask expectedWorkers).candidate = none := by
  unfold entered
  split <;> rfl

theorem raises_entered (seedTask expectedWorkers : UInt64) :
    (entered seedTask expectedWorkers).Raises := by
  unfold entered
  split <;> trivial

theorem raises_observed (seedTask expectedWorkers candidate current : UInt64) :
    (observed seedTask expectedWorkers candidate current).Raises := by
  unfold observed
  split
  · assumption
  · exact raises_entered seedTask expectedWorkers

theorem raises_step {self : TaskCounters} {worker : Worker} (spurious : Bool) :
    (worker.step spurious self).2.Raises := by
  cases worker with
  | observing => exact raises_observed _ _ _ _
  | raising =>
      rw [step]
      split
      · exact raises_entered _ _
      · exact raises_observed _ _ _ _
  | seeded | waiting | claiming =>
      simp only [step]
      split <;> trivial
  | _ => trivial

/-- A comparison with the maximum. -/
theorem counts_observed {self : TaskCounters} {worker : Worker} {candidate : UInt64}
    (seedTask expectedWorkers : UInt64) (counts : worker.candidate = some candidate)
    (inside : worker.inside = 1) :
    Counts self self worker (observed seedTask expectedWorkers candidate self.maxActive) := by
  have stays := (underway_observed seedTask expectedWorkers candidate self.maxActive).inside
  unfold observed at stays ⊢
  split
  · refine .keeps counts.symm ?_ rfl
    rw [inside]
    exact le_rfl
  · rename_i lower
    rw [if_neg lower] at stays
    exact .settles candidate counts (candidate_entered _ _) (stays.trans inside.symm)
      (UInt64.not_lt.mp lower) (UInt64.le_refl _) (.inl rfl)

theorem counts_step {self : TaskCounters} {worker : Worker} (spurious : Bool)
    (raises : worker.Raises) :
    Counts self (worker.step spurious self).1 worker (worker.step spurious self).2 := by
  cases worker with
  | entering => exact .enters rfl rfl rfl rfl rfl
  | observing seedTask expectedWorkers candidate =>
      exact counts_observed seedTask expectedWorkers rfl rfl
  | raising seedTask expectedWorkers candidate current =>
      rw [step]
      split
      · rename_i exchanged
        have higher : candidate > current := raises
        refine .settles candidate rfl (candidate_entered _ _)
          (underway_entered seedTask expectedWorkers).inside (UInt64.le_refl _) ?_ (.inr rfl)
        rw [exchanged.1]
        exact UInt64.le_of_lt higher
      · exact counts_observed seedTask expectedWorkers rfl rfl
  | seeded | waiting | claiming =>
      refine .keeps ?_ ?_ rfl <;> simp only [step] <;> split <;> simp [candidate, inside]
  | _ => exact .keeps rfl (by simp [step, inside]) rfl

theorem inside_le_one (worker : Worker) : worker.inside ≤ 1 := by
  cases worker <;> simp [inside]

end Worker

namespace Workers

variable {workers : ℕ} {past : List (TaskEvent workers)} {system : Workers workers}

/-- The largest number of processors that were counted in `POST_ACTIVE` at once. -/
def peak (past : List (TaskEvent workers)) : ℕ :=
  past.foldl (fun highest occurred => max highest (occurred.after.tally Worker.inside)) 0

theorem peak_snoc (past : List (TaskEvent workers)) (occurred : TaskEvent workers) :
    peak (past ++ [occurred]) = max (peak past) (occurred.after.tally Worker.inside) := by
  rw [peak, List.foldl_append]
  rfl

/-- How the maximum agrees with the counts of the processors. -/
structure Peaked (highest : ℕ) (system : Workers workers) : Prop where
  maximum : system.shared.maxActive.toNat ≤ highest
  candidates : ∀ cpu candidate, (system.own cpu).candidate = some candidate →
    candidate.toNat ≤ highest
  present : system.tally Worker.inside ≤ highest
  /-- The highest count is in the maximum, or some processor has it in hand. -/
  kept : highest ≤ system.shared.maxActive.toNat ∨
    ∃ cpu candidate, (system.own cpu).candidate = some candidate ∧ highest ≤ candidate.toNat
  raises : ∀ cpu, (system.own cpu).Raises

theorem peaked_boot : Peaked 0 (boot workers) := by
  refine ⟨le_rfl, ?_, ?_, .inl le_rfl, fun _ => trivial⟩
  · rintro cpu candidate ⟨⟩
  · simp [boot, Interleaved.tally, Worker.inside]

theorem Balanced.active_eq (balanced : Balanced past system) (fits : workers ≤ postTasks.toNat) :
    system.shared.active.toNat = system.tally Worker.inside := by
  have inside_le : system.tally Worker.inside ≤ workers := Interleaved.tally_le Worker.inside_le_one
  have tasks_eq : postTasks.toNat = 4096 := rfl
  rw [balanced.active]
  exact UInt64.toNat_ofNat_of_lt' (by rw [UInt64.size]; omega)

section Put

variable {highest : ℕ} {cpu : Fin workers} {after : TaskCounters} {moved : Worker}

/-- What the mover has in hand is the only count that may be new. -/
theorem candidates_put {holds : UInt64 → Prop}
    (here : ∀ candidate, moved.candidate = some candidate → holds candidate)
    (elsewhere : ∀ cpu candidate, (system.own cpu).candidate = some candidate → holds candidate)
    (other : Fin workers) (candidate : UInt64)
    (held : ((system.put cpu after moved).own other).candidate = some candidate) :
    holds candidate := by
  by_cases same : other = cpu
  · rw [same, Interleaved.put_own] at held
    exact here candidate held
  · rw [Interleaved.put_own_of_ne same] at held
    exact elsewhere other candidate held

/-- The others keep what they have in hand. -/
theorem kept_put {other : Fin workers} {candidate : UInt64} (distinct : other ≠ cpu)
    (held : (system.own other).candidate = some candidate) (most : highest ≤ candidate.toNat) :
    ∃ holder candidate, ((system.put cpu after moved).own holder).candidate = some candidate ∧
      highest ≤ candidate.toNat :=
  ⟨other, candidate, by rwa [Interleaved.put_own_of_ne distinct], most⟩

theorem Peaked.raises_put (peaked : Peaked highest system) (raises : moved.Raises) :
    ∀ other, ((system.put cpu after moved).own other).Raises :=
  Interleaved.forall_own_put peaked.raises raises fun _ raises => raises

/-- The count that a processor gets when it is counted is the number of those that are. -/
theorem count_enters (outside : (system.own cpu).inside = 0) (inside : moved.inside = 1)
    (active_eq : system.shared.active.toNat = system.tally Worker.inside)
    (fits : workers ≤ postTasks.toNat) :
    (system.shared.active + 1).toNat = (system.put cpu after moved).tally Worker.inside := by
  have balance := Interleaved.tally_put Worker.inside system cpu after moved
  have below : system.tally Worker.inside < workers :=
    Interleaved.tally_lt Worker.inside_le_one outside
  have tasks_eq : postTasks.toNat = 4096 := rfl
  rw [toNat_add_one (by omega)]
  omega

/-- One more processor is counted, and has the new count in hand. -/
theorem Peaked.enters (peaked : Peaked highest system) (raises : moved.Raises)
    (idle : (system.own cpu).candidate = none)
    (counts : moved.candidate = some (system.shared.active + 1))
    (same : after.maxActive = system.shared.maxActive)
    (count_eq : (system.shared.active + 1).toNat =
      (system.put cpu after moved).tally Worker.inside) :
    Peaked (max highest ((system.put cpu after moved).tally Worker.inside))
      (system.put cpu after moved) := by
  refine ⟨?_, ?_, le_max_right _ _, ?_, peaked.raises_put raises⟩
  · rw [Interleaved.put_shared, same]
    exact peaked.maximum.trans (le_max_left _ _)
  · refine candidates_put ?_ fun other candidate held =>
      (peaked.candidates other candidate held).trans (le_max_left _ _)
    intro candidate held
    rw [counts] at held
    cases held
    rw [count_eq]
    exact le_max_right _ _
  · rcases le_total highest ((system.put cpu after moved).tally Worker.inside) with new | old
    · refine .inr ⟨cpu, _, by rw [Interleaved.put_own, counts], ?_⟩
      rw [max_eq_right new, count_eq]
    · rw [max_eq_left old, Interleaved.put_shared, same]
      refine peaked.kept.imp_right ?_
      rintro ⟨other, candidate, held, most⟩
      refine kept_put ?_ held most
      rintro rfl
      rw [idle] at held
      cases held

/-- The count in hand has been compared with the maximum. -/
theorem Peaked.settles {settled : UInt64} (peaked : Peaked highest system) (raises : moved.Raises)
    (counts : (system.own cpu).candidate = some settled) (idle : moved.candidate = none)
    (least : settled ≤ after.maxActive) (mono : system.shared.maxActive ≤ after.maxActive)
    (most : after.maxActive = system.shared.maxActive ∨ after.maxActive = settled)
    (present : (system.put cpu after moved).tally Worker.inside ≤ highest) :
    Peaked highest (system.put cpu after moved) := by
  rw [UInt64.le_iff_toNat_le] at least mono
  refine ⟨?_, ?_, present, ?_, peaked.raises_put raises⟩
  · rw [Interleaved.put_shared]
    rcases most with same | same <;> rw [same]
    · exact peaked.maximum
    · exact peaked.candidates cpu settled counts
  · refine candidates_put ?_ peaked.candidates
    intro candidate held
    rw [idle] at held
    cases held
  · rw [Interleaved.put_shared]
    rcases peaked.kept with there | ⟨other, candidate, held, most⟩
    · exact .inl (there.trans mono)
    · by_cases same : other = cpu
      · subst same
        obtain rfl : settled = candidate := Option.some.inj (counts.symm.trans held)
        exact .inl (most.trans least)
      · exact .inr (kept_put same held most)

/-- Neither the maximum nor a count in hand changes. -/
theorem Peaked.keeps (peaked : Peaked highest system) (raises : moved.Raises)
    (counts : moved.candidate = (system.own cpu).candidate)
    (same : after.maxActive = system.shared.maxActive)
    (present : (system.put cpu after moved).tally Worker.inside ≤ highest) :
    Peaked highest (system.put cpu after moved) := by
  refine ⟨?_, ?_, present, ?_, peaked.raises_put raises⟩
  · rw [Interleaved.put_shared, same]
    exact peaked.maximum
  · refine candidates_put ?_ peaked.candidates
    rw [counts]
    exact peaked.candidates cpu
  · rw [Interleaved.put_shared, same]
    refine peaked.kept.imp_right ?_
    rintro ⟨other, candidate, held, most⟩
    refine ⟨other, candidate, ?_, most⟩
    by_cases moves : other = cpu
    · rwa [moves, Interleaved.put_own, counts, ← moves]
    · rwa [Interleaved.put_own_of_ne moves]

theorem Peaked.put (peaked : Peaked highest system)
    (counts : Worker.Counts system.shared after (system.own cpu) moved) (raises : moved.Raises)
    (active_eq : system.shared.active.toNat = system.tally Worker.inside)
    (fits : workers ≤ postTasks.toNat) :
    Peaked (max highest ((system.put cpu after moved).tally Worker.inside))
      (system.put cpu after moved) := by
  have balance := Interleaved.tally_put Worker.inside system cpu after moved
  have before := peaked.present
  cases counts with
  | enters idle outside counts inside same =>
      exact peaked.enters raises idle counts same (count_enters outside inside active_eq fits)
  | settles settled counts idle stays least mono most =>
      have present : (system.put cpu after moved).tally Worker.inside ≤ highest := by omega
      rw [max_eq_left present]
      exact peaked.settles raises counts idle least mono most present
  | keeps counts leaves same =>
      have present : (system.put cpu after moved).tally Worker.inside ≤ highest := by omega
      rw [max_eq_left present]
      exact peaked.keeps raises counts same present

end Put

theorem peaked_run (fits : workers ≤ postTasks.toNat) (schedule : List (Fin workers × Bool)) :
    Peaked (peak (history perform (boot workers) schedule))
      (final perform (boot workers) schedule) := by
  refine run_induction_reached perform (motive := fun past system => Peaked (peak past) system)
    peaked_boot ?_ schedule
  intro earlier turn peaked
  have active_eq := (balanced_run fits earlier).active_eq fits
  rw [peak_snoc]
  exact peaked.put (Worker.counts_step turn.2 (peaked.raises turn.1)) (Worker.raises_step turn.2)
    active_eq fits

theorem peak_le (schedule : List (Fin workers × Bool)) :
    peak (history perform (boot workers) schedule) ≤ workers := by
  refine run_induction perform (motive := fun past _ => peak past ≤ workers) (Nat.zero_le _) ?_
    schedule
  intro past system turn bounded
  rw [peak_snoc]
  exact max_le bounded (Interleaved.tally_le Worker.inside_le_one)

/-- In every schedule `POST_MAX_ACTIVE` is at most the largest number of processors that were
counted in `POST_ACTIVE` at once, and when all have returned it is that number. -/
theorem max_active_eq_peak (fits : workers ≤ postTasks.toNat)
    (schedule : List (Fin workers × Bool)) :
    (final perform (boot workers) schedule).shared.maxActive.toNat ≤
        peak (history perform (boot workers) schedule) ∧
      peak (history perform (boot workers) schedule) ≤ workers ∧
      ((∀ cpu, (final perform (boot workers) schedule).own cpu = .returned) →
        (final perform (boot workers) schedule).shared.maxActive.toNat =
          peak (history perform (boot workers) schedule)) := by
  have peaked := peaked_run fits schedule
  refine ⟨peaked.maximum, peak_le schedule, fun returned => le_antisymm peaked.maximum ?_⟩
  refine peaked.kept.resolve_right ?_
  rintro ⟨cpu, candidate, held, _⟩
  rw [returned cpu] at held
  cases held

/-- Two processors that have returned leave the largest number that were counted at once. -/
theorem max_active_eq_peak_two : ∃ schedule,
    (∀ cpu, (final perform (boot 2) schedule).own cpu = .returned) ∧
      (final perform (boot 2) schedule).shared.maxActive.toNat =
        peak (history perform (boot 2) schedule) := by
  obtain ⟨schedule, returned⟩ := exists_returned (show 1 ≤ 2 by decide) (by decide) []
  exact ⟨schedule, returned, (max_active_eq_peak (by decide) schedule).2.2 returned⟩

end Workers

end Bulla.Platform
