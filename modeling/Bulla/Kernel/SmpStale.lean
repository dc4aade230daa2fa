import Bulla.Kernel.SmpLifecycle

/-!
# Stale acknowledgements

An acknowledgement is stale when a later epoch is pending.  Interrupts stay pending, so this answer
is final for them.  A shootdown that is completed is no longer pending, and the one before it may be
acknowledged again.
-/

namespace Bulla.Kernel

open Rust Outcome

/-- An acknowledgement of the epoch by this processor is awaited. -/
structure Awaited (pending : BTreeMap UInt64 PendingEpoch) (epoch : UInt64) (cpu : CpuId) :
    Prop where
  newest : ∀ other ∈ pending, other.toNat ≤ epoch.toNat
  found : ∃ entry, pending[epoch]? = some entry ∧ cpu ∈ entry.targets.members ∧
    cpu ∉ entry.acknowledgements

section Acknowledge

variable {pending : BTreeMap UInt64 PendingEpoch} {epoch : UInt64} {cpu : CpuId}

/-- What the answer to an acknowledgement says about the pending epochs. -/
def Answers (pending : BTreeMap UInt64 PendingEpoch) (epoch : UInt64) (cpu : CpuId)
    (outcome : Outcome SmpError Bool) : Prop :=
  ((∃ last, outcome = .ok last) ↔ Awaited pending epoch cpu) ∧
    (outcome = .err .staleEpoch → ∃ other ∈ pending, epoch.toNat < other.toNat)

theorem answers_refused {reason : SmpError} (distinct : reason ≠ .staleEpoch)
    (unawaited : ¬Awaited pending epoch cpu) : Answers pending epoch cpu (.err reason) := by
  refine ⟨⟨?_, fun awaited => (unawaited awaited).elim⟩, fun same => ?_⟩
  · rintro ⟨_, accepted⟩
    cases accepted
  · exact (distinct (Outcome.err.inj same)).elim

theorem acknowledge_answers (pending : BTreeMap UInt64 PendingEpoch) (epoch : UInt64)
    (cpu : CpuId) :
    Call.Ensures (acknowledge epoch cpu) (fun outcome _ => Answers pending epoch cpu outcome)
      pending := by
  simp only [acknowledge]
  simp
  refine ⟨fun current value last => ⟨fun unstale => ⟨fun entry found => ?_, fun absent => ?_⟩, ?_⟩,
    fun empty => ?_⟩
  · have entry_eq {other : PendingEpoch} (other_found : pending[epoch]? = some other) :
        entry = other := Option.some.inj (found.symm.trans other_found)
    refine ⟨fun target => ⟨fun fresh => ?_, fun repeated => ?_⟩, fun foreign => ?_⟩
    · have newest (other : UInt64) (member : other ∈ pending) : other.toNat ≤ epoch.toNat := by
        have le_epoch := UInt64.le_iff_toNat_le.mp unstale
        by_cases same : other = current
        · rw [same]
          exact le_epoch
        · have below := (BTreeMap.getLast?_toList last).2 other _
            (Std.ExtTreeMap.getElem?_eq_some_getElem member) same
          have lt_current := UInt64.lt_iff_toNat_lt.mp (Std.compare_eq_lt.mp below)
          omega
      refine ⟨⟨fun _ => ⟨newest, entry, found, ?_, fresh⟩, fun _ => ⟨_, rfl⟩⟩, ?_⟩
      · simpa [CpuSet.contains] using target
      · simp
    · refine answers_refused (by simp) ?_
      rintro ⟨-, other, other_found, -, fresh⟩
      obtain rfl := entry_eq other_found
      exact fresh repeated
    · refine answers_refused (by simp) ?_
      rintro ⟨-, other, other_found, target, -⟩
      obtain rfl := entry_eq other_found
      rw [CpuSet.contains, Std.ExtTreeSet.contains_iff_mem.mpr target] at foreign
      cases foreign
  · refine answers_refused (by simp) ?_
    rintro ⟨-, other, other_found, -⟩
    exact absent (BTreeMap.mem_of_present other_found)
  · intro stale
    have member : current ∈ pending := BTreeMap.mem_of_present (BTreeMap.getLast?_toList last).1
    have above := UInt64.lt_iff_toNat_lt.mp stale
    refine ⟨⟨?_, fun awaited => ?_⟩, fun _ => ⟨current, member, above⟩⟩
    · rintro ⟨_, accepted⟩
      cases accepted
    · have below := awaited.newest current member
      omega
  · refine answers_refused (by simp) ?_
    rintro ⟨-, other, other_found, -⟩
    simp [empty] at other_found

theorem Answers.reply {answer : Outcome SmpError Bool} {outcome : Outcome SmpError SmpState.Reply}
    (answers : Answers pending epoch cpu answer)
    (outcome_eq : outcome = answer >>= fun last => .ok (.last last)) :
    ((∃ last, outcome = .ok (.last last)) ↔ Awaited pending epoch cpu) ∧
      (outcome = .err .staleEpoch → ∃ other ∈ pending, epoch.toNat < other.toNat) := by
  rw [outcome_eq, ← answers.1]
  cases answer with
  | ok last => simp
  | err reason =>
      refine ⟨by simp, fun stale => answers.2 ?_⟩
      simpa using stale
  | overflow => simp

end Acknowledge

/-- How the epochs that were found stale agree with the table of pending epochs. -/
structure Settled (judged : List UInt64) (latest : UInt64)
    (pending : BTreeMap UInt64 PendingEpoch) : Prop where
  pending_le : ∀ epoch ∈ pending, epoch.toNat ≤ latest.toNat
  judged_le : ∀ epoch ∈ judged, epoch.toNat ≤ latest.toNat
  unawaited : ∀ epoch ∈ judged, ∀ cpu, ¬Awaited pending epoch cpu

section Settled

variable {judged : List UInt64} {latest epoch : UInt64} {pending : BTreeMap UInt64 PendingEpoch}

/-- An epoch is found stale only below another one that is pending. -/
theorem Settled.judges (settled : Settled judged latest pending) {stale : Option UInt64}
    (overtaken : ∀ epoch, stale = some epoch → ∃ other ∈ pending, epoch.toNat < other.toNat) :
    Settled (judged ++ stale.toList) latest pending := by
  refine ⟨settled.pending_le, ?_, ?_⟩
  · intro other found
    rcases List.mem_append.mp found with earlier | last
    · exact settled.judged_le other earlier
    · obtain ⟨later, member, above⟩ := overtaken other (Option.mem_toList.mp last)
      exact above.le.trans (settled.pending_le later member)
  · intro other found cpu awaited
    rcases List.mem_append.mp found with earlier | last
    · exact settled.unawaited other earlier cpu awaited
    · obtain ⟨later, member, above⟩ := overtaken other (Option.mem_toList.mp last)
      have below := awaited.newest later member
      omega

theorem Settled.opened (settled : Settled judged latest pending)
    (advanced : epoch.toNat = latest.toNat + 1) (entry : PendingEpoch) :
    Settled judged epoch (pending.insert epoch entry) := by
  refine ⟨?_, ?_, ?_⟩
  · intro other member
    rcases Std.ExtTreeMap.mem_insert.mp member with same | old
    · rw [Std.LawfulEqCmp.eq_of_compare same]
    · have bound := settled.pending_le other old
      omega
  · intro other member
    have bound := settled.judged_le other member
    omega
  · intro other member cpu awaited
    have bound := settled.judged_le other member
    have below := awaited.newest epoch Std.ExtTreeMap.mem_insert_self
    omega

theorem Settled.acknowledged (settled : Settled judged latest pending) {cpu : CpuId} {last : Bool}
    {updated : BTreeMap UInt64 PendingEpoch}
    (acknowledged : Acknowledged pending epoch cpu (.ok last) updated) :
    Settled judged latest updated := by
  cases acknowledged with
  | @accepted entry found target fresh =>
      have keys (other : UInt64) :=
        BTreeMap.mem_insert_of_present
          { entry with acknowledgements := entry.acknowledgements.insert cpu } found other
      refine ⟨fun other member => settled.pending_le other ((keys other).mp member),
        settled.judged_le, fun other member asked awaited => ?_⟩
      refine settled.unawaited other member asked ⟨fun third third_member => ?_, ?_⟩
      · exact awaited.newest third ((keys third).mpr third_member)
      · obtain ⟨later, later_found, asked_target, asked_fresh⟩ := awaited.found
        rcases BTreeMap.getElem?_insert_eq_some.mp later_found with ⟨rfl, rfl⟩ | ⟨_, old⟩
        · refine ⟨entry, found, asked_target, fun answered => asked_fresh ?_⟩
          exact Std.ExtTreeSet.mem_insert.mpr (.inr answered)
        · exact ⟨later, old, asked_target, asked_fresh⟩

theorem Settled.closed (settled : Settled judged latest pending)
    (unawaited : ∀ other ∈ judged, ∀ cpu, ¬Awaited (pending.erase epoch) other cpu) :
    Settled judged latest (pending.erase epoch) := by
  refine ⟨fun other member => ?_, settled.judged_le, unawaited⟩
  exact settled.pending_le other (Std.ExtTreeMap.mem_of_mem_erase member)

theorem settled_new : Settled [] 0 ∅ := by
  constructor <;> simp

end Settled

namespace SmpState

/-- The interrupt whose acknowledgement is found stale. -/
def staleIpi (occurred : SmpEvent) : Option UInt64 :=
  match occurred.input, occurred.outcome with
  | .acknowledgeIpi epoch _, .err .staleEpoch => some epoch
  | _, _ => none

/-- The shootdown whose acknowledgement is found stale. -/
def staleShootdown (occurred : SmpEvent) : Option UInt64 :=
  match occurred.input, occurred.outcome with
  | .acknowledgeShootdown epoch _, .err .staleEpoch => some epoch
  | _, _ => none

/-- Interrupts that were found stale cannot be acknowledged. -/
def IpisStable (past : List SmpEvent) (state : SmpState) : Prop :=
  ∀ epoch ∈ past.filterMap staleIpi, ∀ cpu last,
    (perform (.acknowledgeIpi epoch cpu) state).1 ≠ .ok (.last last)

/-- Shootdowns that were found stale cannot be acknowledged. -/
def ShootdownsStable (past : List SmpEvent) (state : SmpState) : Prop :=
  ∀ epoch ∈ past.filterMap staleShootdown, ∀ cpu last,
    (perform (.acknowledgeShootdown epoch cpu) state).1 ≠ .ok (.last last)

/-- A shootdown that is completed does not make one the newest that was found stale and still waits
for an acknowledgement. -/
def Covers (past : List SmpEvent) (before : SmpState) : Request → Prop
  | .completeShootdown epoch => ∀ entry, before.shootdowns[epoch]? = some entry →
      entry.acknowledgements = entry.targets.members →
      ∀ next left, before.shootdowns[next]? = some left → epoch ≠ next →
        (∀ other ∈ before.shootdowns, epoch ≠ other → other.toNat ≤ next.toNat) →
        next ∈ past.filterMap staleShootdown →
        ∀ cpu ∈ left.targets.members, cpu ∈ left.acknowledgements
  | _ => True

section Step

variable {past : List SmpEvent} {before after : SmpState} {request : Request}
  {outcome : Outcome SmpError Reply}

theorem acknowledgeIpi_answers (before : SmpState) (epoch : UInt64) (cpu : CpuId) :
    ((∃ last, (perform (.acknowledgeIpi epoch cpu) before).1 = .ok (.last last)) ↔
        Awaited before.ipis epoch cpu) ∧
      ((perform (.acknowledgeIpi epoch cpu) before).1 = .err .staleEpoch →
        ∃ other ∈ before.ipis, epoch.toNat < other.toNat) :=
  (acknowledge_answers before.ipis epoch cpu).reply Call.borrow_map_fst

theorem acknowledgeShootdown_answers (before : SmpState) (epoch : UInt64) (cpu : CpuId) :
    ((∃ last, (perform (.acknowledgeShootdown epoch cpu) before).1 = .ok (.last last)) ↔
        Awaited before.shootdowns epoch cpu) ∧
      ((perform (.acknowledgeShootdown epoch cpu) before).1 = .err .staleEpoch →
        ∃ other ∈ before.shootdowns, epoch.toNat < other.toNat) :=
  (acknowledge_answers before.shootdowns epoch cpu).reply Call.borrow_map_fst

theorem ipis_judged {judged : List UInt64} (request : Request)
    (settled : Settled judged before.nextIpiEpoch before.ipis) :
    Settled (judged ++ (staleIpi (event perform before request)).toList) before.nextIpiEpoch
      before.ipis := by
  refine settled.judges fun epoch shown => ?_
  simp only [staleIpi] at shown
  split at shown
  next asked cpu request_eq stale =>
    obtain rfl := Option.some.inj shown
    obtain rfl : request = .acknowledgeIpi asked cpu := request_eq
    exact (acknowledgeIpi_answers before asked cpu).2 stale
  next => cases shown

theorem shootdowns_judged {judged : List UInt64} (request : Request)
    (settled : Settled judged before.nextShootdownEpoch before.shootdowns) :
    Settled (judged ++ (staleShootdown (event perform before request)).toList)
      before.nextShootdownEpoch before.shootdowns := by
  refine settled.judges fun epoch shown => ?_
  simp only [staleShootdown] at shown
  split at shown
  next asked cpu request_eq stale =>
    obtain rfl := Option.some.inj shown
    obtain rfl : request = .acknowledgeShootdown asked cpu := request_eq
    exact (acknowledgeShootdown_answers before asked cpu).2 stale
  next => cases shown

/-- Interrupts stay pending. -/
theorem ipis_settled_step {judged : List UInt64}
    (settled : Settled judged before.nextIpiEpoch before.ipis)
    (step : Step before request outcome after) :
    Settled judged after.nextIpiEpoch after.ipis := by
  cases step with
  | ipiBegun advanced => exact settled.opened advanced _
  | ipiAcknowledged acknowledged => exact settled.acknowledged acknowledged
  | _ => exact settled

/-- The condition on a completion, as what may be acknowledged after it. -/
theorem awaited_erase_iff {epoch next : UInt64} {cpu : CpuId}
    {pending : BTreeMap UInt64 PendingEpoch} :
    Awaited (pending.erase epoch) next cpu ↔
      epoch ≠ next ∧ (∀ other ∈ pending, epoch ≠ other → other.toNat ≤ next.toNat) ∧
        ∃ left, pending[next]? = some left ∧ cpu ∈ left.targets.members ∧
          cpu ∉ left.acknowledgements := by
  constructor
  · rintro ⟨newest, left, found, target, fresh⟩
    obtain ⟨distinct, found⟩ := BTreeMap.getElem?_erase_eq_some.mp found
    refine ⟨distinct, fun other member other_distinct => newest other ?_, left, found, target,
      fresh⟩
    simpa using ⟨other_distinct, member⟩
  · rintro ⟨distinct, newest, left, found, target, fresh⟩
    refine ⟨fun other member => ?_, left, ?_, target, fresh⟩
    · obtain ⟨other_distinct, member⟩ : epoch ≠ other ∧ other ∈ pending := by simpa using member
      exact newest other member other_distinct
    · exact BTreeMap.getElem?_erase_eq_some.mpr ⟨distinct, found⟩

theorem Covers.unawaited {epoch : UInt64} {entry : PendingEpoch}
    (covers : Covers past before (.completeShootdown epoch))
    (found : before.shootdowns[epoch]? = some entry)
    (complete : entry.acknowledgements = entry.targets.members) :
    ∀ next ∈ past.filterMap staleShootdown, ∀ cpu,
      ¬Awaited (before.shootdowns.erase epoch) next cpu := by
  intro next judged cpu awaited
  obtain ⟨distinct, newest, left, left_found, target, fresh⟩ := awaited_erase_iff.mp awaited
  exact fresh (covers entry found complete next left left_found distinct newest judged cpu target)

theorem shootdowns_settled_step
    (settled : Settled (past.filterMap staleShootdown) before.nextShootdownEpoch before.shootdowns)
    (covers : Covers past before request) :
    Settled ((past ++ [event perform before request]).filterMap staleShootdown)
      (event perform before request).after.nextShootdownEpoch
      (event perform before request).after.shootdowns := by
  have judged := shootdowns_judged request settled
  have step := step_perform request before
  rw [filterMap_snoc]
  generalize shown : staleShootdown (event perform before request) = stale at judged ⊢
  change Settled _ (perform request before).2.nextShootdownEpoch
    (perform request before).2.shootdowns
  generalize (perform request before).2 = after at step
  generalize (perform request before).1 = outcome at step
  cases step with
  | shootdownBegun advanced => exact judged.opened advanced _
  | shootdownAcknowledged acknowledged => exact judged.acknowledged acknowledged
  | shootdownCompleted found complete =>
      obtain rfl : none = stale := shown
      refine judged.closed ?_
      simpa using covers.unawaited found complete
  | _ => exact judged

theorem shootdownsStable_of_settled {state : SmpState}
    (settled : Settled (past.filterMap staleShootdown) state.nextShootdownEpoch state.shootdowns) :
    ShootdownsStable past state := by
  intro epoch judged cpu last accepted
  exact settled.unawaited epoch judged cpu
    ((acknowledgeShootdown_answers state epoch cpu).1.mp ⟨last, accepted⟩)

theorem covers_of_stable
    (stable : ShootdownsStable (past ++ [event perform before request])
      (event perform before request).after) :
    Covers past before request := by
  cases request with
  | completeShootdown epoch =>
      intro entry found complete next left left_found distinct newest judged cpu target
      by_contra fresh
      have completed : perform (.completeShootdown epoch) before =
          (.ok .done, { before with shootdowns := before.shootdowns.erase epoch }) := by
        simp [perform, completeShootdown, found, complete]
      obtain ⟨last, accepted⟩ :=
        (acknowledgeShootdown_answers (perform (.completeShootdown epoch) before).2 next cpu).1.mpr
          (by
            rw [completed]
            exact awaited_erase_iff.mpr ⟨distinct, newest, left, left_found, target, fresh⟩)
      exact stable next (mem_filterMap_snoc.mpr (.inl judged)) cpu last accepted
  | _ => trivial

end Step

/-- An interrupt that was found stale is never accepted.  This holds of shootdowns in exactly the
runs in which no completion uncovers one that was found stale and is not fully acknowledged. -/
theorem stale_final_iff_covers (requests : List Request) :
    IpisStable (history perform new requests) (final perform new requests) ∧
      (Guarded (fun past occurred => ShootdownsStable (past ++ [occurred]) occurred.after) []
          (history perform new requests) ↔
        Guarded (fun past occurred => Covers past occurred.before occurred.input) []
          (history perform new requests)) := by
  constructor
  · have settled : Settled ((history perform new requests).filterMap staleIpi)
        (final perform new requests).nextIpiEpoch (final perform new requests).ipis := by
      refine run_induction perform (motive := fun past state =>
        Settled (past.filterMap staleIpi) state.nextIpiEpoch state.ipis) ?_ ?_ requests
      · exact settled_new
      · intro past state request settled
        rw [filterMap_snoc]
        exact ipis_settled_step (ipis_judged request settled) (step_perform request state)
    intro epoch judged cpu last accepted
    exact settled.unawaited epoch judged cpu
      ((acknowledgeIpi_answers _ epoch cpu).1.mp ⟨last, accepted⟩)
  · refine guarded_iff_of_invariant perform (fun past state =>
      Settled (past.filterMap staleShootdown) state.nextShootdownEpoch state.shootdowns)
      ?_ ?_ ?_ requests
    · exact settled_new
    · intro past state request settled
      refine ⟨covers_of_stable, fun covers => ?_⟩
      exact shootdownsStable_of_settled (shootdowns_settled_step settled covers)
    · intro past state request settled covers
      exact shootdowns_settled_step settled covers

/-- The first of two shootdowns is found stale, and accepted once the second is completed. -/
theorem stale_then_accepted :
    let requests : List Request := [.discover 0, .transition 0 .prepared, .transition 0 .starting,
      .transition 0 .online, .beginShootdown, .beginShootdown, .acknowledgeShootdown 1 0,
      .acknowledgeShootdown 2 0, .completeShootdown 2, .acknowledgeShootdown 1 0]
    (history perform new requests).map (·.outcome) =
      [.ok .done, .ok .done, .ok .done, .ok .done, .ok (.epoch 1), .ok (.epoch 2),
        .err .staleEpoch, .ok (.last true), .ok .done, .ok (.last true)] := by
  decide

end SmpState

end Bulla.Kernel
