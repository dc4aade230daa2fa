import Bulla.Kernel.SmpStale
import Bulla.Rounds

/-!
# Agreement on shootdowns and interrupts

Interrupts and shootdowns are two instances of one protocol: an epoch is a round of acknowledgements
from the processors that it targets.  The state of the multiprocessor simulates the rounds of both,
so what the participants of a round can rely on holds of every run, however the calls of different
processors and epochs interleave.
-/

namespace Bulla.Kernel.SmpState

open Rust Outcome Rounds

/-- What a call does to the rounds of shootdowns.  A shootdown waits for the processors that are
online when it begins. -/
def shootdownMove (occurred : SmpEvent) : Option (Move CpuId) :=
  match occurred.input, occurred.outcome with
  | .beginShootdown, .ok (.epoch epoch) =>
      some (.opened epoch.toNat {cpu | occurred.before.lifecycle cpu = some .online})
  | .acknowledgeShootdown epoch cpu, .ok (.last last) => some (.acknowledged epoch.toNat cpu last)
  | .completeShootdown epoch, .ok .done => some (.closed epoch.toNat)
  | _, _ => none

/-- What a call does to the rounds of interrupts.  An interrupt names the processors it waits
for. -/
def ipiMove (occurred : SmpEvent) : Option (Move CpuId) :=
  match occurred.input, occurred.outcome with
  | .beginIpi targets, .ok (.epoch epoch) =>
      some (.opened epoch.toNat {cpu | targets.contains cpu = true})
  | .acknowledgeIpi epoch cpu, .ok (.last last) => some (.acknowledged epoch.toNat cpu last)
  | _, _ => none

/-- The round of a pending epoch. -/
def round (entry : PendingEpoch) : Round CpuId where
  targets := {cpu | cpu ∈ entry.targets.members}
  answered := {cpu | cpu ∈ entry.acknowledgements}

/-- The latest epoch and the table of pending epochs represent a state of the protocol. -/
structure Represents (latest : UInt64) (pending : BTreeMap UInt64 PendingEpoch)
    (state : State CpuId) : Prop where
  newest : state.newest = latest.toNat
  pending : ∀ epoch : UInt64, state.pending epoch.toNat = pending[epoch]?.map round

section Channel

variable {latest : UInt64} {pending : BTreeMap UInt64 PendingEpoch} {state : State CpuId}

/-- Writing one epoch of the table writes one round. -/
theorem represents_update (represents : Represents latest pending state) {epoch : UInt64}
    {current : Option (Round CpuId)} {updated : BTreeMap UInt64 PendingEpoch}
    (here : updated[epoch]?.map round = current)
    (elsewhere : ∀ other, epoch ≠ other → updated[other]? = pending[other]?) (other : UInt64) :
    Function.update state.pending epoch.toNat current other.toNat = updated[other]?.map round := by
  by_cases same : epoch = other
  · subst same
    rw [Function.update_self, here]
  · have distinct : other.toNat ≠ epoch.toNat := fun equal => same (UInt64.toNat_inj.mp equal).symm
    rw [Function.update_of_ne distinct, represents.pending, elsewhere other same]

theorem represents_opened (represents : Represents latest pending state) {epoch : UInt64}
    {targets : CpuSet} {members : Set CpuId} (advanced : epoch.toNat = latest.toNat + 1)
    (targets_eq : {cpu | cpu ∈ targets.members} = members) :
    ∃ after, Rounds.Step state (.opened epoch.toNat members) after ∧
      Represents epoch (pending.insert epoch ⟨targets, ∅⟩) after := by
  refine ⟨_, .opened ?_, rfl, represents_update represents ?_ ?_⟩
  · rw [represents.newest]
    omega
  · simp [round, targets_eq]
  · exact fun other => BTreeMap.getElem?_insert_of_ne pending _

theorem represents_acknowledged (represents : Represents latest pending state) {epoch : UInt64}
    {cpu : CpuId} {last : Bool} {updated : BTreeMap UInt64 PendingEpoch}
    (acknowledged : Acknowledged pending epoch cpu (.ok last) updated) :
    ∃ after, Rounds.Step state (.acknowledged epoch.toNat cpu last) after ∧
      Represents latest updated after := by
  cases acknowledged with
  | @accepted entry found target fresh =>
      have answered_eq : insert cpu (round entry).answered =
          {other | other ∈ entry.acknowledgements.insert cpu} :=
        (BTreeSet.setOf_mem_insert _ _).symm
      have found_round : state.pending epoch.toNat = some (round entry) := by
        rw [represents.pending, found]
        rfl
      refine ⟨_, .acknowledged found_round target fresh ?_, represents.newest,
        represents_update represents ?_ ?_⟩
      · rw [answered_eq, decide_eq_true_iff]
        exact BTreeSet.setOf_mem_inj.symm
      · rw [answered_eq, Std.ExtTreeMap.getElem?_insert_self]
        rfl
      · exact fun other => BTreeMap.getElem?_insert_of_ne pending _

theorem represents_closed (represents : Represents latest pending state) {epoch : UInt64}
    {entry : PendingEpoch} (found : pending[epoch]? = some entry)
    (complete : entry.acknowledgements = entry.targets.members) :
    ∃ after, Rounds.Step state (.closed epoch.toNat) after ∧
      Represents latest (pending.erase epoch) after := by
  have found_round : state.pending epoch.toNat = some (round entry) := by
    rw [represents.pending, found]
    rfl
  refine ⟨_, .closed found_round ?_, represents.newest, represents_update represents ?_ ?_⟩
  · simp [round, complete]
  · simp
  · exact fun other => BTreeMap.getElem?_erase_of_ne pending

end Channel

/-- The processors that `online` collects. -/
theorem mem_online {self : SmpState} {cpu : CpuId} :
    cpu ∈ self.online.members ↔ self.lifecycle cpu = some .online := by
  simp [online, CpuSet.fromIds, lifecycle]

/-- Every call follows the rounds of shootdowns. -/
theorem shootdowns_step {before after : SmpState} {request : Request}
    {outcome : Outcome SmpError Reply} {state : State CpuId}
    (represents : Represents before.nextShootdownEpoch before.shootdowns state)
    (step : Step before request outcome after) :
    ∃ next, Follows state (shootdownMove ⟨before, request, outcome, after⟩) next ∧
      Represents after.nextShootdownEpoch after.shootdowns next := by
  cases step with
  | rejected reason known =>
      refine ⟨state, ?_, represents⟩
      cases request <;> exact .silent
  | shootdownBegun advanced =>
      obtain ⟨next, moved, represented⟩ := represents_opened represents advanced
        (Set.ext fun _ => mem_online)
      exact ⟨next, .move moved, represented⟩
  | shootdownAcknowledged acknowledged =>
      obtain ⟨next, moved, represented⟩ := represents_acknowledged represents acknowledged
      exact ⟨next, .move moved, represented⟩
  | shootdownCompleted found complete =>
      obtain ⟨next, moved, represented⟩ := represents_closed represents found complete
      exact ⟨next, .move moved, represented⟩
  | _ => exact ⟨state, .silent, represents⟩

/-- Every call follows the rounds of interrupts. -/
theorem ipis_step {before after : SmpState} {request : Request}
    {outcome : Outcome SmpError Reply} {state : State CpuId}
    (represents : Represents before.nextIpiEpoch before.ipis state)
    (step : Step before request outcome after) :
    ∃ next, Follows state (ipiMove ⟨before, request, outcome, after⟩) next ∧
      Represents after.nextIpiEpoch after.ipis next := by
  cases step with
  | rejected reason known =>
      refine ⟨state, ?_, represents⟩
      cases request <;> exact .silent
  | @ipiBegun targets epoch advanced =>
      obtain ⟨next, moved, represented⟩ := represents_opened represents advanced
        (Set.ext fun _ => Std.ExtTreeSet.mem_iff_contains)
      exact ⟨next, .move moved, represented⟩
  | ipiAcknowledged acknowledged =>
      obtain ⟨next, moved, represented⟩ := represents_acknowledged represents acknowledged
      exact ⟨next, .move moved, represented⟩
  | _ => exact ⟨state, .silent, represents⟩

/-- A table of epochs whose calls follow the protocol shows runs of it. -/
theorem exists_run {view : SmpEvent → Option (Move CpuId)} {latest : SmpState → UInt64}
    {pending : SmpState → BTreeMap UInt64 PendingEpoch}
    (start : Represents (latest new) (pending new) idle)
    (follows : ∀ before request state, Represents (latest before) (pending before) state →
      ∃ next, Follows state (view (event perform before request)) next ∧
        Represents (latest (event perform before request).after)
          (pending (event perform before request).after) next)
    (requests : List Request) :
    ∃ state, Run ((history perform new requests).filterMap view) state ∧
      Represents (latest (final perform new requests)) (pending (final perform new requests))
        state := by
  refine run_induction perform (motive := fun past current => ∃ state,
    Run (past.filterMap view) state ∧ Represents (latest current) (pending current) state)
    ⟨idle, .nil, start⟩ ?_ requests
  rintro past current request ⟨state, run, represents⟩
  obtain ⟨next, moved, represented⟩ := follows current request state represents
  exact ⟨next, run.follows moved, represented⟩

section Acceptance

variable {latest : UInt64} {pending : BTreeMap UInt64 PendingEpoch} {state : State CpuId}
  {trace : List (Move CpuId)}

/-- A round of the protocol that is open is an epoch of the table. -/
theorem exists_epoch_of_live (represents : Represents latest pending state) (run : Run trace state)
    {round : ℕ} (live : Live trace round) : ∃ epoch ∈ pending, epoch.toNat = round := by
  obtain ⟨current, found⟩ := run.live_iff.mp live
  obtain ⟨since, open_⟩ := run.accounts.pending round current found
  obtain ⟨front, trace_eq⟩ := open_.begun
  have bound : round ≤ state.newest :=
    run.accounts.bounded (.opened round current.targets) (by simp [trace_eq])
  rw [represents.newest] at bound
  obtain ⟨epoch, epoch_eq⟩ := exists_toNat_eq (bound.trans_lt latest.toNat_lt)
  rw [← epoch_eq, represents.pending] at found
  obtain ⟨entry, entry_found, -⟩ := Option.map_eq_some_iff.mp found
  exact ⟨epoch, BTreeMap.mem_of_present entry_found, epoch_eq⟩

theorem pending_of_entry (represents : Represents latest pending state) {epoch : UInt64}
    {entry : PendingEpoch} (found : pending[epoch]? = some entry) :
    state.pending epoch.toNat = some (round entry) := by
  rw [represents.pending, found]
  rfl

/-- The table awaits an acknowledgement exactly if the protocol does and the round is the newest
that is open. -/
theorem awaited_iff_awaits (represents : Represents latest pending state) (run : Run trace state)
    {epoch : UInt64} {cpu : CpuId} :
    Awaited pending epoch cpu ↔
      Awaits trace epoch.toNat cpu ∧ ∀ round, Live trace round → round ≤ epoch.toNat := by
  constructor
  · rintro ⟨newest, entry, found, target, fresh⟩
    refine ⟨run.awaits_iff.mpr ⟨_, pending_of_entry represents found, target, fresh⟩, ?_⟩
    intro round live
    obtain ⟨other, member, rfl⟩ := exists_epoch_of_live represents run live
    exact newest other member
  · rintro ⟨awaits, newest⟩
    obtain ⟨current, found, target, fresh⟩ := run.awaits_iff.mp awaits
    rw [represents.pending] at found
    obtain ⟨entry, entry_found, rfl⟩ := Option.map_eq_some_iff.mp found
    refine ⟨fun other member => newest _ (run.live_iff.mpr ?_), entry, entry_found, target, fresh⟩
    have present := Std.ExtTreeMap.getElem?_eq_some_getElem member
    exact ⟨_, pending_of_entry represents present⟩

theorem completeShootdown_answers (self : SmpState) (epoch : UInt64) :
    (∃ reply, (perform (.completeShootdown epoch) self).1 = .ok reply) ↔
      ∃ entry, self.shootdowns[epoch]? = some entry ∧
        entry.acknowledgements = entry.targets.members := by
  show Call.Ensures (perform (.completeShootdown epoch)) (fun outcome _ =>
    (∃ reply, outcome = .ok reply) ↔ ∃ entry, self.shootdowns[epoch]? = some entry ∧
      entry.acknowledgements = entry.targets.members) self
  simp only [perform, completeShootdown]
  simp
  refine ⟨fun entry found => ?_, fun absent => ?_⟩
  · simp [found]
  · simp [absent]

/-- A shootdown is completed exactly if everyone has acknowledged it. -/
theorem completeShootdown_iff {self : SmpState}
    (represents : Represents latest self.shootdowns state) (run : Run trace state)
    {epoch : UInt64} :
    (∃ reply, (perform (.completeShootdown epoch) self).1 = .ok reply) ↔
      Complete trace epoch.toNat := by
  rw [completeShootdown_answers, run.complete_iff, represents.pending]
  constructor
  · rintro ⟨entry, found, complete⟩
    exact ⟨round entry, by rw [found]; rfl, BTreeSet.setOf_mem_inj.mpr complete⟩
  · rintro ⟨current, found, complete⟩
    obtain ⟨entry, entry_found, rfl⟩ := Option.map_eq_some_iff.mp found
    exact ⟨entry, entry_found, BTreeSet.setOf_mem_inj.mp complete⟩

end Acceptance

/-- In every run the processors agree on the shootdowns and on the interrupts: a shootdown is
completed once, after every processor that was online when it began and no other has acknowledged it
exactly once; the last missing acknowledgement is told so; and epochs only grow.  An acknowledgement
is accepted exactly if it is missing from the newest epoch that is open, and a completion exactly if
none is missing. -/
theorem epochs_agreed (requests : List Request) :
    let state := final perform new requests
    let shootdowns := (history perform new requests).filterMap shootdownMove
    let ipis := (history perform new requests).filterMap ipiMove
    Agreed shootdowns ∧ Agreed ipis ∧
      (∀ epoch cpu,
        (∃ last, (perform (.acknowledgeShootdown epoch cpu) state).1 = .ok (.last last)) ↔
          Awaits shootdowns epoch.toNat cpu ∧
            ∀ round, Live shootdowns round → round ≤ epoch.toNat) ∧
      (∀ epoch cpu,
        (∃ last, (perform (.acknowledgeIpi epoch cpu) state).1 = .ok (.last last)) ↔
          Awaits ipis epoch.toNat cpu ∧ ∀ round, Live ipis round → round ≤ epoch.toNat) ∧
      ∀ epoch, (∃ reply, (perform (.completeShootdown epoch) state).1 = .ok reply) ↔
        Complete shootdowns epoch.toNat := by
  have start : Represents 0 ∅ idle := ⟨rfl, by simp [idle]⟩
  obtain ⟨_, shootdown_run, shootdowns_represented⟩ := exists_run start
    (fun before request _ represents => shootdowns_step represents (step_perform request before))
    requests
  obtain ⟨_, ipi_run, ipis_represented⟩ := exists_run start
    (fun before request _ represents => ipis_step represents (step_perform request before)) requests
  refine ⟨shootdown_run.agreed, ipi_run.agreed, fun epoch cpu => ?_, fun epoch cpu => ?_,
    fun epoch => completeShootdown_iff shootdowns_represented shootdown_run⟩
  · rw [(acknowledgeShootdown_answers _ epoch cpu).1]
    exact awaited_iff_awaits shootdowns_represented shootdown_run
  · rw [(acknowledgeIpi_answers _ epoch cpu).1]
    exact awaited_iff_awaits ipis_represented ipi_run

end Bulla.Kernel.SmpState
