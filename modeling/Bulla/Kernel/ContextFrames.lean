import Mathlib.Logic.Function.Basic
import Bulla.Kernel.Context

/-!
# Trap frames over whole runs

A trap frame carries the identity and the generation of the context that made it, and `resume` takes
a frame only at that generation, which it then leaves.  So a frame is taken at most once, by the
context that made it.  The frames of a generation outlive `terminate`, which clears the same flag as
`enter`: a context that is resumed after it was terminated runs again.
-/

namespace Bulla.Kernel.UserContext

open Rust Outcome

section Termination

/-- `terminate` has been called. -/
def Terminated (past : List ContextEvent) : Prop := ∃ occurred ∈ past, occurred.input = .terminate

/-- After `terminate` the context is not runnable and `enter` fails. -/
structure StaysTerminated (past : List ContextEvent) (occurred : ContextEvent) : Prop where
  stopped : Terminated (past ++ [occurred]) → occurred.after.runnable = false
  refused : Terminated past → ∀ capability frame, occurred.input = .enter capability →
    occurred.outcome ≠ .ok (.frame frame)

/-- A call that asks `resume` to take a frame it admits, at a generation that can advance. -/
def Revives (before : UserContext) : Request → Prop
  | .resume capability frame _ =>
      Admitted before capability frame ∧ before.generation.toNat + 1 < 2 ^ 64
  | _ => False

/-- A context that is not runnable stays so unless a frame is taken back. -/
theorem stopped_step {before after : UserContext} {request : Request}
    {outcome : Outcome ContextError Reply} (stopped : before.runnable = false)
    (dormant : ¬Revives before request) (step : Step before request outcome after) :
    after.runnable = false ∧
      ∀ capability frame, request = .enter capability → outcome ≠ .ok (.frame frame) := by
  cases step with
  | rejected reason unsaved => exact ⟨stopped, fun _ _ _ same => by cases same⟩
  | entered runnable =>
      rw [stopped] at runnable
      cases runnable
  | trapped => exact ⟨stopped, fun _ _ same => by cases same⟩
  | resumed admitted advanced => exact absurd ⟨admitted, advanced ▸ UInt64.toNat_lt _⟩ dormant
  | exhausted admitted last => exact ⟨stopped, fun _ _ same => by cases same⟩
  | terminated => exact ⟨rfl, fun _ _ same => by cases same⟩

theorem runnable_of_revives {before after : UserContext} {request : Request}
    {outcome : Outcome ContextError Reply} (revives : Revives before request)
    (step : Step before request outcome after) : after.runnable = true := by
  cases step with
  | rejected reason unsaved =>
      cases request with
      | resume => exact absurd revives.1 unsaved
      | _ => exact revives.elim
  | entered => exact revives.elim
  | trapped => exact revives.elim
  | resumed => rfl
  | exhausted admitted last =>
      have room := revives.2
      omega
  | terminated => exact revives.elim

theorem stopped_of_terminated {past : List ContextEvent} {state : UserContext} {request : Request}
    (stopped : Terminated past → state.runnable = false)
    (dormant : Terminated past → ¬Revives state request)
    (terminated : Terminated (past ++ [event perform state request])) :
    (event perform state request).after.runnable = false := by
  obtain ⟨occurred, member, input_eq⟩ := terminated
  rcases List.mem_append.mp member with earlier | last
  · have terminated : Terminated past := ⟨occurred, earlier, input_eq⟩
    exact (stopped_step (stopped terminated) (dormant terminated) (step_perform request state)).1
  · obtain rfl := List.mem_singleton.mp last
    obtain rfl : request = .terminate := input_eq
    rfl

/-- Termination is final in exactly the runs that never revive a terminated context. -/
theorem termination_final_iff (context : UserContext) (requests : List Request) :
    Guarded StaysTerminated [] (history perform context requests) ↔
      Guarded (fun past occurred => Terminated past → ¬Revives occurred.before occurred.input) []
        (history perform context requests) := by
  refine guarded_iff_of_invariant perform
    (fun past state => Terminated past → state.runnable = false) ?_ ?_ ?_ requests
  · rintro ⟨occurred, member, _⟩
    cases member
  · intro past state request stopped
    have step := step_perform request state
    constructor
    · intro stays terminated revives
      have terminated_after : Terminated (past ++ [event perform state request]) := by
        obtain ⟨occurred, member, input_eq⟩ := terminated
        exact ⟨occurred, List.mem_append_left _ member, input_eq⟩
      have runnable := runnable_of_revives revives step
      have stopped_after : (perform request state).2.runnable = false :=
        stays.stopped terminated_after
      rw [stopped_after] at runnable
      cases runnable
    · intro dormant
      refine ⟨stopped_of_terminated stopped dormant, fun terminated => ?_⟩
      exact (stopped_step (stopped terminated) (dormant terminated) step).2
  · intro past state request stopped dormant
    exact stopped_of_terminated stopped dormant

/-- The frame that `enter` returned is resumed after `terminate`, and the context is entered
again. -/
theorem entered_after_terminate :
    ∃ context frame again,
      create ⟨.userContext, 0, 0, Rights.control, 0, 0, 0⟩ 1 2 0x400000 0x7000 = .ok context ∧
      (history perform context
        [.enter ⟨.userContext, 0, 0, Rights.control, 0, 0, 0⟩, .terminate,
          .resume ⟨.userContext, 0, 0, Rights.control, 0, 0, 0⟩ frame 0,
          .enter ⟨.userContext, 0, 0, Rights.control, 0, 0, 0⟩]).map
            (fun occurred => (occurred.outcome, occurred.after.runnable)) =
        [(.ok (.frame frame), false), (.ok .done, false), (.ok .done, true),
          (.ok (.frame again), false)] :=
  ⟨⟨1, 2, ⟨0x400000, 0x7000, 0x202, 0, 0⟩, 0, true⟩,
    ⟨1, .syscall 0, ⟨0x400000, 0x7000, 0x202, 0, 0⟩, .user, 0⟩,
    ⟨1, .syscall 0, ⟨0x400000, 0x7000, 0x202, 0, 0⟩, .user, 1⟩, by decide, by decide⟩

end Termination

section Frames

variable {ι : Type}

/-- A call on one context of a family. -/
def performAt [DecidableEq ι] (call : ι × Request) : Call (ι → UserContext) ContextError Reply :=
  Call.borrow (fun contexts => contexts call.1)
    (fun context contexts => Function.update contexts call.1 context) (perform call.2)

abbrev FamilyEvent (ι : Type) : Type := Event (ι → UserContext) (ι × Request) ContextError Reply

/-- A call on a context returns a frame; only `enter` and `trap` do. -/
def Produces (index : ι) (frame : TrapFrame) (occurred : FamilyEvent ι) : Prop :=
  occurred.input.1 = index ∧ occurred.outcome = .ok (.frame frame)

/-- `resume` on a context takes a frame. -/
def Accepts (index : ι) (frame : TrapFrame) (occurred : FamilyEvent ι) : Prop :=
  ∃ capability result, occurred.input = (index, .resume capability frame result) ∧
    occurred.outcome = .ok .done

/-- A frame has no public constructor: one that is passed to `resume` was returned by a call. -/
def Genuine (past : List (FamilyEvent ι)) (occurred : FamilyEvent ι) : Prop :=
  match occurred.input.2 with
  | .resume _ frame _ => ∃ producer ∈ past, producer.outcome = .ok (.frame frame)
  | _ => True

/-- How a call on one context of a family uses frames. -/
structure ConsumesOnce (past : List (FamilyEvent ι)) (occurred : FamilyEvent ι) : Prop where
  /-- A frame carries the identity and the generation of its context. -/
  stamped : ∀ index frame, Produces index frame occurred →
    frame.context = (occurred.before index).id ∧
      frame.generation = (occurred.before index).generation
  /-- A frame is taken by the context that made it, after its last successful `resume`. -/
  own : ∀ index frame, Accepts index frame occurred →
    ∃ before producer between, past = before ++ producer :: between ∧
      Produces index frame producer ∧ ∀ other ∈ between, ∀ taken, ¬Accepts index taken other
  advances : ∀ index frame, Accepts index frame occurred →
    (occurred.after index).generation.toNat = (occurred.before index).generation.toNat + 1
  /-- Of the frames of one context and generation at most one is taken. -/
  once : ∀ index frame, Accepts index frame occurred → ∀ earlier ∈ past, ∀ other taken,
    Accepts other taken earlier → taken.context = frame.context →
      taken.generation < frame.generation
  privileged : occurred.outcome ≠ .err .wrongPrivilege

section Step

variable {before after : UserContext} {request : Request} {outcome : Outcome ContextError Reply}

theorem id_step (step : Step before request outcome after) : after.id = before.id := by
  cases step <;> rfl

theorem frame_step {frame : TrapFrame} (step : Step before request outcome after)
    (returned : outcome = .ok (.frame frame)) :
    frame.context = before.id ∧ frame.privilege = .user ∧ frame.generation = before.generation := by
  cases step with
  | entered => cases returned; exact ⟨rfl, rfl, rfl⟩
  | trapped => cases returned; exact ⟨rfl, rfl, rfl⟩
  | _ => cases returned

theorem resume_step {capability : Capability} {frame : TrapFrame} {result : UInt64}
    (step : Step before (.resume capability frame result) (.ok .done) after) :
    Admitted before capability frame ∧ after.generation.toNat = before.generation.toNat + 1 := by
  cases step with
  | resumed admitted advanced => exact ⟨admitted, advanced⟩

theorem generation_step (step : Step before request outcome after)
    (unresumed : ∀ capability frame result, request = .resume capability frame result →
      outcome ≠ .ok .done) : after.generation = before.generation := by
  cases step with
  | resumed => exact absurd rfl (unresumed _ _ _ rfl)
  | _ => rfl

theorem ne_wrongPrivilege_of_require {capability : Capability} {kind : CapabilityKind}
    {rights : Rights} {reason : ContextError}
    (refused : require capability kind rights = .err reason) : reason ≠ .wrongPrivilege := by
  rintro rfl
  simp [require] at refused

/-- Only a frame without user privilege is refused for its privilege. -/
theorem ne_wrongPrivilege (request : Request) (before : UserContext)
    (user : ∀ capability frame result, request = .resume capability frame result →
      frame.privilege = .user) : (perform request before).1 ≠ .err .wrongPrivilege := by
  show Call.Ensures (perform request) (fun outcome _ => outcome ≠ .err .wrongPrivilege) before
  cases request with
  | enter capability =>
      simp only [perform, enter]
      simp
      exact fun _ => ne_wrongPrivilege_of_require
  | trap frameCapability origin registers =>
      simp only [perform, trap]
      simp
      exact fun _ => ne_wrongPrivilege_of_require
  | resume capability frame result =>
      have privilege_eq := user capability frame result rfl
      simp only [perform, resume]
      simp [privilege_eq]
      exact fun _ => ne_wrongPrivilege_of_require
  | terminate =>
      intro refused
      cases refused

end Step

/-- What a call does to the generations of a family. -/
structure Advances (before : ι → UserContext) (occurred : FamilyEvent ι) : Prop where
  id_eq : ∀ index, (occurred.after index).id = (before index).id
  produced : ∀ index frame, Produces index frame occurred →
    frame.context = (before index).id ∧ frame.privilege = .user ∧
      frame.generation = (before index).generation
  accepted : ∀ index frame, Accepts index frame occurred →
    frame.context = (before index).id ∧ frame.generation = (before index).generation ∧
      (occurred.after index).generation.toNat = (before index).generation.toNat + 1
  kept : ∀ index, (∀ frame, ¬Accepts index frame occurred) →
    (occurred.after index).generation = (before index).generation

theorem advances_event [DecidableEq ι] (before : ι → UserContext) (call : ι × Request) :
    Advances before (event performAt before call) := by
  obtain ⟨target, request⟩ := call
  have step := step_perform request (before target)
  have after_eq : (event performAt before (target, request)).after =
    Function.update before target (perform request (before target)).2 := rfl
  constructor
  · intro index
    by_cases same : index = target
    · subst same
      rw [after_eq, Function.update_self]
      exact id_step step
    · rw [after_eq, Function.update_of_ne same]
  · rintro _ frame ⟨rfl, returned⟩
    exact frame_step step returned
  · rintro index frame ⟨capability, result, input_eq, returned⟩
    obtain ⟨rfl, rfl⟩ := Prod.mk.inj input_eq
    rw [show (perform (.resume capability frame result) (before target)).1 = .ok .done
      from returned] at step
    obtain ⟨admitted, advanced⟩ := resume_step step
    rw [after_eq, Function.update_self]
    exact ⟨admitted.context_eq, admitted.generation_eq, advanced⟩
  · intro index unresumed
    by_cases same : index = target
    · subst same
      rw [after_eq, Function.update_self]
      refine generation_step step ?_
      rintro capability frame result rfl returned
      exact unresumed frame ⟨capability, result, rfl, returned⟩
    · rw [after_eq, Function.update_of_ne same]

/-- The frames of a family between two calls. -/
structure Tracked (past : List (FamilyEvent ι)) (contexts : ι → UserContext) : Prop where
  distinct : Function.Injective fun index => (contexts index).id
  produced : ∀ producer ∈ past, ∀ index frame, Produces index frame producer →
    frame.context = (contexts index).id ∧ frame.privilege = .user ∧
      frame.generation.toNat ≤ (contexts index).generation.toNat
  recent : ∀ before producer between, past = before ++ producer :: between → ∀ index frame,
    Produces index frame producer → frame.generation = (contexts index).generation →
      ∀ other ∈ between, ∀ taken, ¬Accepts index taken other
  accepted : ∀ earlier ∈ past, ∀ index frame, Accepts index frame earlier →
    frame.context = (contexts index).id ∧
      frame.generation.toNat < (contexts index).generation.toNat

theorem Tracked.snoc {past : List (FamilyEvent ι)} {contexts : ι → UserContext}
    {occurred : FamilyEvent ι} (tracked : Tracked past contexts)
    (advances : Advances contexts occurred) : Tracked (past ++ [occurred]) occurred.after := by
  have grows (index : ι) :
      (contexts index).generation.toNat ≤ (occurred.after index).generation.toNat := by
    by_cases resumed : ∃ frame, Accepts index frame occurred
    · obtain ⟨frame, accepted⟩ := resumed
      have advanced := (advances.accepted index frame accepted).2.2
      omega
    · rw [advances.kept index (not_exists.mp resumed)]
  constructor
  · simp only [advances.id_eq]
    exact tracked.distinct
  · intro producer member index frame produced
    rw [advances.id_eq]
    rcases List.mem_append.mp member with earlier | last
    · obtain ⟨context_eq, privilege_eq, generation_le⟩ :=
        tracked.produced producer earlier index frame produced
      exact ⟨context_eq, privilege_eq, generation_le.trans (grows index)⟩
    · obtain rfl := List.mem_singleton.mp last
      obtain ⟨context_eq, privilege_eq, generation_eq⟩ := advances.produced index frame produced
      exact ⟨context_eq, privilege_eq, generation_eq ▸ grows index⟩
  · intro before producer between split index frame produced generation_eq other member taken
      accepted
    rcases List.eq_nil_or_concat' between with rfl | ⟨rest, last, rfl⟩
    · cases member
    · rw [← List.cons_append, ← List.append_assoc] at split
      obtain ⟨rfl, last_eq⟩ := List.append_inj' split rfl
      obtain rfl : occurred = last := by simpa using last_eq
      -- A successful `resume` would have left the generation of the frame behind.
      have unresumed : ∀ taken, ¬Accepts index taken occurred := by
        intro taken accepted
        have advanced := (advances.accepted index taken accepted).2.2
        have earlier := (tracked.produced producer (by simp) index frame produced).2.2
        rw [generation_eq] at earlier
        omega
      rcases List.mem_append.mp member with earlier | last
      · rw [advances.kept index unresumed] at generation_eq
        exact tracked.recent before producer rest rfl index frame produced generation_eq other
          earlier taken accepted
      · obtain rfl := List.mem_singleton.mp last
        exact unresumed taken accepted
  · intro earlier member index frame accepted
    rw [advances.id_eq]
    rcases List.mem_append.mp member with earlier | last
    · obtain ⟨context_eq, generation_lt⟩ := tracked.accepted _ earlier index frame accepted
      exact ⟨context_eq, generation_lt.trans_le (grows index)⟩
    · obtain rfl := List.mem_singleton.mp last
      obtain ⟨context_eq, generation_eq, advanced⟩ := advances.accepted index frame accepted
      rw [generation_eq]
      exact ⟨context_eq, by omega⟩

/-- A frame is taken at most once and only by its own context. -/
theorem frames_consumed_once [DecidableEq ι] (contexts : ι → UserContext)
    (distinct : Function.Injective fun index => (contexts index).id) (calls : List (ι × Request))
    (genuine : Guarded Genuine [] (history performAt contexts calls)) :
    Guarded ConsumesOnce [] (history performAt contexts calls) := by
  refine guarded_of_invariant performAt Tracked ?_ ?_ calls genuine
  · constructor <;> simp [distinct]
  · rintro past before ⟨target, request⟩ tracked genuine
    have advances := advances_event before (target, request)
    refine ⟨?_, tracked.snoc advances⟩
    constructor
    · intro index frame produced
      have stamped := advances.produced index frame produced
      exact ⟨stamped.1, stamped.2.2⟩
    · intro index frame accepted
      obtain ⟨context_eq, generation_eq, _⟩ := advances.accepted index frame accepted
      obtain ⟨capability, result, input_eq, _⟩ := accepted
      obtain ⟨rfl, rfl⟩ := Prod.mk.inj input_eq
      obtain ⟨producer, member, returned⟩ := genuine
      have produced := tracked.produced producer member _ frame ⟨rfl, returned⟩
      -- The frame names the context that made it, and no other context has that identifier.
      have own : producer.input.1 = target :=
        tracked.distinct (produced.1.symm.trans context_eq)
      obtain ⟨earlier, between, rfl⟩ := List.append_of_mem member
      refine ⟨earlier, producer, between, rfl, ⟨own, returned⟩, ?_⟩
      exact tracked.recent earlier producer between rfl target frame ⟨own, returned⟩ generation_eq
    · exact fun index frame accepted => (advances.accepted index frame accepted).2.2
    · intro index frame accepted earlier member other taken taken_earlier same
      obtain ⟨context_eq, generation_eq, _⟩ := advances.accepted index frame accepted
      obtain ⟨taken_context, taken_lt⟩ := tracked.accepted earlier member other taken taken_earlier
      obtain rfl : other = index :=
        tracked.distinct (taken_context.symm.trans (same.trans context_eq))
      rw [UInt64.lt_iff_toNat_lt, generation_eq]
      exact taken_lt
    · refine ne_wrongPrivilege request (before target) ?_
      rintro capability frame result rfl
      obtain ⟨producer, member, returned⟩ := genuine
      exact (tracked.produced producer member _ frame ⟨rfl, returned⟩).2.1

/-- Two contexts, told apart by their identifiers. -/
def twoContexts : Bool → UserContext
  | false => ⟨1, 2, ⟨0x400000, 0x7000, 0x202, 0, 0⟩, 0, true⟩
  | true => ⟨2, 2, ⟨0x500000, 0x8000, 0x202, 0, 0⟩, 0, true⟩

/-- The frame that the first context enters with is tried on the second one, and taken by its
own. -/
def interleaved : List (Bool × Request) :=
  [(false, .enter ⟨.userContext, 0, 0, Rights.control, 0, 0, 0⟩),
    (true, .resume ⟨.userContext, 0, 0, Rights.control, 0, 0, 0⟩
      ⟨1, .syscall 0, ⟨0x400000, 0x7000, 0x202, 0, 0⟩, .user, 0⟩ 9),
    (false, .resume ⟨.userContext, 0, 0, Rights.control, 0, 0, 0⟩
      ⟨1, .syscall 0, ⟨0x400000, 0x7000, 0x202, 0, 0⟩, .user, 0⟩ 9)]

theorem interleaved_consumed_once :
    (Function.Injective fun index => (twoContexts index).id) ∧
      Guarded Genuine [] (history performAt twoContexts interleaved) ∧
      Guarded ConsumesOnce [] (history performAt twoContexts interleaved) := by
  have distinct : Function.Injective fun index => (twoContexts index).id := by
    intro left right
    cases left <;> cases right <;> decide
  have genuine : Guarded Genuine [] (history performAt twoContexts interleaved) :=
    ⟨trivial, ⟨_, List.mem_cons_self, rfl⟩, ⟨_, List.mem_cons_self, rfl⟩, trivial⟩
  exact ⟨distinct, genuine, frames_consumed_once twoContexts distinct interleaved genuine⟩

end Frames

end Bulla.Kernel.UserContext
