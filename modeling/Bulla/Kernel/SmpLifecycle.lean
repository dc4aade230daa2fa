import Mathlib.Logic.Relation
import Bulla.Kernel.Smp

/-!
# Processor lifecycles

`transition` moves a processor along its lifecycle.  `discover` also writes the lifecycle, and does
so before it reports that the processor is known, so a second discovery throws a processor back to
the start.  Lifecycles are monotone exactly in the runs that discover no processor that has moved
on.
-/

namespace Bulla.Kernel.SmpState

open Rust Outcome Relation

/-- The moves of a processor's lifecycle. -/
inductive Edge : Option CpuLifecycle → Option CpuLifecycle → Prop
  | discover : Edge none (some .discovered)
  | prepare : Edge (some .discovered) (some .prepared)
  | start : Edge (some .prepared) (some .starting)
  | finish : Edge (some .starting) (some .online)
  | abandon {reason : CpuFailure} : Edge (some .prepared) (some (.failed reason))
  | fail {reason : CpuFailure} : Edge (some .starting) (some (.failed reason))

theorem edge_of_legal {current next : CpuLifecycle} (allowed : legal current next = true) :
    Edge (some current) (some next) := by
  cases current <;> cases next <;> first | constructor | cases allowed

abbrev SmpEvent : Type := Event SmpState Request SmpError Reply

/-- What a run does to the lifecycles of the processors. -/
structure Monotone (requests : List Request) : Prop where
  /-- A call moves a lifecycle by one edge or not at all. -/
  moves : ∀ occurred ∈ history perform new requests, ∀ cpu,
    ReflGen Edge (occurred.before.lifecycle cpu) (occurred.after.lifecycle cpu)
  /-- From one moment of the run to the end, a lifecycle follows the edges. -/
  follows : ∀ earlier later, requests = earlier ++ later → ∀ cpu,
    ReflTransGen Edge ((final perform new earlier).lifecycle cpu)
      ((final perform new requests).lifecycle cpu)
  /-- A processor that is online or has failed stays so. -/
  settled : ∀ earlier later, requests = earlier ++ later → ∀ cpu current,
    current = .online ∨ (∃ reason, current = .failed reason) →
    (final perform new earlier).lifecycle cpu = some current →
    (final perform new requests).lifecycle cpu = some current
  /-- A rejected call changes no lifecycle. -/
  inert : ∀ occurred ∈ history perform new requests, ∀ reason, occurred.outcome = .err reason →
    ∀ cpu, occurred.after.lifecycle cpu = occurred.before.lifecycle cpu

/-- A processor is discovered only as long as it has not moved on. -/
def Undisturbed (before : SmpState) : Request → Prop
  | .discover cpu => before.lifecycle cpu = none ∨ before.lifecycle cpu = some .discovered
  | _ => True

/-- Writing one lifecycle moves that lifecycle only. -/
theorem moves_insert {before : SmpState} {cpu : CpuId} {next : CpuLifecycle}
    (edge : ReflGen Edge (before.lifecycle cpu) (some next)) (other : CpuId) :
    ReflGen Edge (before.lifecycle other) (before.cpus.insert cpu next)[other]? := by
  by_cases same : cpu = other
  · subst same
    rwa [Std.ExtTreeMap.getElem?_insert_self]
  · rw [BTreeMap.getElem?_insert_of_ne _ _ same]
    exact .refl

/-- An undisturbed call moves lifecycles along the edges, and a rejected one moves none. -/
theorem lifecycle_step {before after : SmpState} {request : Request}
    {outcome : Outcome SmpError Reply} (undisturbed : Undisturbed before request)
    (step : Step before request outcome after) (cpu : CpuId) :
    ReflGen Edge (before.lifecycle cpu) (after.lifecycle cpu) ∧
      ∀ reason, outcome = .err reason → after.lifecycle cpu = before.lifecycle cpu := by
  cases step with
  | discovered absent =>
      refine ⟨moves_insert ?_ cpu, nofun⟩
      rw [lifecycle, absent]
      exact .single .discover
  | @rediscovered known current present =>
      have discovered : before.cpus[known]? = some .discovered := by
        rcases undisturbed with absent | discovered
        · rw [lifecycle, present] at absent
          cases absent
        · exact discovered
      have same : (before.cpus.insert known .discovered)[cpu]? = before.cpus[cpu]? := by
        rw [BTreeMap.insert_of_present discovered]
      refine ⟨?_, fun _ _ => same⟩
      simp only [lifecycle, same]
      exact .refl
  | moved present allowed =>
      refine ⟨moves_insert ?_ cpu, nofun⟩
      rw [lifecycle, present]
      exact .single (edge_of_legal allowed)
  | rejected => exact ⟨.refl, fun _ _ => rfl⟩
  | _ => exact ⟨.refl, nofun⟩

/-- A call that moves lifecycles along the edges discovers no processor that has moved on. -/
theorem undisturbed_of_moves {before after : SmpState} {request : Request}
    {outcome : Outcome SmpError Reply} (step : Step before request outcome after)
    (moves : ∀ cpu, ReflGen Edge (before.lifecycle cpu) (after.lifecycle cpu)) :
    Undisturbed before request := by
  cases step with
  | discovered absent => exact .inl absent
  | @rediscovered cpu current present =>
      have edge := moves cpu
      simp only [lifecycle, Std.ExtTreeMap.getElem?_insert_self, present] at edge
      rcases edge with _ | edge
      · exact .inr present
      · cases edge
  | rejected reason known =>
      cases request with
      | discover cpu => exact absurd rfl (known cpu)
      | _ => trivial
  | _ => trivial

/-- No edge leaves a settled lifecycle. -/
theorem eq_of_follows {current : CpuLifecycle} {later : Option CpuLifecycle}
    (settled : current = .online ∨ ∃ reason, current = .failed reason)
    (follows : ReflTransGen Edge (some current) later) : later = some current := by
  rcases follows.cases_head with same | ⟨next, edge, -⟩
  · exact same.symm
  · rcases settled with rfl | ⟨reason, rfl⟩ <;> cases edge

/-- Lifecycles are monotone exactly in the runs that discover no processor that has moved on. -/
theorem monotone_iff_undisturbed (requests : List Request) :
    Monotone requests ↔ ∀ occurred ∈ history perform new requests,
      Undisturbed occurred.before occurred.input := by
  constructor
  · intro monotone occurred member
    have step := step_of_mem_history perform step_perform member
    exact undisturbed_of_moves step (monotone.moves occurred member)
  · intro undisturbed
    have steps : ∀ occurred ∈ history perform new requests, ∀ cpu,
        ReflGen Edge (occurred.before.lifecycle cpu) (occurred.after.lifecycle cpu) ∧
          ∀ reason, occurred.outcome = .err reason →
            occurred.after.lifecycle cpu = occurred.before.lifecycle cpu := by
      intro occurred member
      have step := step_of_mem_history perform step_perform member
      exact lifecycle_step (undisturbed occurred member) step
    have follows : ∀ earlier later, requests = earlier ++ later → ∀ cpu,
        ReflTransGen Edge ((final perform new earlier).lifecycle cpu)
          ((final perform new requests).lifecycle cpu) := by
      rintro earlier later rfl cpu
      rw [final_append]
      refine final_of_events perform (motive := fun state => ReflTransGen Edge
        ((final perform new earlier).lifecycle cpu) (state.lifecycle cpu)) .refl ?_
      intro occurred member reached
      have stepped := (steps occurred (mem_history_of_later perform member) cpu).1
      exact reached.trans stepped.to_reflTransGen
    refine ⟨fun occurred member cpu => (steps occurred member cpu).1, follows, ?_, ?_⟩
    · intro earlier later split cpu current settled reached
      exact eq_of_follows settled (reached ▸ follows earlier later split cpu)
    · exact fun occurred member reason refused cpu => (steps occurred member cpu).2 reason refused

/-- A processor is brought online and discovered again: the call is refused, and the processor is
back at the start. -/
theorem discovered_after_online :
    (history perform new [.discover 2, .transition 2 .prepared, .transition 2 .starting,
        .transition 2 .online, .discover 2]).map Event.outcome =
      [.ok .done, .ok .done, .ok .done, .ok .done, .err .duplicateCpu] ∧
    (final perform new [.discover 2, .transition 2 .prepared, .transition 2 .starting,
        .transition 2 .online]).lifecycle 2 = some .online ∧
    (final perform new [.discover 2, .transition 2 .prepared, .transition 2 .starting,
        .transition 2 .online, .discover 2]).lifecycle 2 = some .discovered := by
  decide

end Bulla.Kernel.SmpState
