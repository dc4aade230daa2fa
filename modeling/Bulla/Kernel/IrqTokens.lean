import Bulla.Kernel.Irq

/-!
# Tokens of the interrupt state

A token is known by its processor and its generation, and the controller accepts only the latest
generation, once.  Everything here rests on `add_cpu` not resetting the state of a known processor:
then generations only grow.
-/

namespace Bulla.Kernel.IrqController

open Rust Outcome

abbrev IrqEvent : Type := Rust.Event IrqController Request IrqError Reply

/-- The token that a successful `save_disable` returns for a processor. -/
def savedOn (cpu : CpuId) (occurred : IrqEvent) : Option IrqStateToken :=
  match occurred.input, occurred.outcome with
  | .saveDisable target _, .ok (.token token) => if target = cpu then some token else none
  | _, _ => none

/-- The token that a successful `restore` takes back. -/
def spentToken (occurred : IrqEvent) : Option IrqStateToken :=
  match occurred.input, occurred.outcome with
  | .restore _ _ token, .ok _ => some token
  | _, _ => none

/-- Whether a call leaves a token of the processor outstanding, if it succeeds in either way. -/
def holding (cpu : CpuId) (occurred : IrqEvent) : Option Bool :=
  match occurred.input, occurred.outcome with
  | .saveDisable target _, .ok _ => if target = cpu then some true else none
  | .restore target _ _, .ok _ => if target = cpu then some false else none
  | _, _ => none

/-- The processor that a call of `add_cpu` names. -/
def addedCpu (occurred : IrqEvent) : Option CpuId :=
  match occurred.input with
  | .addCpu cpu => some cpu
  | _ => none

/-- A token that is taken back was not taken back before; if it was returned by `save_disable`, this
was for the same processor and no other token has been returned for it since, and interrupts are as
they were just before that. -/
structure SingleUse (past : List IrqEvent) (occurred : IrqEvent) : Prop where
  once : ∀ token, spentToken occurred = some token → token ∉ past.filterMap spentToken
  matched : ∀ cpu capability token, occurred.input = .restore cpu capability token →
    occurred.outcome = .ok .done → ∀ save ∈ past, ∀ owner, savedOn owner save = some token →
      owner = cpu ∧ latest (savedOn cpu) past = some token ∧
        occurred.after.interruptsEnabled cpu = save.before.interruptsEnabled cpu

/-- While a token of a processor is outstanding, its interrupts are disabled and no other token is
returned for it. -/
def Secured (past : List IrqEvent) (state : IrqController) : Prop :=
  ∀ cpu, latest (holding cpu) past = some true →
    state.interruptsEnabled cpu = some false ∧
      ∀ capability, ∃ reason, (perform (.saveDisable cpu capability) state).1 = .err reason

/-- `add_cpu` leaves the state of a known processor alone. -/
def Leaves (before : IrqController) : Request → Prop
  | .addCpu cpu => ∀ old, before.locals[cpu]? = some old → old = fresh
  | _ => True

/-- How the tokens of a run agree with the state of their processors. -/
structure Tracked (past : List IrqEvent) (state : IrqController) : Prop where
  /-- Tokens are never ahead of their processor, and record what `save_disable` found. -/
  returned : ∀ save ∈ past, ∀ cpu token, savedOn cpu save = some token →
    token.cpu = cpu ∧ save.before.interruptsEnabled cpu = some token.wasEnabled ∧
      ∃ found, state.locals[cpu]? = some found ∧ token.generation.toNat ≤ found.generation.toNat
  /-- A token of the latest generation is the latest token. -/
  recent : ∀ save ∈ past, ∀ cpu token found, savedOn cpu save = some token →
    state.locals[cpu]? = some found → token.generation = found.generation →
    latest (savedOn cpu) past = some token
  spent : ∀ token ∈ past.filterMap spentToken, ∃ found, state.locals[token.cpu]? = some found ∧
    (token.generation.toNat < found.generation.toNat ∨
      token.generation = found.generation ∧ found.outstanding = false)
  held : ∀ cpu, latest (holding cpu) past = some true →
    ∃ found, state.locals[cpu]? = some found ∧ found.outstanding = true
  disabled : ∀ (cpu : CpuId) (found : LocalIrqState), state.locals[cpu]? = some found →
    found.outstanding = true → found.enabled = false

theorem tracked_new : Tracked [] new := by
  constructor <;> simp [new, latest]

/-- The tokens of one processor agree with its state. -/
structure TrackedOn (cpu : CpuId) (past : List IrqEvent) (state : IrqController) : Prop where
  returned : ∀ save ∈ past, ∀ token, savedOn cpu save = some token →
    token.cpu = cpu ∧ save.before.interruptsEnabled cpu = some token.wasEnabled ∧
      ∃ found, state.locals[cpu]? = some found ∧ token.generation.toNat ≤ found.generation.toNat
  recent : ∀ save ∈ past, ∀ token found, savedOn cpu save = some token →
    state.locals[cpu]? = some found → token.generation = found.generation →
    latest (savedOn cpu) past = some token
  spent : ∀ token ∈ past.filterMap spentToken, token.cpu = cpu →
    ∃ found, state.locals[cpu]? = some found ∧
      (token.generation.toNat < found.generation.toNat ∨
        token.generation = found.generation ∧ found.outstanding = false)
  held : latest (holding cpu) past = some true →
    ∃ found, state.locals[cpu]? = some found ∧ found.outstanding = true
  disabled : ∀ found : LocalIrqState, state.locals[cpu]? = some found →
    found.outstanding = true → found.enabled = false

/-- Tokens can be followed processor by processor. -/
theorem tracked_iff_forall {past : List IrqEvent} {state : IrqController} :
    Tracked past state ↔ ∀ cpu, TrackedOn cpu past state := by
  constructor
  · intro tracked cpu
    refine ⟨fun save member => tracked.returned save member cpu,
      fun save member => tracked.recent save member cpu, ?_, tracked.held cpu,
      tracked.disabled cpu⟩
    rintro token member rfl
    exact tracked.spent token member
  · intro each
    exact ⟨fun save member cpu => (each cpu).returned save member,
      fun save member cpu => (each cpu).recent save member,
      fun token member => (each token.cpu).spent token member rfl,
      fun cpu => (each cpu).held, fun cpu => (each cpu).disabled⟩

section Step

variable {past : List IrqEvent} {before after : IrqController} {request : Request}
  {outcome : Outcome IrqError Reply} {occurred : IrqEvent} {cpu : CpuId}

/-- Nothing happens to a processor. -/
theorem TrackedOn.unmoved (tracked : TrackedOn cpu past before)
    (no_save : savedOn cpu occurred = none)
    (no_spend : ∀ token, spentToken occurred = some token → token.cpu ≠ cpu)
    (no_hold : holding cpu occurred = none) (same : after.locals[cpu]? = before.locals[cpu]?) :
    TrackedOn cpu (past ++ [occurred]) after := by
  refine ⟨?_, ?_, ?_, ?_, ?_⟩
  · rw [same]
    intro save member token saved
    exact tracked.returned save (mem_of_mem_snoc no_save member saved) token saved
  · rw [same, latest_snoc, no_save, Option.none_or]
    intro save member token found saved
    exact tracked.recent save (mem_of_mem_snoc no_save member saved) token found saved
  · rw [same]
    intro token member cpu_eq
    rcases mem_filterMap_snoc.mp member with spent | now
    · exact tracked.spent token spent cpu_eq
    · exact absurd cpu_eq (no_spend token now)
  · rw [same, latest_snoc, no_hold, Option.none_or]
    exact tracked.held
  · rw [same]
    exact tracked.disabled

/-- There are no tokens of a processor that is not known yet. -/
theorem TrackedOn.added (tracked : TrackedOn cpu past before)
    (unknown : before.locals[cpu]? = none) (no_save : savedOn cpu occurred = none)
    (no_spend : spentToken occurred = none) (no_hold : holding cpu occurred = none)
    (now : after.locals[cpu]? = some fresh) : TrackedOn cpu (past ++ [occurred]) after := by
  have absent {property : LocalIrqState → Prop} :
      ¬∃ found, before.locals[cpu]? = some found ∧ property found := by simp [unknown]
  refine ⟨?_, ?_, ?_, ?_, ?_⟩
  · intro save member token saved
    obtain ⟨_, _, known⟩ :=
      tracked.returned save (mem_of_mem_snoc no_save member saved) token saved
    exact absurd known absent
  · intro save member token found saved
    obtain ⟨_, _, known⟩ :=
      tracked.returned save (mem_of_mem_snoc no_save member saved) token saved
    exact absurd known absent
  · rw [filterMap_snoc_of_none past no_spend]
    exact fun token spent cpu_eq => absurd (tracked.spent token spent cpu_eq) absent
  · rw [latest_snoc, no_hold, Option.none_or]
    exact fun holds => absurd (tracked.held holds) absent
  · intro found present
    obtain rfl := Option.some.inj (now.symm.trans present)
    exact nofun

/-- A new token is ahead of all others of its processor. -/
theorem TrackedOn.saved (tracked : TrackedOn cpu past before) {found : LocalIrqState}
    {generation : UInt64} (present : before.locals[cpu]? = some found)
    (advanced : generation.toNat = found.generation.toNat + 1)
    (before_eq : occurred.before = before)
    (saved_now : savedOn cpu occurred = some ⟨cpu, generation, found.enabled⟩)
    (no_spend : spentToken occurred = none)
    (now : after.locals[cpu]? = some ⟨false, generation, true⟩) :
    TrackedOn cpu (past ++ [occurred]) after := by
  -- Tokens that were returned before are of an older generation.
  have older {save : IrqEvent} {token : IrqStateToken} (member : save ∈ past)
      (saved : savedOn cpu save = some token) : token.generation.toNat < generation.toNat := by
    obtain ⟨_, _, known, known_present, bound⟩ := tracked.returned save member token saved
    obtain rfl := Option.some.inj (present.symm.trans known_present)
    omega
  refine ⟨?_, ?_, ?_, fun _ => ⟨_, now, rfl⟩, ?_⟩
  · intro save member token saved
    rcases List.mem_append.mp member with earlier | last
    · obtain ⟨cpu_eq, enabled, _⟩ := tracked.returned save earlier token saved
      exact ⟨cpu_eq, enabled, _, now, (older earlier saved).le⟩
    · obtain rfl := List.mem_singleton.mp last
      obtain rfl := Option.some.inj (saved_now.symm.trans saved)
      refine ⟨rfl, ?_, _, now, le_refl _⟩
      simp [before_eq, interruptsEnabled, present]
  · intro save member token known saved known_present same
    obtain rfl := Option.some.inj (now.symm.trans known_present)
    rcases List.mem_append.mp member with earlier | last
    · exact absurd (congrArg UInt64.toNat same) (older earlier saved).ne
    · rw [latest_snoc, ← List.mem_singleton.mp last, saved, Option.some_or]
  · rw [filterMap_snoc_of_none past no_spend]
    intro token spent cpu_eq
    obtain ⟨known, known_present, state⟩ := tracked.spent token spent cpu_eq
    obtain rfl := Option.some.inj (present.symm.trans known_present)
    have bound : token.generation.toNat ≤ found.generation.toNat := by
      rcases state with less | ⟨same, _⟩
      · exact less.le
      · rw [same]
    exact ⟨_, now, .inl (show token.generation.toNat < generation.toNat by omega)⟩
  · intro known known_present _
    obtain rfl := Option.some.inj (now.symm.trans known_present)
    rfl

/-- A token that is taken back is spent. -/
theorem TrackedOn.restored (tracked : TrackedOn cpu past before) {token : IrqStateToken}
    {found : LocalIrqState} (present : before.locals[cpu]? = some found)
    (generation_eq : token.generation = found.generation) (outstanding : found.outstanding = true)
    (no_save : savedOn cpu occurred = none) (spent_now : spentToken occurred = some token)
    (released : holding cpu occurred = some false)
    (now : after.locals[cpu]? = some ⟨token.wasEnabled, found.generation, false⟩) :
    TrackedOn cpu (past ++ [occurred]) after := by
  refine ⟨?_, ?_, ?_, ?_, ?_⟩
  · intro save member returned saved
    obtain ⟨cpu_eq, enabled, known, known_present, bound⟩ :=
      tracked.returned save (mem_of_mem_snoc no_save member saved) returned saved
    obtain rfl := Option.some.inj (present.symm.trans known_present)
    exact ⟨cpu_eq, enabled, _, now, bound⟩
  · intro save member returned still saved still_present same
    obtain rfl := Option.some.inj (now.symm.trans still_present)
    rw [latest_snoc, no_save, Option.none_or]
    exact tracked.recent save (mem_of_mem_snoc no_save member saved) returned found saved present
      same
  · intro spent member cpu_eq
    rcases mem_filterMap_snoc.mp member with earlier | last
    · -- A token is outstanding, so those that were spent are of older generations.
      obtain ⟨known, known_present, state⟩ := tracked.spent spent earlier cpu_eq
      obtain rfl := Option.some.inj (present.symm.trans known_present)
      rcases state with less | ⟨_, idle⟩
      · exact ⟨_, now, .inl less⟩
      · rw [outstanding] at idle
        cases idle
    · obtain rfl := Option.some.inj (spent_now.symm.trans last)
      exact ⟨_, now, .inr ⟨generation_eq, rfl⟩⟩
  · rw [latest_snoc, released, Option.some_or]
    exact nofun
  · intro known known_present held
    obtain rfl := Option.some.inj (now.symm.trans known_present)
    cases held

/-- Calls other than `add_cpu`, `save_disable` and `restore` have nothing to do with tokens. -/
theorem Tracked.unmoved (tracked : Tracked past before)
    (no_save : ∀ cpu, savedOn cpu occurred = none) (no_spend : spentToken occurred = none)
    (no_hold : ∀ cpu, holding cpu occurred = none) (same : after.locals = before.locals) :
    Tracked (past ++ [occurred]) after := by
  refine tracked_iff_forall.mpr fun cpu => ?_
  exact (tracked_iff_forall.mp tracked cpu).unmoved (no_save cpu) (by simp [no_spend]) (no_hold cpu)
    (by rw [same])

theorem Tracked.step (tracked : Tracked past before) (step : Step before request outcome after)
    (leaves : Leaves before request) :
    Tracked (past ++ [⟨before, request, outcome, after⟩]) after := by
  have each := tracked_iff_forall.mp tracked
  cases step with
  | rejected request reason =>
      refine tracked.unmoved (fun cpu => ?_) ?_ (fun cpu => ?_) rfl
      · cases request <;> rfl
      · cases request <;> rfl
      · cases request <;> rfl
  | @added cpu unknown =>
      refine tracked_iff_forall.mpr fun other => ?_
      by_cases distinct : cpu = other
      · subst distinct
        exact (each cpu).added unknown rfl rfl rfl Std.ExtTreeMap.getElem?_insert_self
      · exact (each other).unmoved rfl nofun rfl (BTreeMap.getElem?_insert_of_ne _ _ distinct)
  | @replaced cpu old known =>
      obtain rfl := leaves old known
      exact tracked.unmoved (fun _ => rfl) rfl (fun _ => rfl) (BTreeMap.insert_of_present known)
  | @saved cpu capability found generation present idle advanced =>
      refine tracked_iff_forall.mpr fun other => ?_
      by_cases distinct : cpu = other
      · subst distinct
        exact (each cpu).saved present advanced rfl (by simp [savedOn]) rfl
          Std.ExtTreeMap.getElem?_insert_self
      · exact (each other).unmoved (by simp [savedOn, distinct]) nofun
          (by simp [holding, distinct]) (BTreeMap.getElem?_insert_of_ne _ _ distinct)
  | @restored cpu capability token found cpu_eq present generation_eq outstanding =>
      refine tracked_iff_forall.mpr fun other => ?_
      by_cases distinct : cpu = other
      · subst distinct
        exact (each cpu).restored present generation_eq outstanding rfl rfl (by simp [holding])
          Std.ExtTreeMap.getElem?_insert_self
      · refine (each other).unmoved rfl ?_ (by simp [holding, distinct])
          (BTreeMap.getElem?_insert_of_ne _ _ distinct)
        rintro _ ⟨⟩
        exact cpu_eq ▸ distinct
  | routed => exact tracked.unmoved (fun _ => rfl) rfl (fun _ => rfl) rfl
  | rerouted => exact tracked.unmoved (fun _ => rfl) rfl (fun _ => rfl) rfl
  | masked => exact tracked.unmoved (fun _ => rfl) rfl (fun _ => rfl) rfl
  | delivered => exact tracked.unmoved (fun _ => rfl) rfl (fun _ => rfl) rfl
  | ended => exact tracked.unmoved (fun _ => rfl) rfl (fun _ => rfl) rfl
  | dropped => exact tracked.unmoved (fun _ => rfl) rfl (fun _ => rfl) rfl

theorem Tracked.singleUse (tracked : Tracked past before)
    (step : Step before request outcome after) :
    SingleUse past ⟨before, request, outcome, after⟩ := by
  constructor
  · intro token spent member
    cases step with
    | @restored cpu capability token found cpu_eq present generation_eq outstanding =>
        obtain rfl := Option.some.inj spent
        obtain ⟨known, known_present, state⟩ := tracked.spent _ member
        rw [cpu_eq, present] at known_present
        obtain rfl := Option.some.inj known_present
        rcases state with less | ⟨_, idle⟩
        · rw [generation_eq] at less
          exact lt_irrefl _ less
        · rw [outstanding] at idle
          cases idle
    | rejected request reason => cases request <;> cases spent
    | _ => cases spent
  · rintro cpu capability token rfl rfl save member owner saved
    cases step with
    | @restored _ _ _ found cpu_eq present generation_eq outstanding =>
        obtain ⟨owner_eq, enabled, _⟩ := tracked.returned save member owner token saved
        obtain rfl : owner = cpu := owner_eq.symm.trans cpu_eq
        refine ⟨rfl, tracked.recent save member owner token found saved present generation_eq, ?_⟩
        rw [enabled]
        simp [interruptsEnabled]

theorem Tracked.secured {state : IrqController} (tracked : Tracked past state) :
    Secured past state := by
  intro cpu holds
  obtain ⟨found, present, outstanding⟩ := tracked.held cpu holds
  constructor
  · simp [interruptsEnabled, present, tracked.disabled cpu found present outstanding]
  · intro capability
    have step := step_perform (.saveDisable cpu capability) state
    generalize (perform (.saveDisable cpu capability) state).2 = after at step
    cases result : (perform (.saveDisable cpu capability) state).1 with
    | err reason => exact ⟨reason, rfl⟩
    | ok reply =>
        rw [result] at step
        cases step with
        | saved known idle =>
            obtain rfl := Option.some.inj (present.symm.trans known)
            rw [outstanding] at idle
            cases idle
    | overflow =>
        rw [result] at step
        cases step

/-- Processors are known because `add_cpu` named them. -/
theorem added_step (step : Step before request outcome after)
    (added : ∀ cpu ∈ before.locals, cpu ∈ past.filterMap addedCpu) :
    ∀ cpu ∈ after.locals,
      cpu ∈ (past ++ [(⟨before, request, outcome, after⟩ : IrqEvent)]).filterMap addedCpu := by
  intro cpu known
  rw [mem_filterMap_snoc]
  cases step with
  | added | replaced =>
      rcases Std.ExtTreeMap.mem_insert.mp known with same | old
      · exact .inr (congrArg some (Std.LawfulEqCmp.eq_of_compare same))
      · exact .inl (added cpu old)
  | saved present | restored _ present =>
      exact .inl (added cpu ((BTreeMap.mem_insert_of_present _ present cpu).mp known))
  | _ => exact .inl (added cpu known)

end Step

/-- When no processor is added twice, tokens are for a single use and restore what they saved, and
an outstanding token keeps the interrupts of its processor disabled. -/
theorem tokens_single_use (requests : List Request)
    (once : ((history perform new requests).filterMap addedCpu).Nodup) :
    Guarded SingleUse [] (history perform new requests) ∧
      Secured (history perform new requests) (final perform new requests) := by
  suffices kept : Guarded SingleUse [] (history perform new requests) ∧
      Tracked (history perform new requests) (final perform new requests) ∧
      ∀ cpu ∈ (final perform new requests).locals,
        cpu ∈ (history perform new requests).filterMap addedCpu from
    ⟨kept.1, kept.2.1.secured⟩
  refine run_induction perform (motive := fun past state =>
    (past.filterMap addedCpu).Nodup → Guarded SingleUse [] past ∧ Tracked past state ∧
      ∀ cpu ∈ state.locals, cpu ∈ past.filterMap addedCpu)
    (fun _ => ⟨trivial, tracked_new, by simp [new]⟩) ?_ requests once
  intro past state request induction once
  have step := step_perform request state
  rw [nodup_filterMap_iff, guarded_snoc, ← nodup_filterMap_iff] at once
  obtain ⟨single_use, tracked, added⟩ := induction once.1
  have leaves : Leaves state request := by
    cases request with
    | addCpu cpu =>
        intro old known
        exact (once.2 cpu rfl (added cpu (BTreeMap.mem_of_present known))).elim
    | _ => trivial
  refine ⟨?_, tracked.step step leaves, added_step step added⟩
  exact (guarded_snoc SingleUse past _).mpr ⟨single_use, tracked.singleUse step⟩

/-- The second token of processor 0 is not accepted after it was taken back, nor is the first one,
while processor 1 holds a token of its own. -/
theorem tokens_single_use_two_processors :
    let cpuLocal : Capability := ⟨.cpuLocal, 0, 0, Rights.control, 0, 0, 0⟩
    let requests : List Request := [.addCpu 0, .addCpu 1, .saveDisable 0 cpuLocal,
      .saveDisable 1 cpuLocal, .restore 0 cpuLocal ⟨0, 1, true⟩, .saveDisable 0 cpuLocal,
      .restore 0 cpuLocal ⟨0, 1, true⟩, .restore 0 cpuLocal ⟨0, 2, true⟩,
      .restore 0 cpuLocal ⟨0, 2, true⟩]
    ((history perform new requests).map fun occurred => occurred.outcome) =
        [.ok .done, .ok .done, .ok (.token ⟨0, 1, true⟩), .ok (.token ⟨1, 1, true⟩), .ok .done,
          .ok (.token ⟨0, 2, true⟩), .err .staleGeneration, .ok .done, .err .alreadyRestored] ∧
      ((history perform new requests).filterMap addedCpu).Nodup ∧
      Guarded SingleUse [] (history perform new requests) ∧
      Secured (history perform new requests) (final perform new requests) :=
  ⟨by decide, by decide, tokens_single_use _ (by decide)⟩

end Bulla.Kernel.IrqController
