import Bulla.Platform.HeapOwnership

/-!
# One processor alone

While the other processors stand still, the bitmap changes only by what this processor does, so that
its exchange can fail for no reason only.  It then finds a run if there is one.
-/

namespace Bulla.Platform

open Rust

/-- No allocation of this layout is possible. -/
def NoRoom (base bitmap : UInt64) (layout : Layout) : Prop :=
  base = 0 ∨ 4096 < layout.align ∨
    ¬∃ first : ℕ, first + (max layout.size.toNat 1 + 4095) / 4096 ≤ 64 ∧
      ∀ page, first ≤ page → page < first + (max layout.size.toNat 1 + 4095) / 4096 →
        bit bitmap page = false

/-- The address that a reply carries. -/
def HeapReply.address : HeapReply → Option UInt64
  | .returned address => some address
  | _ => none

namespace HeapUser

/-- A call of `alloc` that started with this bitmap. -/
def Searching (base bitmap : UInt64) (layout : Layout) (self : Heap) : HeapUser → Prop
  | .scanning wanted first => wanted = layout ∧ Placed base layout first ∧ self.bitmap = bitmap ∧
      ∀ earlier : UInt64, earlier.toNat < first.toNat → bitmap &&& mask layout.pages earlier ≠ 0
  | .swapping wanted first observed => wanted = layout ∧ Placed base layout first ∧
      self.bitmap = bitmap ∧ observed = bitmap ∧ bitmap &&& mask layout.pages first = 0
  | .zeroing wanted first => wanted = layout ∧ Placed base layout first ∧
      ¬NoRoom base bitmap layout
  | _ => False

/-- How many operations are left at most, those that fail for no reason aside. -/
def rank : HeapUser → ℕ
  | .scanning _ first => 67 - first.toNat
  | .swapping _ _ _ => 2
  | .zeroing _ _ => 1
  | _ => 0

section Search

variable {base bitmap : UInt64} {layout : Layout} {first : UInt64} {self : Heap} {user : HeapUser}

/-- A run is clear if and only if its mask is. -/
theorem and_mask_eq_zero_iff (placed : Placed base layout first) :
    bitmap &&& mask layout.pages first = 0 ↔
      ∀ page, first.toNat ≤ page → page < first.toNat + layout.pages.toNat →
        bit bitmap page = false := by
  have covered (page : ℕ) : bit (mask layout.pages first) page = true ↔
      first.toNat ≤ page ∧ page < first.toNat + layout.pages.toNat := by
    rw [placed.bit_mask, Layout.covers, decide_eq_true_eq]
  constructor
  · intro clear page from_first to_last
    have both := congrArg (fun word => bit word page) clear
    rw [bit_and, (covered page).mpr ⟨from_first, to_last⟩, Bool.and_true, bit_zero] at both
    exact both
  · intro clear
    apply eq_of_bit_eq
    intro page _
    rw [bit_and, bit_zero, Bool.and_eq_false_iff]
    by_cases inside : bit (mask layout.pages first) page = true
    · exact .inl (clear page ((covered page).mp inside).1 ((covered page).mp inside).2)
    · exact .inr (Bool.not_eq_true _ ▸ inside)

theorem room_of_clear (placed : Placed base layout first)
    (clear : bitmap &&& mask layout.pages first = 0) : ¬NoRoom base bitmap layout := by
  rintro (zero | large | none)
  · exact placed.nonzero zero
  · rw [UInt64.lt_iff_toNat_lt] at large
    exact absurd placed.small (Nat.not_le_of_lt large)
  · refine none ⟨first.toNat, ?_⟩
    rw [← pages_toNat]
    exact ⟨placed.inside, (and_mask_eq_zero_iff placed).mp clear⟩

theorem noRoom_of_blocked (blocked : ∀ run : UInt64, run.toNat + layout.pages.toNat ≤ 64 →
    bitmap &&& mask layout.pages run ≠ 0) (small : Placed base layout first) :
    NoRoom base bitmap layout := by
  refine .inr (.inr ?_)
  rintro ⟨run, inside, clear⟩
  rw [← pages_toNat] at inside clear
  obtain ⟨word, word_eq⟩ := exists_toNat_eq (show run < 2 ^ 64 by omega)
  subst word_eq
  have placed : Placed base layout word := ⟨small.nonzero, small.small, inside⟩
  exact blocked word inside ((and_mask_eq_zero_iff placed).mpr clear)

/-- A step of the search: it ends with the right answer, or gets closer to its end. -/
def Closer (base bitmap : UInt64) (layout : Layout) (spurious : Bool) (user : HeapUser)
    (moved : HeapReply × Heap × HeapUser) : Prop :=
  (∃ address, moved.1 = .returned address ∧ (address = 0 ↔ NoRoom base bitmap layout) ∧
      moved.2.2 = .idle) ∨
    moved.1 = .continues ∧ moved.2.2.Searching base bitmap layout moved.2.1 ∧
      moved.2.2.rank + (if spurious then 0 else 1) ≤ user.rank

theorem closer_inspect (placed : Placed base layout first) (same : self.bitmap = bitmap)
    (blocked : ∀ earlier : UInt64, earlier.toNat < first.toNat →
      bitmap &&& mask layout.pages earlier ≠ 0) (spurious : Bool) :
    Closer base bitmap layout spurious (.scanning layout first)
      ((inspect layout first self.bitmap).1, self, (inspect layout first self.bitmap).2) := by
  have first_lt := placed.first_lt
  have inside := placed.inside
  rw [same]
  unfold inspect
  split
  · next taken =>
    have blocked_here (run : UInt64) (run_le : run.toNat ≤ first.toNat) :
        bitmap &&& mask layout.pages run ≠ 0 := by
      rcases Nat.lt_or_eq_of_le run_le with earlier | here
      · exact blocked run earlier
      · rw [UInt64.toNat_inj.mp here]
        exact taken
    have pages_eq : heapPages.toNat = 64 := rfl
    have next_eq : (first + 1).toNat = first.toNat + 1 := toNat_add_one (by omega)
    unfold nextRun
    split
    · next more =>
      rw [UInt64.lt_iff_toNat_lt, UInt64.toNat_sub_of_le _ _ placed.pages_le] at more
      refine .inr ⟨rfl, ⟨rfl, ⟨placed.nonzero, placed.small, by omega⟩, same, ?_⟩, ?_⟩
      · intro earlier earlier_lt
        exact blocked_here earlier (by omega)
      · simp only [rank, next_eq]
        split <;> omega
    · next last =>
      rw [UInt64.lt_iff_toNat_lt, UInt64.toNat_sub_of_le _ _ placed.pages_le] at last
      refine .inl ⟨0, rfl, iff_of_true rfl (noRoom_of_blocked (fun run fits => ?_) placed), rfl⟩
      exact blocked_here run (by omega)
  · next clear =>
    refine .inr ⟨rfl, ⟨rfl, placed, same, rfl, not_not.mp clear⟩, ?_⟩
    simp only [rank]
    split <;> omega

theorem closer_step (heap : HeapBase base) (searching : user.Searching base bitmap layout self)
    (spurious : Bool) :
    Closer base bitmap layout spurious user (user.step base self (.advance spurious)) := by
  cases user with
  | idle => exact searching.elim
  | freeing => exact searching.elim
  | scanning wanted first =>
      obtain ⟨rfl, placed, same, blocked⟩ := searching
      exact closer_inspect placed same blocked spurious
  | swapping wanted first observed =>
      obtain ⟨rfl, placed, same, rfl, clear⟩ := searching
      simp only [step]
      split
      · refine .inr ⟨rfl, ⟨rfl, placed, room_of_clear placed clear⟩, ?_⟩
        simp only [rank]
        split <;> omega
      · next failed =>
        have still :
            inspect wanted first self.bitmap = (.continues, .swapping wanted first observed) := by
          rw [same, inspect, if_neg (not_not.mpr clear)]
        have spurious_eq : spurious = true := by
          by_contra genuine
          exact failed ⟨same, Bool.not_eq_true _ ▸ genuine⟩
        rw [still, spurious_eq]
        exact .inr ⟨rfl, ⟨rfl, placed, same, rfl, clear⟩, le_refl _⟩
  | zeroing wanted first =>
      obtain ⟨rfl, placed, room⟩ := searching
      refine .inl ⟨base + first * 4096, rfl, iff_of_false (fun zero => ?_) room, rfl⟩
      have address_eq := placed.address_toNat heap
      have positive := toNat_pos placed.nonzero
      rw [zero, UInt64.toNat_zero] at address_eq
      omega

theorem Searching.rank_pos (searching : user.Searching base bitmap layout self) :
    0 < user.rank := by
  cases user with
  | idle => exact searching.elim
  | freeing => exact searching.elim
  | scanning wanted first =>
      have first_lt := searching.2.1.first_lt
      simp only [rank]
      omega
  | swapping => exact Nat.zero_lt_two
  | zeroing => exact Nat.zero_lt_one

end Search

end HeapUser

namespace HeapUsers

variable {base bitmap : UInt64} {layout : Layout} {processors : ℕ} {system : HeapUsers processors}
  {cpu : Fin processors}

/-- The address that a call of `alloc` returns. -/
def returnedAddress
    (occurred : Rust.Event (HeapUsers processors) (Fin processors × HeapAction) Empty HeapReply) :
    Option UInt64 :=
  match occurred.outcome with
  | .ok reply => reply.address
  | _ => none

/-- What calls of `alloc` return while one processor goes on alone. -/
def repliesAlone (base : UInt64) (system : HeapUsers processors) (cpu : Fin processors)
    (spurious : List Bool) : List UInt64 :=
  (history (perform base) system (spurious.map fun fails => (cpu, .advance fails))).filterMap
    returnedAddress

theorem repliesAlone_cons (fails : Bool) (spurious : List Bool) :
    repliesAlone base system cpu (fails :: spurious) =
      ((system.own cpu).step base system.shared (.advance fails)).1.address.toList ++
        repliesAlone base
          (system.put cpu ((system.own cpu).step base system.shared (.advance fails)).2.1
            ((system.own cpu).step base system.shared (.advance fails)).2.2) cpu spurious := by
  have shown : returnedAddress (event (perform base) system (cpu, .advance fails)) =
      ((system.own cpu).step base system.shared (.advance fails)).1.address := rfl
  rw [repliesAlone, List.map_cons, history, List.filterMap_cons, shown, after_event]
  cases ((system.own cpu).step base system.shared (.advance fails)).1.address <;> rfl

theorem repliesAlone_idle (idle : system.own cpu = .idle) (spurious : List Bool) :
    repliesAlone base system cpu spurious = [] := by
  induction spurious generalizing system with
  | nil => rfl
  | cons fails spurious induction =>
      rw [repliesAlone_cons, idle]
      exact induction Interleaved.put_own

/-- The search returns once and gives the right answer, and it returns if enough exchanges do not
fail for no reason. -/
theorem repliesAlone_searching (heap : HeapBase base) {user : HeapUser}
    (own_eq : system.own cpu = user)
    (searching : user.Searching base bitmap layout system.shared) (spurious : List Bool) :
    (repliesAlone base system cpu spurious = [] ∨ ∃ address,
        repliesAlone base system cpu spurious = [address] ∧
          (address = 0 ↔ NoRoom base bitmap layout)) ∧
      (user.rank ≤ spurious.count false → repliesAlone base system cpu spurious ≠ []) := by
  induction spurious generalizing system user with
  | nil =>
      refine ⟨.inl rfl, fun enough => ?_⟩
      have positive := searching.rank_pos
      rw [List.count_nil] at enough
      omega
  | cons fails spurious induction =>
      rw [repliesAlone_cons, own_eq]
      rcases HeapUser.closer_step heap searching fails with
        ⟨address, reply_eq, answer, idle⟩ | ⟨reply_eq, searching, closer⟩
      · rw [reply_eq, repliesAlone_idle (by rw [Interleaved.put_own, idle])]
        exact ⟨.inr ⟨address, rfl, answer⟩, fun _ => by simp [HeapReply.address]⟩
      · rw [reply_eq]
        obtain ⟨replies, returns⟩ := induction Interleaved.put_own searching
        refine ⟨replies, fun enough => returns ?_⟩
        cases fails <;> simp at closer enough <;> omega

/-- What `alloc` returns before it has looked at the bitmap. -/
theorem alloc_cases (base bitmap : UInt64) (layout : Layout) (self : Heap)
    (same : self.bitmap = bitmap) :
    HeapUser.alloc base layout = (.returned 0, .idle) ∧ NoRoom base bitmap layout ∨
      HeapUser.alloc base layout = (.continues, .scanning layout 0) ∧
        (HeapUser.scanning layout 0).Searching base bitmap layout self := by
  unfold HeapUser.alloc
  split
  · next refused =>
    refine .inl ⟨rfl, ?_⟩
    rcases refused with zero | large
    · exact .inl zero
    · exact .inr (.inl large)
  · next accepted =>
    rw [not_or] at accepted
    split
    · next large =>
      rw [gt_iff_lt, UInt64.lt_iff_toNat_lt, pages_toNat] at large
      refine .inl ⟨rfl, .inr (.inr ?_)⟩
      rintro ⟨first, inside, _⟩
      have pages_eq : heapPages.toNat = 64 := rfl
      omega
    · next fits =>
      rw [gt_iff_lt, UInt64.lt_iff_toNat_lt] at fits
      refine .inr ⟨rfl, rfl, ⟨accepted.1, ?_, ?_⟩, same, ?_⟩
      · exact Nat.le_of_not_lt fun large => accepted.2 (UInt64.lt_iff_toNat_lt.mpr large)
      · rw [UInt64.toNat_zero, Nat.zero_add]
        exact Nat.le_of_not_lt fits
      · intro earlier earlier_lt
        exact (Nat.not_lt_zero _ earlier_lt).elim

/-- Pages of the heap are owned by one allocation at a time, and a processor alone is refused an
allocation only if there is none. -/
theorem heap_owned (heap : HeapBase base) :
    (∀ processors (schedule : List (Fin processors × HeapAction)),
      let system := final (perform base) (empty processors) schedule
      system.live.Pairwise (Apart base) ∧
        (∀ allocation ∈ system.live, WellPlaced base allocation) ∧
        system.shared.bitmap = ownedBits base system) ∧
    ∀ processors (system : HeapUsers processors) (cpu : Fin processors) (layout : Layout)
      (spurious : List Bool), system.own cpu = .idle →
      let called := event (perform base) system (cpu, .alloc layout)
      let replies := (returnedAddress called).toList ++ repliesAlone base called.after cpu spurious
      (replies = [] ∨ ∃ address, replies = [address] ∧
          (address = 0 ↔ NoRoom base system.shared.bitmap layout)) ∧
        (67 ≤ spurious.count false → replies ≠ []) := by
  constructor
  · intro processors schedule
    have owned := owned_run heap schedule
    exact ⟨owned.pairwise_apart heap,
      fun allocation member => (owned.live_proper allocation member).wellPlaced heap,
      owned.bitmap_eq heap⟩
  · intro processors system cpu layout spurious idle
    have step_eq : (system.own cpu).step base system.shared (.alloc layout) =
        ((HeapUser.alloc base layout).1, system.shared, (HeapUser.alloc base layout).2) := by
      rw [idle]
      rfl
    have shown : returnedAddress (event (perform base) system (cpu, .alloc layout)) =
        ((system.own cpu).step base system.shared (.alloc layout)).1.address := rfl
    simp only [shown, after_event, step_eq]
    rcases alloc_cases base system.shared.bitmap layout system.shared rfl with
      ⟨alloc_eq, none⟩ | ⟨alloc_eq, searching⟩
    · rw [alloc_eq, repliesAlone_idle Interleaved.put_own]
      exact ⟨.inr ⟨0, rfl, iff_of_true rfl none⟩, fun _ => by simp [HeapReply.address]⟩
    · rw [alloc_eq]
      exact repliesAlone_searching heap Interleaved.put_own searching spurious

/-- Two processors that want the same page get different ones. -/
theorem heap_owned_two :
    let base : UInt64 := 0x100000
    let layout : Layout := ⟨8, 8, by decide, by decide⟩
    let schedule : List (Fin 2 × HeapAction) := [(0, .alloc layout), (1, .alloc layout),
      (0, .advance false), (1, .advance false), (0, .advance false), (1, .advance false),
      (0, .advance false), (1, .advance false), (1, .advance false), (1, .advance false)]
    let system := final (perform base) (empty 2) schedule
    (history (perform base) (empty 2) schedule).filterMap returnedAddress = [0x100000, 0x101000] ∧
      system.shared.bitmap = 3 ∧ HeapBase base ∧ system.live.Pairwise (Apart base) ∧
      (∀ allocation ∈ system.live, WellPlaced base allocation) ∧
      system.shared.bitmap = ownedBits base system :=
  ⟨by decide, by decide, ⟨by decide, by decide⟩,
    (heap_owned ⟨by decide, by decide⟩).1 2 _⟩

end HeapUsers

end Bulla.Platform
