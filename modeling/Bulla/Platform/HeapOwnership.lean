import Bulla.Platform.Heap

/-!
# Ownership of heap pages

Every set bit of the bitmap has one owner: an allocation that a caller has or is passing to
`dealloc`, or a call of `alloc` that has set it and has not returned.  For each page, the number of
owners is kept equal to its bit, which says at once that runs do not overlap and that no bit is
lost.
-/

namespace Bulla.Platform

open Rust

/-- The first page of an allocation. -/
def Allocation.first (base : UInt64) (self : Allocation) : UInt64 := (self.address - base) / 4096

/-- A run of pages of a layout covers a page. -/
def Layout.covers (layout : Layout) (first : UInt64) (page : ℕ) : Bool :=
  decide (first.toNat ≤ page ∧ page < first.toNat + layout.pages.toNat)

def Allocation.covers (base : UInt64) (page : ℕ) (self : Allocation) : Bool :=
  self.layout.covers (self.first base) page

/-- The bits of an allocation. -/
def Allocation.mask (base : UInt64) (self : Allocation) : UInt64 :=
  Platform.mask self.layout.pages (self.first base)

/-- A run of pages that an allocation may have. -/
structure Placed (base : UInt64) (layout : Layout) (first : UInt64) : Prop where
  nonzero : base ≠ 0
  small : layout.align.toNat ≤ 4096
  inside : first.toNat + layout.pages.toNat ≤ 64

/-- An allocation that `alloc` may have returned. -/
def Allocation.Proper (base : UInt64) (self : Allocation) : Prop :=
  ∃ first, Placed base self.layout first ∧ self.address = base + first * 4096

/-- What is assumed of `HEAP_BASE`. -/
structure HeapBase (base : UInt64) : Prop where
  aligned : base % 4096 = 0
  bounded : base.toNat + heapBytes.toNat < 2 ^ 64

/-- Inside the heap, and aligned as its layout requires. -/
structure WellPlaced (base : UInt64) (allocation : Allocation) : Prop where
  above : base.toNat ≤ allocation.address.toNat
  below : allocation.address.toNat + allocation.layout.pages.toNat * 4096 ≤
    base.toNat + heapBytes.toNat
  aligned : allocation.layout.align.toNat ∣ allocation.address.toNat

section Placed

variable {base : UInt64} {layout : Layout} {first : UInt64}

theorem Placed.first_lt (placed : Placed base layout first) : first.toNat < 64 := by
  have positive := pages_pos layout
  have inside := placed.inside
  omega

theorem Placed.pages_le (placed : Placed base layout first) : layout.pages ≤ heapPages :=
  UInt64.le_iff_toNat_le.mpr ((Nat.le_add_left _ _).trans placed.inside)

theorem Placed.address_toNat (heap : HeapBase base) (placed : Placed base layout first) :
    (base + first * 4096).toNat = base.toNat + first.toNat * 4096 := by
  have first_lt := placed.first_lt
  have bounded := heap.bounded
  have bytes_eq : heapBytes.toNat = 262144 := rfl
  have offset_eq : (first * 4096).toNat = first.toNat * 4096 := by
    rw [UInt64.toNat_mul]
    exact Nat.mod_eq_of_lt (show first.toNat * 4096 < 2 ^ 64 by omega)
  rw [UInt64.toNat_add, offset_eq]
  exact Nat.mod_eq_of_lt (by omega)

theorem Placed.first_eq (heap : HeapBase base) (placed : Placed base layout first) :
    Allocation.first base ⟨base + first * 4096, layout⟩ = first := by
  have address_eq := placed.address_toNat heap
  have below : base ≤ base + first * 4096 := by
    rw [UInt64.le_iff_toNat_le, address_eq]
    omega
  rw [Allocation.first, ← UInt64.toNat_inj, UInt64.toNat_div, UInt64.toNat_sub_of_le _ _ below,
    address_eq, Nat.add_sub_cancel_left]
  exact Nat.mul_div_cancel _ (by decide)

theorem Placed.bit_mask (placed : Placed base layout first) (page : ℕ) :
    bit (mask layout.pages first) page = layout.covers first page :=
  Platform.bit_mask (pages_pos layout) placed.inside page

theorem Placed.allocation_covers (heap : HeapBase base) (placed : Placed base layout first)
    (page : ℕ) :
    Allocation.covers base page ⟨base + first * 4096, layout⟩ = layout.covers first page := by
  rw [Allocation.covers, placed.first_eq heap]

theorem Allocation.Proper.bit_mask {allocation : Allocation} (heap : HeapBase base)
    (proper : allocation.Proper base) (page : ℕ) :
    bit (allocation.mask base) page = allocation.covers base page := by
  obtain ⟨address, layout⟩ := allocation
  obtain ⟨first, placed, rfl⟩ := proper
  rw [Allocation.mask, placed.first_eq heap, placed.allocation_covers heap]
  exact placed.bit_mask page

theorem Allocation.Proper.lt_of_covers {allocation : Allocation} (heap : HeapBase base)
    (proper : allocation.Proper base) {page : ℕ} (covered : allocation.covers base page = true) :
    page < 64 := by
  obtain ⟨address, layout⟩ := allocation
  obtain ⟨first, placed, rfl⟩ := proper
  have inside : first.toNat + layout.pages.toNat ≤ 64 := placed.inside
  rw [placed.allocation_covers heap] at covered
  have covered : first.toNat ≤ page ∧ page < first.toNat + layout.pages.toNat :=
    of_decide_eq_true covered
  omega

theorem Allocation.Proper.wellPlaced {allocation : Allocation} (heap : HeapBase base)
    (proper : allocation.Proper base) : WellPlaced base allocation := by
  obtain ⟨address, layout⟩ := allocation
  obtain ⟨first, placed, rfl⟩ := proper
  have address_eq := placed.address_toNat heap
  have inside : first.toNat + layout.pages.toNat ≤ 64 := placed.inside
  have bytes_eq : heapBytes.toNat = 262144 := rfl
  refine ⟨?_, ?_, ?_⟩
  · rw [address_eq]
    omega
  · simp only [address_eq]
    omega
  · simp only [address_eq]
    obtain ⟨exponent, align_eq⟩ := isPowerOfTwo_iff.mp layout.power
    have divides : layout.align.toNat ∣ 4096 := by
      have small : layout.align.toNat ≤ 4096 := placed.small
      rw [align_eq] at small ⊢
      exact Nat.pow_dvd_pow 2 (Nat.pow_le_pow_iff_right (a := 2) (n := exponent) (m := 12)
        (by decide) |>.mp small)
    exact (divides.trans (mod_eq_zero_iff.mp heap.aligned)).add
      (divides.trans (Nat.dvd_mul_left 4096 first.toNat))

/-- The checks of `dealloc` let every allocation pass. -/
theorem Allocation.Proper.dealloc_eq {allocation : Allocation} (heap : HeapBase base)
    (proper : allocation.Proper base) :
    HeapUser.dealloc base allocation =
      (.continues, .freeing allocation (allocation.mask base)) := by
  obtain ⟨address, layout⟩ := allocation
  obtain ⟨first, placed, rfl⟩ := proper
  have address_eq := placed.address_toNat heap
  have first_lt := placed.first_lt
  have bytes_eq : heapBytes.toNat = 262144 := rfl
  have pages_eq : heapPages.toNat = 64 := rfl
  have end_eq : (base + heapBytes).toNat = base.toNat + 262144 := by
    rw [UInt64.toNat_add, bytes_eq]
    exact Nat.mod_eq_of_lt heap.bounded
  have accepted : ¬(base = 0 ∨ base + first * 4096 < base ∨
      base + first * 4096 ≥ base + heapBytes ∨ (base + first * 4096) % 4096 ≠ 0) := by
    rintro (zero | below | above | uneven)
    · exact placed.nonzero zero
    · rw [UInt64.lt_iff_toNat_lt, address_eq] at below
      omega
    · rw [ge_iff_le, UInt64.le_iff_toNat_le, address_eq, end_eq] at above
      omega
    · refine uneven (mod_eq_zero_iff.mpr ?_)
      rw [address_eq]
      exact (mod_eq_zero_iff.mp heap.aligned).add (Nat.dvd_mul_left 4096 first.toNat)
  have inside : ¬(layout.pages > heapPages ∨ first + layout.pages > heapPages) := by
    have bound : first.toNat + layout.pages.toNat ≤ 64 := placed.inside
    have sum_eq : (first + layout.pages).toNat = first.toNat + layout.pages.toNat := by
      rw [UInt64.toNat_add]
      exact Nat.mod_eq_of_lt (by omega)
    rintro (large | large)
    · rw [gt_iff_lt, UInt64.lt_iff_toNat_lt] at large
      omega
    · rw [gt_iff_lt, UInt64.lt_iff_toNat_lt, sum_eq] at large
      omega
  have first_eq : (base + first * 4096 - base) / 4096 = first := placed.first_eq heap
  rw [HeapUser.dealloc, if_neg accepted]
  simp only [first_eq, if_neg inside, Allocation.mask, Allocation.first]

end Placed

namespace HeapUser

/-- The allocation that is being freed. -/
def freed : HeapUser → Option Allocation
  | .freeing allocation _ => some allocation
  | _ => none

/-- The run that is set and not yet returned. -/
def swapped : HeapUser → Option (Layout × UInt64)
  | .zeroing layout first => some (layout, first)
  | _ => none

/-- Whether a processor owns a page. -/
def covers (base : UInt64) (page : ℕ) (user : HeapUser) : ℕ :=
  (user.freed.any fun allocation => allocation.covers base page).toNat +
    (user.swapped.any fun run => run.1.covers run.2 page).toNat

/-- What a processor knows from where it is. -/
def Proper (base : UInt64) : HeapUser → Prop
  | .idle => True
  | .scanning layout first => Placed base layout first
  | .swapping layout first observed =>
      Placed base layout first ∧ observed &&& mask layout.pages first = 0
  | .zeroing layout first => Placed base layout first
  | .freeing allocation freedMask => allocation.Proper base ∧ freedMask = allocation.mask base

/-- The effect of each way a step can go. -/
inductive Move (base : UInt64) (self : Heap) :
    HeapUser → HeapReply → Heap → HeapUser → Prop
  | stays (user : HeapUser) : Move base self user .continues self user
  | called (layout : Layout) :
      Move base self .idle (alloc base layout).1 self (alloc base layout).2
  | passed {allocation : Allocation} (present : allocation ∈ self.callers) :
      Move base self .idle (dealloc base allocation).1
        { self with callers := self.callers.erase allocation } (dealloc base allocation).2
  | looked {user : HeapUser} {layout : Layout} {first : UInt64}
      (looking : user = .scanning layout first ∨
        ∃ observed, user = .swapping layout first observed) :
      Move base self user (inspect layout first self.bitmap).1 self
        (inspect layout first self.bitmap).2
  | exchanged {layout : Layout} {first : UInt64} :
      Move base self (.swapping layout first self.bitmap) .continues
        { self with bitmap := self.bitmap ||| mask layout.pages first } (.zeroing layout first)
  | returned {layout : Layout} {first : UInt64} :
      Move base self (.zeroing layout first) (.returned (base + first * 4096))
        { self with
          allocations := self.allocations + 1
          callers := ⟨base + first * 4096, layout⟩ :: self.callers } .idle
  | cleared {allocation : Allocation} {freedMask : UInt64} :
      Move base self (.freeing allocation freedMask) .freed
        { self with bitmap := self.bitmap &&& ~~~freedMask } .idle

/-- Every step is one of the moves. -/
theorem move_step (base : UInt64) (self : Heap) (action : HeapAction) (user : HeapUser) :
    Move base self user (user.step base self action).1 (user.step base self action).2.1
      (user.step base self action).2.2 := by
  cases action with
  | alloc layout =>
      cases user with
      | idle => exact .called layout
      | _ => exact .stays _
  | dealloc allocation =>
      cases user with
      | idle =>
          simp only [step]
          split
          · next present => exact .passed present
          · exact .stays _
      | _ => exact .stays _
  | advance spurious =>
      cases user with
      | idle => exact .stays _
      | scanning layout first => exact .looked (.inl rfl)
      | swapping layout first observed =>
          simp only [step]
          split
          · next exchange =>
            rw [← exchange.1]
            exact .exchanged
          · exact .looked (.inr ⟨observed, rfl⟩)
      | zeroing layout first => exact .returned
      | freeing allocation freedMask => exact .cleared

section Move

variable {base : UInt64} {before after : Heap} {user moved : HeapUser} {reply : HeapReply}

theorem covers_inspect (layout : Layout) (first observed : UInt64) (page : ℕ) :
    (inspect layout first observed).2.covers base page = 0 := by
  unfold inspect nextRun
  split
  · split <;> rfl
  · rfl

/-- A move keeps the balance of a page: its bit and what callers and this processor own of it. -/
theorem Move.conserves (heap : HeapBase base) (move : Move base before user reply after moved)
    (proper : user.Proper base) (callers : ∀ allocation ∈ before.callers, allocation.Proper base)
    {page : ℕ} (inside : page < 64)
    (owned : user.covers base page ≤ (bit before.bitmap page).toNat) :
    (bit after.bitmap page).toNat +
        (before.callers.countP (Allocation.covers base page) + user.covers base page) =
      (bit before.bitmap page).toNat +
        (after.callers.countP (Allocation.covers base page) + moved.covers base page) := by
  cases move with
  | stays => rfl
  | called layout =>
      have unowned : (alloc base layout).2.covers base page = 0 := by
        unfold alloc
        split
        · rfl
        · split <;> rfl
      rw [unowned]
      rfl
  | @passed allocation present =>
      rw [(callers allocation present).dealloc_eq heap,
        (List.perm_cons_erase present).countP_eq, List.countP_cons]
      cases covered : allocation.covers base page <;> simp [covers, freed, swapped, covered]
  | looked looking =>
      rw [covers_inspect]
      rcases looking with rfl | ⟨_, rfl⟩ <;> rfl
  | @exchanged layout first =>
      obtain ⟨placed, free⟩ := proper
      have clear := congrArg (fun word => bit word page) free
      simp only [bit_and, placed.bit_mask, bit_zero] at clear
      simp only [bit_or, placed.bit_mask]
      cases set : bit before.bitmap page <;> cases covered : layout.covers first page <;>
        simp [covers, freed, swapped, set, covered] at clear ⊢
      omega
  | @returned layout first =>
      have placed : Placed base layout first := proper
      rw [List.countP_cons, placed.allocation_covers heap]
      cases covered : layout.covers first page <;> simp [covers, freed, swapped, covered]
  | @cleared allocation freedMask =>
      obtain ⟨allocation_proper, rfl⟩ := proper
      simp only [bit_and, bit_not _ inside, allocation_proper.bit_mask heap]
      cases set : bit before.bitmap page <;> cases covered : allocation.covers base page <;>
        simp [covers, freed, swapped, set, covered] at owned ⊢
      omega

theorem proper_alloc (layout : Layout) : (alloc base layout).2.Proper base := by
  unfold alloc
  split
  · trivial
  · next accepted =>
    split
    · trivial
    · next fits =>
      rw [not_or, gt_iff_lt, UInt64.lt_iff_toNat_lt] at accepted
      rw [gt_iff_lt, UInt64.lt_iff_toNat_lt] at fits
      refine ⟨accepted.1, Nat.le_of_not_lt accepted.2, ?_⟩
      rw [UInt64.toNat_zero, Nat.zero_add]
      exact Nat.le_of_not_lt fits

theorem proper_inspect {layout : Layout} {first : UInt64} (placed : Placed base layout first)
    (observed : UInt64) : (inspect layout first observed).2.Proper base := by
  unfold inspect
  split
  · unfold nextRun
    split
    · next more =>
      have inside := placed.inside
      have first_lt := placed.first_lt
      have pages_eq : heapPages.toNat = 64 := rfl
      rw [UInt64.lt_iff_toNat_lt, UInt64.toNat_sub_of_le _ _ placed.pages_le] at more
      refine ⟨placed.nonzero, placed.small, ?_⟩
      rw [toNat_add_one (by omega)]
      omega
    · trivial
  · next free => exact ⟨placed, not_not.mp free⟩

theorem Move.proper (heap : HeapBase base) (move : Move base before user reply after moved)
    (proper : user.Proper base) (callers : ∀ allocation ∈ before.callers, allocation.Proper base) :
    moved.Proper base ∧ ∀ allocation ∈ after.callers, allocation.Proper base := by
  cases move with
  | stays => exact ⟨proper, callers⟩
  | called layout => exact ⟨proper_alloc layout, callers⟩
  | @passed allocation present =>
      have allocation_proper := callers allocation present
      rw [allocation_proper.dealloc_eq heap]
      exact ⟨⟨allocation_proper, rfl⟩,
        fun other member => callers other (List.mem_of_mem_erase member)⟩
  | @looked _ layout first looking =>
      refine ⟨proper_inspect ?_ _, callers⟩
      rcases looking with rfl | ⟨_, rfl⟩
      · exact proper
      · exact proper.1
  | exchanged => exact ⟨proper.1, callers⟩
  | @returned layout first =>
      refine ⟨trivial, fun allocation member => ?_⟩
      rcases List.mem_cons.mp member with rfl | earlier
      · exact ⟨first, proper, rfl⟩
      · exact callers allocation earlier
  | cleared => exact ⟨trivial, callers⟩

end Move

end HeapUser

namespace HeapUsers

variable {base : UInt64} {processors : ℕ} {system : HeapUsers processors}

/-- Allocations that have been returned and whose bits have not been cleared. -/
def live (system : HeapUsers processors) : List Allocation :=
  system.shared.callers ++ system.collect HeapUser.freed

/-- Runs that have been set by calls that have not returned. -/
def pending (system : HeapUsers processors) : List (Layout × UInt64) :=
  system.collect HeapUser.swapped

/-- Each page has one owner if its bit is set, and none otherwise. -/
structure Owned (base : UInt64) (system : HeapUsers processors) : Prop where
  callers : ∀ allocation ∈ system.shared.callers, allocation.Proper base
  own : ∀ cpu, (system.own cpu).Proper base
  pages : ∀ page < 64, system.shared.callers.countP (Allocation.covers base page) +
    system.tally (HeapUser.covers base page) = (bit system.shared.bitmap page).toNat

theorem owned_empty : Owned base (empty processors) := by
  refine ⟨by simp [empty], fun _ => trivial, fun page _ => ?_⟩
  simp [empty, Interleaved.tally, HeapUser.covers, HeapUser.freed, HeapUser.swapped]

theorem after_event (system : HeapUsers processors) (cpu : Fin processors) (action : HeapAction) :
    (event (perform base) system (cpu, action)).after =
      system.put cpu ((system.own cpu).step base system.shared action).2.1
        ((system.own cpu).step base system.shared action).2.2 := rfl

theorem Owned.step (heap : HeapBase base) (owned : Owned base system)
    (turn : Fin processors × HeapAction) :
    Owned base (event (perform base) system turn).after := by
  obtain ⟨cpu, action⟩ := turn
  have move := HeapUser.move_step base system.shared action (system.own cpu)
  obtain ⟨here, callers⟩ := move.proper heap (owned.own cpu) owned.callers
  rw [after_event]
  refine ⟨callers, ?_, fun page inside => ?_⟩
  · exact Interleaved.forall_own_put owned.own here fun _ proper => proper
  · have balance := owned.pages page inside
    have share := Interleaved.le_tally (HeapUser.covers base page) system cpu
    have conserved := move.conserves heap (owned.own cpu) owned.callers inside (by omega)
    have total := Interleaved.tally_put (HeapUser.covers base page) system cpu
      ((system.own cpu).step base system.shared action).2.1
      ((system.own cpu).step base system.shared action).2.2
    rw [Interleaved.put_shared]
    omega

theorem owned_run (heap : HeapBase base) (schedule : List (Fin processors × HeapAction)) :
    Owned base (final (perform base) (empty processors) schedule) :=
  run_induction (perform base) (motive := fun _ system => Owned base system) owned_empty
    (fun _ _ turn owned => owned.step heap turn) schedule

/-- No two of them cover the same page. -/
def Apart (base : UInt64) (left right : Allocation) : Prop :=
  ∀ page, ¬(left.covers base page = true ∧ right.covers base page = true)

/-- The bits of the live allocations and of the runs that are set and not yet returned. -/
def ownedBits (base : UInt64) (system : HeapUsers processors) : UInt64 :=
  (system.live.map (Allocation.mask base) ++
    system.pending.map fun run => mask run.1.pages run.2).foldr (· ||| ·) 0

/-- The owners of a page, one by one. -/
theorem Owned.countP_eq (owned : Owned base system) {page : ℕ} (inside : page < 64) :
    system.live.countP (Allocation.covers base page) +
      system.pending.countP (fun run => run.1.covers run.2 page) =
        (bit system.shared.bitmap page).toNat := by
  rw [← owned.pages page inside, live, pending, List.countP_append, Interleaved.countP_collect,
    Interleaved.countP_collect, Nat.add_assoc, ← Interleaved.tally_add]
  rfl

theorem Owned.live_proper (owned : Owned base system) :
    ∀ allocation ∈ system.live, allocation.Proper base := by
  intro allocation member
  rcases List.mem_append.mp member with caller | freed
  · exact owned.callers allocation caller
  · obtain ⟨cpu, _, freed_eq⟩ := List.mem_filterMap.mp freed
    have proper := owned.own cpu
    generalize system.own cpu = user at proper freed_eq
    cases user with
    | freeing found freedMask =>
        obtain rfl := Option.some.inj freed_eq
        exact proper.1
    | _ => cases freed_eq

theorem Owned.pending_placed (owned : Owned base system) :
    ∀ run ∈ system.pending, Placed base run.1 run.2 := by
  intro run member
  obtain ⟨cpu, _, swapped_eq⟩ := List.mem_filterMap.mp member
  have proper := owned.own cpu
  generalize system.own cpu = user at proper swapped_eq
  cases user with
  | zeroing layout first =>
      obtain rfl := Option.some.inj swapped_eq
      exact proper
  | _ => cases swapped_eq

/-- Lists in which nothing is covered twice. -/
theorem pairwise_of_countP_le_one {α β : Type} {covers : β → α → Bool} {items : List α}
    (once : ∀ point, items.countP (covers point) ≤ 1) :
    items.Pairwise fun left right =>
      ∀ point, ¬(covers point left = true ∧ covers point right = true) := by
  induction items with
  | nil => exact .nil
  | cons item items induction =>
      refine .cons (fun other member point => ?_) (induction fun point => ?_)
      · rintro ⟨here, there⟩
        have positive : 0 < items.countP (covers point) :=
          List.countP_pos_iff.mpr ⟨other, member, there⟩
        have bound := once point
        rw [List.countP_cons_of_pos here] at bound
        omega
      · exact (List.sublist_cons_self item items).countP_le.trans (once point)

/-- A bit is set if and only if its page is covered. -/
theorem Owned.bit_iff (owned : Owned base system) {page : ℕ} (inside : page < 64) :
    bit system.shared.bitmap page = true ↔
      (∃ allocation ∈ system.live, allocation.covers base page = true) ∨
        ∃ run ∈ system.pending, run.1.covers run.2 page = true := by
  have count := owned.countP_eq inside
  rw [← List.countP_pos_iff (p := Allocation.covers base page),
    ← List.countP_pos_iff (p := fun run : Layout × UInt64 => run.1.covers run.2 page)]
  cases set : bit system.shared.bitmap page with
  | false =>
      rw [set, Bool.toNat_false] at count
      simp only [Bool.false_eq_true, false_iff]
      omega
  | true =>
      rw [set, Bool.toNat_true] at count
      simp only [true_iff]
      omega

theorem Owned.bitmap_eq (heap : HeapBase base) (owned : Owned base system) :
    system.shared.bitmap = ownedBits base system := by
  apply eq_of_bit_eq
  intro page inside
  rw [Bool.eq_iff_iff, owned.bit_iff inside, ownedBits, bit_foldr_or, List.any_append,
    Bool.or_eq_true, List.any_map, List.any_map, List.any_eq_true, List.any_eq_true]
  refine or_congr (exists_congr fun allocation => and_congr_right fun member => ?_)
    (exists_congr fun run => and_congr_right fun member => ?_)
  · rw [Function.comp_apply, (owned.live_proper allocation member).bit_mask heap]
  · rw [Function.comp_apply, (owned.pending_placed run member).bit_mask]

theorem Owned.pairwise_apart (heap : HeapBase base) (owned : Owned base system) :
    system.live.Pairwise (Apart base) := by
  refine pairwise_of_countP_le_one fun page => ?_
  by_cases inside : page < 64
  · have count := owned.countP_eq inside
    have bit_le := Bool.toNat_le (bit system.shared.bitmap page)
    omega
  · rw [List.countP_eq_zero.mpr fun allocation member covered =>
      inside ((owned.live_proper allocation member).lt_of_covers heap covered)]
    exact Nat.zero_le 1

end HeapUsers

end Bulla.Platform
