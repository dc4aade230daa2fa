import Mathlib.Algebra.BigOperators.Group.List.Basic
import Mathlib.Algebra.Order.BigOperators.Group.Finset
import Mathlib.Order.CompletePartialOrder
import Mathlib.Order.Interval.Finset.Nat
import Mathlib.Order.Interval.Set.Disjoint

/-!
# Half-open spans and additive weights

A span is a half-open interval.  A weight is a valuation of spans that adds up when a span is cut in
two, so cutting, joining and reordering a list of spans leaves its weight unchanged.  Counting the
spans that hold a point is a weight, and a list of spans is pairwise disjoint exactly when no point
is counted twice.  The length is another weight.
-/

/-- A half-open interval with ordered endpoints. -/
structure Span (α : Type*) [LE α] where
  /-- First point of the span. -/
  lower : α
  /-- First point past the span. -/
  upper : α
  /-- The endpoints are in order. -/
  ordered : lower ≤ upper

namespace Span

variable {α M : Type*} [LinearOrder α]

/-- The points of a span. -/
def cells (span : Span α) : Set α := Set.Ico span.lower span.upper

/-- Two spans without a common point. -/
def Apart (left right : Span α) : Prop := Disjoint left.cells right.cells

/-- Two spans meet end to end and make up a third one. -/
structure Cut (whole left right : Span α) : Prop where
  lower : left.lower = whole.lower
  meet : left.upper = right.lower
  upper : right.upper = whole.upper

@[simp] theorem mem_cells {span : Span α} {point : α} :
    point ∈ span.cells ↔ span.lower ≤ point ∧ point < span.upper := Iff.rfl

theorem apart_iff_min_le_max {left right : Span α} :
    left.Apart right ↔ min left.upper right.upper ≤ max left.lower right.lower :=
  Set.Ico_disjoint_Ico

instance (left right : Span α) : Decidable (left.Apart right) :=
  decidable_of_iff _ apart_iff_min_le_max.symm

instance (span : Span α) (point : α) : Decidable (point ∈ span.cells) :=
  decidable_of_iff _ mem_cells.symm

theorem Apart.symm {left right : Span α} (apart : left.Apart right) : right.Apart left :=
  Disjoint.symm apart

/-- Nonempty disjoint spans lie one before the other. -/
theorem apart_iff_le_or_le {left right : Span α} (left_nonempty : left.lower < left.upper)
    (right_nonempty : right.lower < right.upper) :
    left.Apart right ↔ left.upper ≤ right.lower ∨ right.upper ≤ left.lower := by
  rw [apart_iff_min_le_max, min_le_iff, le_max_iff, le_max_iff]
  constructor
  · rintro ((empty | before) | (after | empty))
    · exact absurd empty left_nonempty.not_ge
    · exact Or.inl before
    · exact Or.inr after
    · exact absurd empty right_nonempty.not_ge
  · rintro (before | after)
    · exact Or.inl (Or.inr before)
    · exact Or.inr (Or.inl after)

theorem not_apart_iff {left right : Span α} :
    ¬left.Apart right ↔ ∃ point, point ∈ left.cells ∧ point ∈ right.cells := by
  rw [Apart, Set.not_disjoint_iff]

/-- Two spans with at least `gap` points between them. -/
def Spaced (gap : ℕ) (left right : Span ℕ) : Prop :=
  left.upper + gap ≤ right.lower ∨ right.upper + gap ≤ left.lower

theorem Spaced.symm {gap : ℕ} {left right : Span ℕ} (spaced : Spaced gap left right) :
    Spaced gap right left := Or.symm spaced

/-- A part of a span keeps its distance. -/
theorem Spaced.part {gap : ℕ} {part whole other : Span ℕ} (spaced : Spaced gap whole other)
    (lower : whole.lower ≤ part.lower) (upper : part.upper ≤ whole.upper) :
    Spaced gap part other := by
  rcases spaced with before | after
  · exact .inl (by omega)
  · exact .inr (by omega)

/-- A range covered by spans that do not touch lies in one of them. -/
theorem exists_superset_of_spaced {spans : Set (Span ℕ)} (spaced : spans.Pairwise (Spaced 1))
    (range : Span ℕ) (nonempty : range.lower < range.upper)
    (covered : ∀ point ∈ range.cells, ∃ span ∈ spans, point ∈ span.cells) :
    ∃ span ∈ spans, span.lower ≤ range.lower ∧ range.upper ≤ span.upper := by
  obtain ⟨span, member, lower_le, lower_lt⟩ := covered range.lower ⟨le_rfl, nonempty⟩
  refine ⟨span, member, lower_le, ?_⟩
  by_contra beyond
  -- The first point past the span is covered by another one, which would touch it.
  obtain ⟨other, other_member, other_lower, other_upper⟩ :=
    covered span.upper ⟨by omega, by omega⟩
  have distinct : span ≠ other := by
    rintro rfl
    omega
  rcases spaced member other_member distinct with before | after <;> omega

/-- A valuation of spans that adds up over a cut. -/
structure Weight (α M : Type*) [LinearOrder α] [AddCommMonoid M] where
  /-- Value of one span. -/
  weigh : Span α → M
  /-- A span weighs as much as the two spans it is cut into. -/
  cut : ∀ {whole left right : Span α}, Cut whole left right →
    weigh whole = weigh left + weigh right

/-- Total weight of a list of spans. -/
def Weight.sum [AddCommMonoid M] (weight : Weight α M) (spans : List (Span α)) : M :=
  (spans.map weight.weigh).sum

section Sum

variable [AddCommMonoid M] (weight : Weight α M)

@[simp] theorem Weight.sum_nil : weight.sum [] = 0 := rfl

@[simp] theorem Weight.sum_cons (span : Span α) (spans : List (Span α)) :
    weight.sum (span :: spans) = weight.weigh span + weight.sum spans := by
  simp [Weight.sum]

@[simp] theorem Weight.sum_append (left right : List (Span α)) :
    weight.sum (left ++ right) = weight.sum left + weight.sum right := by
  simp [Weight.sum]

end Sum

/-- An empty span weighs nothing. -/
theorem Weight.weigh_eq_zero {M : Type*} [AddCancelCommMonoid M] (weight : Weight α M)
    {span : Span α} (empty : span.lower = span.upper) : weight.weigh span = 0 :=
  left_eq_add.mp (weight.cut (show Cut span span span from ⟨rfl, empty.symm, rfl⟩))

/-- Count one for every span that holds a point. -/
def owners (point : α) : Weight α ℕ where
  weigh span := if point ∈ span.cells then 1 else 0
  cut := by
    intro whole left right cut
    have left_ordered := left.ordered
    have right_ordered := right.ordered
    simp only [mem_cells, ← cut.lower, ← cut.upper, cut.meet] at *
    split_ifs <;> grind

/-- Length of a span of natural numbers. -/
def extent : Weight ℕ ℕ where
  weigh span := span.upper - span.lower
  cut := by
    intro whole left right cut
    have left_ordered := left.ordered
    have right_ordered := right.ordered
    have lower_eq := cut.lower
    have meet_eq := cut.meet
    have upper_eq := cut.upper
    omega

theorem owners_weigh (point : α) (span : Span α) :
    (owners point).weigh span = if point ∈ span.cells then 1 else 0 := rfl

@[simp] theorem owners_sum_eq_zero {point : α} {spans : List (Span α)} :
    (owners point).sum spans = 0 ↔ ∀ span ∈ spans, point ∉ span.cells := by
  induction spans with
  | nil => simp
  | cons span spans induction => simp [owners_weigh, induction]

/-- A list of spans is pairwise disjoint exactly when no point has two owners. -/
theorem pairwise_apart_iff {spans : List (Span α)} :
    spans.Pairwise Apart ↔ ∀ point, (owners point).sum spans ≤ 1 := by
  induction spans with
  | nil => simp
  | cons span spans induction =>
      rw [List.pairwise_cons, induction]
      constructor
      · rintro ⟨head_apart, tail_le⟩ point
        rw [Weight.sum_cons, owners_weigh]
        split_ifs with inside
        · have tail_zero : (owners point).sum spans = 0 := by
            rw [owners_sum_eq_zero]
            intro other member
            exact Set.disjoint_left.mp (head_apart other member) inside
          omega
        · simpa using tail_le point
      · intro all_le
        refine ⟨?_, ?_⟩
        · intro other member
          by_contra overlap
          obtain ⟨point, inside, other_inside⟩ := not_apart_iff.mp overlap
          have bound := all_le point
          rw [Weight.sum_cons, owners_weigh, if_pos inside] at bound
          have tail_zero : (owners point).sum spans = 0 := by omega
          exact owners_sum_eq_zero.mp tail_zero other member other_inside
        · intro point
          have bound := all_le point
          rw [Weight.sum_cons] at bound
          omega

/-- The length of a bounded span counts its points. -/
theorem extent_eq_sum_owners {bound : ℕ} {spans : List (Span ℕ)}
    (bounded : ∀ span ∈ spans, span.upper ≤ bound) :
    extent.sum spans = ∑ point ∈ Finset.range bound, (owners point).sum spans := by
  induction spans with
  | nil => simp
  | cons span spans induction =>
      have points : (Finset.range bound).filter (fun point => point ∈ span.cells) =
          Finset.Ico span.lower span.upper := by
        have upper_le := bounded span List.mem_cons_self
        ext point
        simp only [Finset.mem_filter, Finset.mem_range, Finset.mem_Ico, mem_cells]
        omega
      have head : extent.weigh span =
          ∑ point ∈ Finset.range bound, (owners point).weigh span := by
        simp only [owners_weigh]
        rw [← Finset.sum_filter, points, ← Finset.card_eq_sum_ones, Nat.card_Ico]
        rfl
      simp only [Weight.sum_cons, Finset.sum_add_distrib, head]
      rw [induction fun other member => bounded other (List.mem_cons_of_mem span member)]

/-- Disjoint spans below a bound are together no longer than the bound. -/
theorem extent_sum_le {bound : ℕ} {spans : List (Span ℕ)} (disjoint : spans.Pairwise Apart)
    (bounded : ∀ span ∈ spans, span.upper ≤ bound) : extent.sum spans ≤ bound := by
  rw [extent_eq_sum_owners bounded]
  calc
    _ ≤ ∑ point ∈ Finset.range bound, 1 :=
      Finset.sum_le_sum fun point _ => pairwise_apart_iff.mp disjoint point
    _ = bound := by simp

end Span
