import Mathlib.Data.List.Infix
import Mathlib.Data.List.TakeWhile
import Mathlib.Logic.Function.Basic

/-!
# Lines that open with a keyword

A headed line is a stretch of blanks, a keyword, at least one more blank, and what is left of the
line.  A vocabulary says how its keywords are written, and reads a line exactly if the line is
written that way, so another vocabulary can write the line with other words and nothing is lost.
The last part replaces the words of one vocabulary by those of another after every mark inside a
line, and says when that is undone by replacing them back.
-/

/-- What a headed line holds beside the spelling of its keyword. -/
structure Head {α : Type} (blank : α → Bool) (κ : Type) where
  indent : List α
  keyword : κ
  gap : List α
  expression : List α
  /-- The indent is blank. -/
  indent_blank : ∀ letter ∈ indent, blank letter
  /-- The gap is blank. -/
  gap_blank : ∀ letter ∈ gap, blank letter
  /-- There is a gap. -/
  gap_ne_nil : gap ≠ []
  /-- The gap takes all blanks. -/
  expression_solid : ∀ letter ∈ expression.head?, blank letter = false

/-- Keywords and how they are written. -/
structure Vocabulary {α : Type} (blank : α → Bool) (κ : Type) where
  /-- The keywords in the order in which they are tried. -/
  keywords : List κ
  word : κ → List α
  /-- Every keyword is tried. -/
  complete : ∀ keyword, keyword ∈ keywords
  /-- No two keywords are written alike. -/
  word_injective : Function.Injective word
  word_ne_nil : ∀ keyword, word keyword ≠ []
  /-- There is no blank in a word. -/
  word_solid : ∀ keyword, (word keyword).all fun letter => !blank letter

variable {α κ μ : Type} {blank : α → Bool}

theorem List.dropWhile_stops (p : α → Bool) (line : List α) :
    ∀ letter ∈ (line.dropWhile p).head?, p letter = false := by
  intro letter first
  have stop := List.head?_dropWhile_not p line
  rw [Option.mem_def.mp first] at stop
  exact stop

/-- A stretch that satisfies a predicate and ends where the predicate fails is determined. -/
theorem List.append_inj_of_stop {p : α → Bool} {left right after rest : List α}
    (leftHolds : ∀ letter ∈ left, p letter) (rightHolds : ∀ letter ∈ right, p letter)
    (afterStops : ∀ letter ∈ after.head?, p letter = false)
    (restStops : ∀ letter ∈ rest.head?, p letter = false)
    (same : left ++ after = right ++ rest) : left = right ∧ after = rest := by
  induction left generalizing right with
  | nil =>
    cases right with
    | nil => exact ⟨rfl, same⟩
    | cons letter right =>
      have stops := afterStops letter (by simp_all)
      simp [rightHolds letter List.mem_cons_self] at stops
  | cons letter left induction =>
    cases right with
    | nil =>
      have stops := restStops letter (by rw [List.nil_append] at same; simp [← same])
      simp [leftHolds letter List.mem_cons_self] at stops
    | cons other right =>
      obtain ⟨rfl, sameRest⟩ := List.cons.inj same
      obtain ⟨rfl, rfl⟩ := induction (fun _ member => leftHolds _ (List.mem_cons_of_mem _ member))
        (fun _ member => rightHolds _ (List.mem_cons_of_mem _ member)) sameRest
      exact ⟨rfl, rfl⟩

namespace Head

/-- The same line with another keyword. -/
def rename (f : κ → μ) (head : Head blank κ) : Head blank μ :=
  { head with keyword := f head.keyword }

theorem rename_rename {ν : Type} (g : μ → ν) (f : κ → μ) (head : Head blank κ) :
    (head.rename f).rename g = head.rename (g ∘ f) := rfl

/-- The same line with another expression. -/
def withExpression (head : Head blank κ) (expression : List α)
    (solid : ∀ letter ∈ expression.head?, blank letter = false) : Head blank κ :=
  { head with expression := expression, expression_solid := solid }

end Head

namespace Vocabulary

variable (vocabulary : Vocabulary blank κ)

theorem solid {keyword : κ} {letter : α} (member : letter ∈ vocabulary.word keyword) :
    blank letter = false := by
  simpa using List.all_eq_true.mp (vocabulary.word_solid keyword) letter member

/-- The line that a head stands for. -/
def write (head : Head blank κ) : List α :=
  head.indent ++ (vocabulary.word head.keyword ++ (head.gap ++ head.expression))

/-- A line written with other words holds no new blank. -/
theorem mem_write_of_mem_write_rename {other : Vocabulary blank μ} {f : κ → μ} {letter : α}
    (space : blank letter) {head : Head blank κ} (member : letter ∈ other.write (head.rename f)) :
    letter ∈ vocabulary.write head := by
  simp only [write, List.mem_append] at member ⊢
  rcases member with inIndent | inWord | inRest
  · exact .inl inIndent
  · simp [other.solid inWord] at space
  · exact .inr (.inr inRest)

/-- Reads a line as blanks, one of the keywords, blanks, and the rest. -/
def read [DecidableEq α] (line : List α) : Option (Head blank κ) :=
  vocabulary.keywords.findSome? fun keyword =>
    match (line.dropWhile blank).dropPrefix? (vocabulary.word keyword) with
    | none => none
    | some after =>
      if gap : after.takeWhile blank ≠ [] then
        some {
          indent := line.takeWhile blank
          keyword := keyword
          gap := after.takeWhile blank
          expression := after.dropWhile blank
          indent_blank := fun _ member => List.mem_takeWhile_imp member
          gap_blank := fun _ member => List.mem_takeWhile_imp member
          gap_ne_nil := gap
          expression_solid := List.dropWhile_stops blank after }
      else none

/-- The line opens with one of the keywords. -/
def Opens [DecidableEq α] (line : List α) : Prop := (vocabulary.read line).isSome

instance [DecidableEq α] (line : List α) : Decidable (vocabulary.Opens line) :=
  inferInstanceAs (Decidable (_ = true))

theorem word_append_stops (keyword : κ) (after : List α) :
    ∀ letter ∈ (vocabulary.word keyword ++ after).head?, blank letter = false := by
  intro letter first
  obtain ⟨initial, word, written⟩ := List.exists_cons_of_ne_nil (vocabulary.word_ne_nil keyword)
  have member : letter ∈ vocabulary.word keyword := by simp_all
  exact vocabulary.solid member

variable {vocabulary}

/-- A head is determined by its line. -/
theorem write_injective : Function.Injective vocabulary.write := by
  intro left right same
  obtain ⟨indent, keyword, gap, expression, indentBlank, gapBlank, gapSome, solid⟩ := left
  obtain ⟨indent', keyword', gap', expression', indentBlank', gapBlank', gapSome', solid'⟩ := right
  have gapStops : ∀ (gap after : List α), gap ≠ [] → (∀ letter ∈ gap, blank letter) →
      ∀ letter ∈ (gap ++ after).head?, (!blank letter) = false := by
    intro gap after gapSome gapBlank letter first
    obtain ⟨initial, rest, rfl⟩ := List.exists_cons_of_ne_nil gapSome
    simp_all
  obtain ⟨rfl, same⟩ := List.append_inj_of_stop indentBlank indentBlank'
    (vocabulary.word_append_stops keyword _) (vocabulary.word_append_stops keyword' _) same
  obtain ⟨sameWord, same⟩ := List.append_inj_of_stop (p := fun letter => !blank letter)
    (fun letter member => by simpa using vocabulary.solid member)
    (fun letter member => by simpa using vocabulary.solid member)
    (gapStops _ _ gapSome gapBlank) (gapStops _ _ gapSome' gapBlank') same
  obtain ⟨rfl, rfl⟩ := List.append_inj_of_stop gapBlank gapBlank' solid solid' same
  obtain rfl := vocabulary.word_injective sameWord
  rfl

variable [DecidableEq α]

theorem write_of_read {line : List α} {head : Head blank κ}
    (found : vocabulary.read line = some head) : vocabulary.write head = line := by
  obtain ⟨keyword, -, found⟩ := List.exists_of_findSome?_eq_some found
  split at found
  · cases found
  next after dropped =>
    split at found
    · obtain rfl := Option.some.inj found
      obtain ⟨word, rest, sameWord⟩ := List.dropPrefix?_eq_some_iff.mp dropped
      rw [beq_iff_eq] at sameWord
      rw [write, List.takeWhile_append_dropWhile, ← sameWord, ← rest,
        List.takeWhile_append_dropWhile]
    · cases found

/-- A line opens with a keyword exactly if it starts with blanks, the keyword and a blank. -/
theorem opens_iff {line : List α} :
    vocabulary.Opens line ↔ ∃ indent keyword letter, (∀ space ∈ indent, blank space) ∧
      blank letter ∧ indent ++ (vocabulary.word keyword ++ [letter]) <+: line := by
  constructor
  · intro opens
    obtain ⟨head, found⟩ := Option.isSome_iff_exists.mp opens
    obtain ⟨letter, gap, gapCons⟩ := List.exists_cons_of_ne_nil head.gap_ne_nil
    refine ⟨head.indent, head.keyword, letter, head.indent_blank, ?_, ?_⟩
    · exact head.gap_blank letter (by simp [gapCons])
    · rw [← write_of_read found, write, gapCons]
      exact ⟨gap ++ head.expression, by simp⟩
  · rintro ⟨indent, keyword, letter, indentBlank, letterBlank, tail, rfl⟩
    rw [List.append_assoc, List.append_assoc]
    have cut := List.append_inj_of_stop (fun _ member => List.mem_takeWhile_imp member) indentBlank
      (List.dropWhile_stops blank _) (vocabulary.word_append_stops keyword ([letter] ++ tail))
      List.takeWhile_append_dropWhile
    have dropped : ((indent ++ (vocabulary.word keyword ++ ([letter] ++ tail))).dropWhile
        blank).dropPrefix? (vocabulary.word keyword) = some (letter :: tail) := by
      rw [cut.2]
      exact List.dropPrefix?_eq_some_iff.mpr ⟨_, rfl, by simp⟩
    apply List.findSome?_isSome_iff.mpr
    refine ⟨keyword, vocabulary.complete keyword, ?_⟩
    simp only [dropped]
    simp [letterBlank]

theorem opens_write (vocabulary : Vocabulary blank κ) (head : Head blank κ) :
    vocabulary.Opens (vocabulary.write head) := by
  obtain ⟨letter, gap, gapCons⟩ := List.exists_cons_of_ne_nil head.gap_ne_nil
  apply opens_iff.mpr
  refine ⟨head.indent, head.keyword, letter, head.indent_blank, ?_, gap ++ head.expression, ?_⟩
  · exact head.gap_blank letter (by simp [gapCons])
  · simp [write, gapCons]

/-- A line is read as a head exactly if the head is written as the line. -/
theorem read_eq_some_iff {line : List α} {head : Head blank κ} :
    vocabulary.read line = some head ↔ vocabulary.write head = line := by
  refine ⟨write_of_read, ?_⟩
  rintro rfl
  obtain ⟨found, read⟩ := Option.isSome_iff_exists.mp (vocabulary.opens_write head)
  rw [read, write_injective (write_of_read read)]

theorem read_write (vocabulary : Vocabulary blank κ) (head : Head blank κ) :
    vocabulary.read (vocabulary.write head) = some head :=
  read_eq_some_iff.mpr rfl

theorem not_opens_iff {line : List α} : ¬ vocabulary.Opens line ↔ vocabulary.read line = none := by
  simp [Opens]

/-! ## Words after a mark -/

theorem length_expression_lt {line : List α} {head : Head blank κ}
    (found : vocabulary.read line = some head) : head.expression.length < line.length := by
  have gapSome := List.length_pos_iff.mpr head.gap_ne_nil
  rw [← write_of_read found]
  simp only [write, List.length_append]
  omega

/-- The line has a mark that is followed by one of the keywords. -/
def Marked (vocabulary : Vocabulary blank κ) (mark : α) : List α → Prop
  | [] => False
  | letter :: rest => letter = mark ∧ vocabulary.Opens rest ∨ Marked vocabulary mark rest

instance decidableMarked (vocabulary : Vocabulary blank κ) (mark : α) :
    (line : List α) → Decidable (vocabulary.Marked mark line)
  | [] => inferInstanceAs (Decidable False)
  | letter :: rest =>
    have := decidableMarked vocabulary mark rest
    inferInstanceAs (Decidable (letter = mark ∧ vocabulary.Opens rest ∨ _))

theorem Marked.append {mark : α} {line : List α} (marked : vocabulary.Marked mark line)
    (before : List α) : vocabulary.Marked mark (before ++ line) := by
  induction before with
  | nil => exact marked
  | cons letter before induction => exact .inr induction

/-- Writes the words of the second vocabulary for those of the first one after every mark. -/
def replace (old new : Vocabulary blank κ) (mark : α) : List α → List α
  | [] => []
  | letter :: rest =>
    if letter = mark then
      match _found : old.read rest with
      | some head =>
        letter :: (head.indent ++ (new.word head.keyword ++
          (head.gap ++ replace old new mark head.expression)))
      | none => letter :: replace old new mark rest
    else letter :: replace old new mark rest
termination_by line => line.length
decreasing_by
  · exact (length_expression_lt (by assumption)).trans (by simp)
  · simp
  · simp

variable {old new : Vocabulary blank κ} {mark : α}

theorem replace_of_read {rest : List α} {head : Head blank κ} (found : old.read rest = some head) :
    old.replace new mark (mark :: rest) = mark :: (head.indent ++ (new.word head.keyword ++
      (head.gap ++ old.replace new mark head.expression))) := by
  rw [replace, if_pos rfl]
  split
  next other foundOther =>
    rw [found] at foundOther
    rw [Option.some.inj foundOther]
  next missing =>
    rw [found] at missing
    cases missing

theorem replace_of_not_opens {rest : List α} (missing : ¬ old.Opens rest) :
    old.replace new mark (mark :: rest) = mark :: old.replace new mark rest := by
  rw [not_opens_iff] at missing
  rw [replace, if_pos rfl]
  split
  next found =>
    rw [missing] at found
    cases found
  next => rfl

theorem replace_of_ne {letter : α} (other : letter ≠ mark) (rest : List α) :
    old.replace new mark (letter :: rest) = letter :: old.replace new mark rest := by
  rw [replace, if_neg other]

/-- Up to the first mark nothing is replaced. -/
theorem takeWhile_replace (line : List α) :
    (old.replace new mark line).takeWhile (· ≠ mark) = line.takeWhile (· ≠ mark) := by
  induction line with
  | nil => simp [replace]
  | cons letter rest induction =>
    by_cases marked : letter = mark
    · rw [replace, if_pos marked]
      split <;> simp [marked]
    · rw [replace, if_neg marked]
      simpa [marked] using induction

/-- Whether a line opens with a keyword does not depend on what follows a mark. -/
theorem opens_takeWhile (unblank : blank mark = false)
    (absent : ∀ keyword, mark ∉ vocabulary.word keyword) (line : List α) :
    vocabulary.Opens (line.takeWhile (· ≠ mark)) ↔ vocabulary.Opens line := by
  rw [opens_iff, opens_iff]
  constructor
  · rintro ⟨indent, keyword, letter, indentBlank, letterBlank, opening⟩
    exact ⟨indent, keyword, letter, indentBlank, letterBlank,
      opening.trans (List.takeWhile_prefix _)⟩
  · rintro ⟨indent, keyword, letter, indentBlank, letterBlank, tail, rfl⟩
    refine ⟨indent, keyword, letter, indentBlank, letterBlank, ?_⟩
    have unmarked : ∀ here ∈ indent ++ (vocabulary.word keyword ++ [letter]),
        decide (here ≠ mark) = true := by
      intro here member
      apply decide_eq_true
      rintro rfl
      simp only [List.mem_append, List.mem_singleton] at member
      rcases member with member | member | rfl
      · simp [indentBlank _ member] at unblank
      · exact absent keyword member
      · simp [letterBlank] at unblank
    rw [List.takeWhile_append_of_pos unmarked]
    exact List.prefix_append _ _

theorem opens_replace {vocabulary : Vocabulary blank μ} (unblank : blank mark = false)
    (absent : ∀ keyword, mark ∉ vocabulary.word keyword) (line : List α) :
    vocabulary.Opens (old.replace new mark line) ↔ vocabulary.Opens line := by
  rw [← opens_takeWhile unblank absent, takeWhile_replace, opens_takeWhile unblank absent]

theorem head?_replace (old new : Vocabulary blank κ) (mark : α) (line : List α) :
    (old.replace new mark line).head? = line.head? := by
  cases line with
  | nil => simp [replace]
  | cons letter rest =>
    rw [replace]
    split
    · split <;> rfl
    · rfl

/-- A line with replaced words holds no new blank. -/
theorem mem_of_mem_replace {letter : α} (space : blank letter) {line : List α}
    (member : letter ∈ old.replace new mark line) : letter ∈ line := by
  fun_induction old.replace new mark line with
  | case1 => exact member
  | case2 rest head found induction =>
    rw [← write_of_read found]
    simp only [write, List.mem_cons, List.mem_append] at member ⊢
    rcases member with here | inIndent | inWord | inGap | inExpression
    · exact .inl here
    · exact .inr (.inl inIndent)
    · simp [new.solid inWord] at space
    · exact .inr (.inr (.inr (.inl inGap)))
    · exact .inr (.inr (.inr (.inr (induction inExpression))))
  | case3 rest missing induction =>
    exact List.mem_cons.mpr ((List.mem_cons.mp member).imp_right induction)
  | case4 other rest unequal induction =>
    exact List.mem_cons.mpr ((List.mem_cons.mp member).imp_right induction)

/-- Replacing the words back restores a line that had none of the new ones. -/
theorem replace_replace (old new : Vocabulary blank κ) (unblank : blank mark = false)
    (absent : ∀ keyword, mark ∉ new.word keyword) (line : List α)
    (unmarked : ¬ new.Marked mark line) :
    new.replace old mark (old.replace new mark line) = line := by
  fun_induction old.replace new mark line with
  | case1 => rw [replace]
  | case2 rest head found induction =>
    have solid := head.expression_solid
    rw [← head?_replace old new mark] at solid
    have unmarkedExpression : ¬ new.Marked mark head.expression := by
      intro marked
      apply unmarked
      have whole := marked.append (head.indent ++ (old.word head.keyword ++ head.gap))
      rw [List.append_assoc, List.append_assoc] at whole
      rw [← write_of_read found]
      exact .inr whole
    have again : new.read (head.indent ++ (new.word head.keyword ++
        (head.gap ++ old.replace new mark head.expression))) =
          some (head.withExpression _ solid) :=
      new.read_write (head.withExpression _ solid)
    rw [replace_of_read again]
    simp only [Head.withExpression, induction unmarkedExpression]
    rw [← write_of_read found, write]
  | case3 rest missing induction =>
    have unopened : ¬ new.Opens (old.replace new mark rest) := by
      rw [opens_replace unblank absent]
      exact fun opens => unmarked (.inl ⟨rfl, opens⟩)
    rw [replace_of_not_opens unopened, induction fun marked => unmarked (.inr marked)]
  | case4 letter rest other induction =>
    rw [replace_of_ne other, induction fun marked => unmarked (.inr marked)]

end Vocabulary
