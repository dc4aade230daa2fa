import Bulla.Tooling.Migrate

/-!
# The migration is undone by its inverse

The loop of the migration cuts the lines into lines outside of clauses and runs of clauses.  The
lines it writes are cut at the same places, with the words and the order of the other surface, if
every clause closes and no other line could be taken for a clause there.  Writing a run back then
undoes the reordering of a run that had its clauses in the order of Thermite 2.
-/

namespace Bulla.Tooling

variable {κ μ : Type}

/-! ## Sections of a text -/

/-- What the loop treats as one. -/
inductive Section (κ : Type)
  | outside (line : Line)
  | run (clauses : List (Clause κ))

/-- The lines of a section, given how to write its parts. -/
def Section.write (outside : Line → Line) (emit : List (Clause κ) → List Line) :
    Section κ → List Line
  | .outside line => [outside line]
  | .run clauses => emit clauses

/-- The sections of a text in order. -/
def sections (pattern : Vocabulary isSpace κ) : List Line → List (Section κ)
  | [] => []
  | line :: rest =>
    if _opens : pattern.Opens line then
      .run (clauses pattern (line :: rest)).1 :: sections pattern (clauses pattern (line :: rest)).2
    else .outside line :: sections pattern rest
termination_by lines => lines.length
decreasing_by
  · exact length_clauses_lt (by assumption)
  · simp

theorem rewriteLines_eq_flatMap (pattern : Vocabulary isSpace κ) (outside : Line → Line)
    (emit : List (Clause κ) → List Line) (lines : List Line) :
    rewriteLines pattern outside emit lines =
      (sections pattern lines).flatMap (Section.write outside emit) := by
  fun_induction sections pattern lines with
  | case1 => rw [rewriteLines]; rfl
  | case2 line rest opens induction =>
    rw [rewriteLines, dif_pos opens, List.flatMap_cons, ← induction]
    rfl
  | case3 line rest missing induction =>
    rw [rewriteLines, dif_neg missing, List.flatMap_cons, ← induction]
    rfl

variable {pattern : Vocabulary isSpace κ}

theorem clauses_of_not_opens {line : Line} (missing : ¬ pattern.Opens line) (rest : List Line) :
    clauses pattern (line :: rest) = ([], line :: rest) := by
  rw [clauses, Vocabulary.not_opens_iff.mp missing]

theorem clauses_of_read {line : Line} {head : Head isSpace κ}
    (found : pattern.read line = some head) (rest : List Line) :
    clauses pattern (line :: rest) =
      (⟨head, (continuation (balance line 0) rest).1⟩ ::
        (clauses pattern (continuation (balance line 0) rest).2).1,
        (clauses pattern (continuation (balance line 0) rest).2).2) := by
  rw [clauses, found]

/-- A run holds the lines that it was read from. -/
theorem clauses_append (lines : List Line) :
    (clauses pattern lines).1.flatMap (Clause.body pattern) ++ (clauses pattern lines).2 =
      lines := by
  fun_induction clauses pattern lines with
  | case1 => rfl
  | case2 => rfl
  | case3 line rest head found taken later induction =>
    rw [List.flatMap_cons, Clause.body, Vocabulary.write_of_read found, List.append_assoc,
      induction, List.cons_append, continuation_append]

/-- A run ends where the next line opens no clause. -/
theorem clauses_stop (lines : List Line) :
    ∀ line ∈ (clauses pattern lines).2.head?, ¬ pattern.Opens line := by
  fun_induction clauses pattern lines with
  | case1 => simp
  | case2 line rest missing => simpa using Vocabulary.not_opens_iff.mpr missing
  | case3 line rest head found taken later induction => exact induction

/-- The sections of a text hold its lines. -/
theorem sections_flatMap (pattern : Vocabulary isSpace κ) (lines : List Line) :
    (sections pattern lines).flatMap
      (Section.write id (List.flatMap (Clause.body pattern))) = lines := by
  fun_induction sections pattern lines with
  | case1 => rfl
  | case2 line rest opens induction =>
    rw [List.flatMap_cons, induction]
    exact clauses_append _
  | case3 line rest missing induction =>
    rw [List.flatMap_cons, induction]
    rfl

/-! ## Reading what was written -/

/-- The depth after some lines. -/
def depthAfter (depth : Int) (lines : List Line) : Int :=
  lines.foldl (fun depth line => balance line depth) depth

/-- The delimiters of a clause close at its end. -/
def Clause.Closes (pattern : Vocabulary isSpace κ) (clause : Clause κ) : Prop :=
  depthAfter 0 (clause.body pattern) ≤ 0

instance (clause : Clause κ) : Decidable (clause.Closes pattern) :=
  inferInstanceAs (Decidable (_ ≤ _))

/-- The lines close the given depth, and only the last one does. -/
def Spans : Int → List Line → Prop
  | depth, [] => depth ≤ 0
  | depth, line :: rest => 0 < depth ∧ Spans (balance line depth) rest

theorem continuation_of_spans {depth : Int} {more : List Line} (spans : Spans depth more)
    (after : List Line) : continuation depth (more ++ after) = (more, after) := by
  induction more generalizing depth with
  | nil =>
    cases after with
    | nil => rfl
    | cons line after => rw [List.nil_append, continuation, if_neg (Int.not_lt.mpr spans)]
  | cons line more induction =>
    rw [List.cons_append, continuation, if_pos spans.1, induction spans.2]

theorem spans_continuation {depth : Int} {lines : List Line}
    (closes : depthAfter depth (continuation depth lines).1 ≤ 0) :
    Spans depth (continuation depth lines).1 := by
  fun_induction continuation depth lines with
  | case1 => exact closes
  | case2 depth line rest opened taken induction => exact ⟨opened, induction closes⟩
  | case3 => exact closes

/-- A clause that a reader finds again at its end. -/
def Clause.Complete (pattern : Vocabulary isSpace κ) (clause : Clause κ) : Prop :=
  Spans (balance (pattern.write clause.head) 0) clause.more

theorem complete_of_closes {lines : List Line} {clause : Clause κ}
    (member : clause ∈ (clauses pattern lines).1) (closes : clause.Closes pattern) :
    clause.Complete pattern := by
  fun_induction clauses pattern lines with
  | case1 => cases member
  | case2 => cases member
  | case3 line rest head found taken later induction =>
    rcases List.mem_cons.mp member with rfl | member
    · rw [Clause.Complete, Vocabulary.write_of_read found]
      apply spans_continuation
      rwa [Clause.Closes, Clause.body, Vocabulary.write_of_read found] at closes
    · exact induction member

/-- Clauses are read as they were written, up to the first line that opens no clause. -/
theorem clauses_flatMap {run : List (Clause κ)} {after : List Line}
    (complete : ∀ clause ∈ run, clause.Complete pattern)
    (stops : ∀ line ∈ after.head?, ¬ pattern.Opens line) :
    clauses pattern (run.flatMap (Clause.body pattern) ++ after) = (run, after) := by
  induction run with
  | nil =>
    cases after with
    | nil => rw [List.flatMap_nil, List.nil_append, clauses]
    | cons line after => exact clauses_of_not_opens (stops line rfl) after
  | cons clause run induction =>
    have spans := complete clause List.mem_cons_self
    rw [List.flatMap_cons, Clause.body, List.append_assoc, List.cons_append,
      clauses_of_read (pattern.read_write clause.head), continuation_of_spans spans,
      induction fun other member => complete other (List.mem_cons_of_mem _ member)]

theorem sections_run {run : List (Clause κ)} {after : List Line} (some : run ≠ [])
    (complete : ∀ clause ∈ run, clause.Complete pattern)
    (stops : ∀ line ∈ after.head?, ¬ pattern.Opens line) :
    sections pattern (run.flatMap (Clause.body pattern) ++ after) =
      .run run :: sections pattern after := by
  obtain ⟨clause, others, rfl⟩ := List.exists_cons_of_ne_nil some
  have read := clauses_flatMap complete stops
  rw [List.flatMap_cons, Clause.body, List.append_assoc, List.cons_append] at read ⊢
  rw [sections, dif_pos (pattern.opens_write clause.head), read]

theorem sections_outside {line : Line} (missing : ¬ pattern.Opens line) (rest : List Line) :
    sections pattern (line :: rest) = .outside line :: sections pattern rest := by
  rw [sections, dif_neg missing]

/-! ## Renamed clauses -/

/-- The characters that the delimiter balance acts on. -/
def Plain (c : Char) : Prop := c ∉ ['"', '/', '(', '[', '{', ')', ']', '}']

instance (c : Char) : Decidable (Plain c) := inferInstanceAs (Decidable (¬ _))

theorem balance_of_plain {c : Char} (plain : Plain c) (rest : Line) (depth : Int) :
    balance (c :: rest) depth = balance rest depth := by
  simp only [Plain, List.mem_cons, List.not_mem_nil, or_false, not_or] at plain
  simp [balance, plain]

theorem balance_append_of_plain {before : Line} (plain : ∀ c ∈ before, Plain c) (rest : Line)
    (depth : Int) : balance (before ++ rest) depth = balance rest depth := by
  induction before with
  | nil => rfl
  | cons c before induction =>
    rw [List.cons_append, balance_of_plain (plain c List.mem_cons_self),
      induction fun c member => plain c (List.mem_cons_of_mem _ member)]

theorem plain_of_isSpace {c : Char} (space : isSpace c) : Plain c := by
  intro member
  simp only [List.mem_cons, List.not_mem_nil, or_false] at member
  rcases member with rfl | rfl | rfl | rfl | rfl | rfl | rfl | rfl <;> cases space

/-- The first line of a clause is as deep as its expression. -/
theorem balance_write (plain : ∀ keyword, ∀ c ∈ pattern.word keyword, Plain c)
    (head : Head isSpace κ) (depth : Int) :
    balance (pattern.write head) depth = balance head.expression depth := by
  rw [Vocabulary.write,
    balance_append_of_plain fun c member => plain_of_isSpace (head.indent_blank c member),
    balance_append_of_plain (plain head.keyword),
    balance_append_of_plain fun c member => plain_of_isSpace (head.gap_blank c member)]

theorem plain_clauseV2 (keyword : KeywordV2) : ∀ c ∈ clauseV2.word keyword, Plain c := by
  have all : (clauseV2.word keyword).all fun c => decide (Plain c) := by cases keyword <;> decide
  simpa using all

theorem plain_clauseOrRowV3 (keyword : KeywordV3) :
    ∀ c ∈ clauseOrRowV3.word keyword, Plain c := by
  have all : (clauseOrRowV3.word keyword).all fun c => decide (Plain c) := by
    cases keyword <;> decide
  simpa using all

theorem Clause.complete_rename {clause : Clause KeywordV2} :
    (clause.rename v2ToV3).Complete clauseOrRowV3 ↔ clause.Complete clauseV2 := by
  rw [Complete, Complete, balance_write plain_clauseOrRowV3, balance_write plain_clauseV2]
  rfl

theorem v3ToV2_comp_v2ToV3 : v3ToV2 ∘ v2ToV3 = id := by
  funext keyword
  cases keyword <;> rfl

theorem Clause.rename_rename (clause : Clause KeywordV2) :
    (clause.rename v2ToV3).rename v3ToV2 = clause := by
  rw [rename, rename, Head.rename_rename, v3ToV2_comp_v2ToV3]
  rfl

/-! ## Reordered runs -/

/-- Where a clause stands in a run of Thermite 2: the row goes before a measure. -/
def KeywordV2.place : KeywordV2 → ℕ
  | .req | .ens | .inv => 0
  | .fx => 1
  | .dec => 2

theorem KeywordV2.place_cases (keyword : KeywordV2) :
    keyword.place = 0 ∨ keyword.place = 1 ∨ keyword.place = 2 := by
  cases keyword <;> decide

theorem KeywordV2.place_eq_one_iff {keyword : KeywordV2} : keyword.place = 1 ↔ keyword = .fx := by
  cases keyword <;> decide

/-- Requirements, assurances and invariants come first, then rows, then measures. -/
def InOrder (run : List (Clause KeywordV2)) : Prop :=
  run.Pairwise fun earlier later => earlier.head.keyword.place ≤ later.head.keyword.place

instance (run : List (Clause KeywordV2)) : Decidable (InOrder run) :=
  inferInstanceAs (Decidable (List.Pairwise _ _))

theorem InOrder.filter_append {run : List (Clause KeywordV2)} (ordered : InOrder run) :
    run.filter (·.head.keyword.place = 0) ++ (run.filter (·.head.keyword.place = 1) ++
      run.filter (·.head.keyword.place = 2)) = run := by
  induction run with
  | nil => rfl
  | cons clause run induction =>
    obtain ⟨later, ordered⟩ := List.pairwise_cons.mp ordered
    have none : ∀ place < clause.head.keyword.place,
        run.filter (·.head.keyword.place = place) = [] := by
      intro place earlier
      apply List.filter_eq_nil_iff.mpr
      intro other member
      have := later other member
      simp only [decide_eq_true_eq]
      omega
    have rest := induction ordered
    rcases clause.head.keyword.place_cases with here | here | here
    · simpa [here] using rest
    · simpa [here, none 0 (by omega)] using rest
    · simpa [here, none 0 (by omega), none 1 (by omega)] using rest

/-- A run in the order and under the keywords of Thermite 3. -/
def orderV3 (run : List (Clause KeywordV2)) : List (Clause KeywordV3) :=
  (run.filter (·.head.keyword = .fx) ++ run.filter (·.head.keyword ≠ .fx)).map
    (Clause.rename v2ToV3)

theorem runToV3_eq_flatMap (run : List (Clause KeywordV2)) :
    runToV3 run = (orderV3 run).flatMap (Clause.body clauseOrRowV3) := by
  simp only [runToV3, orderV3, List.map_append, List.flatMap_append, List.flatMap_map]

theorem filter_filter_of_imp {α : Type} {p q : α → Bool} {items : List α}
    (imp : ∀ item, p item → q item) : (items.filter q).filter p = items.filter p := by
  rw [List.filter_filter]
  refine List.filter_congr fun item _ => ?_
  cases here : p item with
  | false => rfl
  | true => simp [imp item here]

theorem filter_filter_of_imp_not {α : Type} {p q : α → Bool} {items : List α}
    (imp : ∀ item, p item → q item = false) : (items.filter q).filter p = [] := by
  rw [List.filter_filter, List.filter_eq_nil_iff]
  intro item _ both
  rw [Bool.and_eq_true] at both
  simp [imp item both.1] at both

/-- Moving the rows to the front keeps the clauses of one place in order. -/
theorem filter_orderV3 (run : List (Clause KeywordV2)) (keeps : KeywordV3 → Bool) (place : ℕ)
    (kept : ∀ keyword, keeps (v2ToV3 keyword) = decide (keyword.place = place)) :
    (orderV3 run).filter (fun clause => keeps clause.head.keyword) =
      (run.filter (·.head.keyword.place = place)).map (Clause.rename v2ToV3) := by
  have read : ((fun clause => keeps clause.head.keyword) ∘ Clause.rename v2ToV3) =
      fun clause => decide (clause.head.keyword.place = place) :=
    funext fun clause => kept clause.head.keyword
  rw [orderV3, List.filter_map, read, List.filter_append]
  by_cases row : place = 1
  · -- Only rows are kept, and the second half has none.
    rw [filter_filter_of_imp, filter_filter_of_imp_not, List.append_nil]
    all_goals
      intro clause here
      simp_all [KeywordV2.place_eq_one_iff]
  · rw [filter_filter_of_imp_not, filter_filter_of_imp, List.nil_append]
    all_goals
      intro clause here
      simp_all [← KeywordV2.place_eq_one_iff]

/-- Writing a run back restores the order that it had. -/
theorem runToV2_orderV3 {run : List (Clause KeywordV2)} (ordered : InOrder run) :
    runToV2 (orderV3 run) = run.flatMap (Clause.body clauseV2) := by
  have head := filter_orderV3 run (fun keyword => decide (keyword ∉ [.row, .measures])) 0
    (by intro keyword; cases keyword <;> rfl)
  have row := filter_orderV3 run (fun keyword => decide (keyword = .row)) 1
    (by intro keyword; cases keyword <;> rfl)
  have tail := filter_orderV3 run (fun keyword => decide (keyword = .measures)) 2
    (by intro keyword; cases keyword <;> rfl)
  simp only [runToV2, head, row, tail, List.flatMap_map, Clause.rename_rename]
  rw [← List.flatMap_append, ← List.flatMap_append, List.append_assoc, ordered.filter_append]

/-! ## The round trip -/

/-- The section as Thermite 3 has it. -/
def Section.toV3 : Section KeywordV2 → Section KeywordV3
  | .outside line => .outside (trailingInvV2.replace trailingInvV3 '}' line)
  | .run clauses => .run (orderV3 clauses)

/-- A section from which the migration loses nothing.  The order matters only on the way back. -/
def Section.Reversible : Section KeywordV2 → Prop
  | .outside line => ¬ clauseOrRowV3.Opens line ∧ ¬ trailingInvV3.Marked '}' line
  | .run clauses => InOrder clauses ∧ ∀ clause ∈ clauses, clause.Closes clauseV2

theorem linesToV3_eq_flatMap (lines : List Line) :
    linesToV3 lines = (sections clauseV2 lines).flatMap
      (Section.write (trailingInvV2.replace trailingInvV3 '}') runToV3) :=
  rewriteLines_eq_flatMap _ _ _ _

theorem opens_trailing (line : Line) :
    clauseOrRowV3.Opens (trailingInvV2.replace trailingInvV3 '}' line) ↔
      clauseOrRowV3.Opens line := by
  have absent (keyword : KeywordV3) : '}' ∉ clauseOrRowV3.word keyword := by
    cases keyword <;> decide
  exact Vocabulary.opens_replace rfl absent line

theorem linesToV3_cons_of_not_opens {line : Line} (missing : ¬ clauseV2.Opens line)
    (rest : List Line) : linesToV3 (line :: rest) =
      trailingInvV2.replace trailingInvV3 '}' line :: linesToV3 rest := by
  rw [linesToV3, rewriteLines, dif_neg missing]

theorem linesToV3_cons_of_opens {line : Line} (opens : clauseV2.Opens line) (rest : List Line) :
    linesToV3 (line :: rest) = runToV3 (clauses clauseV2 (line :: rest)).1 ++
      linesToV3 (clauses clauseV2 (line :: rest)).2 := by
  rw [linesToV3, rewriteLines, dif_pos opens]

/-- The lines after a run open no clause of Thermite 3 either. -/
theorem linesToV3_stops {lines : List Line} (stops : ∀ line ∈ lines.head?, ¬ clauseV2.Opens line)
    (reversible : ∀ part ∈ sections clauseV2 lines, part.Reversible) :
    ∀ line ∈ (linesToV3 lines).head?, ¬ clauseOrRowV3.Opens line := by
  cases lines with
  | nil => simp [linesToV3, rewriteLines]
  | cons line rest =>
    have missing := stops line rfl
    rw [sections_outside missing] at reversible
    obtain ⟨unopened, -⟩ := reversible _ List.mem_cons_self
    rw [linesToV3_cons_of_not_opens missing]
    simpa [opens_trailing] using unopened

theorem mem_orderV3 {run : List (Clause KeywordV2)} {clause : Clause KeywordV3} :
    clause ∈ orderV3 run ↔ ∃ source ∈ run, source.rename v2ToV3 = clause := by
  simp only [orderV3, List.mem_map, List.mem_append, List.mem_filter, decide_eq_true_eq,
    ← and_or_left, em, and_true]

theorem orderV3_ne_nil {run : List (Clause KeywordV2)} (some : run ≠ []) : orderV3 run ≠ [] := by
  obtain ⟨clause, others, rfl⟩ := List.exists_cons_of_ne_nil some
  exact List.ne_nil_of_mem (mem_orderV3.mpr ⟨clause, List.mem_cons_self, rfl⟩)

theorem orderV3_complete {run : List (Clause KeywordV2)}
    (complete : ∀ clause ∈ run, clause.Complete clauseV2) :
    ∀ clause ∈ orderV3 run, clause.Complete clauseOrRowV3 := by
  intro clause member
  obtain ⟨source, inRun, rfl⟩ := mem_orderV3.mp member
  exact Clause.complete_rename.mpr (complete source inRun)

/-- What is written is cut into sections as what was read. -/
theorem sections_linesToV3 (lines : List Line)
    (reversible : ∀ part ∈ sections clauseV2 lines, part.Reversible) :
    sections clauseOrRowV3 (linesToV3 lines) = (sections clauseV2 lines).map Section.toV3 := by
  fun_induction sections clauseV2 lines with
  | case1 => simp [linesToV3, rewriteLines, sections]
  | case2 line rest opens induction =>
    obtain ⟨here, later⟩ := List.forall_mem_cons.mp reversible
    have complete : ∀ clause ∈ (clauses clauseV2 (line :: rest)).1, clause.Complete clauseV2 :=
      fun clause member => complete_of_closes member (here.2 clause member)
    have some : (clauses clauseV2 (line :: rest)).1 ≠ [] := by
      obtain ⟨head, found⟩ := Option.isSome_iff_exists.mp opens
      simp [clauses_of_read found]
    rw [linesToV3_cons_of_opens opens, runToV3_eq_flatMap,
      sections_run (orderV3_ne_nil some) (orderV3_complete complete)
        (linesToV3_stops (clauses_stop _) later), induction later]
    rfl
  | case3 line rest missing induction =>
    obtain ⟨here, later⟩ := List.forall_mem_cons.mp reversible
    rw [linesToV3_cons_of_not_opens missing,
      sections_outside ((opens_trailing line).not.mpr here.1), induction later]
    rfl

theorem Section.write_toV3 {part : Section KeywordV2} (reversible : part.Reversible) :
    part.toV3.write (trailingInvV3.replace trailingInvV2 '}') runToV2 =
      part.write id (List.flatMap (Clause.body clauseV2)) := by
  cases part with
  | outside line =>
    have absent (keyword : Unit) : '}' ∉ trailingInvV3.word keyword := by
      cases keyword
      decide
    have back := trailingInvV2.replace_replace trailingInvV3 rfl absent line reversible.2
    simp [toV3, write, back]
  | run clauses => exact runToV2_orderV3 reversible.1

theorem linesToV2_linesToV3 (lines : List Line)
    (reversible : ∀ part ∈ sections clauseV2 lines, part.Reversible) :
    linesToV2 (linesToV3 lines) = lines := by
  calc linesToV2 (linesToV3 lines)
    _ = (sections clauseV2 lines).flatMap fun part =>
        part.toV3.write (trailingInvV3.replace trailingInvV2 '}') runToV2 := by
      rw [linesToV2, rewriteLines_eq_flatMap, sections_linesToV3 lines reversible,
        List.flatMap_map]
    _ = (sections clauseV2 lines).flatMap
        (Section.write id (List.flatMap (Clause.body clauseV2))) :=
      List.flatMap_congr fun part member => Section.write_toV3 (reversible part member)
    _ = lines := sections_flatMap clauseV2 lines

/-! ## Line breaks -/

theorem not_mem_of_mem_splitOn {separator : Char} {text line : List Char}
    (member : line ∈ text.splitOn separator) : separator ∉ line := by
  induction text generalizing line with
  | nil => simp_all
  | cons c text induction =>
    rw [List.splitOn_cons_eq_if_modifyHead] at member
    split at member
    · rcases List.mem_cons.mp member with rfl | later
      · exact List.not_mem_nil
      · exact induction later
    next different =>
      obtain ⟨first, others, cut⟩ :=
        List.exists_cons_of_ne_nil (List.splitOn_ne_nil separator text)
      rw [cut, List.modifyHead_cons] at member
      rw [cut] at induction
      rcases List.mem_cons.mp member with rfl | later
      · rw [List.mem_cons, not_or]
        exact ⟨fun same => different (by simp [same]), induction List.mem_cons_self⟩
      · exact induction (List.mem_cons_of_mem _ later)

/-- A section is written without line breaks inside its lines. -/
theorem Section.breakless {part : Section KeywordV2}
    (own : ∀ line ∈ part.write id (List.flatMap (Clause.body clauseV2)), '\n' ∉ line) :
    ∀ line ∈ part.write (trailingInvV2.replace trailingInvV3 '}') runToV3, '\n' ∉ line := by
  intro line member
  cases part with
  | outside source =>
    obtain rfl := List.mem_singleton.mp member
    exact fun inLine => own source List.mem_cons_self (Vocabulary.mem_of_mem_replace rfl inLine)
  | run clauses =>
    rw [write, runToV3_eq_flatMap] at member
    obtain ⟨clause, inOrder, inBody⟩ := List.mem_flatMap.mp member
    obtain ⟨source, inRun, rfl⟩ := mem_orderV3.mp inOrder
    have ownBody : ∀ line ∈ source.body clauseV2, '\n' ∉ line :=
      fun line inSource => own line (List.mem_flatMap.mpr ⟨source, inRun, inSource⟩)
    rcases List.mem_cons.mp inBody with rfl | inMore
    · exact fun inLine => ownBody _ List.mem_cons_self
        (clauseV2.mem_write_of_mem_write_rename rfl inLine)
    · exact ownBody line (List.mem_cons_of_mem _ inMore)

theorem breakless_linesToV3 {lines : List Line} (breakless : ∀ line ∈ lines, '\n' ∉ line) :
    ∀ line ∈ linesToV3 lines, '\n' ∉ line := by
  intro line member
  rw [linesToV3_eq_flatMap] at member
  obtain ⟨part, inSections, inPart⟩ := List.mem_flatMap.mp member
  refine Section.breakless (fun own inOwn => breakless own ?_) line inPart
  rw [← sections_flatMap clauseV2 lines]
  exact List.mem_flatMap.mpr ⟨part, inSections, inOwn⟩

/-! ## Texts -/

/-- The maximal runs of clauses of a Thermite 2 text. -/
def runsV2 (text : List Char) : List (List (Clause KeywordV2)) :=
  (sections clauseV2 (text.splitOn '\n')).filterMap fun
    | .outside _ => none
    | .run clauses => some clauses

/-- The lines of a Thermite 2 text that are in no clause. -/
def outsideV2 (text : List Char) : List Line :=
  (sections clauseV2 (text.splitOn '\n')).filterMap fun
    | .outside line => some line
    | .run _ => none

/-- A text comes back from Thermite 3 as it was if the clauses of every run are in the order of
Thermite 2, every clause closes, and no line outside of clauses opens with a keyword of Thermite 3
or holds its keyword for invariants after a closing brace. -/
theorem toV2_toV3 (text : List Char) (ordered : ∀ run ∈ runsV2 text, InOrder run)
    (closed : ∀ run ∈ runsV2 text, ∀ clause ∈ run, clause.Closes clauseV2)
    (unlike : ∀ line ∈ outsideV2 text,
      ¬ clauseOrRowV3.Opens line ∧ ¬ trailingInvV3.Marked '}' line) :
    toV2 (toV3 text) = text := by
  have reversible : ∀ part ∈ sections clauseV2 (text.splitOn '\n'), part.Reversible := by
    intro part member
    cases part with
    | outside line => exact unlike line (List.mem_filterMap.mpr ⟨_, member, rfl⟩)
    | run clauses =>
      have run : clauses ∈ runsV2 text := List.mem_filterMap.mpr ⟨_, member, rfl⟩
      exact ⟨ordered clauses run, closed clauses run⟩
  have back := linesToV2_linesToV3 _ reversible
  have some : linesToV3 (text.splitOn '\n') ≠ [] := by
    intro empty
    rw [empty, linesToV2, rewriteLines] at back
    exact List.splitOn_ne_nil _ _ back.symm
  rw [toV2, toV3, List.splitOn_intercalate _ (breakless_linesToV3 fun _ => not_mem_of_mem_splitOn)
    some, back, List.intercalate_splitOn]

/-- A contract with a clause over two lines, a comment and a string with delimiters, and an
invariant that trails a brace. -/
def contract : List Char :=
  ['\n'].intercalate [
    "fn sum(n: u32) -> u32".toList,
    "  req n < (10 + // (".toList,
    "    4)".toList,
    "  ens \"(\" != n".toList,
    "  fx  pure".toList,
    "  dec n".toList,
    [],
    "struct Sum \x7b n: u32 \x7d inv n <= 9".toList,
    []]

theorem toV2_toV3_contract : toV3 contract ≠ contract ∧ toV2 (toV3 contract) = contract :=
  ⟨by decide +kernel,
    toV2_toV3 contract (by decide +kernel) (by decide +kernel) (by decide +kernel)⟩

end Bulla.Tooling
