import Bulla.Headed

/-!
# Migration between the two clause surfaces

The migration rewrites the clauses of a Thermite text in place of parsing it.  A text is taken line
by line.  A line that opens with a keyword of the surface starts a clause, the clause runs on over
the following lines until its delimiters balance, and adjacent clauses make up a run.  Toward
Thermite 3 a run is written with its effect rows first and the new keywords, toward Thermite 2 with
the rows between the other clauses and the measures.  Outside of clauses, only an invariant that
trails a closing brace is renamed.

An index into the lines is modelled by the lines from there on.  A clause keeps the match of its
first line, which the source computes again where it writes the clause.
-/

namespace Bulla.Tooling

/-- A line of a text, without its line break. -/
abbrev Line := List Char

/-- The characters that `\s` matches. -/
def isSpace (c : Char) : Bool :=
  let code := c.toNat
  0x09 ≤ code && code ≤ 0x0D || 0x1C ≤ code && code ≤ 0x20 || code == 0x85 || code == 0xA0 ||
    code == 0x1680 || 0x2000 ≤ code && code ≤ 0x200A || code == 0x2028 || code == 0x2029 ||
    code == 0x202F || code == 0x205F || code == 0x3000

/-! ## Keywords -/

/-- The clause keywords of Thermite 2. -/
inductive KeywordV2
  | req
  | ens
  | fx
  | inv
  | dec
deriving DecidableEq, Repr

/-- The clause keywords of Thermite 3, and the mark of an effect row. -/
inductive KeywordV3
  | requires
  | ensures
  | keeps
  | measures
  | row
deriving DecidableEq, Repr

/-- `CLAUSE_V2`: blanks, one of the keywords, blanks and the expression. -/
def clauseV2 : Vocabulary isSpace KeywordV2 where
  keywords := [.req, .ens, .fx, .inv, .dec]
  word
    | .req => "req".toList
    | .ens => "ens".toList
    | .fx => "fx".toList
    | .inv => "inv".toList
    | .dec => "dec".toList
  complete keyword := by cases keyword <;> decide
  word_injective left right same := by cases left <;> cases right <;> first | rfl | simp at same
  word_ne_nil keyword := by cases keyword <;> decide
  word_solid keyword := by cases keyword <;> decide

/-- `CLAUSE_V3` and, tried after it, `ROW_V3`: blanks, `!`, blanks and the expression. -/
def clauseOrRowV3 : Vocabulary isSpace KeywordV3 where
  keywords := [.requires, .ensures, .keeps, .measures, .row]
  word
    | .requires => "requires".toList
    | .ensures => "ensures".toList
    | .keeps => "keeps".toList
    | .measures => "measures".toList
    | .row => "!".toList
  complete keyword := by cases keyword <;> decide
  word_injective left right same := by cases left <;> cases right <;> first | rfl | simp at same
  word_ne_nil keyword := by cases keyword <;> decide
  word_solid keyword := by cases keyword <;> decide

/-- `V2_TO_V3`, and the mark that replaces `fx`. -/
def v2ToV3 : KeywordV2 → KeywordV3
  | .req => .requires
  | .ens => .ensures
  | .inv => .keeps
  | .dec => .measures
  | .fx => .row

/-- `V3_TO_V2`, and the keyword that replaces the mark of a row. -/
def v3ToV2 : KeywordV3 → KeywordV2
  | .requires => .req
  | .ensures => .ens
  | .keeps => .inv
  | .measures => .dec
  | .row => .fx

/-- What `TRAILING_INV_V2` finds after a closing brace.  The expression leaves the blanks past the
first one to the next search, which changes none of them. -/
def trailingInvV2 : Vocabulary isSpace Unit where
  keywords := [()]
  word _ := "inv".toList
  complete _ := by simp
  word_injective _ _ _ := rfl
  word_ne_nil _ := by decide
  word_solid _ := by decide

/-- What `TRAILING_INV_V3` finds after a closing brace. -/
def trailingInvV3 : Vocabulary isSpace Unit where
  keywords := [()]
  word _ := "keeps".toList
  complete _ := by simp
  word_injective _ _ _ := rfl
  word_ne_nil _ := by decide
  word_solid _ := by decide

/-! ## Clauses -/

mutual

/-- The delimiter depth after a text, which ignores comments and strings. -/
def balance : Line → Int → Int
  | [], depth => depth
  | c :: rest, depth =>
    if c = '"' then balanceInString rest depth
    else if c = '/' ∧ rest.head? = some '/' then depth
    else if c ∈ ['(', '[', '{'] then balance rest (depth + 1)
    else if c ∈ [')', ']', '}'] then balance rest (depth - 1)
    else balance rest depth

/-- The same inside a string, where a backslash hides the next character. -/
def balanceInString : Line → Int → Int
  | [], depth => depth
  | [_], depth => depth
  | c :: next :: rest, depth =>
    if c = '"' then balance (next :: rest) depth
    else if c = '\\' then balanceInString rest depth
    else balanceInString (next :: rest) depth

end

/-- A clause: the match of its first line, and the lines that it runs on over. -/
structure Clause (κ : Type) where
  head : Head isSpace κ
  more : List Line

namespace Clause

variable {κ μ : Type}

/-- The clause under another keyword. -/
def rename (f : κ → μ) (clause : Clause κ) : Clause μ where
  head := clause.head.rename f
  more := clause.more

/-- The lines of the clause, the first one written with the words of a surface. -/
def body (pattern : Vocabulary isSpace κ) (clause : Clause κ) : List Line :=
  pattern.write clause.head :: clause.more

end Clause

/-- The lines that a clause of this depth runs on over, and the lines after them. -/
def continuation : Int → List Line → List Line × List Line
  | _, [] => ([], [])
  | depth, line :: rest =>
    if 0 < depth then
      let taken := continuation (balance line depth) rest
      (line :: taken.1, taken.2)
    else ([], line :: rest)

theorem continuation_append (depth : Int) (lines : List Line) :
    (continuation depth lines).1 ++ (continuation depth lines).2 = lines := by
  fun_induction continuation depth lines with
  | case1 => rfl
  | case2 depth line rest opened taken induction => simp [taken, induction]
  | case3 => rfl

theorem length_continuation_le (depth : Int) (lines : List Line) :
    (continuation depth lines).2.length ≤ lines.length := by
  have whole := congrArg List.length (continuation_append depth lines)
  rw [List.length_append] at whole
  omega

section Sections

variable {κ : Type}

/-- The run of clauses at the start of the lines, and the lines after the run. -/
def clauses (pattern : Vocabulary isSpace κ) : List Line → List (Clause κ) × List Line
  | [] => ([], [])
  | line :: rest =>
    match pattern.read line with
    | none => ([], line :: rest)
    | some head =>
      let taken := continuation (balance line 0) rest
      let found := clauses pattern taken.2
      (⟨head, taken.1⟩ :: found.1, found.2)
termination_by lines => lines.length
decreasing_by
  have shorter := length_continuation_le (balance line 0) rest
  simp only [List.length_cons]
  omega

theorem length_clauses_le (pattern : Vocabulary isSpace κ) (lines : List Line) :
    (clauses pattern lines).2.length ≤ lines.length := by
  fun_induction clauses pattern lines with
  | case1 => rfl
  | case2 => rfl
  | case3 line rest head found taken later induction =>
    calc later.2.length
      _ ≤ taken.2.length := induction
      _ ≤ rest.length := length_continuation_le (balance line 0) rest
      _ ≤ (line :: rest).length := by simp

theorem length_clauses_lt {pattern : Vocabulary isSpace κ} {line : Line} {rest : List Line}
    (opens : pattern.Opens line) :
    (clauses pattern (line :: rest)).2.length < (line :: rest).length := by
  obtain ⟨head, found⟩ := Option.isSome_iff_exists.mp opens
  have shorter := length_continuation_le (balance line 0) rest
  have later := length_clauses_le pattern (continuation (balance line 0) rest).2
  rw [clauses, found]
  simp only [List.length_cons]
  omega

/-- The loop over the lines that both directions share: a line outside of clauses is rewritten by
itself, a run of clauses as a whole. -/
def rewriteLines (pattern : Vocabulary isSpace κ) (outside : Line → Line)
    (emit : List (Clause κ) → List Line) : List Line → List Line
  | [] => []
  | line :: rest =>
    if _opens : pattern.Opens line then
      let run := clauses pattern (line :: rest)
      emit run.1 ++ rewriteLines pattern outside emit run.2
    else outside line :: rewriteLines pattern outside emit rest
termination_by lines => lines.length
decreasing_by
  · exact length_clauses_lt (by assumption)
  · simp

end Sections

/-! ## The two directions -/

/-- The lines of a run toward Thermite 3: the effect row moves to the front, everything else is
renamed in place. -/
def runToV3 (run : List (Clause KeywordV2)) : List Line :=
  let row := run.filter (·.head.keyword = .fx)
  let rest := run.filter (·.head.keyword ≠ .fx)
  row.flatMap (fun clause => (clause.rename v2ToV3).body clauseOrRowV3) ++
    rest.flatMap (fun clause => (clause.rename v2ToV3).body clauseOrRowV3)

/-- The lines of a run toward Thermite 2: the row goes before a measure. -/
def runToV2 (run : List (Clause KeywordV3)) : List Line :=
  let row := run.filter (·.head.keyword = .row)
  let head := run.filter (·.head.keyword ∉ [.row, .measures])
  let tail := run.filter (·.head.keyword = .measures)
  head.flatMap (fun clause => (clause.rename v3ToV2).body clauseV2) ++
    row.flatMap (fun clause => (clause.rename v3ToV2).body clauseV2) ++
      tail.flatMap (fun clause => (clause.rename v3ToV2).body clauseV2)

def linesToV3 : List Line → List Line :=
  rewriteLines clauseV2 (trailingInvV2.replace trailingInvV3 '}') runToV3

def linesToV2 : List Line → List Line :=
  rewriteLines clauseOrRowV3 (trailingInvV3.replace trailingInvV2 '}') runToV2

def toV3 (text : List Char) : List Char :=
  ['\n'].intercalate (linesToV3 (text.splitOn '\n'))

def toV2 (text : List Char) : List Char :=
  ['\n'].intercalate (linesToV2 (text.splitOn '\n'))

end Bulla.Tooling
