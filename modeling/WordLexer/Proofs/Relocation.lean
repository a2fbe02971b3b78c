import WordLexer.LineScan

/-!
# Moving positions

The scanner carries positions along and never looks at them.  A line whose characters are moved to
other positions is scanned as before, and what is reported of it is moved in the same way
(`LineScan.ofLine_relocate`).
-/

namespace WordLexer

/-! ## What carries positions -/

/-- The position without the text of its line. -/
def Position.withoutText (p : Position) : Position := { p with lineText := "" }

def Span.relocate (f : Position → Position) (span : Span) : Span := ⟨f span.first, f span.last⟩

def LocatedChar.relocate (f : Position → Position) (c : LocatedChar) : LocatedChar :=
  { c with position := f c.position }

def Token.relocate (f : Position → Position) (token : Token) : Token :=
  { token with span := token.span.relocate f }

def Issue.relocate (f : Position → Position) (issue : Issue) : Issue :=
  { issue with span := issue.span.map (Span.relocate f) }

def relocateResult (f : Position → Position) :
    Except Issue (List Token) → Except Issue (List Token)
  | .ok tokens => .ok (tokens.map (Token.relocate f))
  | .error issue => .error (issue.relocate f)

def LineScan.relocate (f : Position → Position) (scan : LineScan) : LineScan :=
  ⟨scan.issues.map (Issue.relocate f), relocateResult f scan.result⟩

def LineRuns.relocate (f : Position → Position) (runs : LineRuns) : LineRuns :=
  ⟨runs.first.map (LocatedChar.relocate f),
    runs.rest.map fun (delimiter, run) =>
      (delimiter.relocate f, run.map (LocatedChar.relocate f))⟩

section

variable (f : Position → Position)

@[simp] theorem LocatedChar.char_relocate (c : LocatedChar) : (c.relocate f).char = c.char := rfl

@[simp] theorem LocatedChar.text_relocate (line : List LocatedChar) :
    text (line.map (relocate f)) = text line := by
  rw [text, List.map_map]
  rfl

theorem Token.map_lexeme_relocate (tokens : List Token) :
    (tokens.map (relocate f)).map Token.lexeme = tokens.map Token.lexeme := by
  rw [List.map_map]
  rfl

theorem Issue.map_problem_relocate (issues : List Issue) :
    (issues.map (relocate f)).map Issue.problem = issues.map Issue.problem := by
  rw [List.map_map]
  rfl

/-! ## The scanner -/

theorem LineRuns.ofLine_relocate (line : List LocatedChar) :
    ofLine (line.map (LocatedChar.relocate f)) = (ofLine line).relocate f := by
  induction line with
  | nil => rfl
  | cons c cs ih =>
    rw [List.map_cons, ofLine, ofLine, ih, LocatedChar.char_relocate]
    cases Text.isWordChar c.char <;> rfl

theorem Run.span_relocate (head : LocatedChar) (tail : Run) :
    span (head.relocate f) (tail.map (LocatedChar.relocate f)) = (span head tail).relocate f := by
  rw [span, span, List.getLast?_map]
  cases tail.getLast? <;> rfl

theorem Run.read_relocate (run : Run) :
    read (run.map (LocatedChar.relocate f)) = relocateResult f run.read := by
  cases run with
  | nil => rfl
  | cons head tail =>
    rw [List.map_cons, read_cons, read_cons]
    simp only [← List.map_cons, word, LocatedChar.text_relocate, span_relocate]
    cases Text.isName (LocatedChar.text (head :: tail)) <;> rfl

namespace LineScan

theorem andThen_relocate (first second : LineScan) :
    (first.andThen second).relocate f = (first.relocate f).andThen (second.relocate f) := by
  obtain ⟨issues, result⟩ := first
  obtain ⟨more, last⟩ := second
  cases result with
  | error issue => rfl
  | ok tokens =>
    simp only [relocate, andThen, relocateResult, List.map_append]
    cases last with
    | error issue => rfl
    | ok rest => simp only [Except.map, List.map_append]

theorem ofDelimiter_relocate (c : LocatedChar) :
    ofDelimiter (c.relocate f) = (ofDelimiter c).relocate f := by
  rw [ofDelimiter, ofDelimiter, LocatedChar.char_relocate]
  cases Text.isBlank c.char <;> rfl

theorem ofRun_relocate (run : Run) :
    ofRun (run.map (LocatedChar.relocate f)) = (ofRun run).relocate f := by
  rw [ofRun, Run.read_relocate]
  rfl

theorem ofRuns_relocate (run : Run) (rest : List (LocatedChar × Run)) :
    ofRuns (run.map (LocatedChar.relocate f))
        (rest.map fun (delimiter, run) =>
          (delimiter.relocate f, run.map (LocatedChar.relocate f))) =
      (ofRuns run rest).relocate f := by
  induction rest generalizing run with
  | nil => exact ofRun_relocate f run
  | cons pair rest ih =>
    obtain ⟨delimiter, next⟩ := pair
    rw [List.map_cons, ofRuns, ofRuns, ih, ofRun_relocate, ofDelimiter_relocate, andThen_relocate,
      andThen_relocate]

/-- A line that is moved is scanned as before, and everything found in it is moved. -/
theorem ofLine_relocate (line : List LocatedChar) :
    ofLine (line.map (LocatedChar.relocate f)) = (ofLine line).relocate f := by
  unfold ofLine
  rw [LineRuns.ofLine_relocate]
  exact ofRuns_relocate f _ _

theorem tokens_relocate (scan : LineScan) :
    (scan.relocate f).tokens = scan.tokens.map (Token.relocate f) := by
  obtain ⟨issues, result⟩ := scan
  cases result <;> rfl

theorem report_relocate (scan : LineScan) :
    (scan.relocate f).report = scan.report.map (Issue.relocate f) := by
  obtain ⟨issues, result⟩ := scan
  cases result with
  | ok tokens => rfl
  | error issue =>
    show issues.map (Issue.relocate f) ++ [issue.relocate f] = (issues ++ [issue]).map _
    rw [List.map_append]
    rfl

end LineScan

end

end WordLexer
