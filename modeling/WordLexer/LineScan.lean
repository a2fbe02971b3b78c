import WordLexer.Run
import WordLexer.Text.CharClass

/-!
# Scanning a line

A line consists of runs of word characters with single delimiters between them; where two
delimiters meet, the run between them is empty.  The scanner reads the runs from left to right and
reports every delimiter that is not blank.  A malformed run ends the scan: the line then has no
tokens, and nothing after that run is reported.

Scans are composed with `LineScan.andThen`, which is associative and has `LineScan.nothing` as its
unit.
-/

namespace WordLexer

/-! ## The runs of a line -/

/-- The runs of a line: the first one, and then each delimiter with the run after it. -/
structure LineRuns where
  first : Run
  rest : List (LocatedChar × Run)

namespace LineRuns

/-- The runs are maximal: a character is a delimiter exactly if it is no word character. -/
def ofLine : List LocatedChar → LineRuns
  | [] => ⟨[], []⟩
  | c :: cs =>
    let runs := ofLine cs
    if Text.isWordChar c.char then ⟨c :: runs.first, runs.rest⟩
    else ⟨[], (c, runs.first) :: runs.rest⟩

def toLine (runs : LineRuns) : List LocatedChar :=
  runs.first ++ runs.rest.flatMap fun (delimiter, run) => delimiter :: run

theorem toLine_ofLine (line : List LocatedChar) : (ofLine line).toLine = line := by
  induction line with
  | nil => rfl
  | cons c cs ih =>
    rw [toLine] at ih
    rw [ofLine]
    split <;> simp [toLine, ih]

end LineRuns

/-! ## Scans -/

/-- What a scan reports on its way, and the tokens that it ends with or the issue that ends it. -/
structure LineScan where
  issues : List Issue
  result : Except Issue (List Token)

namespace LineScan

def nothing : LineScan := ⟨[], .ok []⟩

def ofRun (run : Run) : LineScan := ⟨[], run.read⟩

/-- Report one delimiter, unless it is blank. -/
def ofDelimiter (c : LocatedChar) : LineScan :=
  ⟨if Text.isBlank c.char then [] else [⟨.strayCharacter c.char, some c.span⟩], .ok []⟩

/-- Go on with a second scan, unless the first one was ended by an issue. -/
def andThen (first second : LineScan) : LineScan :=
  match first.result with
  | .error issue => ⟨first.issues, .error issue⟩
  | .ok tokens => ⟨first.issues ++ second.issues, second.result.map (tokens ++ ·)⟩

def ofRuns (run : Run) : List (LocatedChar × Run) → LineScan
  | [] => ofRun run
  | (delimiter, next) :: rest =>
    (ofRun run).andThen ((ofDelimiter delimiter).andThen (ofRuns next rest))

def ofLine (line : List LocatedChar) : LineScan :=
  let runs := LineRuns.ofLine line
  ofRuns runs.first runs.rest

/-- The tokens of a line, none if the scan was ended by an issue. -/
def tokens (scan : LineScan) : List Token :=
  match scan.result with
  | .ok tokens => tokens
  | .error _ => []

/-- The issues of a line, with the one that ended the scan as the last. -/
def report (scan : LineScan) : List Issue :=
  match scan.result with
  | .ok _ => scan.issues
  | .error issue => scan.issues ++ [issue]

/-! ## Composition -/

@[simp] theorem nothing_andThen (scan : LineScan) : nothing.andThen scan = scan := by
  obtain ⟨issues, result⟩ := scan
  cases result <;> simp [andThen, nothing, Except.map]

@[simp] theorem andThen_nothing (scan : LineScan) : scan.andThen nothing = scan := by
  obtain ⟨issues, result⟩ := scan
  cases result <;> simp [andThen, nothing, Except.map]

theorem andThen_assoc (a b c : LineScan) : (a.andThen b).andThen c = a.andThen (b.andThen c) := by
  obtain ⟨_, ra⟩ := a
  obtain ⟨_, rb⟩ := b
  obtain ⟨_, rc⟩ := c
  cases ra <;> cases rb <;> cases rc <;> simp [andThen, Except.map]

@[simp] theorem ofRun_nil : ofRun [] = nothing := rfl

end LineScan

end WordLexer
