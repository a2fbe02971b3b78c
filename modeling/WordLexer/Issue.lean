import WordLexer.Fault
import WordLexer.Position

/-!
# Issues

An issue is a problem that was met while files were read and scanned, with the span that it
concerns unless it concerns a whole file.  Issues have an order, in which they are shown, and a
rendering for a terminal.
-/

namespace WordLexer

inductive Problem where
  -- A file is missing, is a directory or does not hold text.
  | unreadableFile (name : String)
  -- A character belongs to no word and is not blank.
  | strayCharacter (c : Char)
  -- A word starts with a digit.
  | malformedWord (word : String)
  -- A problem that somebody else found and put into words.
  | described (message : String)
deriving DecidableEq

def Problem.message : Problem → String
  | .unreadableFile name => "could not read file: '" ++ name ++ "'"
  | .strayCharacter c => "unrecognized character '" ++ String.singleton c ++ "'"
  | .malformedWord word => "unrecognized token at '" ++ word ++ "'"
  | .described message => message

structure Issue where
  problem : Problem
  span : Option Span
deriving DecidableEq

namespace Issue

def unreadableFile (name : String) : Issue := ⟨.unreadableFile name, none⟩

/-- Where an issue starts, if it has a span. -/
def place? (issue : Issue) : Option Place := issue.span.map fun span => span.first.toPlace

/-! ## Order -/

/-- Issues without a place come before all others, which follow the order of their places. -/
def Precedes (a b : Issue) : Prop :=
  match a.place?, b.place? with
  | none, none => False
  | none, some _ => True
  | some _, none => False
  | some p, some q => p < q

instance (a b : Issue) : Decidable (a.Precedes b) := by
  unfold Precedes
  split <;> infer_instance

theorem not_precedes_self (a : Issue) : ¬ a.Precedes a := by
  unfold Precedes
  split <;> simp_all [Place.lt_irrefl]

theorem Precedes.trans {a b c : Issue} (hab : a.Precedes b) (hbc : b.Precedes c) :
    a.Precedes c := by
  unfold Precedes at *
  split at hab <;> split at hbc <;> simp_all
  exact Place.lt_trans hab hbc

theorem Precedes.asymm {a b : Issue} (hab : a.Precedes b) : ¬ b.Precedes a :=
  fun hba => not_precedes_self a (hab.trans hba)

/-! ## Rendering -/

def bold : String := "\x1b[1m"

def red : String := "\x1b[31m"

def reset : String := "\x1b[0m"

/-- A row of one character, empty for a negative count. -/
def row (count : Int) (c : Char) : String := String.ofList (List.replicate count.toNat c)

/-- The marker below a line: a caret for one column, dashes for more. -/
def marker (span : Span) : String :=
  if span.last.column = span.first.column then "^"
  else row (span.last.column - span.first.column + 1) '-'

def markerFault? (machine : Machine) (span : Span) : Option Fault :=
  if span.last.column = span.first.column then none
  else machine.rowFault? (span.last.column - span.first.column + 1)

def label (issue : Issue) : String := red ++ "error:" ++ reset ++ " " ++ issue.problem.message

/-- An issue as it is shown.  One with a span is followed by the line of its first position and by a
marker below the columns that it covers. -/
def render (issue : Issue) : String :=
  match issue.span with
  | none => bold ++ "langlex: " ++ issue.label
  | some span =>
    let start := span.first
    bold ++ start.file ++ ":" ++ toString start.line ++ ":" ++ toString start.column ++ ": " ++
      issue.label ++ "\n" ++
    "  " ++ start.lineText ++ "\n" ++
    "  " ++ row (start.column - 1) ' ' ++ red ++ marker span ++ reset

/-- Why an issue cannot be shown.  Its marker is laid out first, then the numerals of its place are
written, and then the blanks in front of the marker are laid out. -/
def fault? (machine : Machine) (issue : Issue) : Option Fault :=
  match issue.span with
  | none => none
  | some span =>
    let start := span.first
    (markerFault? machine span).or <| (numeralFault? start.line).or <|
      (numeralFault? start.column).or <| machine.rowFault? (start.column - 1)

end Issue

end WordLexer
