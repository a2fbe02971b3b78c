import WordLexer.Issue
import WordLexer.Text.Word
import WordLexer.Token

/-!
# Runs

A run is a row of located characters that is read as one word.  The scanner finds runs of word
characters, but any row can be read: it gives no token if it is empty, one token if its text is a
name, and an issue otherwise.
-/

namespace WordLexer

abbrev Run := List LocatedChar

namespace Run

def word (run : Run) : String := String.ofList (LocatedChar.text run)

/-- The span from the first character of a run to its last. -/
def span (head : LocatedChar) (tail : Run) : Span :=
  ⟨head.position, (tail.getLast?.getD head).position⟩

/-- The tokens of a run, at most one, or the issue that it is malformed. -/
def read : Run → Except Issue (List Token)
  | [] => .ok []
  | head :: tail =>
    match Text.name? (LocatedChar.text (head :: tail)) with
    | some name => .ok [⟨.ofWord (String.ofList name), span head tail⟩]
    | none => .error ⟨.malformedWord (word (head :: tail)), some (span head tail)⟩

theorem read_cons (head : LocatedChar) (tail : Run) :
    read (head :: tail) =
      if Text.isName (LocatedChar.text (head :: tail)) then
        .ok [⟨.ofWord (word (head :: tail)), span head tail⟩]
      else .error ⟨.malformedWord (word (head :: tail)), some (span head tail)⟩ := by
  rw [read, Text.name?]
  cases Text.isName (LocatedChar.text (head :: tail)) <;> rfl

/-- Read a run and put its token behind the tokens so far.  A malformed run leaves them as they
are and gives its issue. -/
def readOnto (tokens : List Token) (run : Run) : Option Issue × List Token :=
  match run.read with
  | .ok more => (none, tokens ++ more)
  | .error issue => (some issue, tokens)

/-- Read runs one after the other onto one list of tokens, and give the outcome of each. -/
def readEach (tokens : List Token) : List Run → List (Option Issue × List Token)
  | [] => []
  | run :: runs =>
    let outcome := readOnto tokens run
    outcome :: readEach outcome.2 runs

@[simp] theorem read_nil : read [] = .ok [] := rfl

end Run

end WordLexer
