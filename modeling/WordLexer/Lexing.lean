import WordLexer.LineScan
import WordLexer.Text.Lines

/-!
# Lexing a text

A text is cut into lines, and every line is scanned on its own: a malformed run takes away the
tokens of its own line only.
-/

namespace WordLexer

/-- The lines of a text with every character located, the first line as number `number`. -/
def locateLines (file : String) (number : Int) : List (List Char) → List (List LocatedChar)
  | [] => []
  | line :: lines =>
    LocatedChar.locate ⟨⟨file, number, 1⟩, String.ofList line⟩ line ::
      locateLines file (number + 1) lines

/-- The located lines of a text, numbered from 1. -/
def sourceLines (file text : String) : List (List LocatedChar) :=
  locateLines file 1 (Text.splitLines text.toList)

/-- The tokens and the issues of a text, both in the order in which they are met. -/
structure Lexing where
  tokens : List Token
  issues : List Issue

def lex (file text : String) : Lexing :=
  let scans := (sourceLines file text).map LineScan.ofLine
  ⟨scans.flatMap LineScan.tokens, scans.flatMap LineScan.report⟩

theorem text_locateLines (file : String) (number : Int) (lines : List (List Char)) :
    (locateLines file number lines).map LocatedChar.text = lines := by
  induction lines generalizing number with
  | nil => rfl
  | cons line lines ih => simp [locateLines, ih]

end WordLexer
