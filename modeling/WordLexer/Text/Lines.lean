import WordLexer.Text.CharClass

/-!
# Lines

A text is cut into lines at every line break: a line feed, a carriage return, the two together, or
one of the rarer separators.  A break ends the line before it, so a text that ends in a break has no
further empty line.

Files end their lines with a line feed, a carriage return or both.  A file that is read as text has
line feeds only.
-/

namespace WordLexer.Text

/-- Put a character in front of the first line, which is opened if there is none. -/
def consToFirst (c : Char) : List (List Char) → List (List Char)
  | [] => [[c]]
  | line :: lines => (c :: line) :: lines

/-- The lines of a text without their breaks.  A carriage return and the line feed right after it
are one break. -/
def splitLines : List Char → List (List Char)
  | [] => []
  | '\r' :: '\n' :: rest => [] :: splitLines rest
  | c :: rest => if isLineBreak c then [] :: splitLines rest else consToFirst c (splitLines rest)

/-! ## Files -/

/-- Write every carriage return, and every carriage return with the line feed right after it, as one
line feed. -/
def unifyNewlines : List Char → List Char
  | [] => []
  | '\r' :: '\n' :: rest => '\n' :: unifyNewlines rest
  | c :: rest => (if c = '\r' then '\n' else c) :: unifyNewlines rest

/-- The text that the bytes of a file hold: strict UTF-8 with unified newlines, or nothing if the
bytes are not UTF-8.  A byte order mark is kept as a character. -/
def decode? (bytes : ByteArray) : Option String :=
  (String.fromUTF8? bytes).map fun text => String.ofList (unifyNewlines text.toList)

end WordLexer.Text
