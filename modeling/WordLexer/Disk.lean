import WordLexer.Lexing
import WordLexer.Text.Lines

/-!
# Disks

A disk holds the bytes of the files that can be read.  A file is lexed under the name by which it
was asked for, and one that cannot be read as text is an issue of its own.
-/

namespace WordLexer

/-- The bytes of a file by its name, or nothing where no file can be read. -/
abbrev Disk := String → Option ByteArray

/-- A name can be handed to a disk if it does not hold the null character. -/
def isFileName (name : String) : Bool := !name.toList.contains '\x00'

/-- What the lexer finds in a file: its tokens, if it could be read, and the issues. -/
structure FileReport where
  tokens : Option (List Token)
  issues : List Issue

namespace Disk

/-- The text of a file, or the issue that it could not be read. -/
def readText (disk : Disk) (file : String) : Except Issue String :=
  match (disk file).bind Text.decode? with
  | some text => .ok text
  | none => .error (.unreadableFile file)

def lexFile (disk : Disk) (file : String) : FileReport :=
  match disk.readText file with
  | .ok text => ⟨some (lex file text).tokens, (lex file text).issues⟩
  | .error issue => ⟨none, [issue]⟩

end Disk

/-- The listing of tokens, each with a line break after it. -/
def listTokens (tokens : List Token) : String :=
  String.join (tokens.map fun token => token.listing ++ "\n")

/-- What is printed of a file: the listing of its tokens, or nothing if it could not be read or the
listing is not wanted. -/
def FileReport.print (report : FileReport) (quiet : Bool) : String :=
  if quiet then "" else listTokens (report.tokens.getD [])

end WordLexer
