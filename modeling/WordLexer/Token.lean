import WordLexer.KeywordTable
import WordLexer.Position

/-!
# Tokens

A lexeme is a kind with a text, and a token is a lexeme with the span that it covers.  Two tokens
are counted as the same token if their lexemes are equal, wherever they stand.
-/

namespace WordLexer

structure Lexeme where
  kind : Kind
  text : String
deriving DecidableEq

namespace Lexeme

/-- The lexeme of a kind with the given text, or with the spelling of the kind if the text is
empty. -/
def ofKind (kind : Kind) (text : String) : Lexeme :=
  ⟨kind, if text.isEmpty then kind.spelling else text⟩

def ofWord (word : String) : Lexeme := ⟨Kind.ofWord word, word⟩

end Lexeme

structure Token where
  lexeme : Lexeme
  span : Span
deriving DecidableEq

namespace Token

def kind (token : Token) : Kind := token.lexeme.kind

def text (token : Token) : String := token.lexeme.text

/-- The line of a listing for one token: its place, the label of its kind and its text. -/
def listing (token : Token) : String :=
  let start := token.span.first
  start.file ++ ":" ++ toString start.line ++ ":" ++ toString start.column ++ ": " ++
    token.kind.label ++ " " ++ token.text

end Token

end WordLexer
