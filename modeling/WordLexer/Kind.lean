import WordLexer.Text.Quoted

/-!
# Kinds of tokens

There is one kind for identifiers and one for each reserved word.  Further kinds can be made.  A
kind is the one that it was made as: kinds that were made apart differ, also when they are spelled
alike.
-/

namespace WordLexer

/-- A kind of token.  The number tells kinds apart, and the spelling is the text that stands for the
kind, which is empty if many texts do. -/
structure Kind where
  number : Nat
  spelling : String
deriving DecidableEq

namespace Kind

/-- The kind of every word that is not reserved. -/
def identifier : Kind := ⟨0, ""⟩

def reservedWords : List String :=
  ["as", "async", "await", "break", "continue", "else", "enum", "extern", "false", "fn", "for",
   "fork", "from", "if", "impl", "in", "is", "let", "loop", "match", "mod", "pub", "return", "self",
   "selftype", "show", "struct", "trait", "true", "try", "type", "unknown", "use", "void", "where",
   "while"]

/-- The kinds of the reserved words, numbered in their order after the identifier kind. -/
def reserved : List Kind := reservedWords.mapIdx fun i word => ⟨i + 1, word⟩

/-- The `n`-th of the further kinds. -/
def further (n : Nat) (spelling : String) : Kind := ⟨reservedWords.length + 1 + n, spelling⟩

def isKeyword (kind : Kind) : Bool := kind ≠ identifier

def label (kind : Kind) : String := if kind.isKeyword then "keyword" else "identifier"

def describe (kind : Kind) : String := "TokenKind(" ++ Text.quote kind.spelling ++ ")"

theorem spellings_reserved : reserved.map Kind.spelling = reservedWords := by decide

theorem nodup_reservedWords : reservedWords.Nodup := by decide

theorem isKeyword_of_mem_reserved : ∀ kind ∈ reserved, kind.isKeyword = true := by decide

end Kind

end WordLexer
