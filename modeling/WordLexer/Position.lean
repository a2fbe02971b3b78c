/-!
# Places, positions and spans

A *place* is a file, a line and a column, and places are ordered in that sequence.  A *position* is
a place together with the text of its line, and a *span* is an inclusive stretch from one position
to another.  Lines and columns are counted from 1 by the scanner but are integers of any size
elsewhere.
-/

namespace WordLexer

/-! ## Places -/

structure Place where
  file : String
  line : Int
  column : Int
deriving DecidableEq

namespace Place

/-- Places are ordered by file name, then by line, then by column. -/
def Precedes (p q : Place) : Prop :=
  p.file < q.file ∨
    p.file = q.file ∧ (p.line < q.line ∨ p.line = q.line ∧ p.column < q.column)

instance : LT Place := ⟨Precedes⟩

instance (p q : Place) : Decidable (p < q) :=
  inferInstanceAs (Decidable (p.file < q.file ∨
    p.file = q.file ∧ (p.line < q.line ∨ p.line = q.line ∧ p.column < q.column)))

theorem lt_iff {p q : Place} :
    p < q ↔ p.file < q.file ∨
      p.file = q.file ∧ (p.line < q.line ∨ p.line = q.line ∧ p.column < q.column) := Iff.rfl

theorem lt_irrefl (p : Place) : ¬ p < p := by
  intro h
  rcases lt_iff.mp h with h | ⟨_, h⟩
  · exact String.lt_irrefl p.file h
  · omega

theorem lt_trans {p q r : Place} (hpq : p < q) (hqr : q < r) : p < r := by
  rw [lt_iff] at *
  rcases hpq with hpq | ⟨hpq, h⟩ <;> rcases hqr with hqr | ⟨hqr, h'⟩
  · exact .inl (String.lt_trans hpq hqr)
  · exact .inl (hqr ▸ hpq)
  · exact .inl (hpq ▸ hqr)
  · exact .inr ⟨hpq.trans hqr, by omega⟩

end Place

/-! ## Positions and spans -/

/-- A place with the text of its line, which diagnostics show. -/
structure Position extends Place where
  lineText : String
deriving DecidableEq

def Position.next (p : Position) : Position := { p with column := p.column + 1 }

/-- From the first position to the last, both included. -/
structure Span where
  first : Position
  last : Position
deriving DecidableEq

def Span.single (p : Position) : Span := ⟨p, p⟩

/-! ## Located characters -/

structure LocatedChar where
  char : Char
  position : Position
deriving DecidableEq

namespace LocatedChar

def span (c : LocatedChar) : Span := .single c.position

def text (cs : List LocatedChar) : List Char := cs.map (·.char)

/-- The characters of a text in a row, the first of them at `start`. -/
def locate (start : Position) : List Char → List LocatedChar
  | [] => []
  | c :: cs => ⟨c, start⟩ :: locate start.next cs

@[simp] theorem text_nil : text [] = [] := rfl

@[simp] theorem text_cons (c : LocatedChar) (cs : List LocatedChar) :
    text (c :: cs) = c.char :: text cs := rfl

@[simp] theorem text_append (xs ys : List LocatedChar) : text (xs ++ ys) = text xs ++ text ys := by
  simp [text]

@[simp] theorem text_locate (start : Position) (cs : List Char) : text (locate start cs) = cs := by
  induction cs generalizing start with
  | nil => rfl
  | cons c cs ih => simp [locate, ih]

end LocatedChar

end WordLexer
