/-!
# Words and identifiers

A word is a run of ASCII letters, ASCII digits and underscores.  It is an identifier when it does
not start with a digit.  A *name* may end in one line feed, which then belongs to the name.
-/

namespace WordLexer.Text

/-! ## Characters -/

/-- A word holds ASCII letters, ASCII digits and underscores. -/
def isWordChar (c : Char) : Bool := c.isAlphanum || c == '_'

/-- An identifier starts with an ASCII letter or an underscore. -/
def isNameStart (c : Char) : Bool := c.isAlpha || c == '_'

theorem isWordChar_eq (c : Char) : isWordChar c = (isNameStart c || c.isDigit) := by
  simp only [isWordChar, isNameStart, Char.isAlphanum]
  cases c.isAlpha <;> cases c.isDigit <;> simp

theorem isWordChar_of_isNameStart {c : Char} (h : isNameStart c = true) : isWordChar c = true := by
  simp [isWordChar_eq, h]

theorem isWordChar_of_isDigit {c : Char} (h : c.isDigit = true) : isWordChar c = true := by
  rw [isWordChar_eq, h, Bool.or_true]

theorem toNat_of_isWordChar {c : Char} (h : isWordChar c = true) :
    (48 ≤ c.toNat ∧ c.toNat ≤ 57) ∨ (65 ≤ c.toNat ∧ c.toNat ≤ 90) ∨ c.toNat = 95 ∨
      (97 ≤ c.toNat ∧ c.toNat ≤ 122) := by
  rw [isWordChar_eq, isNameStart] at h
  delta Char.isAlpha Char.isUpper Char.isLower Char.isDigit at h
  simp only [Bool.or_eq_true, Bool.and_eq_true, decide_eq_true_eq, beq_iff_eq,
    UInt32.le_iff_toNat_le, ge_iff_le] at h
  rcases h with ((h | h) | rfl) | h
  · exact .inr (.inl h)
  · exact .inr (.inr (.inr h))
  · exact .inr (.inr (.inl rfl))
  · exact .inl h

/-! ## Texts -/

def isIdentifier : List Char → Bool
  | [] => false
  | c :: cs => isNameStart c && cs.all isWordChar

/-- The text without its last character if that is a line feed, else the whole text. -/
def dropFinalLineFeed (text : List Char) : List Char :=
  if text.getLast? = some '\n' then text.dropLast else text

/-- An identifier, or an identifier with one line feed after it. -/
def isName (text : List Char) : Bool := isIdentifier (dropFinalLineFeed text)

/-- The name that a text spells, if it spells one.  A final line feed is part of the name. -/
def name? (text : List Char) : Option (List Char) :=
  if isName text then some text else none

theorem all_isWordChar_of_isIdentifier {text : List Char} (h : isIdentifier text = true) :
    ∀ c ∈ text, isWordChar c = true := by
  cases text with
  | nil => simp
  | cons a as =>
    simp only [isIdentifier, Bool.and_eq_true, List.all_eq_true] at h
    intro c hc
    rcases List.mem_cons.mp hc with rfl | hc
    · exact isWordChar_of_isNameStart h.1
    · exact h.2 c hc

end WordLexer.Text
