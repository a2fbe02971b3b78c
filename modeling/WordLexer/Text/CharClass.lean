import WordLexer.Text.Word

/-!
# Character classes

Classes of characters that Unicode describes: blanks, line breaks and decimal digits.  Each is given
by a table of code points.  Numbers are written with the ten digits of ASCII only.
-/

namespace WordLexer.Text

/-! ## Tables -/

/-- The code points from `first` to `last`, both included. -/
structure CodeRange where
  first : Nat
  last : Nat

def CodeRange.only (code : Nat) : CodeRange := ⟨code, code⟩

def CodeRange.contains (range : CodeRange) (c : Char) : Bool :=
  range.first ≤ c.toNat && c.toNat ≤ range.last

def inRanges (ranges : List CodeRange) (c : Char) : Bool :=
  ranges.any (·.contains c)

theorem inRanges_iff {ranges : List CodeRange} {c : Char} :
    inRanges ranges c = true ↔ ∃ r ∈ ranges, r.first ≤ c.toNat ∧ c.toNat ≤ r.last := by
  simp [inRanges, CodeRange.contains]

/-! ## Blanks -/

/-- The characters that Unicode treats as white space or as a separator of lines, paragraphs or
records. -/
def blankRanges : List CodeRange :=
  [⟨0x09, 0x0d⟩, ⟨0x1c, 0x20⟩, .only 0x85, .only 0xa0, .only 0x1680, ⟨0x2000, 0x200a⟩,
   ⟨0x2028, 0x2029⟩, .only 0x202f, .only 0x205f, .only 0x3000]

/-- Blanks separate words and are never reported. -/
def isBlank (c : Char) : Bool := inRanges blankRanges c

theorem isBlank_eq_false_of_isWordChar {c : Char} (h : isWordChar c = true) :
    isBlank c = false := by
  have range := toNat_of_isWordChar h
  rw [← Bool.not_eq_true, isBlank, inRanges_iff]
  simp only [blankRanges, CodeRange.only, List.mem_cons, List.not_mem_nil, or_false,
    exists_eq_or_imp, exists_eq_left]
  omega

theorem isWordChar_eq_false_of_isBlank {c : Char} (h : isBlank c = true) :
    isWordChar c = false := by
  rw [← Bool.not_eq_true]
  intro hword
  rw [isBlank_eq_false_of_isWordChar hword] at h
  cases h

/-! ## Line breaks -/

def lineBreakRanges : List CodeRange :=
  [⟨0x0a, 0x0d⟩, ⟨0x1c, 0x1e⟩, .only 0x85, ⟨0x2028, 0x2029⟩]

def isLineBreak (c : Char) : Bool := inRanges lineBreakRanges c

theorem isBlank_of_isLineBreak {c : Char} (h : isLineBreak c = true) : isBlank c = true := by
  simp only [isBlank, isLineBreak, inRanges_iff, blankRanges, lineBreakRanges, CodeRange.only,
    List.mem_cons, List.not_mem_nil, or_false, exists_eq_or_imp, exists_eq_left] at h ⊢
  omega

/-! ## Decimal digits -/

/-- The code points of the zeros, in ascending order.  Many scripts have ten digits, always in a
row, so the zeros describe them all (Unicode 14). -/
def zeroCodes : List Nat :=
  [0x30, 0x660, 0x6f0, 0x7c0, 0x966, 0x9e6, 0xa66, 0xae6, 0xb66, 0xbe6, 0xc66, 0xce6, 0xd66,
   0xde6, 0xe50, 0xed0, 0xf20, 0x1040, 0x1090, 0x17e0, 0x1810, 0x1946, 0x19d0, 0x1a80, 0x1a90,
   0x1b50, 0x1bb0, 0x1c40, 0x1c50, 0xa620, 0xa8d0, 0xa900, 0xa9d0, 0xa9f0, 0xaa50, 0xabf0,
   0xff10, 0x104a0, 0x10d30, 0x11066, 0x110f0, 0x11136, 0x111d0, 0x112f0, 0x11450, 0x114d0,
   0x11650, 0x116c0, 0x11730, 0x118e0, 0x11950, 0x11c50, 0x11d50, 0x11da0, 0x16a60, 0x16ac0,
   0x16b50, 0x1d7ce, 0x1d7d8, 0x1d7e2, 0x1d7ec, 0x1d7f6, 0x1e140, 0x1e2f0, 0x1e950, 0x1fbf0]

def isDecimalDigit (c : Char) : Bool :=
  zeroCodes.any fun first => first ≤ c.toNat && c.toNat ≤ first + 9

/-! ## Numerals -/

theorem toString_natCast (n : Nat) : toString (n : Int) = toString n := rfl

theorem not_mem_toString {c : Char} (hc : c.isDigit = false) (n : Nat) :
    c ∉ (toString n).toList := by
  rw [Nat.toString_eq_ofList_toDigits, String.toList_ofList]
  intro hmem
  exact Bool.eq_false_iff.mp hc (Nat.isDigit_of_mem_toDigits (by decide) (by decide) hmem)

theorem ofDigitChars_toString (n : Nat) : Nat.ofDigitChars 10 (toString n).toList 0 = n := by
  rw [Nat.toString_eq_ofList_toDigits, String.toList_ofList, Nat.ofDigitChars_ten_toDigits]

end WordLexer.Text
