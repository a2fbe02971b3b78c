import WordLexer.Proofs.EndedLines

/-!
# The places of the characters of a text

The place of a character is the place where the text up to it ends: the number of lines that there
are by then, and the length of the last of them.  This is where the lexer finds the character
(`Text.IsCut.exists_place`), and no two characters share a place (`eq_of_endPlace_eq`).
-/

namespace WordLexer

/-- The place where a text ends that stands behind a number of other lines of a file. -/
def endPlace (file : String) (before : Nat) (text : List Char) : Place :=
  let lines := Text.splitLines text
  ⟨file, before + lines.length, (lines.getLast?.getD []).length⟩

theorem Text.splitLines_ne_nil {text : List Char} (h : text ≠ []) : splitLines text ≠ [] := by
  fun_cases splitLines text with
  | case1 => exact absurd rfl h
  | case2 rest => exact List.cons_ne_nil [] _
  | case3 c rest => exact List.cons_ne_nil [] _
  | case4 c rest => cases splitLines rest <;> exact List.cons_ne_nil _ _

variable (file : String) (before : Nat)

theorem endPlace_of_unbroken {line : List Char} (hline : ∀ c ∈ line, Text.isLineBreak c = false)
    (hne : line ≠ []) : endPlace file before line = ⟨file, before + 1, line.length⟩ := by
  rw [endPlace, Text.splitLines_of_unbroken hline, if_neg hne]
  rfl

/-- A text behind a line and its break ends where it ends on its own, one line further down. -/
theorem endPlace_line_break {line brk rest : List Char}
    (hline : ∀ c ∈ line, Text.isLineBreak c = false) (hbreak : Text.IsBreakBefore rest brk)
    (hne : rest ≠ []) :
    endPlace file before (line ++ (brk ++ rest)) = endPlace file (before + 1) rest := by
  obtain ⟨first, lines, hlines⟩ := List.exists_cons_of_ne_nil (Text.splitLines_ne_nil hne)
  rw [endPlace, endPlace, Text.splitLines_line_break hline hbreak, hlines, List.getLast?_cons_cons,
    List.length_cons, List.length_cons, Place.mk.injEq]
  refine ⟨rfl, ?_, rfl⟩
  omega

theorem Text.IsBreakBefore.take {rest brk : List Char} (h : IsBreakBefore rest brk) (n : Nat) :
    IsBreakBefore (rest.take (n + 1)) brk := by
  cases h with
  | pair => exact .pair
  | single hbreak halone =>
    refine .single hbreak ?_
    rw [List.head?_take, if_neg (Nat.succ_ne_zero n)]
    exact halone

/-- The places behind a line and its break are those of the rest, one line further down. -/
theorem endPlace_take_line_break {line brk rest : List Char}
    (hline : ∀ c ∈ line, Text.isLineBreak c = false) (hbreak : Text.IsBreakBefore rest brk)
    {i : Nat} (hi : i < rest.length) :
    endPlace file before ((line ++ (brk ++ rest)).take (line.length + brk.length + i + 1)) =
      endPlace file (before + 1) (rest.take (i + 1)) := by
  have hne : rest.take (i + 1) ≠ [] := by
    rw [ne_eq, List.take_eq_nil_iff]
    rintro (h | rfl)
    · exact Nat.succ_ne_zero i h
    · exact Nat.not_lt_zero i hi
  rw [show line.length + brk.length + i + 1 = line.length + (brk.length + (i + 1)) by omega,
    List.take_length_add_append, List.take_length_add_append,
    endPlace_line_break file before hline (hbreak.take i) hne]

theorem endPlace_take_line {line more : List Char}
    (hline : ∀ c ∈ line, Text.isLineBreak c = false) {i : Nat} (hi : i < line.length) :
    endPlace file before ((line ++ more).take (i + 1)) = ⟨file, before + 1, i + 1⟩ := by
  have hlength : (line.take (i + 1)).length = i + 1 := List.length_take_of_le hi
  rw [List.take_append_of_le_length hi, endPlace_of_unbroken, hlength]
  · rfl
  · exact fun c hc => hline c (List.mem_of_mem_take hc)
  · exact List.ne_nil_of_length_eq_add_one hlength

/-- However a text is taken apart, the place of a character gives its line and its column. -/
theorem Text.IsCut.exists_place {text : List Char} {pieces : List EndedLine}
    (h : IsCut text pieces) {i : Nat} {c : Char} (hi : text[i]? = some c)
    (hc : isLineBreak c = false) :
    ∃ (k j : Nat) (piece : EndedLine), pieces[k]? = some piece ∧ piece.line[j]? = some c ∧
      i = ((pieces.take k).flatMap EndedLine.chars).length + j ∧
      endPlace file before (text.take (i + 1)) = ⟨file, before + k + 1, j + 1⟩ := by
  induction pieces generalizing text before i with
  | nil =>
    rw [← h.joined] at hi
    cases hi
  | cons piece rest ih =>
    have hline := h.isLineBreak_eq_false List.mem_cons_self
    have hjoined := h.joined
    rw [List.flatMap_cons, EndedLine.chars, List.append_assoc] at hjoined
    rw [← hjoined] at hi ⊢
    by_cases hlt : i < piece.line.length
    · rw [List.getElem?_append_left hlt] at hi
      exact ⟨0, i, piece, rfl, hi, (Nat.zero_add i).symm, endPlace_take_line file before hline hlt⟩
    · -- The character is no break, so it stands behind the break of the first line.
      rw [List.getElem?_append_right (Nat.le_of_not_lt hlt)] at hi
      have hbreak : IsBreakBefore (rest.flatMap EndedLine.chars) piece.brk := by
        rcases h.ended_or_last with hmem | ⟨rfl, hnone, -⟩
        · exact h.isBreakBefore hmem
        · rw [hnone] at hi
          cases hi
      have hge : piece.brk.length ≤ i - piece.line.length := by
        by_contra hbrk
        rw [List.getElem?_append_left (Nat.lt_of_not_le hbrk)] at hi
        have hmem := isLineBreak_of_mem_break hbreak c (List.mem_of_getElem? hi)
        rw [hc] at hmem
        cases hmem
      obtain ⟨m, rfl⟩ : ∃ m, i = piece.line.length + piece.brk.length + m :=
        Nat.exists_eq_add_of_le (by omega)
      rw [show piece.line.length + piece.brk.length + m - piece.line.length =
          piece.brk.length + m by omega, List.getElem?_append_right (by omega),
        Nat.add_sub_cancel_left] at hi
      obtain ⟨k, j, found, hfound, hchar, hm, hplace⟩ := ih (before + 1) h.tail hi
      refine ⟨k + 1, j, found, hfound, hchar, ?_, ?_⟩
      · rw [List.take_succ_cons, List.flatMap_cons, List.length_append, EndedLine.chars,
          List.length_append, hm]
        omega
      · rw [endPlace_take_line_break file before hline hbreak (List.getElem?_eq_some_iff.mp hi).1,
          hplace, Place.mk.injEq]
        refine ⟨rfl, ?_, rfl⟩
        omega

/-- Characters of a text are told apart by their places. -/
theorem eq_of_endPlace_eq {text : List Char} {i j : Nat} {c d : Char} (hi : text[i]? = some c)
    (hj : text[j]? = some d) (hc : Text.isLineBreak c = false) (hd : Text.isLineBreak d = false)
    (hplace : endPlace file before (text.take (i + 1)) =
      endPlace file before (text.take (j + 1))) : i = j := by
  obtain ⟨pieces, hcut⟩ := Text.exists_isCut text
  obtain ⟨k, m, _, _, _, rfl, hplaceI⟩ := hcut.exists_place file before hi hc
  obtain ⟨l, n, _, _, _, rfl, hplaceJ⟩ := hcut.exists_place file before hj hd
  rw [hplaceI, hplaceJ, Place.mk.injEq] at hplace
  obtain rfl : k = l := by omega
  obtain rfl : m = n := by omega
  rfl

end WordLexer
