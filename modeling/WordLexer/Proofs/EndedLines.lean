import Mathlib.Data.List.Chain
import WordLexer.Proofs.LineBreaks
import WordLexer.Proofs.TextReport

/-!
# Lines with their breaks

A text is its lines in a row, each with the break that ends it; the last one may lack a break if it
is not empty.  Every text can be taken apart like this (`Text.exists_isCut`), and whoever does so
finds the lines that the lexer cuts (`Text.splitLines_of_isCut`).  The characters of these lines
carry the places that they have in the text (`isCut_sourceLines`).
-/

namespace WordLexer

namespace Text

/-! ## Taking a text apart -/

/-- The breaks that end a line. -/
def lineBreaks : List (List Char) :=
  [['\n'], ['\r'], ['\r', '\n'], ['\x0b'], ['\x0c'], ['\x1c'], ['\x1d'], ['\x1e'], ['\x85'],
   ['\u2028'], ['\u2029']]

/-- A line with what stands between it and the next line. -/
structure EndedLine where
  line : List Char
  brk : List Char
deriving DecidableEq

def EndedLine.chars (piece : EndedLine) : List Char := piece.line ++ piece.brk

/-- The pieces are a text taken apart into lines and breaks. -/
structure IsCut (text : List Char) (pieces : List EndedLine) : Prop where
  -- Nothing is lost or invented.
  joined : pieces.flatMap EndedLine.chars = text
  unbroken : ∀ piece ∈ pieces, ∀ c ∈ piece.line, [c] ∉ lineBreaks
  ended : ∀ piece ∈ pieces.dropLast, piece.brk ∈ lineBreaks
  -- Behind the last line a break may be missing, but then there is a line.
  last_ended : ∀ piece ∈ pieces.getLast?,
    piece.brk ∈ lineBreaks ∨ piece.brk = [] ∧ piece.line ≠ []
  -- A carriage return and the line feed right behind it are one break.
  paired : pieces.IsChain fun piece next =>
    ¬ (piece.brk = ['\r'] ∧ next.line = [] ∧ next.brk = ['\n'])

theorem singleton_mem_lineBreaks {c : Char} : [c] ∈ lineBreaks ↔ isLineBreak c = true := by
  constructor
  · intro h
    have hall : ∀ brk ∈ lineBreaks, brk.all isLineBreak = true :=
      List.all_eq_true.mp (by decide)
    exact List.all_eq_true.mp (hall _ h) c List.mem_cons_self
  · intro h
    simp only [isLineBreak, inRanges_iff, lineBreakRanges, CodeRange.only, List.mem_cons,
      List.not_mem_nil, or_false, exists_eq_or_imp, exists_eq_left] at h
    have hcode : c.toNat ∈ [0x0a, 0x0b, 0x0c, 0x0d, 0x1c, 0x1d, 0x1e, 0x85, 0x2028, 0x2029] := by
      simp only [List.mem_cons, List.not_mem_nil, or_false]
      omega
    have hchar : ∀ n ∈ [0x0a, 0x0b, 0x0c, 0x0d, 0x1c, 0x1d, 0x1e, 0x85, 0x2028, 0x2029],
        [Char.ofNat n] ∈ lineBreaks := by decide
    rw [← Char.ofNat_toNat c]
    exact hchar _ hcode

theorem unbroken_iff {line : List Char} :
    (∀ c ∈ line, [c] ∉ lineBreaks) ↔ ∀ c ∈ line, isLineBreak c = false := by
  simp only [singleton_mem_lineBreaks, Bool.not_eq_true]

theorem isBreakBefore_of_mem {rest brk : List Char} (hmem : brk ∈ lineBreaks)
    (halone : brk = ['\r'] → rest.head? ≠ some '\n') : IsBreakBefore rest brk := by
  have hall : ∀ brk ∈ lineBreaks,
      (decide (brk = ['\r', '\n']) || decide (brk.length = 1)) = true :=
    List.all_eq_true.mp (by decide)
  have hshape := hall brk hmem
  rw [Bool.or_eq_true, decide_eq_true_eq, decide_eq_true_eq, List.length_eq_one_iff] at hshape
  rcases hshape with rfl | ⟨c, rfl⟩
  · exact .pair
  · refine .single (singleton_mem_lineBreaks.mp hmem) ?_
    rintro ⟨rfl, hhead⟩
    exact halone rfl hhead

theorem mem_lineBreaks_of_isBreakBefore {rest brk : List Char} (h : IsBreakBefore rest brk) :
    brk ∈ lineBreaks := by
  cases h with
  | pair => decide
  | single hbreak _ => exact singleton_mem_lineBreaks.mpr hbreak

/-! ## The pieces of a cut -/

namespace IsCut

variable {text : List Char} {piece : EndedLine} {pieces : List EndedLine}

theorem isLineBreak_eq_false (h : IsCut text pieces) (hmem : piece ∈ pieces) :
    ∀ c ∈ piece.line, isLineBreak c = false :=
  unbroken_iff.mp (h.unbroken piece hmem)

/-- A cut of a text whose first piece is taken away is a cut of what stands behind that piece. -/
theorem tail (h : IsCut text (piece :: pieces)) :
    IsCut (pieces.flatMap EndedLine.chars) pieces where
  joined := rfl
  unbroken := fun p hp => h.unbroken p (List.mem_cons_of_mem _ hp)
  ended := by
    intro p hp
    apply h.ended p
    cases pieces with
    | nil => cases hp
    | cons next rest => exact List.mem_cons_of_mem _ hp
  last_ended := by
    intro p hp
    apply h.last_ended p
    cases pieces with
    | nil => cases hp
    | cons next rest => exact hp
  paired := h.paired.tail

/-- Only the last piece can be without a break. -/
theorem ended_or_last (h : IsCut text (piece :: pieces)) :
    piece.brk ∈ lineBreaks ∨ pieces = [] ∧ piece.brk = [] ∧ piece.line ≠ [] := by
  cases pieces with
  | nil =>
    rcases h.last_ended piece rfl with hbreak | hlast
    · exact .inl hbreak
    · exact .inr ⟨rfl, hlast⟩
  | cons next rest => exact .inl (h.ended piece List.mem_cons_self)

/-- A text starts with a line feed only if its first piece is an empty line that is ended by it. -/
theorem eq_of_head? (h : IsCut text (piece :: pieces)) (hhead : text.head? = some '\n') :
    piece.line = [] ∧ piece.brk = ['\n'] := by
  have hjoined := h.joined
  rw [List.flatMap_cons, EndedLine.chars] at hjoined
  cases hline : piece.line with
  | cons c cs =>
    rw [← hjoined, hline] at hhead
    obtain rfl : c = '\n' := Option.some.inj hhead
    exact absurd (by decide) (h.unbroken piece List.mem_cons_self '\n' (hline ▸ List.mem_cons_self))
  | nil =>
    refine ⟨rfl, ?_⟩
    rcases h.ended_or_last with hbreak | ⟨-, -, hne⟩
    · have hfeed : ∀ brk ∈ lineBreaks, brk ≠ [] ∧ (brk.head? = some '\n' → brk = ['\n']) := by
        decide
      obtain ⟨hne, hunique⟩ := hfeed _ hbreak
      apply hunique
      rw [← hjoined, hline, List.nil_append, List.head?_append_of_ne_nil _ hne] at hhead
      exact hhead
    · exact absurd hline hne

/-- The break behind the first piece is a break in front of the other pieces. -/
theorem isBreakBefore (h : IsCut text (piece :: pieces)) (hbreak : piece.brk ∈ lineBreaks) :
    IsBreakBefore (pieces.flatMap EndedLine.chars) piece.brk := by
  apply isBreakBefore_of_mem hbreak
  intro hreturn hhead
  cases pieces with
  | nil => cases hhead
  | cons next rest =>
    obtain ⟨hline, hfeed⟩ := h.tail.eq_of_head? hhead
    exact (List.isChain_cons_cons.mp h.paired).1 ⟨hreturn, hline, hfeed⟩

/-- A line and its break in front of a text that has been cut. -/
theorem cons {line brk rest : List Char} (hline : ∀ c ∈ line, isLineBreak c = false)
    (hbreak : IsBreakBefore rest brk) (h : IsCut rest pieces) :
    IsCut (line ++ (brk ++ rest)) (⟨line, brk⟩ :: pieces) where
  joined := by rw [List.flatMap_cons, EndedLine.chars, List.append_assoc, h.joined]
  unbroken := by
    intro piece hpiece
    rcases List.mem_cons.mp hpiece with rfl | hpiece
    · exact unbroken_iff.mpr hline
    · exact h.unbroken piece hpiece
  ended := by
    intro piece hpiece
    cases pieces with
    | nil => cases hpiece
    | cons next others =>
      rcases List.mem_cons.mp hpiece with rfl | hpiece
      · exact mem_lineBreaks_of_isBreakBefore hbreak
      · exact h.ended piece hpiece
  last_ended := by
    intro piece hpiece
    cases pieces with
    | nil =>
      obtain rfl := Option.some.inj hpiece
      exact .inl (mem_lineBreaks_of_isBreakBefore hbreak)
    | cons next others => exact h.last_ended piece hpiece
  paired := by
    refine List.isChain_cons.mpr ⟨?_, h.paired⟩
    -- A line feed behind the carriage return would be a part of the break.
    rintro next hnext ⟨rfl, hnone, hfeed⟩
    obtain ⟨others, rfl⟩ := List.head?_eq_some_iff.mp hnext
    cases hbreak with
    | single _ halone =>
      apply halone
      rw [← h.joined, List.flatMap_cons, EndedLine.chars, hnone, hfeed]
      exact ⟨rfl, rfl⟩

end IsCut

/-! ## The lines of a cut -/

/-- However a text is taken apart, the lines are the same. -/
theorem splitLines_of_isCut {text : List Char} {pieces : List EndedLine} (h : IsCut text pieces) :
    splitLines text = pieces.map EndedLine.line := by
  induction pieces generalizing text with
  | nil =>
    rw [← h.joined]
    rfl
  | cons piece rest ih =>
    have hline := h.isLineBreak_eq_false List.mem_cons_self
    have hrest := ih h.tail
    rw [← h.joined, List.flatMap_cons, EndedLine.chars, List.append_assoc, List.map_cons]
    rcases h.ended_or_last with hbreak | ⟨rfl, hbrk, hne⟩
    · rw [splitLines_line_break hline (h.isBreakBefore hbreak), hrest]
    · rw [hbrk, List.nil_append, List.flatMap_nil, List.append_nil,
        splitLines_of_unbroken hline, if_neg hne]
      rfl

theorem exists_isCut (text : List Char) : ∃ pieces, IsCut text pieces := by
  induction text using lines_induction with
  | unbroken line hline =>
    by_cases hne : line = []
    · exact ⟨[], hne.symm, by simp, by simp, by simp, .nil⟩
    · refine ⟨[⟨line, []⟩], ?_, ?_, by simp, ?_, .singleton _⟩
      · rw [List.flatMap_singleton, EndedLine.chars, List.append_nil]
      · intro piece hpiece
        rw [List.mem_singleton.mp hpiece]
        exact unbroken_iff.mpr hline
      · intro piece hpiece
        obtain rfl := Option.some.inj hpiece
        exact .inr ⟨rfl, hne⟩
  | broken line brk rest hline hbreak ih =>
    obtain ⟨pieces, h⟩ := ih
    exact ⟨⟨line, brk⟩ :: pieces, h.cons hline hbreak⟩

/-- Lines hold characters of the text, and none of these is a break. -/
theorem of_mem_splitLines {text line : List Char} {c : Char} (hline : line ∈ splitLines text)
    (hc : c ∈ line) : c ∈ text ∧ isLineBreak c = false := by
  obtain ⟨pieces, hcut⟩ := exists_isCut text
  rw [splitLines_of_isCut hcut] at hline
  obtain ⟨piece, hpiece, rfl⟩ := List.mem_map.mp hline
  refine ⟨?_, hcut.isLineBreak_eq_false hpiece c hc⟩
  rw [← hcut.joined]
  exact List.mem_flatMap.mpr ⟨piece, hpiece, List.mem_append_left _ hc⟩

end Text

/-! ## The characters of the lines -/

theorem LocatedChar.getElem?_locate (start : Position) (cs : List Char) (column : Nat) :
    (locate start cs)[column]? = cs[column]?.map fun c => ⟨c, start.advance column⟩ := by
  induction cs generalizing start column with
  | nil => rfl
  | cons c rest ih =>
    cases column with
    | zero =>
      rw [Position.advance_zero]
      rfl
    | succ column =>
      rw [Position.advance_succ, locate, List.getElem?_cons_succ, List.getElem?_cons_succ, ih]

theorem getElem?_sourceLines (file text : String) (i : Nat) :
    (sourceLines file text)[i]? = (Text.splitLines text.toList)[i]?.map fun line =>
      LocatedChar.locate ⟨⟨file, i + 1, 1⟩, String.ofList line⟩ line := by
  rw [sourceLines, show (1 : Int) = ((1 : Nat) : Int) from rfl, locateLines_eq_map,
    List.getElem?_map, List.getElem?_zipIdx, Option.map_map]
  apply Option.map_congr
  intro line _
  rw [Function.comp_apply, lineStart, Int.natCast_add, Int.add_comm]
  rfl

/-- A text can be taken apart into lines and breaks, and all ways to do so have the lines that the
lexer cuts.  Every character of a line carries the file, the line, the column and the text of the
line that it is in. -/
theorem isCut_sourceLines (file text : String) :
    (∃ pieces, Text.IsCut text.toList pieces ∧
      pieces.map Text.EndedLine.line = (sourceLines file text).map LocatedChar.text) ∧
    (∀ pieces, Text.IsCut text.toList pieces →
      pieces.map Text.EndedLine.line = (sourceLines file text).map LocatedChar.text) ∧
    ∀ (i j : Nat) (row : List LocatedChar) (c : LocatedChar),
      (sourceLines file text)[i]? = some row → row[j]? = some c →
      c.position = ⟨⟨file, i + 1, j + 1⟩, String.ofList (LocatedChar.text row)⟩ ∧
        c.span = ⟨c.position, c.position⟩ ∧
        c.position.lineText.toList[j]? = some c.char := by
  have hlines : ∀ pieces, Text.IsCut text.toList pieces →
      pieces.map Text.EndedLine.line = (sourceLines file text).map LocatedChar.text := by
    intro pieces h
    rw [sourceLines, text_locateLines, Text.splitLines_of_isCut h]
  refine ⟨?_, hlines, ?_⟩
  · obtain ⟨pieces, h⟩ := Text.exists_isCut text.toList
    exact ⟨pieces, h, hlines pieces h⟩
  · intro i j row c hrow hc
    rw [getElem?_sourceLines, Option.map_eq_some_iff] at hrow
    obtain ⟨chars, -, rfl⟩ := hrow
    rw [LocatedChar.getElem?_locate, Option.map_eq_some_iff] at hc
    obtain ⟨char, hchar, rfl⟩ := hc
    rw [LocatedChar.text_locate]
    refine ⟨?_, rfl, ?_⟩
    · show (⟨⟨file, i + 1, 1 + j⟩, String.ofList chars⟩ : Position) = _
      rw [Int.add_comm 1]
    · rw [← hchar]
      exact congrArg (·[j]?) String.toList_ofList

/-- A text with a break of two characters, an empty line and a carriage return on its own. -/
theorem isCut_sourceLines_breaks :
    (sourceLines "a.l" "x\r\n\ry").map LocatedChar.text = [['x'], [], ['y']] ∧
      Text.IsCut "x\r\n\ry".toList [⟨['x'], ['\r', '\n']⟩, ⟨[], ['\r']⟩, ⟨['y'], []⟩] := by
  have hcut : Text.IsCut "x\r\n\ry".toList
      [⟨['x'], ['\r', '\n']⟩, ⟨[], ['\r']⟩, ⟨['y'], []⟩] := by
    refine ⟨by decide, by simp [Text.lineBreaks], by decide, ?_, by simp⟩
    intro piece hpiece
    obtain rfl := Option.some.inj hpiece
    exact .inr (by decide)
  exact ⟨((isCut_sourceLines "a.l" "x\r\n\ry").2.1 _ hcut).symm, hcut⟩

end WordLexer
