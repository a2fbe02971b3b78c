import WordLexer.Proofs.LineByLine
import WordLexer.Proofs.TextPlaces

/-!
# Stray characters

A stray character is reported, and apart from that it is a gap: a space in its place takes away the
report and nothing else (`lex_blankOut`).  For a line this is shown run by run, wherever its
characters stand (`LineScan.ofLine_blankOut`).
-/

namespace WordLexer

/-! ## Spaces in the place of stray characters -/

def blankOutChars (chosen : Nat → Bool) (text : List Char) : List Char :=
  text.mapIdx fun i c => if isStray c && chosen i then ' ' else c

/-- A text with a space in place of every stray character that is chosen by its index. -/
def blankOut (chosen : Nat → Bool) (text : String) : String :=
  String.ofList (blankOutChars chosen text.toList)

/-- A located character, or a space in its place if it is a stray character at a chosen place. -/
def LocatedChar.blankOut (chosen : Place → Bool) (c : LocatedChar) : LocatedChar :=
  if isStray c.char && chosen c.position.toPlace then { c with char := ' ' } else c

/-- The issue reports a stray character at a chosen place. -/
def Issue.isStrayAt (chosen : Place → Bool) : Issue → Bool
  | ⟨.strayCharacter _, some span⟩ => chosen span.first.toPlace
  | _ => false

def LineScan.withoutStrays (chosen : Place → Bool) (scan : LineScan) : LineScan :=
  { scan with issues := scan.issues.filter fun issue => !issue.isStrayAt chosen }

theorem isStray_iff {c : Char} :
    isStray c = true ↔ Text.isWordChar c = false ∧ Text.isBlank c = false := by
  rw [isStray, Bool.and_eq_true, Bool.not_eq_true', Bool.not_eq_true']

theorem isLineBreak_of_isStray {c : Char} (hc : isStray c = true) :
    Text.isLineBreak c = false := by
  rw [← Bool.not_eq_true]
  intro hbreak
  rw [isStray_iff, Text.isBlank_of_isLineBreak hbreak] at hc
  cases hc.2

/-! ## Lines -/

section Line

variable (chosen : Place → Bool)

theorem LocatedChar.blankOut_of_not_stray {c : LocatedChar} (hc : isStray c.char = false) :
    c.blankOut chosen = c := by
  rw [blankOut, hc, Bool.false_and, if_neg Bool.false_ne_true]

theorem LocatedChar.blankOut_of_isWordChar {c : LocatedChar}
    (hc : Text.isWordChar c.char = true) : c.blankOut chosen = c := by
  apply blankOut_of_not_stray
  rw [isStray, hc]
  rfl

theorem LocatedChar.isWordChar_blankOut (c : LocatedChar) :
    Text.isWordChar (c.blankOut chosen).char = Text.isWordChar c.char := by
  rw [blankOut]
  split
  · rename_i h
    rw [(isStray_iff.mp (Bool.and_eq_true_iff.mp h).1).1]
    rfl
  · rfl

theorem LineRuns.ofLine_blankOut (line : List LocatedChar) :
    ofLine (line.map (LocatedChar.blankOut chosen)) =
      ⟨(ofLine line).first,
        (ofLine line).rest.map fun (delimiter, run) => (delimiter.blankOut chosen, run)⟩ := by
  induction line with
  | nil => rfl
  | cons c cs ih =>
    rw [List.map_cons, ofLine, ofLine, ih, LocatedChar.isWordChar_blankOut]
    by_cases hc : Text.isWordChar c.char = true
    · rw [if_pos hc, if_pos hc, LocatedChar.blankOut_of_isWordChar chosen hc]
    · rw [if_neg hc, if_neg hc, List.map_cons]

theorem LineRuns.isWordChar_delimiter (line : List LocatedChar) :
    ∀ pair ∈ (ofLine line).rest, Text.isWordChar pair.1.char = false := by
  induction line with
  | nil => simp [ofLine]
  | cons c cs ih =>
    rw [ofLine]
    by_cases hc : Text.isWordChar c.char = true
    · rw [if_pos hc]
      exact ih
    · rw [if_neg hc]
      intro pair hpair
      rcases List.mem_cons.mp hpair with rfl | hpair
      · exact Bool.not_eq_true _ ▸ hc
      · exact ih pair hpair

namespace LineScan

theorem withoutStrays_andThen (first second : LineScan) :
    (first.andThen second).withoutStrays chosen =
      (first.withoutStrays chosen).andThen (second.withoutStrays chosen) := by
  obtain ⟨issues, result⟩ := first
  cases result with
  | error issue => rfl
  | ok tokens => simp only [withoutStrays, andThen, List.filter_append]

theorem ofDelimiter_blankOut {c : LocatedChar} (hc : Text.isWordChar c.char = false) :
    ofDelimiter (c.blankOut chosen) = (ofDelimiter c).withoutStrays chosen := by
  cases hblank : Text.isBlank c.char with
  | true =>
    rw [LocatedChar.blankOut_of_not_stray chosen (by rw [isStray, hc, hblank]; rfl),
      ofDelimiter, if_pos hblank]
    rfl
  | false =>
    -- The delimiter is a stray character, which is reported at its place.
    have hstray : isStray c.char = true := isStray_iff.mpr ⟨hc, hblank⟩
    have hreport : (ofDelimiter c).withoutStrays chosen =
        ⟨if chosen c.position.toPlace then [] else [⟨.strayCharacter c.char, some c.span⟩],
          .ok []⟩ := by
      rw [withoutStrays, ofDelimiter, hblank, if_neg Bool.false_ne_true, List.filter_singleton]
      show LineScan.mk (bif !chosen c.position.toPlace then _ else _) _ = _
      cases chosen c.position.toPlace <;> rfl
    rw [hreport, LocatedChar.blankOut, hstray, Bool.true_and]
    cases chosen c.position.toPlace with
    | true => rfl
    | false =>
      rw [if_neg Bool.false_ne_true, if_neg Bool.false_ne_true, ofDelimiter, hblank,
        if_neg Bool.false_ne_true]

theorem ofRuns_blankOut {run : Run} {rest : List (LocatedChar × Run)}
    (hrest : ∀ pair ∈ rest, Text.isWordChar pair.1.char = false) :
    ofRuns run (rest.map fun (delimiter, run) => (delimiter.blankOut chosen, run)) =
      (ofRuns run rest).withoutStrays chosen := by
  induction rest generalizing run with
  | nil => rfl
  | cons pair rest ih =>
    obtain ⟨delimiter, next⟩ := pair
    rw [List.map_cons, ofRuns, ofRuns, withoutStrays_andThen, withoutStrays_andThen,
      ih fun pair hpair => hrest pair (List.mem_cons_of_mem _ hpair),
      ofDelimiter_blankOut chosen (hrest _ List.mem_cons_self)]
    rfl

/-- Spaces in the place of stray characters take away the reports of these characters. -/
theorem ofLine_blankOut (line : List LocatedChar) :
    ofLine (line.map (LocatedChar.blankOut chosen)) = (ofLine line).withoutStrays chosen := by
  unfold ofLine
  rw [LineRuns.ofLine_blankOut]
  exact ofRuns_blankOut chosen (LineRuns.isWordChar_delimiter line)

theorem report_withoutStrays {scan : LineScan}
    (h : ∀ issue, scan.result = .error issue → issue.isStrayAt chosen = false) :
    (scan.withoutStrays chosen).report =
      scan.report.filter fun issue => !issue.isStrayAt chosen := by
  obtain ⟨issues, result⟩ := scan
  cases result with
  | ok tokens => rfl
  | error issue =>
    show issues.filter _ ++ [issue] = (issues ++ [issue]).filter _
    rw [List.filter_append, List.filter_singleton, h issue rfl]
    rfl

/-- What ends the scan of a line is a malformed word. -/
theorem isStrayAt_of_error {start : Position} {line : List Char} {issue : Issue}
    (h : (describedScan start line).result = .error issue) : issue.isStrayAt chosen = false := by
  rw [describedScan] at h
  cases hrun : malformedRun? line with
  | none =>
    rw [hrun] at h
    cases h
  | some run =>
    rw [hrun] at h
    obtain rfl := Except.error.inj h
    rfl

end LineScan

end Line

/-! ## The lines of a text -/

theorem blankOutChars_append (chosen : Nat → Bool) (xs ys : List Char) :
    blankOutChars chosen (xs ++ ys) =
      blankOutChars chosen xs ++ blankOutChars (fun i => chosen (i + xs.length)) ys :=
  List.mapIdx_append

theorem blankOutChars_ne_nil (chosen : Nat → Bool) {text : List Char} (h : text ≠ []) :
    blankOutChars chosen text ≠ [] := List.mapIdx_ne_nil_iff.mpr h

theorem blankOutChars_of_not_stray (chosen : Nat → Bool) {text : List Char}
    (h : ∀ c ∈ text, isStray c = false) : blankOutChars chosen text = text := by
  rw [blankOutChars, List.mapIdx_eq_iff]
  intro i
  cases hi : text[i]? with
  | none => rfl
  | some c =>
    rw [Option.map_some, h c (List.mem_of_getElem? hi), Bool.false_and,
      if_neg Bool.false_ne_true]

theorem blankOutChars_congr {chosen other : Nat → Bool} {text : List Char}
    (h : ∀ i c, text[i]? = some c → isStray c = true → chosen i = other i) :
    blankOutChars chosen text = blankOutChars other text := by
  rw [blankOutChars, blankOutChars, List.mapIdx_eq_mapIdx_iff]
  intro i hi
  cases hstray : isStray text[i] with
  | false => rw [Bool.false_and, Bool.false_and]
  | true => rw [h i text[i] (List.getElem?_eq_getElem hi) hstray]

/-- Line breaks are no stray characters, and spaces are no line breaks. -/
theorem isLineBreak_blankOut (c : Char) (chosen : Bool) :
    Text.isLineBreak (if isStray c && chosen then ' ' else c) = Text.isLineBreak c := by
  split
  · rename_i h
    rw [isLineBreak_of_isStray (Bool.and_eq_true_iff.mp h).1]
    decide
  · rfl

theorem unbroken_blankOutChars (chosen : Nat → Bool) {line : List Char}
    (hline : ∀ c ∈ line, Text.isLineBreak c = false) :
    ∀ c ∈ blankOutChars chosen line, Text.isLineBreak c = false := by
  intro c hc
  rw [blankOutChars, List.mapIdx_eq_zipIdx_map] at hc
  obtain ⟨⟨a, i⟩, hmem, rfl⟩ := List.mem_map.mp hc
  rw [isLineBreak_blankOut]
  exact hline a (List.fst_mem_of_mem_zipIdx hmem)

theorem isBreakBefore_blankOutChars (chosen : Nat → Bool) {rest brk : List Char}
    (h : Text.IsBreakBefore rest brk) : Text.IsBreakBefore (blankOutChars chosen rest) brk := by
  cases h with
  | pair => exact .pair
  | single hbreak halone =>
    refine .single hbreak ?_
    rintro ⟨rfl, hhead⟩
    cases rest with
    | nil => cases hhead
    | cons c cs =>
      rw [blankOutChars, List.mapIdx_cons, List.head?_cons, Option.some.injEq] at hhead
      split at hhead
      · cases hhead
      · exact halone ⟨rfl, congrArg some hhead⟩

section Text

variable (chosen : Place → Bool) (file : String)

/-- Up to the texts of lines, it makes no difference whether characters are replaced before they are
located or behind. -/
theorem locate_blankOutChars {byIndex : Nat → Bool} {line : List Char} {start moved : Position}
    (hmoved : moved.withoutText = start.withoutText)
    (hindex : ∀ i < line.length, byIndex i = chosen (start.advance i).toPlace) :
    (LocatedChar.locate moved (blankOutChars byIndex line)).map
        (LocatedChar.relocate Position.withoutText) =
      ((LocatedChar.locate start line).map (LocatedChar.blankOut chosen)).map
        (LocatedChar.relocate Position.withoutText) := by
  induction line generalizing byIndex start moved with
  | nil => rfl
  | cons c cs ih =>
    have hhead : byIndex 0 = chosen start.toPlace := by
      rw [hindex 0 (Nat.zero_lt_succ _), Position.advance_zero]
    have hnext : moved.next.withoutText = start.next.withoutText :=
      congrArg Position.next hmoved
    have htail : ∀ i < cs.length, byIndex (i + 1) = chosen (start.next.advance i).toPlace := by
      intro i hi
      rw [hindex (i + 1) (Nat.succ_lt_succ hi), Position.advance_succ]
    rw [blankOutChars, List.mapIdx_cons, LocatedChar.locate, LocatedChar.locate, List.map_cons,
      List.map_cons, List.map_cons, ← blankOutChars, ih hnext htail, hhead]
    congr 1
    rw [LocatedChar.blankOut]
    cases isStray c && chosen start.toPlace <;>
      exact congrArg (LocatedChar.mk _) hmoved

theorem locate_blankOutChars_line (before : Nat) {line : List Char} (more : List Char)
    (hline : ∀ c ∈ line, Text.isLineBreak c = false) (moved : String) :
    (LocatedChar.locate ⟨⟨file, before + 1, 1⟩, moved⟩ (blankOutChars
        (fun i => chosen (endPlace file before ((line ++ more).take (i + 1)))) line)).map
        (LocatedChar.relocate Position.withoutText) =
      ((LocatedChar.locate ⟨⟨file, before + 1, 1⟩, String.ofList line⟩ line).map
        (LocatedChar.blankOut chosen)).map (LocatedChar.relocate Position.withoutText) := by
  apply locate_blankOutChars chosen
  · rfl
  · intro i hi
    rw [endPlace_take_line file before hline hi, Int.add_comm (i : Int)]
    rfl

/-- Replacing the characters of a text is replacing the characters of its lines. -/
theorem locateLines_blankOutChars (before : Nat) (text : List Char) :
    (locateLines file (before + 1) (Text.splitLines
        (blankOutChars (fun i => chosen (endPlace file before (text.take (i + 1)))) text))).map
        (List.map (LocatedChar.relocate Position.withoutText)) =
      (locateLines file (before + 1) (Text.splitLines text)).map fun line =>
        (line.map (LocatedChar.blankOut chosen)).map
          (LocatedChar.relocate Position.withoutText) := by
  induction text using Text.lines_induction generalizing before with
  | unbroken line hline =>
    cases line with
    | nil => rfl
    | cons c cs =>
      have h := locate_blankOutChars_line chosen file before [] hline
      rw [List.append_nil] at h
      rw [Text.splitLines_of_unbroken hline, if_neg (List.cons_ne_nil c cs),
        Text.splitLines_of_unbroken (unbroken_blankOutChars _ hline),
        if_neg (blankOutChars_ne_nil _ (List.cons_ne_nil c cs))]
      exact congrArg (fun row => [row]) (h _)
  | broken line brk rest hline hbreak ih =>
    have hbrk : ∀ c ∈ brk, isStray c = false := by
      intro c hc
      rw [isStray, Text.isBlank_of_isLineBreak (Text.isLineBreak_of_mem_break hbreak c hc),
        Bool.not_true, Bool.and_false]
    have hrest : blankOutChars (fun i => chosen (endPlace file before
          ((line ++ (brk ++ rest)).take (i + brk.length + line.length + 1)))) rest =
        blankOutChars (fun i => chosen (endPlace file (before + 1) (rest.take (i + 1)))) rest := by
      apply blankOutChars_congr
      intro i c hi _
      rw [← endPlace_take_line_break file before hline hbreak (List.getElem?_eq_some_iff.mp hi).1,
        show i + brk.length + line.length = line.length + brk.length + i by omega]
    rw [blankOutChars_append, blankOutChars_append, blankOutChars_of_not_stray _ hbrk, hrest,
      Text.splitLines_line_break (unbroken_blankOutChars _ hline)
        (isBreakBefore_blankOutChars _ hbreak),
      Text.splitLines_line_break hline hbreak, locateLines, locateLines, List.map_cons,
      List.map_cons]
    congr 1
    · exact locate_blankOutChars_line chosen file before (brk ++ rest) hline _
    · exact ih (before + 1)

end Text

/-! ## Lexing with spaces in the place of stray characters -/

/-- The place is that of a stray character of the text that is chosen by its index. -/
def isReplaced (chosen : Nat → Bool) (file : String) (text : List Char) (place : Place) : Bool :=
  (List.range text.length).any fun i =>
    text[i]?.any isStray && chosen i && endPlace file 0 (text.take (i + 1)) = place

theorem isReplaced_endPlace (chosen : Nat → Bool) (file : String) {text : List Char} {i : Nat}
    {c : Char} (hi : text[i]? = some c) (hc : isStray c = true) :
    isReplaced chosen file text (endPlace file 0 (text.take (i + 1))) = chosen i := by
  rw [Bool.eq_iff_iff, isReplaced, List.any_eq_true]
  constructor
  · rintro ⟨j, -, hj⟩
    rw [Bool.and_eq_true, Bool.and_eq_true, Option.any_eq_true, decide_eq_true_eq] at hj
    obtain ⟨⟨⟨d, hd, hstray⟩, hchosen⟩, hplace⟩ := hj
    rw [← eq_of_endPlace_eq file 0 hd hi (isLineBreak_of_isStray hstray)
      (isLineBreak_of_isStray hc) hplace]
    exact hchosen
  · intro hchosen
    refine ⟨i, List.mem_range.mpr (List.getElem?_eq_some_iff.mp hi).1, ?_⟩
    rw [hi, Option.any_some, hc, hchosen, decide_eq_true rfl]
    rfl

section Lex

variable (chosen : Nat → Bool) (file text : String)

theorem lineScans_blankOut :
    (lineScans file (blankOut chosen text)).map (LineScan.relocate Position.withoutText) =
      (lineScans file text).map fun scan =>
        (scan.withoutStrays (isReplaced chosen file text.toList)).relocate
          Position.withoutText := by
  have hchars : blankOutChars chosen text.toList =
      blankOutChars (fun i => isReplaced chosen file text.toList
        (endPlace file 0 (text.toList.take (i + 1)))) text.toList := by
    apply blankOutChars_congr
    intro i c hi hc
    rw [isReplaced_endPlace chosen file hi hc]
  have hlines := locateLines_blankOutChars (isReplaced chosen file text.toList) file 0 text.toList
  rw [← hchars] at hlines
  have hscans := congrArg (List.map LineScan.ofLine) hlines
  rw [List.map_map, List.map_map] at hscans
  rw [lineScans, sourceLines, blankOut, String.toList_ofList, lineScans, sourceLines, List.map_map,
    List.map_map]
  refine Eq.trans ?_ (hscans.trans ?_)
  · apply List.map_congr_left
    intro line _
    exact (LineScan.ofLine_relocate _ line).symm
  · apply List.map_congr_left
    intro line _
    rw [Function.comp_apply, LineScan.ofLine_relocate, LineScan.ofLine_blankOut]
    rfl

theorem tokens_blankOut :
    (lex file (blankOut chosen text)).tokens.map (Token.relocate Position.withoutText) =
      (lex file text).tokens.map (Token.relocate Position.withoutText) := by
  have h := congrArg (List.flatMap LineScan.tokens) (lineScans_blankOut chosen file text)
  rw [List.flatMap_map, List.flatMap_map] at h
  simp only [LineScan.tokens_relocate] at h
  rw [← List.map_flatMap, ← List.map_flatMap] at h
  rw [tokens_lex_eq_flatMap, tokens_lex_eq_flatMap]
  exact h

theorem issues_blankOut :
    (lex file (blankOut chosen text)).issues.map (Issue.relocate Position.withoutText) =
      ((lex file text).issues.filter fun issue =>
        !issue.isStrayAt (isReplaced chosen file text.toList)).map
        (Issue.relocate Position.withoutText) := by
  have hreport : (lineScans file text).flatMap (fun scan =>
        (scan.withoutStrays (isReplaced chosen file text.toList)).report) =
      ((lineScans file text).flatMap LineScan.report).filter fun issue =>
        !issue.isStrayAt (isReplaced chosen file text.toList) := by
    rw [List.filter_flatMap, lineScans_eq, List.flatMap_map, List.flatMap_map]
    congr 1
    funext line
    exact LineScan.report_withoutStrays _ fun issue h => LineScan.isStrayAt_of_error _ h
  have h := congrArg (List.flatMap LineScan.report) (lineScans_blankOut chosen file text)
  rw [List.flatMap_map, List.flatMap_map] at h
  simp only [LineScan.report_relocate] at h
  rw [← List.map_flatMap, ← List.map_flatMap, hreport] at h
  rw [issues_lex_eq_flatMap, issues_lex_eq_flatMap]
  exact h

end Lex

/-! ## Strays behind malformed words -/

theorem mem_strays {chars : List Char} {c : Char} {column : Nat} :
    (c, column) ∈ strays chars ↔ chars[column]? = some c ∧ isStray c = true := by
  rw [strays, List.mem_filter, List.mem_zipIdx_iff_getElem?]

/-- No malformed run starts further to the left than the one that ends the scan. -/
theorem first_le_of_malformedRun? {line : List Char} {first run : Stretch}
    (h : malformedRun? line = some first) (hrun : run ∈ wordRuns line)
    (hmalformed : run.isMalformed line = true) : first.first ≤ run.first := by
  obtain ⟨-, left, right, hruns, hleft⟩ := List.find?_eq_some_iff_append.mp h
  have hsorted := pairwise_wordRuns line
  rw [hruns] at hrun hsorted
  rcases List.mem_append.mp hrun with hmem | hmem
  · have hnot := hleft run hmem
    rw [hmalformed] at hnot
    cases hnot
  · rcases List.mem_cons.mp hmem with rfl | hmem
    · exact Nat.le_refl _
    · have hbefore := (List.pairwise_cons.mp (List.pairwise_append.mp hsorted).2.1).1 run hmem
      unfold Stretch.Before at hbefore
      omega

/-- Something is reported at a stray character unless a malformed word stands in front of it. -/
theorem exists_mem_lineIssues_iff {start : Position} {chars : List Char} {column : Nat} {c : Char}
    (hchar : chars[column]? = some c) (hstray : isStray c = true) :
    (∃ issue ∈ lineIssues start chars,
        issue.place? = some (start.advance column).toPlace) ↔
      ¬ ∃ run ∈ wordRuns chars, run.isMalformed chars = true ∧ run.first < column := by
  have hplace : ∀ m n : Nat, (start.advance m).toPlace = (start.advance n).toPlace → m = n := by
    intro m n h
    have hcolumn : start.column + m = start.column + n := congrArg Place.column h
    omega
  have hmem := mem_strays.mpr ⟨hchar, hstray⟩
  rw [lineIssues]
  cases hrun : malformedRun? chars with
  | none =>
    constructor
    · rintro - ⟨run, hmem, hmalformed, -⟩
      exact List.find?_eq_none.mp hrun run hmem hmalformed
    · intro _
      exact ⟨_, List.mem_map_of_mem hmem, rfl⟩
  | some first =>
    constructor
    · rintro ⟨issue, hissue, hat⟩ ⟨run, hmem, hmalformed, hlt⟩
      have hle := first_le_of_malformedRun? hrun hmem hmalformed
      rcases List.mem_append.mp hissue with hissue | hissue
      · obtain ⟨stray, hstray, rfl⟩ := List.mem_map.mp hissue
        have hcolumn := hplace _ _ (Option.some.inj hat)
        have hfirst := of_decide_eq_true (List.mem_filter.mp hstray).2
        omega
      · rw [List.mem_singleton.mp hissue] at hat
        have hcolumn := hplace _ _ (Option.some.inj hat)
        omega
    · intro hnone
      have hmalformed := List.find?_some hrun
      have hge : ¬ first.first < column := fun hlt =>
        hnone ⟨first, malformedRun?_eq_some hrun, hmalformed, hlt⟩
      -- A malformed word starts with a digit, which is no stray character.
      have hne : first.first ≠ column := by
        intro heq
        rw [Stretch.isMalformed, heq, hchar, Option.any_some] at hmalformed
        rw [isStray_iff, Text.isWordChar_of_isDigit hmalformed] at hstray
        cases hstray.1
      refine ⟨_, List.mem_append_left _ (List.mem_map_of_mem (List.mem_filter.mpr ⟨hmem, ?_⟩)), rfl⟩
      rw [decide_eq_true_eq]
      dsimp only
      omega

theorem exists_issue_iff {file text : String} {k column : Nat} {chars : List Char} {c : Char}
    (hline : (Text.splitLines text.toList)[k]? = some chars) (hchar : chars[column]? = some c)
    (hstray : isStray c = true) :
    (∃ issue ∈ (lex file text).issues, issue.place? = some ⟨file, k + 1, column + 1⟩) ↔
      ¬ ∃ run ∈ wordRuns chars, run.isMalformed chars = true ∧ run.first < column := by
  obtain ⟨hk, hget⟩ := List.getElem?_eq_some_iff.mp hline
  have hlines : Text.splitLines text.toList =
      (Text.splitLines text.toList).take k ++
        chars :: (Text.splitLines text.toList).drop (k + 1) := by
    rw [← hget, List.getElem_cons_drop, List.take_append_drop]
  have hissues := issues_of_line hlines file
  rw [List.length_take_of_le (Nat.le_of_lt hk)] at hissues
  have hplace : ((⟨⟨file, k + 1, 1⟩, String.ofList chars⟩ : Position).advance column).toPlace =
      ⟨file, k + 1, column + 1⟩ := by
    rw [Int.add_comm (column : Int)]
    rfl
  rw [← exists_mem_lineIssues_iff hchar hstray, ← hissues, hplace]
  constructor
  · rintro ⟨issue, hissue, hat⟩
    refine ⟨issue, List.mem_filter.mpr ⟨hissue, ?_⟩, hat⟩
    rw [decide_eq_true_eq, Issue.line?, hat]
    rfl
  · rintro ⟨issue, hissue, hat⟩
    exact ⟨issue, List.mem_of_mem_filter hissue, hat⟩

/-! ## Texts without stray characters -/

theorem malformedWord_of_mem_lex {file text : String}
    (hstray : ∀ c ∈ text.toList, isStray c = false) :
    ∀ issue ∈ (lex file text).issues, ∃ word, issue.problem = .malformedWord word := by
  intro issue hissue
  rw [issues_lex] at hissue
  obtain ⟨⟨line, number⟩, hline, hmem⟩ := List.mem_flatMap.mp hissue
  have hnone : strays line = [] := by
    rw [strays, List.filter_eq_nil_iff]
    intro stray hzip
    rw [hstray _ (Text.of_mem_splitLines (List.fst_mem_of_mem_zipIdx hline)
      (List.fst_mem_of_mem_zipIdx hzip)).1]
    exact Bool.false_ne_true
  rw [lineIssues] at hmem
  dsimp only at hmem
  rw [hnone] at hmem
  cases hrun : malformedRun? line with
  | none =>
    rw [hrun] at hmem
    cases hmem
  | some run =>
    rw [hrun] at hmem
    rw [List.mem_singleton.mp hmem]
    exact ⟨_, rfl⟩

theorem isStray_blankOut_all (text : String) :
    ∀ c ∈ (blankOut (fun _ => true) text).toList, isStray c = false := by
  intro c hc
  rw [blankOut, String.toList_ofList, blankOutChars, List.mapIdx_eq_zipIdx_map] at hc
  obtain ⟨⟨a, i⟩, -, rfl⟩ := List.mem_map.mp hc
  dsimp only
  cases ha : isStray a with
  | true => rfl
  | false => exact ha

/-- Spaces in the place of stray characters change no token and no issue, up to the texts of the
lines, and take away exactly what is reported of these characters.  Each of them has a place of its
own, and nothing is reported there if a malformed word stands in front of it on its line.  Without
stray characters, all that is reported are malformed words. -/
theorem lex_blankOut (chosen : Nat → Bool) (file text : String) :
    (lex file (blankOut chosen text)).tokens.map (Token.relocate Position.withoutText) =
        (lex file text).tokens.map (Token.relocate Position.withoutText) ∧
      (freshLog file (blankOut chosen text)).issues.map (Issue.relocate Position.withoutText) =
        ((freshLog file text).issues.filter fun issue =>
          !issue.isStrayAt (isReplaced chosen file text.toList)).map
          (Issue.relocate Position.withoutText) ∧
      (∀ (i : Nat) (c : Char), text.toList[i]? = some c → isStray c = true →
        ∃ (k j : Nat) (chars : List Char),
          (Text.splitLines text.toList)[k]? = some chars ∧ chars[j]? = some c ∧
          endPlace file 0 (text.toList.take (i + 1)) = ⟨file, k + 1, j + 1⟩ ∧
          isReplaced chosen file text.toList ⟨file, k + 1, j + 1⟩ = chosen i ∧
          ((∃ issue ∈ (freshLog file text).issues,
              issue.place? = some ⟨file, k + 1, j + 1⟩) ↔
            ¬ ∃ run ∈ wordRuns chars, run.isMalformed chars = true ∧ run.first < j)) ∧
      ∀ issue ∈ (freshLog file (blankOut (fun _ => true) text)).issues,
        ∃ word, issue.problem = .malformedWord word := by
  rw [issues_freshLog, issues_freshLog, issues_freshLog]
  refine ⟨tokens_blankOut chosen file text, issues_blankOut chosen file text, ?_,
    malformedWord_of_mem_lex (isStray_blankOut_all text)⟩
  intro i c hi hc
  obtain ⟨pieces, hcut⟩ := Text.exists_isCut text.toList
  obtain ⟨k, j, piece, hpiece, hchar, -, hplace⟩ :=
    hcut.exists_place file 0 hi (isLineBreak_of_isStray hc)
  have hline : (Text.splitLines text.toList)[k]? = some piece.line := by
    rw [Text.splitLines_of_isCut hcut, List.getElem?_map, hpiece]
    rfl
  rw [Int.natCast_zero, Int.zero_add] at hplace
  refine ⟨k, j, piece.line, hline, hchar, hplace, ?_, exists_issue_iff hline hchar hc⟩
  rw [← hplace]
  exact isReplaced_endPlace chosen file hi hc

/-- The first plus sign stands behind a malformed word, and the second one is reported until there
is a space in its place. -/
theorem lex_blankOut_plus :
    blankOut (fun i => i = 4) "9+\na+b" = "9+\na b" ∧
      ("9+\na+b".toList[1]? = some '+' ∧ isStray '+' = true) ∧
      (¬ ∃ issue ∈ (freshLog "a.l" "9+\na+b").issues, issue.place? = some ⟨"a.l", 1, 2⟩) ∧
      (freshLog "a.l" "9+\na b").issues.map (Issue.relocate Position.withoutText) =
        ((freshLog "a.l" "9+\na+b").issues.filter fun issue =>
          !issue.isStrayAt (isReplaced (fun i => i = 4) "a.l" "9+\na+b".toList)).map
          (Issue.relocate Position.withoutText) := by
  have hblank : blankOut (fun i => i = 4) "9+\na+b" = "9+\na b" := by decide
  have hchar : "9+\na+b".toList[1]? = some '+' := by decide
  have hstray : isStray '+' = true := by decide
  obtain ⟨-, hissues, hplaces, -⟩ := lex_blankOut (fun i => i = 4) "a.l" "9+\na+b"
  rw [hblank] at hissues
  refine ⟨hblank, ⟨hchar, hstray⟩, ?_, hissues⟩
  obtain ⟨k, j, line, hline, -, hplace, -, hreported⟩ := hplaces 1 '+' hchar hstray
  have hend : endPlace "a.l" 0 ("9+\na+b".toList.take 2) = ⟨"a.l", 1, 2⟩ := by decide
  rw [hend, Place.mk.injEq] at hplace
  obtain rfl : k = 0 := by omega
  obtain rfl : j = 1 := by omega
  obtain rfl : ['9', '+'] = line := Option.some.inj hline
  intro hexists
  refine hreported.mp hexists ?_
  decide

end WordLexer
