import WordLexer.Proofs.LineBreaks
import WordLexer.Proofs.Relocation
import WordLexer.Proofs.TextReport

/-!
# Line by line

What is found in a line depends on that line only, and its number is carried along.  So a text that
is put behind another one is lexed as it is on its own, further down (`lineScans_append`), and
whatever one line holds, the rest of the text is lexed in the same way (`lex_line_by_line`).
-/

namespace WordLexer

def Position.down (n : Nat) (p : Position) : Position := { p with line := p.line + n }

/-! ## Texts one behind the other -/

theorem LocatedChar.locate_down (n : Nat) (start : Position) (line : List Char) :
    locate (start.down n) line = (locate start line).map (relocate (Position.down n)) := by
  induction line generalizing start with
  | nil => rfl
  | cons c cs ih =>
    rw [locate, locate, List.map_cons, ← ih start.next]
    rfl

theorem locateLines_down (file : String) (number : Int) (n : Nat) (lines : List (List Char)) :
    locateLines file (number + n) lines =
      (locateLines file number lines).map
        (List.map (LocatedChar.relocate (Position.down n))) := by
  induction lines generalizing number with
  | nil => rfl
  | cons line lines ih =>
    rw [locateLines, locateLines, List.map_cons, ← ih, ← LocatedChar.locate_down,
      Int.add_right_comm]
    rfl

theorem locateLines_append (file : String) (number : Int) (xs ys : List (List Char)) :
    locateLines file number (xs ++ ys) =
      locateLines file number xs ++ locateLines file (number + xs.length) ys := by
  induction xs generalizing number with
  | nil => rw [List.length_nil, Int.natCast_zero, Int.add_zero]; rfl
  | cons x xs ih =>
    rw [List.cons_append, locateLines, ih, locateLines, List.length_cons, Int.natCast_add,
      Int.natCast_one, Int.add_comm (xs.length : Int), ← Int.add_assoc]
    rfl

section Append

variable {file a b : String} (hend : Text.EndsLine a.toList)
  (hcut : ¬ Text.CutsPair a.toList b.toList)

include hend hcut

/-- The second text is scanned as it is on its own, but as many lines further down as the first one
has. -/
theorem lineScans_append :
    lineScans file (a ++ b) =
      lineScans file a ++ (lineScans file b).map
        (LineScan.relocate (Position.down (Text.splitLines a.toList).length)) := by
  rw [lineScans, sourceLines, String.toList_append, Text.splitLines_append hend hcut,
    locateLines_append, locateLines_down, List.map_append, List.map_map]
  congr 1
  rw [lineScans, sourceLines, List.map_map]
  apply List.map_congr_left
  intro line _
  exact LineScan.ofLine_relocate _ line

theorem tokens_append :
    (lex file (a ++ b)).tokens =
      (lex file a).tokens ++ (lex file b).tokens.map
        (Token.relocate (Position.down (Text.splitLines a.toList).length)) := by
  rw [tokens_lex_eq_flatMap, tokens_lex_eq_flatMap, tokens_lex_eq_flatMap,
    lineScans_append hend hcut, List.flatMap_append, List.flatMap_map, List.map_flatMap]
  simp only [LineScan.tokens_relocate]

theorem issues_append :
    (lex file (a ++ b)).issues =
      (lex file a).issues ++ (lex file b).issues.map
        (Issue.relocate (Position.down (Text.splitLines a.toList).length)) := by
  rw [issues_lex_eq_flatMap, issues_lex_eq_flatMap, issues_lex_eq_flatMap,
    lineScans_append hend hcut, List.flatMap_append, List.flatMap_map, List.map_flatMap]
  simp only [LineScan.report_relocate]

end Append

/-! ## One line of a text -/

def Token.line (token : Token) : Int := token.span.first.line

def Issue.line? (issue : Issue) : Option Int := issue.place?.map Place.line

theorem line_of_mem_lineTokens {start : Position} {line : List Char} {token : Token}
    (h : token ∈ lineTokens start line) : token.line = start.line := by
  rw [lineTokens] at h
  split at h
  · cases h
  · obtain ⟨run, _, rfl⟩ := List.mem_map.mp h
    rfl

theorem line?_of_mem_lineIssues {start : Position} {line : List Char} {issue : Issue}
    (h : issue ∈ lineIssues start line) : issue.line? = some start.line := by
  obtain ⟨column, hplace⟩ := place?_of_mem_lineIssues h
  rw [Issue.line?, hplace]
  rfl

/-- Where everything that an item contributes has the key of the item, a choice by keys is a choice
of items. -/
theorem filter_flatMap_of_key {α ι κ : Type} {items : List ι} {f : ι → List α} {key : α → κ}
    (itemKey : ι → κ) (hkey : ∀ i, ∀ x ∈ f i, key x = itemKey i) (p : κ → Bool) :
    (items.flatMap f).filter (fun x => p (key x)) =
      (items.filter fun i => p (itemKey i)).flatMap f := by
  induction items with
  | nil => rfl
  | cons i items ih =>
    rw [List.flatMap_cons, List.filter_append, ih, List.filter_cons]
    cases hp : p (itemKey i) with
    | true =>
      have hall : (f i).filter (fun x => p (key x)) = f i := by
        rw [List.filter_eq_self]
        intro x hx
        rw [hkey i x hx, hp]
      rw [hall, if_pos rfl, List.flatMap_cons]
    | false =>
      have hnone : (f i).filter (fun x => p (key x)) = [] := by
        rw [List.filter_eq_nil_iff]
        intro x hx
        rw [hkey i x hx, hp]
        exact Bool.false_ne_true
      rw [hnone, if_neg Bool.false_ne_true, List.nil_append]

theorem filter_tokens_lex (file text : String) (p : Int → Bool) :
    (lex file text).tokens.filter (fun token => p token.line) =
      ((numberedLines text).filter fun line => p line.2).flatMap fun line =>
        lineTokens (lineStart file line) line.1 := by
  rw [tokens_lex]
  exact filter_flatMap_of_key (fun line : List Char × Nat => (line.2 : Int))
    (fun line token h => line_of_mem_lineTokens h) p

theorem filter_issues_lex (file text : String) (p : Option Int → Bool) :
    (lex file text).issues.filter (fun issue => p issue.line?) =
      ((numberedLines text).filter fun line => p (some line.2)).flatMap fun line =>
        lineIssues (lineStart file line) line.1 := by
  rw [issues_lex]
  exact filter_flatMap_of_key (fun line : List Char × Nat => some (line.2 : Int))
    (fun line issue h => line?_of_mem_lineIssues h) p

section Line

variable {text : String} {before after : List (List Char)} {line : List Char}
  (hlines : Text.splitLines text.toList = before ++ line :: after)

include hlines

theorem numberedLines_eq :
    numberedLines text = before.zipIdx 1 ++
      (line, before.length + 1) :: after.zipIdx (before.length + 2) := by
  rw [numberedLines, hlines, List.zipIdx_append, List.zipIdx_cons, Nat.add_comm 1]

omit hlines in
theorem ne_of_mem_other_lines {entry : List Char × Nat}
    (h : entry ∈ before.zipIdx 1 ++ after.zipIdx (before.length + 2)) :
    (entry.2 : Int) ≠ before.length + 1 := by
  rcases List.mem_append.mp h with h | h
  · have hlt := List.snd_lt_add_of_mem_zipIdx h
    omega
  · have hle := List.le_snd_of_mem_zipIdx h
    omega

theorem filter_numberedLines_ne :
    (numberedLines text).filter (fun entry => (entry.2 : Int) ≠ before.length + 1) =
      before.zipIdx 1 ++ after.zipIdx (before.length + 2) := by
  rw [numberedLines_eq hlines, List.filter_append, List.filter_cons_of_neg (by simp),
    ← List.filter_append, List.filter_eq_self]
  intro entry hentry
  rw [decide_eq_true_eq]
  exact ne_of_mem_other_lines hentry

theorem filter_numberedLines_eq :
    (numberedLines text).filter (fun entry => (entry.2 : Int) = before.length + 1) =
      [(line, before.length + 1)] := by
  have hother : ∀ entry ∈ before.zipIdx 1 ++ after.zipIdx (before.length + 2),
      ¬ decide ((entry.2 : Int) = before.length + 1) = true := by
    intro entry hentry
    rw [decide_eq_true_eq]
    exact ne_of_mem_other_lines hentry
  rw [numberedLines_eq hlines, List.filter_append, List.filter_cons_of_pos (by simp),
    List.filter_eq_nil_iff.mpr fun entry h => hother entry (List.mem_append_left _ h),
    List.filter_eq_nil_iff.mpr fun entry h => hother entry (List.mem_append_right _ h),
    List.nil_append]

/-- What is found in the other lines does not depend on what the line holds. -/
theorem tokens_other_lines (file : String) :
    (lex file text).tokens.filter (fun token => token.line ≠ (before.length + 1 : Int)) =
      (before.zipIdx 1 ++ after.zipIdx (before.length + 2)).flatMap fun line =>
        lineTokens (lineStart file line) line.1 := by
  rw [filter_tokens_lex file text fun number => number ≠ before.length + 1,
    filter_numberedLines_ne hlines]

theorem issues_other_lines (file : String) :
    (lex file text).issues.filter (fun issue => issue.line? ≠ some (before.length + 1 : Int)) =
      (before.zipIdx 1 ++ after.zipIdx (before.length + 2)).flatMap fun line =>
        lineIssues (lineStart file line) line.1 := by
  rw [filter_issues_lex file text fun number? => number? ≠ some (before.length + 1 : Int)]
  simp only [ne_eq, Option.some.injEq]
  rw [← filter_numberedLines_ne hlines]

theorem tokens_of_line (file : String) :
    (lex file text).tokens.filter (fun token => token.line = (before.length + 1 : Int)) =
      lineTokens ⟨⟨file, before.length + 1, 1⟩, String.ofList line⟩ line := by
  rw [filter_tokens_lex file text fun number => number = before.length + 1,
    filter_numberedLines_eq hlines, List.flatMap_singleton]
  rfl

theorem issues_of_line (file : String) :
    (lex file text).issues.filter (fun issue => issue.line? = some (before.length + 1 : Int)) =
      lineIssues ⟨⟨file, before.length + 1, 1⟩, String.ofList line⟩ line := by
  rw [filter_issues_lex file text fun number? => number? = some (before.length + 1 : Int)]
  simp only [Option.some.injEq]
  rw [filter_numberedLines_eq hlines, List.flatMap_singleton]
  rfl

end Line

/-- A text behind another one is lexed as it is on its own, further down, and whatever a line of a
text holds, the other lines are lexed in the same way.  A line with a malformed word has no tokens,
and its issues are those of the line on its own. -/
theorem lex_line_by_line (file : String) :
    (∀ a b : String, Text.EndsLine a.toList → ¬ Text.CutsPair a.toList b.toList →
      (lex file (a ++ b)).tokens =
          (lex file a).tokens ++ (lex file b).tokens.map
            (Token.relocate (Position.down (Text.splitLines a.toList).length)) ∧
        (freshLog file (a ++ b)).issues =
          (freshLog file a).issues ++ (freshLog file b).issues.map
            (Issue.relocate (Position.down (Text.splitLines a.toList).length))) ∧
    ∀ (before after : List (List Char)) (line line' : List Char) (text text' : String),
      Text.splitLines text.toList = before ++ line :: after →
      Text.splitLines text'.toList = before ++ line' :: after →
      (lex file text).tokens.filter (fun token => token.line ≠ (before.length + 1 : Int)) =
          (lex file text').tokens.filter (fun token => token.line ≠ (before.length + 1 : Int)) ∧
        (freshLog file text).issues.filter
            (fun issue => issue.line? ≠ some (before.length + 1 : Int)) =
          (freshLog file text').issues.filter
            (fun issue => issue.line? ≠ some (before.length + 1 : Int)) ∧
        ((∃ run ∈ wordRuns line, run.isMalformed line = true) →
          (lex file text).tokens.filter (fun token => token.line = (before.length + 1 : Int)) =
              [] ∧
            (freshLog file text).issues.filter
                (fun issue => issue.line? = some (before.length + 1 : Int)) =
              lineIssues ⟨⟨file, before.length + 1, 1⟩, String.ofList line⟩ line) := by
  constructor
  · intro a b hend hcut
    rw [issues_freshLog, issues_freshLog, issues_freshLog]
    exact ⟨tokens_append hend hcut, issues_append hend hcut⟩
  · intro before after line line' text text' htext htext'
    rw [issues_freshLog, issues_freshLog]
    refine ⟨?_, ?_, ?_⟩
    · exact (tokens_other_lines htext file).trans (tokens_other_lines htext' file).symm
    · exact (issues_other_lines htext file).trans (issues_other_lines htext' file).symm
    · intro hmalformed
      refine ⟨?_, issues_of_line htext file⟩
      exact (tokens_of_line htext file).trans (if_pos hmalformed)

/-- A text behind a carriage return, and a text whose second line starts with a malformed word. -/
theorem lex_line_by_line_malformed :
    ((lex "a.l" ("x\r" ++ "y\n")).tokens =
      (lex "a.l" "x\r").tokens ++
        (lex "a.l" "y\n").tokens.map (Token.relocate (Position.down 1))) ∧
    (lex "a.l" "x\n1y+\nz").tokens.filter (fun token => token.line ≠ 2) =
      (lex "a.l" "x\n\nz").tokens.filter (fun token => token.line ≠ 2) ∧
    (lex "a.l" "x\n1y+\nz").tokens.filter (fun token => token.line = 2) = [] := by
  obtain ⟨happend, hline⟩ := lex_line_by_line "a.l"
  have hend : Text.EndsLine "x\r".toList := .inr ⟨'\r', by decide, by decide⟩
  have hcut : ¬ Text.CutsPair "x\r".toList "y\n".toList := by
    rintro ⟨_, hhead⟩
    exact absurd hhead (by decide)
  have hmalformed : ∃ run ∈ wordRuns ['1', 'y', '+'], run.isMalformed ['1', 'y', '+'] = true := by
    decide
  obtain ⟨hother, _, hdropped⟩ := hline [['x']] [['z']] ['1', 'y', '+'] []
    "x\n1y+\nz" "x\n\nz" (by decide) (by decide)
  exact ⟨(happend "x\r" "y\n" hend hcut).1, hother, (hdropped hmalformed).1⟩

end WordLexer
