import WordLexer.Proofs.IssueOrder
import WordLexer.Proofs.LineReport
import WordLexer.Session

/-!
# What a text is reported as

A text is reported line by line: the tokens of its lines one after the other (`tokens_lex`), and the
issues of its lines one after the other (`issues_lex`).  The tokens do not depend on the log.  The
issues are sorted into the log, and are in order already when they are met (`pairwise_textIssues`).
-/

namespace WordLexer

/-! ## The description -/

/-- The tokens of a line whose first column is at `start`: one for every word run, but none at all
if some run is malformed. -/
def lineTokens (start : Position) (line : List Char) : List Token :=
  if ∃ run ∈ wordRuns line, run.isMalformed line = true then []
  else (wordRuns line).map (·.token start line)

/-- The issues of a line: its stray characters up to the first malformed run, and then that run. -/
def lineIssues (start : Position) (line : List Char) : List Issue :=
  match malformedRun? line with
  | none => (strays line).map (strayIssue start)
  | some run =>
    ((strays line).filter (·.2 < run.first)).map (strayIssue start) ++ [run.issue start line]

/-- The lines of a text with their numbers. -/
def numberedLines (text : String) : List (List Char × Nat) :=
  (Text.splitLines text.toList).zipIdx 1

def lineStart (file : String) (line : List Char × Nat) : Position :=
  ⟨⟨file, line.2, 1⟩, String.ofList line.1⟩

def textTokens (file text : String) : List Token :=
  (numberedLines text).flatMap fun line => lineTokens (lineStart file line) line.1

def textIssues (file text : String) : List Issue :=
  (numberedLines text).flatMap fun line => lineIssues (lineStart file line) line.1

/-! ## Lines -/

theorem tokens_describedScan (start : Position) (line : List Char) :
    (describedScan start line).tokens = lineTokens start line := by
  rw [describedScan, lineTokens]
  cases h : malformedRun? line with
  | none =>
    rw [malformedRun?, List.find?_eq_none] at h
    rw [if_neg]
    · rfl
    · rintro ⟨run, hrun, hmalformed⟩
      exact h run hrun hmalformed
  | some run =>
    rw [if_pos ⟨run, malformedRun?_eq_some h, List.find?_some h⟩]
    rfl

theorem report_describedScan (start : Position) (line : List Char) :
    (describedScan start line).report = lineIssues start line := by
  rw [describedScan, lineIssues]
  cases malformedRun? line <;> rfl

theorem locateLines_eq_map (file : String) (number : Nat) (lines : List (List Char)) :
    locateLines file number lines =
      (lines.zipIdx number).map fun line => LocatedChar.locate (lineStart file line) line.1 := by
  induction lines generalizing number with
  | nil => rfl
  | cons line lines ih =>
    rw [locateLines, List.zipIdx_cons, List.map_cons, ← ih]
    rfl

/-! ## Texts -/

/-- The scans of the lines of a text. -/
def lineScans (file text : String) : List LineScan := (sourceLines file text).map LineScan.ofLine

theorem tokens_lex_eq_flatMap (file text : String) :
    (lex file text).tokens = (lineScans file text).flatMap LineScan.tokens := rfl

theorem issues_lex_eq_flatMap (file text : String) :
    (lex file text).issues = (lineScans file text).flatMap LineScan.report := rfl

theorem lineScans_eq (file text : String) :
    lineScans file text =
      (numberedLines text).map fun line => describedScan (lineStart file line) line.1 := by
  rw [lineScans, sourceLines, show (1 : Int) = ((1 : Nat) : Int) from rfl, locateLines_eq_map,
    List.map_map]
  apply List.map_congr_left
  intro line _
  exact LineScan.ofLine_locate (lineStart file line) line.1

theorem tokens_lex (file text : String) : (lex file text).tokens = textTokens file text := by
  rw [tokens_lex_eq_flatMap, lineScans_eq, List.flatMap_map, textTokens]
  simp only [tokens_describedScan]

theorem issues_lex (file text : String) : (lex file text).issues = textIssues file text := by
  rw [issues_lex_eq_flatMap, lineScans_eq, List.flatMap_map, textIssues]
  simp only [report_describedScan]

/-! ## The order of the issues -/

/-- Both issues are in a file, and the first one starts on an earlier line, or further to the left
on the same line. -/
def Issue.PrecedesIn (file : String) (a b : Issue) : Prop :=
  ∃ p q : Place, a.place? = some p ∧ b.place? = some q ∧ p.file = file ∧ q.file = file ∧
    (p.line < q.line ∨ p.line = q.line ∧ p.column < q.column)

theorem Issue.PrecedesIn.precedes {file : String} {a b : Issue} (h : a.PrecedesIn file b) :
    a.Precedes b := by
  obtain ⟨p, q, hp, hq, hpfile, hqfile, hlt⟩ := h
  rw [Precedes, hp, hq]
  exact .inr ⟨hpfile.trans hqfile.symm, hlt⟩

theorem place?_of_mem_lineIssues {start : Position} {line : List Char} {issue : Issue}
    (h : issue ∈ lineIssues start line) :
    ∃ column : Nat, issue.place? = some (start.advance column).toPlace := by
  rw [lineIssues] at h
  split at h
  · obtain ⟨stray, _, rfl⟩ := List.mem_map.mp h
    exact ⟨stray.2, rfl⟩
  · rcases List.mem_append.mp h with h | h
    · obtain ⟨stray, _, rfl⟩ := List.mem_map.mp h
      exact ⟨stray.2, rfl⟩
    · rw [List.mem_singleton.mp h]
      exact ⟨_, rfl⟩

theorem pairwise_strays (line : List Char) : (strays line).Pairwise fun a b => a.2 < b.2 := by
  apply List.Pairwise.filter
  have h : (line.zipIdx.map Prod.snd).Pairwise (· < ·) := by
    rw [List.zipIdx_map_snd]
    exact List.pairwise_lt_range'
  exact List.pairwise_map.mp h

theorem precedesIn_of_column_lt {file : String} {start : Position} {a b : Issue} {m n : Nat}
    (hfile : start.file = file) (ha : a.place? = some (start.advance m).toPlace)
    (hb : b.place? = some (start.advance n).toPlace) (hlt : m < n) : a.PrecedesIn file b :=
  ⟨_, _, ha, hb, hfile, hfile, .inr ⟨rfl, Int.add_lt_add_left (Int.ofNat_lt.mpr hlt) _⟩⟩

theorem pairwise_lineIssues {file : String} {start : Position} (line : List Char)
    (hfile : start.file = file) : (lineIssues start line).Pairwise (Issue.PrecedesIn file) := by
  rw [lineIssues]
  split
  · rw [List.pairwise_map]
    exact (pairwise_strays line).imp fun hlt => precedesIn_of_column_lt hfile rfl rfl hlt
  · rw [List.pairwise_append]
    refine ⟨?_, List.pairwise_singleton _ _, ?_⟩
    · rw [List.pairwise_map]
      apply ((pairwise_strays line).filter _).imp
      exact fun hlt => precedesIn_of_column_lt hfile rfl rfl hlt
    · intro a ha b hb
      obtain ⟨stray, hstray, rfl⟩ := List.mem_map.mp ha
      rw [List.mem_singleton.mp hb]
      have hlt := of_decide_eq_true (List.mem_filter.mp hstray).2
      exact precedesIn_of_column_lt hfile rfl rfl hlt

theorem pairwise_textIssues (file text : String) :
    (textIssues file text).Pairwise (Issue.PrecedesIn file) := by
  have hnumbers : (numberedLines text).Pairwise fun a b => a.2 < b.2 := by
    have h : ((numberedLines text).map Prod.snd).Pairwise (· < ·) := by
      rw [numberedLines, List.zipIdx_map_snd]
      exact List.pairwise_lt_range'
    exact List.pairwise_map.mp h
  rw [textIssues, List.pairwise_flatMap]
  refine ⟨fun line _ => pairwise_lineIssues line.1 rfl, hnumbers.imp ?_⟩
  -- Issues of different lines are told apart by the numbers of the lines.
  intro first second hlt a ha b hb
  obtain ⟨m, hm⟩ := place?_of_mem_lineIssues ha
  obtain ⟨n, hn⟩ := place?_of_mem_lineIssues hb
  exact ⟨_, _, hm, hn, rfl, rfl, .inl (Int.ofNat_lt.mpr hlt)⟩

/-- Issues of one file that start further and further on need no sorting. -/
theorem stableSort_of_pairwise {file : String} {issues : List Issue}
    (h : issues.Pairwise (Issue.PrecedesIn file)) : stableSort issues = issues := by
  apply List.mergeSort_of_pairwise
  apply h.imp
  intro a b hab
  rw [decide_eq_true_eq]
  exact le_of_lt (Issue.precedes_iff_sortKey_lt.mp hab.precedes)

theorem stableSort_textIssues (file text : String) :
    stableSort (textIssues file text) = textIssues file text :=
  stableSort_of_pairwise (pairwise_textIssues file text)

theorem IssueLog.issues_recordAll_empty {file : String} {issues : List Issue}
    (h : issues.Pairwise (Issue.PrecedesIn file)) :
    (IssueLog.empty.recordAll issues).issues = issues := by
  rw [issues_recordAll, show IssueLog.empty.issues ++ issues = issues from rfl,
    stableSort_of_pairwise h]

/-- The log of a text that is lexed with an empty log. -/
def freshLog (file text : String) : IssueLog := IssueLog.empty.recordAll (lex file text).issues

theorem issues_freshLog (file text : String) :
    (freshLog file text).issues = (lex file text).issues := by
  apply IssueLog.issues_recordAll_empty
  rw [issues_lex]
  exact pairwise_textIssues file text

/-! ## The answer to a text -/

/-- A text has the tokens that it is described to have, whatever the log holds. -/
theorem reply_lexText (machine : Machine) (disk : Disk) (log : IssueLog) (file text : String) :
    (Session.answer machine disk log (.lexText file text)).1 =
      .lexedText (textTokens file text) := by
  rw [← tokens_lex]
  rfl

/-- The issues of a text are sorted into the log.  They start further and further on, so an empty
log takes them as they come. -/
theorem log_lexText (machine : Machine) (disk : Disk) (log : IssueLog) (file text : String) :
    (Session.answer machine disk log (.lexText file text)).2.issues =
        stableSort (log.issues ++ textIssues file text) ∧
      (textIssues file text).Pairwise (Issue.PrecedesIn file) ∧
      (Session.answer machine disk .empty (.lexText file text)).2.issues =
        textIssues file text := by
  have hlog : ∀ log : IssueLog,
      (Session.answer machine disk log (.lexText file text)).2.issues =
        stableSort (log.issues ++ textIssues file text) := by
    intro log
    rw [← issues_lex, ← IssueLog.issues_recordAll]
    rfl
  refine ⟨hlog log, pairwise_textIssues file text, ?_⟩
  rw [hlog, show IssueLog.empty.issues ++ textIssues file text = textIssues file text from rfl,
    stableSort_textIssues]

-- The malformed word hides the second plus sign, which is on its line, but not the minus sign.
example : (textIssues "a.l" "x+ 9y +\n-").map Issue.problem =
    [.strayCharacter '+', .malformedWord "9y", .strayCharacter '-'] := by
  decide

end WordLexer
