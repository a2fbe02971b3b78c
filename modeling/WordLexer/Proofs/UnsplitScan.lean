import WordLexer.Proofs.LineBreaks
import WordLexer.Proofs.Relocation
import WordLexer.Proofs.TextReport

/-!
# Texts that are scanned in one go

A text can be scanned as if it were a single line, in which line breaks are blanks.  Up to the
positions this is the scan of its lines one after the other (`ofLine_locate_text`).  The two ways
differ at a malformed word only: it ends the scan of the text, but no more than its own line when the
text is lexed (`scan_unsplit`).
-/

namespace WordLexer

namespace LineScan

/-! ## Scans one after the other -/

/-- Scans that go on one after the other until an issue ends one of them. -/
def chain : List LineScan → LineScan
  | [] => nothing
  | scan :: scans => scan.andThen (chain scans)

/-- As long as no issue ends a scan, a chain of scans has the tokens and the issues of all. -/
theorem chain_of_ok {scans : List LineScan} {tokens : List Token}
    (h : (chain scans).result = .ok tokens) :
    scans.flatMap LineScan.tokens = tokens ∧ (chain scans).issues = scans.flatMap report := by
  induction scans generalizing tokens with
  | nil => exact ⟨Except.ok.inj h, rfl⟩
  | cons scan scans ih =>
    obtain ⟨first, rest, hfirst, hrest, rfl⟩ := result_andThen_eq_ok_iff.mp h
    obtain ⟨htokens, hissues⟩ := ih hrest
    constructor
    · rw [List.flatMap_cons, tokens_of_ok hfirst, htokens]
    · rw [chain, issues_andThen_of_ok hfirst, hissues, List.flatMap_cons, report_of_ok hfirst]

/-- What a chain reports is reported by its scans, which may go on when the chain has ended. -/
theorem report_chain (scans : List LineScan) :
    (chain scans).report <+: scans.flatMap report := by
  induction scans with
  | nil => exact List.nil_prefix
  | cons scan scans ih =>
    rw [chain, List.flatMap_cons]
    cases hscan : scan.result with
    | error issue =>
      rw [report_andThen_of_error hscan, report_of_error hscan]
      exact List.prefix_append _ _
    | ok tokens =>
      rw [report_andThen_of_ok hscan, report_of_ok hscan]
      exact (List.prefix_append_right_inj scan.issues).mpr ih

theorem exists_error_chain_iff {scans : List LineScan} :
    (∃ issue, (chain scans).result = .error issue) ↔
      ∃ scan ∈ scans, ∃ issue, scan.result = .error issue := by
  induction scans with
  | nil => simp [chain, nothing]
  | cons scan scans ih => rw [chain, exists_error_andThen_iff, ih, List.exists_mem_cons_iff]

/-! ## Scans without positions -/

/-- How a scan ends, wherever it does so. -/
def outcome (scan : LineScan) : Except Problem (List Lexeme) :=
  match scan.result with
  | .ok tokens => .ok (tokens.map Token.lexeme)
  | .error issue => .error issue.problem

theorem outcome_of_ok {scan : LineScan} {tokens : List Token} (h : scan.result = .ok tokens) :
    scan.outcome = .ok (tokens.map Token.lexeme) := by
  rw [outcome, h]

theorem outcome_of_error {scan : LineScan} {issue : Issue} (h : scan.result = .error issue) :
    scan.outcome = .error issue.problem := by
  rw [outcome, h]

theorem exists_ok_of_outcome {scan : LineScan} {lexemes : List Lexeme}
    (h : scan.outcome = .ok lexemes) :
    ∃ tokens, scan.result = .ok tokens ∧ tokens.map Token.lexeme = lexemes := by
  cases hresult : scan.result with
  | ok tokens => exact ⟨tokens, rfl, Except.ok.inj ((outcome_of_ok hresult).symm.trans h)⟩
  | error issue => cases (outcome_of_error hresult).symm.trans h

theorem exists_error_of_outcome {scan : LineScan} {problem : Problem}
    (h : scan.outcome = .error problem) :
    ∃ issue, scan.result = .error issue ∧ issue.problem = problem := by
  cases hresult : scan.result with
  | ok tokens => cases (outcome_of_ok hresult).symm.trans h
  | error issue => exact ⟨issue, rfl, Except.error.inj ((outcome_of_error hresult).symm.trans h)⟩

theorem exists_error_iff_outcome {scan : LineScan} :
    (∃ issue, scan.result = .error issue) ↔ ∃ problem, scan.outcome = .error problem := by
  constructor
  · rintro ⟨issue, h⟩
    exact ⟨issue.problem, outcome_of_error h⟩
  · rintro ⟨problem, h⟩
    obtain ⟨issue, hresult, _⟩ := exists_error_of_outcome h
    exact ⟨issue, hresult⟩

/-- Scans that differ in positions only have the same problems and end in the same way. -/
theorem same_of_relocate_eq {f : Position → Position} {a b : LineScan}
    (h : a.relocate f = b.relocate f) :
    a.issues.map Issue.problem = b.issues.map Issue.problem ∧ a.outcome = b.outcome := by
  have houtcome : ∀ scan : LineScan, (scan.relocate f).outcome = scan.outcome := by
    rintro ⟨issues, result⟩
    cases result with
    | error issue => rfl
    | ok tokens => exact congrArg Except.ok (Token.map_lexeme_relocate f tokens)
  constructor
  · rw [← Issue.map_problem_relocate f, ← Issue.map_problem_relocate f b.issues]
    exact congrArg (fun scan => scan.issues.map Issue.problem) h
  · rw [← houtcome a, h, houtcome b]

/-- It makes no difference to the words and the problems of a line where it starts. -/
theorem ofLine_locate_moved (p start start' : Position) (line : List Char) :
    (ofLine (LocatedChar.locate start line)).relocate (fun _ => p) =
      (ofLine (LocatedChar.locate start' line)).relocate fun _ => p := by
  -- Once all their characters are moved to one place, the two lines are the same.
  have hline : (LocatedChar.locate start line).map (LocatedChar.relocate fun _ => p) =
      (LocatedChar.locate start' line).map (LocatedChar.relocate fun _ => p) := by
    induction line generalizing start start' with
    | nil => rfl
    | cons c cs ih =>
      rw [LocatedChar.locate, LocatedChar.locate, List.map_cons, List.map_cons,
        ih start.next start'.next]
      rfl
  rw [← ofLine_relocate, ← ofLine_relocate, hline]

/-- A text in one go is scanned as its lines one after the other, if positions do not count. -/
theorem ofLine_locate_text (p start : Position) (file : String) (number : Int)
    (text : List Char) :
    (ofLine (LocatedChar.locate start text)).relocate (fun _ => p) =
      (chain ((locateLines file number (Text.splitLines text)).map ofLine)).relocate
        fun _ => p := by
  induction text using Text.lines_induction generalizing start number with
  | unbroken line hline =>
    rw [Text.splitLines_of_unbroken hline]
    split
    · rename_i hnil
      rw [hnil]
      rfl
    · rw [locateLines, locateLines, List.map_cons, List.map_nil, chain, chain, andThen_nothing]
      exact ofLine_locate_moved p _ _ line
  | broken line brk rest hline hbreak ih =>
    -- A break is a row of blanks, and no run and no token goes across one.
    have hne : LocatedChar.locate (start.advance line.length) brk ≠ [] := by
      cases hbreak <;> simp [LocatedChar.locate]
    have hblank : ∀ c ∈ LocatedChar.locate (start.advance line.length) brk,
        Text.isBlank c.char = true :=
      LocatedChar.forall_locate _ fun c hc =>
        Text.isBlank_of_isLineBreak (Text.isLineBreak_of_mem_break hbreak c hc)
    rw [LocatedChar.locate_append, LocatedChar.locate_append, ofLine_append_blanks _ _ hne hblank,
      Text.splitLines_line_break hline hbreak, locateLines, List.map_cons, chain, andThen_relocate,
      andThen_relocate, ← ih _ (number + 1)]
    rw [ofLine_locate_moved p start ⟨⟨file, number, 1⟩, String.ofList line⟩ line]

/-! ## What is malformed -/

/-- The scan of a line is ended by a malformed word and by nothing else. -/
theorem exists_malformedWord_report_iff (start : Position) (line : List Char) :
    (∃ issue ∈ (describedScan start line).report, ∃ word, issue.problem = .malformedWord word) ↔
      ∃ issue, (describedScan start line).result = .error issue := by
  rw [report_describedScan, lineIssues, describedScan]
  cases malformedRun? line with
  | none => simp [strayIssue]
  | some run => simp [Stretch.issue]

theorem issues_sublist_report (scan : LineScan) : scan.issues.Sublist scan.report := by
  obtain ⟨issues, result⟩ := scan
  cases result with
  | ok tokens => exact .refl issues
  | error issue => exact List.sublist_append_left issues [issue]

theorem pairwise_issues_ofLine (start : Position) (line : List Char) :
    (ofLine (LocatedChar.locate start line)).issues.Pairwise (Issue.PrecedesIn start.file) := by
  apply List.Pairwise.sublist (issues_sublist_report _)
  rw [ofLine_locate, report_describedScan]
  exact pairwise_lineIssues line rfl

end LineScan

/-! ## Texts -/

/-- The scan of a text as if it were a single line. -/
def unsplitScan (start : Position) (text : String) : LineScan :=
  LineScan.ofLine (LocatedChar.locate start text.toList)

section Unsplit

variable (file text : String) (start : Position)

theorem same_chain_lineScans :
    (unsplitScan start text).issues.map Issue.problem =
        (LineScan.chain (lineScans file text)).issues.map Issue.problem ∧
      (unsplitScan start text).outcome =
        (LineScan.chain (lineScans file text)).outcome :=
  LineScan.same_of_relocate_eq (LineScan.ofLine_locate_text start start file 1 text.toList)

theorem exists_malformedWord_lex_iff :
    (∃ issue ∈ (lex file text).issues, ∃ word, issue.problem = .malformedWord word) ↔
      ∃ scan ∈ lineScans file text, ∃ issue, scan.result = .error issue := by
  rw [issues_lex_eq_flatMap, lineScans_eq]
  constructor
  · rintro ⟨issue, hissue, hword⟩
    obtain ⟨scan, hscan, hmem⟩ := List.mem_flatMap.mp hissue
    obtain ⟨line, _, rfl⟩ := List.mem_map.mp hscan
    exact ⟨_, hscan, (LineScan.exists_malformedWord_report_iff _ _).mp ⟨issue, hmem, hword⟩⟩
  · rintro ⟨scan, hscan, herror⟩
    obtain ⟨line, _, rfl⟩ := List.mem_map.mp hscan
    obtain ⟨issue, hmem, hword⟩ := (LineScan.exists_malformedWord_report_iff _ _).mpr herror
    exact ⟨issue, List.mem_flatMap.mpr ⟨_, hscan, hmem⟩, hword⟩

/-- The scan of a whole text is ended by an issue exactly if a word of the text is malformed. -/
theorem exists_error_unsplit_iff :
    (∃ issue, (unsplitScan start text).result = .error issue) ↔
      ∃ issue ∈ (lex file text).issues, ∃ word, issue.problem = .malformedWord word := by
  rw [LineScan.exists_error_iff_outcome, (same_chain_lineScans file text start).2,
    ← LineScan.exists_error_iff_outcome, LineScan.exists_error_chain_iff,
    exists_malformedWord_lex_iff]

variable {start}

theorem lex_of_unsplit_ok {tokens : List Token}
    (h : (unsplitScan start text).result = .ok tokens) :
    tokens.map Token.lexeme = (lex file text).tokens.map Token.lexeme ∧
      (unsplitScan start text).issues.map Issue.problem =
        (lex file text).issues.map Issue.problem := by
  obtain ⟨hproblems, houtcome⟩ := same_chain_lineScans file text start
  rw [LineScan.outcome_of_ok h] at houtcome
  obtain ⟨tokens', hlines, hlexemes⟩ := LineScan.exists_ok_of_outcome houtcome.symm
  obtain ⟨htokens, hissues⟩ := LineScan.chain_of_ok hlines
  rw [hissues] at hproblems
  refine ⟨?_, hproblems⟩
  rw [← hlexemes, ← htokens]
  rfl

theorem lex_of_unsplit_error {issue : Issue}
    (h : (unsplitScan start text).result = .error issue) :
    (unsplitScan start text).issues.map Issue.problem ++
        [issue.problem] <+: (lex file text).issues.map Issue.problem := by
  obtain ⟨hproblems, houtcome⟩ := same_chain_lineScans file text start
  rw [LineScan.outcome_of_error h] at houtcome
  obtain ⟨issue', hlines, hproblem⟩ := LineScan.exists_error_of_outcome houtcome.symm
  -- The chain stops at its first issue, and line by line more issues may follow.
  have hchain := (LineScan.report_chain (lineScans file text)).map Issue.problem
  rw [LineScan.report_of_error hlines, List.map_append, ← hproblems, List.map_singleton,
    hproblem] at hchain
  exact hchain

variable (start)

theorem report_unsplit_eq_nil_iff :
    (unsplitScan start text).report = [] ↔
      (lex file text).issues = [] := by
  rw [← List.map_eq_nil_iff (f := Issue.problem) (l := (lex file text).issues)]
  cases hunsplit : (unsplitScan start text).result with
  | ok tokens =>
    rw [LineScan.report_of_ok hunsplit, ← (lex_of_unsplit_ok file text hunsplit).2,
      List.map_eq_nil_iff]
  | error issue =>
    have h := lex_of_unsplit_error file text hunsplit
    rw [LineScan.report_of_error hunsplit]
    constructor
    · simp
    · intro hnil
      rw [hnil, List.prefix_nil] at h
      simp at h

/-- A text that is scanned in one go has the words and the problems that it has line by line, as
long as no word is malformed.  The first malformed word ends the scan, and what was met up to then is
met first line by line as well. -/
theorem scan_unsplit :
    (match (unsplitScan start text).result with
      | .ok tokens =>
        tokens.map Token.lexeme = (lex file text).tokens.map Token.lexeme ∧
          (IssueLog.empty.recordAll (unsplitScan start text).issues).issues.map Issue.problem =
            (freshLog file text).issues.map Issue.problem
      | .error issue =>
        (IssueLog.empty.recordAll (unsplitScan start text).issues).issues.map Issue.problem ++
            [issue.problem] <+:
          (freshLog file text).issues.map Issue.problem) ∧
      ((∃ issue, (unsplitScan start text).result = .error issue) ↔
        ∃ issue ∈ (freshLog file text).issues, ∃ word, issue.problem = .malformedWord word) := by
  have hlog : (IssueLog.empty.recordAll (unsplitScan start text).issues).issues =
      (unsplitScan start text).issues :=
    IssueLog.issues_recordAll_empty (LineScan.pairwise_issues_ofLine start text.toList)
  rw [hlog, issues_freshLog]
  refine ⟨?_, exists_error_unsplit_iff file text start⟩
  cases hunsplit : (unsplitScan start text).result with
  | ok tokens => exact lex_of_unsplit_ok file text hunsplit
  | error issue => exact lex_of_unsplit_error file text hunsplit

end Unsplit

end WordLexer
