import Mathlib.Data.List.TakeWhile
import WordLexer.Proofs.LineBreaks
import WordLexer.Proofs.TextReport

/-!
# Which issues can be shown

An issue of a text is about a stretch of one of its lines.  The blanks and the marks below the line
are no longer than the line, and the numbers of its place are no larger than the text is long.  So
on a machine that has room for the text every issue of the text can be shown (`fault?_of_mem_lex`),
and whether a log can be shown is up to the issues that were in it before (`fault?_recordAll`).
-/

namespace WordLexer

/-! ## The stretch of an issue -/

/-- The issue is about the stretch of the line. -/
structure Issue.IsAbout (issue : Issue) (start : Position) (line : List Char) (s : Stretch) :
    Prop where
  span : issue.span = some (s.span start)
  nonempty : s.first ≤ s.last
  inLine : s.last < line.length
  message : (s.first = s.last ∧
      issue.problem.message = "unrecognized character '" ++ s.word line ++ "'") ∨
    issue.problem.message = "unrecognized token at '" ++ s.word line ++ "'"

theorem isAbout_strayIssue {line : List Char} {stray : Char × Nat} (start : Position)
    (h : stray ∈ strays line) :
    (strayIssue start stray).IsAbout start line ⟨stray.2, stray.2⟩ where
  span := rfl
  nonempty := Nat.le_refl _
  inLine := snd_lt_of_mem_strays h
  message := by
    left
    have hword : Stretch.word line ⟨stray.2, stray.2⟩ = String.singleton stray.1 := by
      obtain ⟨hchar, -⟩ := List.mem_filter.mp h
      rw [List.mem_zipIdx_iff_getElem?] at hchar
      rw [Stretch.word, Stretch.cut, List.take_add_one, hchar, Option.toList_some,
        List.drop_left' (List.length_take_of_le (Nat.le_of_lt (snd_lt_of_mem_strays h)))]
      exact String.singleton_eq_ofList.symm
    rw [hword]
    exact ⟨rfl, rfl⟩

theorem isAbout_issue {line : List Char} {run : Stretch} (start : Position)
    (h : run ∈ wordRuns line) : (run.issue start line).IsAbout start line run where
  span := rfl
  nonempty := (mem_wordRuns.mp h).nonempty
  inLine := (mem_wordRuns.mp h).last_lt_length
  message := .inr rfl

theorem exists_isAbout_of_mem_lineIssues {start : Position} {line : List Char} {issue : Issue}
    (h : issue ∈ lineIssues start line) : ∃ s, issue.IsAbout start line s := by
  rw [lineIssues] at h
  split at h
  · obtain ⟨stray, hstray, rfl⟩ := List.mem_map.mp h
    exact ⟨_, isAbout_strayIssue start hstray⟩
  · rename_i run hrun
    rcases List.mem_append.mp h with h | h
    · obtain ⟨stray, hstray, rfl⟩ := List.mem_map.mp h
      exact ⟨_, isAbout_strayIssue start (List.mem_of_mem_filter hstray)⟩
    · rw [List.mem_singleton.mp h]
      exact ⟨run, isAbout_issue start (malformedRun?_eq_some hrun)⟩

/-! ## Room for the issues of a line -/

namespace Issue.IsAbout

variable {issue : Issue} {file : String} {number : Nat} {line : List Char} {s : Stretch}
  (habout : issue.IsAbout ⟨⟨file, number, 1⟩, String.ofList line⟩ line s)

include habout

theorem span_eq :
    issue.span = some ⟨⟨⟨file, number, (s.first + 1 : Nat)⟩, String.ofList line⟩,
      ⟨⟨file, number, (s.last + 1 : Nat)⟩, String.ofList line⟩⟩ := by
  rw [habout.span, Int.natCast_add, Int.natCast_add, Int.natCast_one, Int.add_comm s.first,
    Int.add_comm s.last]
  rfl

/-- Where there is room for the line, all that is left is to write the number of the line. -/
theorem fault?_eq (machine : Machine) (hroom : line.length ≤ machine.longestRow)
    (hbound : (line.length : Int) < indexBound) : issue.fault? machine = numeralFault? number := by
  have hnonempty := habout.nonempty
  have hinLine := habout.inLine
  -- Neither the blanks nor the marks are more than the characters of the line.
  have hrow : ∀ count : Int, 0 ≤ count → count ≤ line.length → machine.rowFault? count = none := by
    intro count hcount hle
    rw [Machine.rowFault?_eq_none_iff]
    unfold indexBound at *
    omega
  have hmarker : markerFault? machine ⟨⟨⟨file, number, (s.first + 1 : Nat)⟩, String.ofList line⟩,
      ⟨⟨file, number, (s.last + 1 : Nat)⟩, String.ofList line⟩⟩ = none := by
    rw [markerFault?]
    dsimp only
    split
    · rfl
    · apply hrow <;> omega
  have hcolumn : numeralFault? (s.first + 1 : Nat) = none := by
    apply numeralFault?_of_lt_indexBound <;> unfold indexBound at * <;> omega
  have hblanks : machine.rowFault? ((s.first + 1 : Nat) - 1) = none := by
    apply hrow <;> omega
  rw [fault?, habout.span_eq]
  dsimp only
  rw [hmarker, hcolumn, hblanks, Option.none_or, Option.none_or, Option.or_none]

end Issue.IsAbout

/-! ## Room for the issues of a text -/

/-- There is room for a text: it is no longer than texts get, and there can be as many blanks in a
row as there are characters in a line. -/
structure Machine.HasRoomFor (machine : Machine) (text : String) : Prop where
  length_lt : (text.toList.length : Int) < indexBound
  line_le : ∀ line ∈ Text.splitLines text.toList, line.length ≤ machine.longestRow

theorem fault?_of_mem_lex {machine : Machine} {file text : String}
    (hroom : machine.HasRoomFor text) {issue : Issue} (h : issue ∈ (lex file text).issues) :
    issue.fault? machine = none := by
  rw [issues_lex, textIssues] at h
  obtain ⟨⟨line, number⟩, hnumbered, hissue⟩ := List.mem_flatMap.mp h
  have hline : line ∈ Text.splitLines text.toList := List.fst_mem_of_mem_zipIdx hnumbered
  have hnumber : number < 1 + (Text.splitLines text.toList).length :=
    List.snd_lt_add_of_mem_zipIdx hnumbered
  have hcount := Text.length_splitLines_le text.toList
  have hlength : line.length ≤ text.toList.length := Text.length_le_of_mem_splitLines hline
  have hbound := hroom.length_lt
  obtain ⟨s, habout⟩ := exists_isAbout_of_mem_lineIssues hissue
  rw [habout.fault?_eq machine (hroom.line_le line hline) (show (line.length : Int) < _ by omega)]
  apply numeralFault?_of_lt_indexBound <;> unfold indexBound at * <;> omega

/-! ## Logs -/

namespace IssueLog

variable {machine : Machine}

theorem fault?_eq_none_iff {log : IssueLog} :
    log.fault? machine = none ↔ ∀ issue ∈ log.issues, issue.fault? machine = none := by
  rw [fault?, List.findSome?_eq_none_iff]

/-- A log without a fault is shown as a whole. -/
theorem shown_eq {log : IssueLog} (h : log.fault? machine = none) :
    log.shown machine = log.issues := by
  rw [fault?_eq_none_iff] at h
  rw [shown, List.takeWhile_eq_self_iff]
  intro issue hmem
  rw [h issue hmem]
  rfl

theorem fault?_record (log : IssueLog) {issue : Issue} (h : issue.fault? machine = none) :
    (log.record issue).fault? machine = log.fault? machine := by
  rw [fault?, fault?, ← log.front_append_back issue, record, List.findSome?_append,
    List.findSome?_append, List.findSome?_cons, h]

theorem shown_sublist_record (log : IssueLog) {issue : Issue} (h : issue.fault? machine = none) :
    (log.shown machine).Sublist ((log.record issue).shown machine) := by
  rw [shown, shown, ← log.front_append_back issue, record, List.takeWhile_append,
    List.takeWhile_append]
  split
  · rw [List.takeWhile_cons_of_pos (by rw [h]; rfl)]
    exact (List.sublist_cons_self _ _).append_left _
  · exact List.Sublist.refl _

/-- Issues that can be shown do not change whether the log can be shown. -/
theorem fault?_recordAll (log : IssueLog) {issues : List Issue}
    (h : ∀ issue ∈ issues, issue.fault? machine = none) :
    (log.recordAll issues).fault? machine = log.fault? machine := by
  induction issues generalizing log with
  | nil => rfl
  | cons issue rest ih =>
    rw [List.forall_mem_cons] at h
    rw [recordAll_cons, ih _ h.2, fault?_record log h.1]

/-- Whatever is shown of a log is still shown when issues are recorded that can be shown. -/
theorem shown_sublist_recordAll (log : IssueLog) {issues : List Issue}
    (h : ∀ issue ∈ issues, issue.fault? machine = none) :
    (log.shown machine).Sublist ((log.recordAll issues).shown machine) := by
  induction issues generalizing log with
  | nil => exact List.Sublist.refl _
  | cons issue rest ih =>
    rw [List.forall_mem_cons] at h
    exact (log.shown_sublist_record h.1).trans (ih _ h.2)

end IssueLog

end WordLexer
