import WordLexer.Proofs.EndedLines
import WordLexer.Proofs.ShownIssues

/-!
# How the issues of a text are shown

An issue of a text concerns a stretch of one line.  It is shown in three rows: where the problem is
and what it is, the line, and marks below exactly those columns of the line that hold the text which
the problem quotes (`isShown_of_mem_freshLog`).
-/

namespace WordLexer

/-! ## What is shown -/

/-- The row above the line: where the problem is, and what it is. -/
def Issue.heading (issue : Issue) (file : String) (number column : Nat) : String :=
  bold ++ file ++ ":" ++ toString number ++ ":" ++ toString column ++ ": " ++ red ++ "error:" ++
    reset ++ " " ++ issue.problem.message

/-- Marks below the columns from `first` to `last`, counted from 1: a caret below a single column,
and a dash below each of several. -/
def marksBelow (first last k : Nat) : Option Char :=
  if k < first then some ' '
  else if k ≤ last then some (if first = last then '^' else '-')
  else none

/-- An issue about the columns from `first` to `last` of a line is shown as it should be.  Lines and
columns are counted from 1. -/
structure Issue.IsShown (issue : Issue) (file : String) (number : Nat) (line : List Char)
    (first last : Nat) : Prop where
  span : issue.span =
    some ⟨⟨⟨file, number, first⟩, String.ofList line⟩, ⟨⟨file, number, last⟩, String.ofList line⟩⟩
  within : 1 ≤ first ∧ first ≤ last ∧ last ≤ line.length
  -- The problem quotes what stands in the columns.
  quoted : (first = last ∧ issue.problem.message =
      "unrecognized character '" ++ String.ofList ((line.take last).drop (first - 1)) ++ "'") ∨
    issue.problem.message =
      "unrecognized token at '" ++ String.ofList ((line.take last).drop (first - 1)) ++ "'"
  -- The marks are red, and they are all that stands in the last row.
  rows : ∃ blanks marks : List Char,
    issue.render.toList.splitOn '\n' =
        [(issue.heading file number first).toList,
          "  ".toList ++ line,
          "  ".toList ++ blanks ++ Issue.red.toList ++ marks ++ Issue.reset.toList] ∧
      ∀ k, 1 ≤ k → (blanks ++ marks)[k - 1]? = marksBelow first last k
  -- Where there is room for the line, there is room for the marks below it, and so the issue can be
  -- shown unless it is so far down that the number of its line cannot be written.
  showable : ∀ machine : Machine, line.length ≤ machine.longestRow →
    (line.length : Int) < indexBound → issue.fault? machine = numeralFault? number

/-! ## The last row -/

theorem toList_row (count : Nat) (c : Char) :
    (Issue.row count c).toList = List.replicate count c := by
  rw [Issue.row, String.toList_ofList, Int.toNat_natCast]

/-- The marks of a span are as many as its columns. -/
theorem toList_marker {span : Span} {first last : Nat} (hle : first ≤ last)
    (hfirst : span.first.column = (first + 1 : Nat)) (hlast : span.last.column = (last + 1 : Nat)) :
    (Issue.marker span).toList =
      List.replicate (last + 1 - first) (if first = last then '^' else '-') := by
  rw [Issue.marker, hfirst, hlast]
  by_cases heq : first = last
  · rw [if_pos heq, heq, if_pos rfl, Nat.add_sub_cancel_left]
    rfl
  · have hcount : ((last + 1 : Nat) : Int) - (first + 1 : Nat) + 1 = (last + 1 - first : Nat) := by
      omega
    rw [if_neg heq, if_neg (by omega), hcount, toList_row]

theorem getElem?_marks {first last : Nat} (mark : Char) (hle : first ≤ last) (k : Nat) :
    (List.replicate first ' ' ++ List.replicate (last + 1 - first) mark)[k]? =
      if k < first then some ' ' else if k ≤ last then some mark else none := by
  rw [List.getElem?_append, List.length_replicate, List.getElem?_replicate,
    List.getElem?_replicate]
  by_cases hfirst : k < first
  · rw [if_pos hfirst, if_pos hfirst, if_pos hfirst]
  · rw [if_neg hfirst, if_neg hfirst]
    by_cases hlast : k ≤ last
    · rw [if_pos hlast, if_pos (by omega)]
    · rw [if_neg hlast, if_neg (by omega)]

/-! ## The rows -/

section Rows

variable {issue : Issue} {file : String} {number : Nat} {line : List Char} {s : Stretch}
  (habout : issue.IsAbout ⟨⟨file, number, 1⟩, String.ofList line⟩ line s)

include habout

theorem render_eq_intercalate :
    issue.render.toList = ['\n'].intercalate
      [(issue.heading file number (s.first + 1)).toList,
        "  ".toList ++ line,
        "  ".toList ++ List.replicate s.first ' ' ++ Issue.red.toList ++
          List.replicate (s.last + 1 - s.first) (if s.first = s.last then '^' else '-') ++
          Issue.reset.toList] := by
  have hblanks : (Issue.row ((s.first + 1 : Nat) - 1 : Int) ' ').toList =
      List.replicate s.first ' ' := by
    rw [Int.natCast_add, Int.natCast_one, Int.add_sub_cancel, toList_row]
  have hmarker : (Issue.marker
      ⟨⟨⟨file, number, (s.first + 1 : Nat)⟩, String.ofList line⟩,
        ⟨⟨file, number, (s.last + 1 : Nat)⟩, String.ofList line⟩⟩).toList =
      List.replicate (s.last + 1 - s.first) (if s.first = s.last then '^' else '-') :=
    toList_marker habout.nonempty rfl rfl
  have hbreak : "\n".toList = ['\n'] := rfl
  rw [Issue.render, habout.span_eq]
  simp only [Issue.heading, Issue.label, Text.toString_natCast, String.toList_append, hblanks,
    hmarker, hbreak, String.toList_ofList, List.intercalate, List.intersperse, List.flatten_cons,
    List.flatten_nil, List.append_nil, List.append_assoc]

theorem not_mem_heading (hfile : '\n' ∉ file.toList) (hline : '\n' ∉ line) (column : Nat) :
    '\n' ∉ (issue.heading file number column).toList := by
  have hnumeral := Text.not_mem_toString (show '\n'.isDigit = false by decide)
  have hword : '\n' ∉ (s.word line).toList := by
    rw [Stretch.word, String.toList_ofList]
    exact fun hmem => hline (List.mem_of_mem_take (List.mem_of_mem_drop hmem))
  have hmessage : '\n' ∉ issue.problem.message.toList := by
    rcases habout.message with ⟨-, h⟩ | h <;> rw [h] <;> simp [hword]
  simp only [Issue.heading, String.toList_append, List.mem_append, hfile, hnumeral, hmessage,
    or_false]
  decide

theorem isShown_of_isAbout (hfile : '\n' ∉ file.toList) (hline : '\n' ∉ line) :
    issue.IsShown file number line (s.first + 1) (s.last + 1) where
  span := habout.span_eq
  within := ⟨Nat.le_add_left 1 _, Nat.succ_le_succ habout.nonempty, habout.inLine⟩
  quoted := habout.message.imp_left fun ⟨hsingle, hmessage⟩ => ⟨congrArg _ hsingle, hmessage⟩
  rows := by
    refine ⟨List.replicate s.first ' ',
      List.replicate (s.last + 1 - s.first) (if s.first = s.last then '^' else '-'), ?_, ?_⟩
    · rw [render_eq_intercalate habout]
      apply List.splitOn_intercalate
      · rw [List.forall_mem_cons, List.forall_mem_cons, List.forall_mem_singleton]
        refine ⟨not_mem_heading habout hfile hline _, by simp [hline], ?_⟩
        split <;> simp [Issue.red, Issue.reset]
      · exact List.cons_ne_nil _ _
    · intro k hk
      obtain ⟨k, rfl⟩ := Nat.exists_eq_add_of_le' hk
      rw [Nat.add_sub_cancel, getElem?_marks _ habout.nonempty, marksBelow]
      simp only [Nat.add_lt_add_iff_right, Nat.add_le_add_iff_right, Nat.add_right_cancel_iff]
  showable := fun machine hroom hbound => habout.fault?_eq machine hroom hbound

end Rows

/-! ## Texts -/

/-- Every issue of a text is about some columns of one of its lines, and is shown with that line and
with marks below these columns.  It can be shown wherever there is room for the text. -/
theorem isShown_of_mem_freshLog {file : String} (hfile : '\n' ∉ file.toList) (text : String) :
    ∀ issue ∈ (freshLog file text).issues,
      (∃ (n : Nat) (line : List Char) (first last : Nat),
        (Text.splitLines text.toList)[n]? = some line ∧
          issue.IsShown file (n + 1) line first last) ∧
      ∀ machine : Machine, machine.HasRoomFor text → issue.fault? machine = none := by
  intro issue hissue
  rw [issues_freshLog] at hissue
  refine ⟨?_, fun machine hroom => fault?_of_mem_lex hroom hissue⟩
  rw [issues_lex, textIssues] at hissue
  obtain ⟨⟨line, number⟩, hnumbered, hissue⟩ := List.mem_flatMap.mp hissue
  obtain ⟨hnumber, hline⟩ := List.mem_zipIdx_iff_le_and_getElem?_sub.mp hnumbered
  obtain ⟨n, rfl⟩ := Nat.exists_eq_add_of_le' hnumber
  rw [Nat.add_sub_cancel] at hline
  obtain ⟨s, habout⟩ := exists_isAbout_of_mem_lineIssues hissue
  have hbreak : '\n' ∉ line := fun hmem =>
    absurd (Text.of_mem_splitLines (List.mem_of_getElem? hline) hmem).2 (by decide)
  exact ⟨n, line, s.first + 1, s.last + 1, hline, isShown_of_isAbout habout hfile hbreak⟩

/-- The malformed word stands in the last two columns, and has two dashes below it. -/
theorem isShown_of_mem_freshLog_nine :
    '\n' ∉ "a.l".toList ∧
      ∃ issue ∈ (freshLog "a.l" "x+ 9y").issues,
        issue.problem = .malformedWord "9y" ∧ issue.IsShown "a.l" 1 "x+ 9y".toList 4 5 := by
  have hfile : '\n' ∉ "a.l".toList := by decide
  have hmem : ⟨.malformedWord "9y", some ⟨⟨⟨"a.l", 1, 4⟩, "x+ 9y"⟩, ⟨⟨"a.l", 1, 5⟩, "x+ 9y"⟩⟩⟩ ∈
      (freshLog "a.l" "x+ 9y").issues := by decide
  obtain ⟨⟨n, line, first, last, -, hshown⟩, -⟩ := isShown_of_mem_freshLog hfile "x+ 9y" _ hmem
  have hspan := hshown.span
  simp only [Option.some.injEq, Span.mk.injEq, Position.mk.injEq, Place.mk.injEq] at hspan
  obtain ⟨⟨⟨-, hnumber, hfirst⟩, htext⟩, ⟨-, -, hlast⟩, -⟩ := hspan
  obtain rfl : n = 0 := by omega
  obtain rfl : first = 4 := by omega
  obtain rfl : last = 5 := by omega
  obtain rfl : "x+ 9y".toList = line := by rw [htext, String.toList_ofList]
  exact ⟨hfile, _, hmem, rfl, hshown⟩

end WordLexer
