import WordLexer.Proofs.ScanComposition
import WordLexer.Session

/-!
# Scans with a log

A line is scanned with a log at hand.  What the scan meets on its way is recorded at once, and the
issue that ends the scan is left to the one who asked for it: a text records it and goes on with its
next line (`Session.answer_lexText`).  At a delimiter a scan stops and goes on as if the rest were a
line of its own, with the log that the first part leaves (`scanLine_append_cons`).
-/

namespace WordLexer

/-! ## Scans that record -/

/-- How a scan ends, and the log with what it has met by then. -/
def LineScan.recordIn (log : IssueLog) (scan : LineScan) :
    Except Issue (List Token) × IssueLog :=
  (scan.result, log.recordAll scan.issues)

def scanLine (log : IssueLog) (line : List LocatedChar) : Except Issue (List Token) × IssueLog :=
  (LineScan.ofLine line).recordIn log

/-- Scan lines one after the other with one log.  The issue that ends a scan is recorded before the
next line is scanned, and the line has no tokens. -/
def scanLines (log : IssueLog) : List (List LocatedChar) → List Token × IssueLog
  | [] => ([], log)
  | line :: lines =>
    match scanLine log line with
    | (.ok tokens, after) =>
      let (more, last) := scanLines after lines
      (tokens ++ more, last)
    | (.error issue, after) => scanLines (after.record issue) lines

theorem scanLines_eq (log : IssueLog) (lines : List (List LocatedChar)) :
    scanLines log lines =
      (lines.flatMap fun line => (LineScan.ofLine line).tokens,
        log.recordAll (lines.flatMap fun line => (LineScan.ofLine line).report)) := by
  induction lines generalizing log with
  | nil => rfl
  | cons line lines ih =>
    rw [scanLines, scanLine, LineScan.recordIn, List.flatMap_cons, List.flatMap_cons,
      IssueLog.recordAll_append]
    cases hresult : (LineScan.ofLine line).result with
    | ok tokens =>
      dsimp only
      rw [ih, LineScan.tokens_of_ok hresult, LineScan.report_of_ok hresult]
    | error issue =>
      have htokens : (LineScan.ofLine line).tokens = [] := by rw [LineScan.tokens, hresult]
      dsimp only
      rw [ih, htokens, List.nil_append, LineScan.report_of_error hresult,
        IssueLog.recordAll_append]
      rfl

/-- It makes no difference whether the issues of a text are recorded as they are met or when all its
lines are scanned. -/
theorem Session.answer_lexText (machine : Machine) (disk : Disk) (log : IssueLog)
    (file text : String) :
    answer machine disk log (.lexText file text) =
      (.lexedText (scanLines log (sourceLines file text)).1,
        (scanLines log (sourceLines file text)).2) := by
  rw [scanLines_eq, answer, lex, List.flatMap_map, List.flatMap_map]

/-! ## Scans one after the other -/

namespace LineScan

/-- A second scan goes on with the log that the first one leaves, unless an issue ended the
first. -/
theorem recordIn_andThen (log : IssueLog) (first second : LineScan) :
    (first.andThen second).recordIn log =
      match first.recordIn log with
      | (.error issue, after) => (.error issue, after)
      | (.ok tokens, after) =>
        ((second.recordIn after).1.map (tokens ++ ·), (second.recordIn after).2) := by
  rw [recordIn, recordIn, andThen]
  cases first.result with
  | error issue => rfl
  | ok tokens =>
    dsimp only
    rw [IssueLog.recordAll_append]
    rfl

theorem recordIn_ofDelimiter (log : IssueLog) (c : LocatedChar) :
    (ofDelimiter c).recordIn log =
      (.ok [], if Text.isBlank c.char then log
        else log.record ⟨.strayCharacter c.char, some c.span⟩) := by
  rw [recordIn, ofDelimiter]
  cases Text.isBlank c.char <;> rfl

end LineScan

/-- A line is scanned up to a delimiter as if it ended there.  An issue in this part is the end.
Otherwise the delimiter is recorded unless it is blank, the rest is scanned as a line of its own,
and its tokens come behind the tokens of the first part. -/
theorem scanLine_append_cons (log : IssueLog) (xs ys : List LocatedChar) {c : LocatedChar}
    (hc : Text.isWordChar c.char = false) :
    scanLine log (xs ++ c :: ys) =
      match scanLine log xs with
      | (.error issue, after) => (.error issue, after)
      | (.ok tokens, middle) =>
        match scanLine
          (if Text.isBlank c.char then middle
            else middle.record ⟨.strayCharacter c.char, some c.span⟩) ys with
        | (.error issue, after) => (.error issue, after)
        | (.ok more, after) => (.ok (tokens ++ more), after) := by
  have hline : ∀ (log : IssueLog) (line : List LocatedChar),
      (LineScan.ofLine line).recordIn log = scanLine log line := fun _ _ => rfl
  rw [scanLine, LineScan.ofLine_append_cons xs ys hc, LineScan.recordIn_andThen, hline]
  rcases scanLine log xs with ⟨issue | tokens, middle⟩
  · rfl
  · dsimp only
    rw [LineScan.recordIn_andThen, LineScan.recordIn_ofDelimiter]
    dsimp only
    rw [hline]
    rcases scanLine _ ys with ⟨issue | more, after⟩ <;> rfl

/-- A plus sign between two words whose positions are not in a row.  The second word is malformed,
and then again the first one. -/
theorem scanLine_append_cons_plus :
    ∃ first plus second : LocatedChar,
      [first.char, plus.char, second.char] = ['a', '+', '1'] ∧
      scanLine .empty ([first] ++ plus :: [second]) =
        (.error ⟨.malformedWord "1", some second.span⟩,
          IssueLog.empty.record ⟨.strayCharacter '+', some plus.span⟩) ∧
      scanLine .empty ([second] ++ plus :: [first]) =
        (.error ⟨.malformedWord "1", some second.span⟩, .empty) := by
  let position (line column : Int) : Position := ⟨⟨"a.l", line, column⟩, "x"⟩
  have hplus : Text.isWordChar '+' = false := by decide
  refine ⟨⟨'a', position 7 30⟩, ⟨'+', position 2 0⟩, ⟨'1', position (-4) 5⟩, rfl, ?_, ?_⟩
  · exact scanLine_append_cons .empty _ _ hplus
  · exact scanLine_append_cons .empty _ _ hplus

end WordLexer
