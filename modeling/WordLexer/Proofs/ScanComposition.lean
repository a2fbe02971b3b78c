import WordLexer.LineScan

/-!
# Scans of composed lines

A scan composes at every delimiter: what comes before it is scanned first, then the delimiter is
reported, then what follows is scanned (`LineScan.ofLine_append_cons`).  At a gap of blanks nothing is
reported (`LineScan.ofLine_append_blanks`).
-/

namespace WordLexer

theorem LineRuns.ofLine_append_cons (xs ys : List LocatedChar) {c : LocatedChar}
    (hc : Text.isWordChar c.char = false) :
    ofLine (xs ++ c :: ys) =
      ⟨(ofLine xs).first, (ofLine xs).rest ++ (c, (ofLine ys).first) :: (ofLine ys).rest⟩ := by
  induction xs with
  | nil =>
    show ofLine (c :: ys) = ⟨[], (c, (ofLine ys).first) :: (ofLine ys).rest⟩
    rw [ofLine, if_neg (Bool.eq_false_iff.mp hc)]
  | cons x xs ih =>
    rw [List.cons_append, ofLine, ofLine, ih]
    by_cases hx : Text.isWordChar x.char = true
    · rw [if_pos hx, if_pos hx]
    · rw [if_neg hx, if_neg hx]
      rfl

theorem LineRuns.ofLine_of_all {run : Run}
    (hrun : ∀ c ∈ run, Text.isWordChar c.char = true) : ofLine run = ⟨run, []⟩ := by
  induction run with
  | nil => rfl
  | cons c cs ih =>
    rw [ofLine, ih fun x hx => hrun x (List.mem_cons_of_mem c hx),
      if_pos (hrun c List.mem_cons_self)]

namespace LineScan

theorem ofRuns_append_cons (run next : Run) (delimiter : LocatedChar)
    (rest more : List (LocatedChar × Run)) :
    ofRuns run (rest ++ (delimiter, next) :: more) =
      (ofRuns run rest).andThen ((ofDelimiter delimiter).andThen (ofRuns next more)) := by
  induction rest generalizing run with
  | nil => rfl
  | cons pair rest ih =>
    obtain ⟨first, second⟩ := pair
    rw [List.cons_append, ofRuns, ofRuns, ih, andThen_assoc, andThen_assoc]

theorem ofLine_append_cons (xs ys : List LocatedChar) {c : LocatedChar}
    (hc : Text.isWordChar c.char = false) :
    ofLine (xs ++ c :: ys) = (ofLine xs).andThen ((ofDelimiter c).andThen (ofLine ys)) := by
  unfold ofLine
  rw [LineRuns.ofLine_append_cons xs ys hc]
  exact ofRuns_append_cons _ _ _ _ _

theorem ofLine_of_all {run : Run} (hrun : ∀ c ∈ run, Text.isWordChar c.char = true) :
    ofLine run = ofRun run := by
  unfold ofLine
  rw [LineRuns.ofLine_of_all hrun]
  rfl

/-! ## How composed scans end -/

section Ends

variable {scan first second : LineScan}

theorem tokens_of_ok {tokens : List Token} (h : scan.result = .ok tokens) :
    scan.tokens = tokens := by
  rw [LineScan.tokens, h]

theorem report_of_ok {tokens : List Token} (h : scan.result = .ok tokens) :
    scan.report = scan.issues := by
  rw [report, h]

theorem report_of_error {issue : Issue} (h : scan.result = .error issue) :
    scan.report = scan.issues ++ [issue] := by
  rw [report, h]

theorem result_andThen_eq_ok_iff {tokens : List Token} :
    (first.andThen second).result = .ok tokens ↔
      ∃ xs ys, first.result = .ok xs ∧ second.result = .ok ys ∧ xs ++ ys = tokens := by
  rw [andThen]
  cases first.result with
  | error issue => simp
  | ok xs => cases second.result <;> simp [Except.map]

theorem issues_andThen_of_ok {tokens : List Token} (h : first.result = .ok tokens) :
    (first.andThen second).issues = first.issues ++ second.issues := by
  rw [andThen, h]

theorem report_andThen_of_ok {tokens : List Token} (h : first.result = .ok tokens) :
    (first.andThen second).report = first.issues ++ second.report := by
  rw [andThen, h, report, report]
  cases second.result with
  | error issue => exact List.append_assoc _ _ _
  | ok rest => rfl

theorem report_andThen_of_error {issue : Issue} (h : first.result = .error issue) :
    (first.andThen second).report = first.issues ++ [issue] := by
  rw [andThen, h, report]

/-- An issue ends two scans in a row if it ends one of them. -/
theorem exists_error_andThen_iff :
    (∃ issue, (first.andThen second).result = .error issue) ↔
      (∃ issue, first.result = .error issue) ∨ ∃ issue, second.result = .error issue := by
  rw [andThen]
  cases first.result with
  | error issue => simp
  | ok xs => cases second.result <;> simp [Except.map]

theorem report_andThen_eq_nil_iff :
    (first.andThen second).report = [] ↔ first.report = [] ∧ second.report = [] := by
  cases hfirst : first.result with
  | error issue => simp [report_andThen_of_error hfirst, report_of_error hfirst]
  | ok tokens => simp [report_andThen_of_ok hfirst, report_of_ok hfirst]

end Ends

/-! ## Gaps -/

theorem ofDelimiter_of_isBlank {c : LocatedChar} (hc : Text.isBlank c.char = true) :
    ofDelimiter c = nothing := by
  rw [ofDelimiter, if_pos hc]
  rfl

theorem ofLine_append_blank (xs ys : List LocatedChar) {c : LocatedChar}
    (hc : Text.isBlank c.char = true) :
    ofLine (xs ++ c :: ys) = (ofLine xs).andThen (ofLine ys) := by
  rw [ofLine_append_cons xs ys (Text.isWordChar_eq_false_of_isBlank hc),
    ofDelimiter_of_isBlank hc, nothing_andThen]

theorem ofLine_blank_cons (ys : List LocatedChar) {c : LocatedChar}
    (hc : Text.isBlank c.char = true) : ofLine (c :: ys) = ofLine ys := by
  have h := ofLine_append_blank [] ys hc
  rw [List.nil_append] at h
  exact h.trans (nothing_andThen _)

/-- Blanks in front of a line make no difference. -/
theorem ofLine_blanks_append {gap : List LocatedChar} (ys : List LocatedChar)
    (hgap : ∀ c ∈ gap, Text.isBlank c.char = true) : ofLine (gap ++ ys) = ofLine ys := by
  induction gap with
  | nil => rfl
  | cons c cs ih =>
    rw [List.cons_append, ofLine_blank_cons _ (hgap c List.mem_cons_self),
      ih fun x hx => hgap x (List.mem_cons_of_mem c hx)]

/-- What stands on the two sides of a gap is scanned as two lines would be. -/
theorem ofLine_append_blanks (xs ys : List LocatedChar) {gap : List LocatedChar} (hne : gap ≠ [])
    (hgap : ∀ c ∈ gap, Text.isBlank c.char = true) :
    ofLine (xs ++ (gap ++ ys)) = (ofLine xs).andThen (ofLine ys) := by
  obtain ⟨c, cs, rfl⟩ := List.exists_cons_of_ne_nil hne
  rw [List.cons_append, ofLine_append_blank xs _ (hgap c List.mem_cons_self),
    ofLine_blanks_append ys fun x hx => hgap x (List.mem_cons_of_mem c hx)]

end LineScan

end WordLexer
