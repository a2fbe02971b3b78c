import Mathlib.Data.List.Find
import WordLexer.Proofs.ScanComposition
import WordLexer.Proofs.WordRuns

/-!
# What a line is reported as

The scan of a line is described by the word runs of the line.  If none of them starts with a digit,
every run is a token and every stray character an issue.  Otherwise the first run that does so ends
the scan: there is no token, and only the stray characters in front of that run are issues.  The
scanner does what is described (`LineScan.ofLine_locate`).
-/

namespace WordLexer

/-! ## The description -/

def Position.advance (n : Nat) (p : Position) : Position := { p with column := p.column + n }

namespace Stretch

def word (line : List Char) (s : Stretch) : String := String.ofList (s.cut line)

/-- The span of a stretch of a line whose first column is at `start`. -/
def span (start : Position) (s : Stretch) : Span := ⟨start.advance s.first, start.advance s.last⟩

/-- A run is malformed if it starts with a digit. -/
def isMalformed (chars : List Char) (s : Stretch) : Bool := chars[s.first]?.any Char.isDigit

def token (start : Position) (line : List Char) (s : Stretch) : Token :=
  ⟨⟨Kind.ofWord (s.word line), s.word line⟩, s.span start⟩

def issue (start : Position) (line : List Char) (s : Stretch) : Issue :=
  ⟨.malformedWord (s.word line), some (s.span start)⟩

end Stretch

def malformedRun? (line : List Char) : Option Stretch :=
  (wordRuns line).find? (·.isMalformed line)

/-- A stray character is neither a word character nor blank. -/
def isStray (c : Char) : Bool := !Text.isWordChar c && !Text.isBlank c

/-- The stray characters of a line, each with its column. -/
def strays (line : List Char) : List (Char × Nat) := line.zipIdx.filter fun stray => isStray stray.1

def strayIssue (start : Position) (stray : Char × Nat) : Issue :=
  ⟨.strayCharacter stray.1, some (.single (start.advance stray.2))⟩

/-- The scan of a line whose first column is at `start`. -/
def describedScan (start : Position) (line : List Char) : LineScan :=
  match malformedRun? line with
  | none => ⟨(strays line).map (strayIssue start), .ok ((wordRuns line).map (·.token start line))⟩
  | some run =>
    ⟨((strays line).filter (·.2 < run.first)).map (strayIssue start), .error (run.issue start line)⟩

theorem IsWordRun.length_word {line : List Char} {run : Stretch} (h : IsWordRun line run) :
    (run.word line).length = run.last + 1 - run.first := by
  rw [Stretch.word, String.length_ofList, Stretch.cut, List.length_drop,
    List.length_take_of_le h.last_lt_length]

/-! ## Located lines -/

theorem Position.advance_add (p : Position) (m n : Nat) :
    p.advance (m + n) = (p.advance m).advance n := by
  simp only [advance, Int.natCast_add, Int.add_assoc]

theorem Position.advance_zero (p : Position) : p.advance 0 = p := by
  simp [advance]

theorem Position.advance_succ (p : Position) (n : Nat) :
    p.advance (n + 1) = p.next.advance n := by
  rw [Nat.add_comm, advance_add]
  rfl

theorem LocatedChar.locate_append (start : Position) (xs ys : List Char) :
    locate start (xs ++ ys) = locate start xs ++ locate (start.advance xs.length) ys := by
  induction xs generalizing start with
  | nil => rw [List.nil_append, List.length_nil, Position.advance_zero]; rfl
  | cons x xs ih =>
    rw [List.cons_append, locate, ih, locate, List.length_cons, Position.advance_succ]
    rfl

theorem LocatedChar.forall_locate {p : Char → Prop} {cs : List Char} (start : Position)
    (h : ∀ c ∈ cs, p c) : ∀ c ∈ locate start cs, p c.char := by
  intro c hc
  apply h
  rw [← text_locate start cs]
  exact List.mem_map_of_mem hc

theorem Run.span_locate (start : Position) (a : Char) (w : List Char) :
    Run.span ⟨a, start⟩ (LocatedChar.locate start.next w) = ⟨start, start.advance w.length⟩ := by
  rw [Run.span, Span.mk.injEq]
  refine ⟨rfl, ?_⟩
  induction w generalizing start a with
  | nil => exact (Position.advance_zero start).symm
  | cons b w ih =>
    rw [LocatedChar.locate, List.getLast?_cons, Option.getD_some, ih, List.length_cons,
      Position.advance_succ]

/-! ## Runs -/

theorem Text.isNameStart_of_isWordChar {c : Char} (h : isWordChar c = true) :
    isNameStart c = !c.isDigit := by
  cases hdigit : c.isDigit with
  | false =>
    rw [isWordChar_eq, hdigit, Bool.or_false] at h
    exact h
  | true =>
    -- A letter or an underscore lies beyond the digits.
    show isNameStart c = false
    rw [← Bool.not_eq_true]
    intro hstart
    rw [isNameStart] at hstart
    delta Char.isAlpha Char.isUpper Char.isLower at hstart
    delta Char.isDigit at hdigit
    simp only [Bool.or_eq_true, Bool.and_eq_true, decide_eq_true_eq, beq_iff_eq,
      UInt32.le_iff_toNat_le, ge_iff_le] at hstart hdigit
    rcases hstart with (hstart | hstart) | rfl
    · exact absurd (Nat.le_trans hstart.1 hdigit.2) (by decide)
    · exact absurd (Nat.le_trans hstart.1 hdigit.2) (by decide)
    · exact absurd hdigit.2 (by decide)

theorem Text.isName_eq_isIdentifier {word : List Char}
    (hword : ∀ c ∈ word, isWordChar c = true) : isName word = isIdentifier word := by
  have hlast : word.getLast? ≠ some '\n' := by
    intro h
    exact absurd (hword _ (List.mem_of_getLast? h)) (by decide)
  rw [isName, dropFinalLineFeed, if_neg hlast]

theorem Text.isName_of_all {a : Char} {w : List Char}
    (hw : ∀ c ∈ a :: w, isWordChar c = true) : isName (a :: w) = !a.isDigit := by
  have hall : w.all isWordChar = true :=
    List.all_eq_true.mpr fun c hc => hw c (List.mem_cons_of_mem a hc)
  rw [isName_eq_isIdentifier hw, isIdentifier, hall, Bool.and_true]
  exact isNameStart_of_isWordChar (hw a List.mem_cons_self)

theorem LineScan.ofRun_locate {line : List Char} (start : Position)
    (hline : ∀ c ∈ line, Text.isWordChar c = true) :
    ofRun (LocatedChar.locate start line) = describedScan start line := by
  have hstrays : strays line = [] := by
    rw [strays, List.filter_eq_nil_iff]
    intro stray hstray
    rw [isStray, hline _ (List.fst_mem_of_mem_zipIdx hstray)]
    exact Bool.false_ne_true
  cases line with
  | nil => rfl
  | cons a w =>
    -- The whole line is its only run, and the first character tells whether it is malformed.
    have hcut : (⟨0, w.length⟩ : Stretch).cut (a :: w) = a :: w := by
      rw [Stretch.cut, List.drop_zero]
      exact List.take_of_length_le (Nat.le_refl _)
    have hword : (⟨0, w.length⟩ : Stretch).word (a :: w) = String.ofList (a :: w) := by
      rw [Stretch.word, hcut]
    have hspan : (⟨0, w.length⟩ : Stretch).span start = ⟨start, start.advance w.length⟩ := by
      rw [Stretch.span, Position.advance_zero]
    have hread : Run.read (LocatedChar.locate start (a :: w)) =
        if a.isDigit then .error ((⟨0, w.length⟩ : Stretch).issue start (a :: w))
        else .ok [(⟨0, w.length⟩ : Stretch).token start (a :: w)] := by
      rw [LocatedChar.locate, Run.read_cons, Run.span_locate, ← LocatedChar.locate]
      simp only [Run.word, LocatedChar.text_locate, Text.isName_of_all hline]
      rw [Stretch.issue, Stretch.token, hword, hspan, Lexeme.ofWord]
      cases a.isDigit <;> rfl
    rw [ofRun, hread, describedScan, malformedRun?, wordRuns_of_all hline, hstrays,
      List.find?_singleton,
      show (⟨0, w.length⟩ : Stretch).isMalformed (a :: w) = a.isDigit from rfl]
    cases a.isDigit <;> rfl

/-! ## Cutting at a delimiter -/

theorem snd_lt_of_mem_strays {line : List Char} {stray : Char × Nat} (h : stray ∈ strays line) :
    stray.2 < line.length :=
  List.snd_lt_of_mem_zipIdx (List.mem_of_mem_filter h)

def shiftStray (n : Nat) (stray : Char × Nat) : Char × Nat := (stray.1, n + stray.2)

/-- A delimiter in a column, if it is a stray character. -/
def strayDelimiter (c : Char) (column : Nat) : List (Char × Nat) :=
  if isStray c then [(c, column)] else []

theorem eq_of_mem_strayDelimiter {c : Char} {column : Nat} {stray : Char × Nat}
    (h : stray ∈ strayDelimiter c column) : stray = (c, column) := by
  unfold strayDelimiter at h
  split at h
  · exact List.mem_singleton.mp h
  · exact absurd h List.not_mem_nil

theorem strays_append_cons (u v : List Char) (c : Char) :
    strays (u ++ c :: v) =
      strays u ++ (strayDelimiter c u.length ++ (strays v).map (shiftStray (u.length + 1))) := by
  have hright : (v.zipIdx (u.length + 1)).filter (fun stray => isStray stray.1) =
      (strays v).map (shiftStray (u.length + 1)) := by
    rw [List.zipIdx_eq_map_add, List.filter_map]
    rfl
  rw [strays, List.zipIdx_append, List.filter_append, List.zipIdx_cons, Nat.zero_add,
    List.filter_cons, hright, strayDelimiter]
  congr 1
  cases isStray c <;> rfl

section Cut

variable {u v : List Char} {c : Char} {s : Stretch} {start : Position}

theorem Stretch.word_append_left (hs : s ∈ wordRuns u) : s.word (u ++ c :: v) = s.word u := by
  have hlast := (mem_wordRuns.mp hs).last_lt_length
  rw [word, word, cut, cut, List.take_append_of_le_length (by omega)]

theorem Stretch.word_append_right : (s.shift (u.length + 1)).word (u ++ c :: v) = s.word v := by
  rw [word, word, cut_shift_cons]

theorem Stretch.span_shift (n : Nat) : (s.shift n).span start = s.span (start.advance n) := by
  rw [span, span, shift, Position.advance_add, Position.advance_add]

theorem Stretch.isMalformed_append_left (hs : s ∈ wordRuns u) :
    s.isMalformed (u ++ c :: v) = s.isMalformed u := by
  have hlast := (mem_wordRuns.mp hs).last_lt_length
  have hnonempty := (mem_wordRuns.mp hs).nonempty
  rw [isMalformed, isMalformed, List.getElem?_append_left (by omega)]

theorem Stretch.isMalformed_append_right :
    (s.shift (u.length + 1)).isMalformed (u ++ c :: v) = s.isMalformed v := by
  have hcolumn : (s.shift (u.length + 1)).first = u.length + (s.first + 1) := by
    dsimp only [shift]
    omega
  rw [isMalformed, isMalformed, hcolumn, List.getElem?_append_right (by omega),
    Nat.add_sub_cancel_left, List.getElem?_cons_succ]

theorem malformedRun?_append_cons (hc : Text.isWordChar c = false) :
    malformedRun? (u ++ c :: v) =
      (malformedRun? u).or ((malformedRun? v).map (Stretch.shift (u.length + 1))) := by
  have hleft : (wordRuns u).find? (·.isMalformed (u ++ c :: v)) = malformedRun? u :=
    List.find?_congr fun s hs => Stretch.isMalformed_append_left hs
  have hright : (wordRuns v).find? ((·.isMalformed (u ++ c :: v)) ∘ Stretch.shift (u.length + 1)) =
      malformedRun? v := List.find?_congr fun s _ => Stretch.isMalformed_append_right
  rw [malformedRun?, wordRuns_append_cons u v hc, List.find?_append, List.find?_map, hleft, hright]

theorem map_token_append_cons (hc : Text.isWordChar c = false) :
    (wordRuns (u ++ c :: v)).map (·.token start (u ++ c :: v)) =
      (wordRuns u).map (·.token start u) ++
        (wordRuns v).map (·.token (start.advance (u.length + 1)) v) := by
  rw [wordRuns_append_cons u v hc, List.map_append, List.map_map]
  congr 1
  · apply List.map_congr_left
    intro s hs
    rw [Stretch.token, Stretch.token, Stretch.word_append_left hs]
  · apply List.map_congr_left
    intro s _
    rw [Function.comp_apply, Stretch.token, Stretch.token, Stretch.word_append_right,
      Stretch.span_shift]

theorem malformedRun?_eq_some {run : Stretch} (h : malformedRun? u = some run) :
    run ∈ wordRuns u := List.mem_of_find?_eq_some h

theorem ofDelimiter_eq (hc : Text.isWordChar c = false) (column : Nat) :
    LineScan.ofDelimiter ⟨c, start.advance column⟩ =
      ⟨(strayDelimiter c column).map (strayIssue start), .ok []⟩ := by
  rw [LineScan.ofDelimiter, strayDelimiter, isStray, hc]
  cases Text.isBlank c <;> rfl

theorem map_strayIssue_shift (n : Nat) (found : List (Char × Nat)) :
    (found.map (shiftStray n)).map (strayIssue start) =
      found.map (strayIssue (start.advance n)) := by
  rw [List.map_map]
  apply List.map_congr_left
  intro stray _
  rw [Function.comp_apply, shiftStray, strayIssue, strayIssue, Position.advance_add]

/-- A malformed run in front of the delimiter hides everything from the delimiter on. -/
theorem filter_strays_append_left (hs : s ∈ wordRuns u) :
    (strays (u ++ c :: v)).filter (·.2 < s.first) = (strays u).filter (·.2 < s.first) := by
  have hlast := (mem_wordRuns.mp hs).last_lt_length
  have hnonempty := (mem_wordRuns.mp hs).nonempty
  have hhidden : (strayDelimiter c u.length ++
      (strays v).map (shiftStray (u.length + 1))).filter (·.2 < s.first) = [] := by
    rw [List.filter_eq_nil_iff]
    intro stray hstray
    rw [decide_eq_true_eq]
    rcases List.mem_append.mp hstray with hmem | hmem
    · rw [eq_of_mem_strayDelimiter hmem]
      dsimp only
      omega
    · obtain ⟨right, _, rfl⟩ := List.mem_map.mp hmem
      dsimp only [shiftStray]
      omega
  rw [strays_append_cons, List.filter_append, hhidden, List.append_nil]

/-- A malformed run behind the delimiter hides nothing up to the delimiter. -/
theorem filter_strays_append_right :
    (strays (u ++ c :: v)).filter (·.2 < (s.shift (u.length + 1)).first) =
      strays u ++ (strayDelimiter c u.length ++
        ((strays v).filter (·.2 < s.first)).map (shiftStray (u.length + 1))) := by
  have hfirst : (s.shift (u.length + 1)).first = u.length + 1 + s.first := rfl
  have hleft : (strays u).filter (·.2 < (s.shift (u.length + 1)).first) = strays u := by
    rw [List.filter_eq_self]
    intro stray hstray
    have hlt := snd_lt_of_mem_strays hstray
    rw [decide_eq_true_eq]
    omega
  -- Columns of `v` are compared within `v`, and all columns up to the delimiter are smaller.
  have hdelimiter : (strayDelimiter c u.length).filter (·.2 < (s.shift (u.length + 1)).first) =
      strayDelimiter c u.length := by
    rw [List.filter_eq_self]
    intro stray hstray
    rw [eq_of_mem_strayDelimiter hstray, decide_eq_true_eq]
    dsimp only
    omega
  have hright : ((strays v).map (shiftStray (u.length + 1))).filter
      (·.2 < (s.shift (u.length + 1)).first) =
      ((strays v).filter (·.2 < s.first)).map (shiftStray (u.length + 1)) := by
    rw [List.filter_map]
    congr 1
    apply List.filter_congr
    intro stray _
    show decide (u.length + 1 + stray.2 < u.length + 1 + s.first) = decide (stray.2 < s.first)
    rw [decide_eq_decide, Nat.add_lt_add_iff_left]
  rw [strays_append_cons, List.filter_append, List.filter_append, hleft, hdelimiter, hright]

/-- The description of a line is put together from what comes before and after a delimiter. -/
theorem describedScan_append_cons (hc : Text.isWordChar c = false) :
    describedScan start (u ++ c :: v) =
      (describedScan start u).andThen
        ((LineScan.ofDelimiter ⟨c, start.advance u.length⟩).andThen
          (describedScan (start.advance (u.length + 1)) v)) := by
  rw [ofDelimiter_eq hc]
  unfold describedScan
  rw [malformedRun?_append_cons hc]
  cases hu : malformedRun? u with
  | some run =>
    -- What comes before the delimiter ends the scan.
    have hrun := malformedRun?_eq_some hu
    simp only [Option.some_or, LineScan.andThen]
    rw [filter_strays_append_left hrun, Stretch.issue, Stretch.issue,
      Stretch.word_append_left hrun]
  | none =>
    -- The strays in front and the delimiter are reported in any case, and what follows decides.
    cases hv : malformedRun? v with
    | none =>
      simp only [Option.none_or, Option.map_none, LineScan.andThen, Except.map]
      rw [strays_append_cons, List.map_append, List.map_append, map_strayIssue_shift,
        map_token_append_cons hc, List.nil_append]
    | some run =>
      simp only [Option.none_or, Option.map_some, LineScan.andThen, Except.map]
      rw [filter_strays_append_right, List.map_append, List.map_append, map_strayIssue_shift,
        Stretch.issue, Stretch.issue, Stretch.word_append_right, Stretch.span_shift]

end Cut

/-! ## The scanner -/

/-- Every line is scanned as it is described, wherever it starts. -/
theorem LineScan.ofLine_locate (start : Position) (line : List Char) :
    ofLine (LocatedChar.locate start line) = describedScan start line := by
  induction line using line_induction generalizing start with
  | word u hu =>
    rw [ofLine_of_all (LocatedChar.forall_locate start hu), ofRun_locate start hu]
  | delimited u v c hu hc ih =>
    rw [LocatedChar.locate_append, LocatedChar.locate, ofLine_append_cons _ _ hc,
      ofLine_of_all (LocatedChar.forall_locate start hu), ofRun_locate start hu,
      describedScan_append_cons hc, ih, Position.advance_add]
    rfl

end WordLexer
