import Mathlib.Data.Prod.Lex
import Mathlib.Data.String.Basic
import WordLexer.IssueLog

/-!
# The order of issues

Issues are ordered by a key: file-level issues come first, then the others by file, line and column.
The log puts every issue at its place when it is recorded.  This adds up to one stable sort:
whatever was recorded in whatever order, the log holds the stable sort of what it held before,
followed by what was recorded since (`issues_recordAll`).
-/

namespace WordLexer

/-! ## Sorting by a key -/

section SortedByKey

variable {α κ : Type} [LinearOrder κ] {key : α → κ}

theorem key_le_of_mem_of_filter_eq {a b : α} {xs ys : List α}
    (hxs : (a :: xs).Pairwise fun x y => key x ≤ key y)
    (heq : ∀ k, (a :: xs).filter (fun x => key x = k) = (b :: ys).filter fun x => key x = k) :
    key a ≤ key b := by
  have hmem : b ∈ (a :: xs).filter fun x => key x = key b := by
    rw [heq]
    simp
  rcases List.mem_cons.mp (List.mem_of_mem_filter hmem) with rfl | hb
  · exact le_refl _
  · exact (List.pairwise_cons.mp hxs).1 b hb

/-- A list that is sorted by a key is determined by its items of each key. -/
theorem eq_of_sorted_of_filter_eq {xs ys : List α}
    (hxs : xs.Pairwise fun x y => key x ≤ key y) (hys : ys.Pairwise fun x y => key x ≤ key y)
    (heq : ∀ k, xs.filter (fun x => key x = k) = ys.filter fun x => key x = k) : xs = ys := by
  induction xs generalizing ys with
  | nil =>
    cases ys with
    | nil => rfl
    | cons b ys => simpa using heq (key b)
  | cons a xs ih =>
    cases ys with
    | nil => simpa using heq (key a)
    | cons b ys =>
      -- Each head has a key that the other list holds as well, and no smaller one stands there.
      have hkey : key a = key b :=
        le_antisymm (key_le_of_mem_of_filter_eq hxs heq)
          (key_le_of_mem_of_filter_eq hys fun k => (heq k).symm)
      have hab : a = b := by
        have h := heq (key a)
        simp only [hkey, List.filter_cons, decide_true, if_true, List.cons.injEq] at h
        exact h.1
      subst hab
      rw [ih (List.pairwise_cons.mp hxs).2 (List.pairwise_cons.mp hys).2]
      -- The tails have the same items of each key, whether or not the heads are among them.
      intro k
      have h := heq k
      simp only [List.filter_cons] at h
      split at h
      · exact (List.cons.inj h).2
      · exact h

end SortedByKey

/-! ## The key of an issue -/

/-- A number that tells whether there is a place, and then its file, line and column. -/
abbrev SortKey : Type := Nat ×ₗ String ×ₗ Int ×ₗ Int

/-- What places are sorted by.  No place at all comes before every place. -/
def placeKey : Option Place → SortKey
  | none => toLex (0, toLex ("", toLex (0, 0)))
  | some place => toLex (1, toLex (place.file, toLex (place.line, place.column)))

theorem placeKey_injective : Function.Injective placeKey := by
  intro a b h
  cases a with
  | none =>
    cases b with
    | none => rfl
    | some q => simp [placeKey] at h
  | some p =>
    cases b with
    | none => simp [placeKey] at h
    | some q =>
      obtain ⟨file, line, column⟩ := p
      simp only [placeKey, EmbeddingLike.apply_eq_iff_eq, Prod.mk.injEq, true_and] at h
      obtain ⟨rfl, rfl, rfl⟩ := h
      rfl

namespace Issue

def sortKey (issue : Issue) : SortKey := placeKey issue.place?

theorem precedes_iff_sortKey_lt {a b : Issue} : a.Precedes b ↔ a.sortKey < b.sortKey := by
  unfold Precedes sortKey placeKey
  cases a.place? <;> cases b.place? <;>
    simp only [Prod.Lex.toLex_lt_toLex, lt_irrefl, or_false, Nat.one_ne_zero, Nat.zero_ne_one,
      Nat.not_lt_zero, Nat.lt_one_iff, false_and, true_and, false_or, Place.lt_iff]

theorem sortKey_le_of_not_precedes {a b : Issue} (h : ¬ b.Precedes a) :
    a.sortKey ≤ b.sortKey := by
  rw [precedes_iff_sortKey_lt, not_lt] at h
  exact h

theorem not_precedes_of_sortKey_le {a b : Issue} (h : a.sortKey ≤ b.sortKey) :
    ¬ b.Precedes a := by
  rw [precedes_iff_sortKey_lt, not_lt]
  exact h

end Issue

/-! ## The stable sort -/

/-- Issues sorted by their keys; issues with equal keys keep their order. -/
def stableSort (issues : List Issue) : List Issue :=
  issues.mergeSort fun a b => a.sortKey ≤ b.sortKey

@[simp] theorem stableSort_nil : stableSort [] = [] := List.mergeSort_nil

theorem stableSort_perm (issues : List Issue) : (stableSort issues).Perm issues :=
  List.mergeSort_perm issues _

private theorem sortKey_le_trans (a b c : Issue) (hab : decide (a.sortKey ≤ b.sortKey) = true)
    (hbc : decide (b.sortKey ≤ c.sortKey) = true) : decide (a.sortKey ≤ c.sortKey) = true := by
  rw [decide_eq_true_eq] at *
  exact le_trans hab hbc

private theorem sortKey_le_total (a b : Issue) :
    (decide (a.sortKey ≤ b.sortKey) || decide (b.sortKey ≤ a.sortKey)) = true := by
  rw [Bool.or_eq_true, decide_eq_true_eq, decide_eq_true_eq]
  exact le_total _ _

theorem sorted_stableSort (issues : List Issue) :
    (stableSort issues).Pairwise fun a b => a.sortKey ≤ b.sortKey := by
  have h := List.pairwise_mergeSort sortKey_le_trans sortKey_le_total issues
  exact h.imp of_decide_eq_true

/-- Stability: the issues of one key stand in the order in which they stood before. -/
theorem filter_stableSort (issues : List Issue) (k : SortKey) :
    (stableSort issues).filter (fun a => a.sortKey = k) =
      issues.filter fun a => a.sortKey = k := by
  have hsorted : (issues.filter fun a => a.sortKey = k).Pairwise
      fun a b => decide (a.sortKey ≤ b.sortKey) = true := by
    apply List.pairwise_of_forall_mem_list
    intro a ha b hb
    have hka : a.sortKey = k := by simpa using (List.mem_filter.mp ha).2
    have hkb : b.sortKey = k := by simpa using (List.mem_filter.mp hb).2
    rw [decide_eq_true_eq, hka, hkb]
  -- Issues of one key are a sorted sublist, which the sort keeps; and it has no other ones.
  have hsub : (issues.filter fun a => a.sortKey = k).Sublist (stableSort issues) :=
    List.sublist_mergeSort sortKey_le_trans sortKey_le_total hsorted List.filter_sublist
  have hfilter := hsub.filter fun a => a.sortKey = k
  rw [List.filter_filter] at hfilter
  simp only [Bool.and_self] at hfilter
  have hlength := ((stableSort_perm issues).filter fun a => a.sortKey = k).length_eq
  exact (hfilter.eq_of_length hlength.symm).symm

/-- The stable sort is the only sorted list that keeps the issues of each key in order. -/
theorem eq_stableSort {sorted issues : List Issue}
    (hsorted : sorted.Pairwise fun a b => a.sortKey ≤ b.sortKey)
    (hfilter : ∀ k, sorted.filter (fun a => a.sortKey = k) =
      issues.filter fun a => a.sortKey = k) : sorted = stableSort issues := by
  apply eq_of_sorted_of_filter_eq hsorted (sorted_stableSort issues)
  intro k
  rw [hfilter, filter_stableSort]

/-- Lists with the same issues of each key have the same stable sort. -/
theorem stableSort_congr {xs ys : List Issue}
    (h : ∀ k, xs.filter (fun a => a.sortKey = k) = ys.filter fun a => a.sortKey = k) :
    stableSort xs = stableSort ys := by
  apply eq_stableSort (sorted_stableSort xs)
  intro k
  rw [filter_stableSort, h]

/-! ## Issues about whole files -/

def Issue.isFileLevel (issue : Issue) : Bool := issue.span.isNone

theorem Issue.isFileLevel_iff_place? {issue : Issue} :
    issue.isFileLevel = true ↔ issue.place? = none := by
  rw [isFileLevel, place?, Option.map_eq_none_iff, Option.isNone_iff_eq_none]

theorem Issue.isFileLevel_iff {issue : Issue} :
    issue.isFileLevel = true ↔ issue.sortKey = placeKey none := by
  rw [isFileLevel_iff_place?, sortKey, placeKey_injective.eq_iff]

theorem Issue.isFileLevel_eq (issue : Issue) :
    issue.isFileLevel = decide (issue.sortKey = placeKey none) := by
  rw [Bool.eq_iff_iff, isFileLevel_iff, decide_eq_true_eq]

theorem Issue.sortKey_le_of_isFileLevel {a : Issue} (ha : a.isFileLevel = true) (b : Issue) :
    a.sortKey ≤ b.sortKey := by
  apply sortKey_le_of_not_precedes
  unfold Precedes
  rw [isFileLevel_iff_place?.mp ha]
  cases b.place? <;> exact not_false

/-- Sorting moves the issues about whole files to the front and sorts the others. -/
theorem stableSort_eq_append (issues : List Issue) :
    stableSort issues =
      issues.filter Issue.isFileLevel ++ stableSort (issues.filter fun a => !a.isFileLevel) := by
  symm
  apply eq_stableSort
  · rw [List.pairwise_append]
    refine ⟨?_, sorted_stableSort _, ?_⟩
    · apply List.pairwise_of_forall_mem_list
      intro a ha b _
      exact Issue.sortKey_le_of_isFileLevel (List.mem_filter.mp ha).2 b
    · intro a ha b _
      exact Issue.sortKey_le_of_isFileLevel (List.mem_filter.mp ha).2 b
  · intro k
    rw [List.filter_append, filter_stableSort, List.filter_filter, List.filter_filter]
    simp only [Issue.isFileLevel_eq]
    by_cases hk : k = placeKey none
    · -- All issues of this key are about whole files, and otherwise none of them is.
      subst hk
      simp
    · have hfront : ∀ a : Issue,
          (decide (a.sortKey = k) && decide (a.sortKey = placeKey none)) = false := by
        intro a
        rw [Bool.and_eq_false_imp, decide_eq_true_eq, decide_eq_false_iff_not]
        exact fun ha => ha ▸ hk
      have hback : ∀ a : Issue,
          (decide (a.sortKey = k) && !decide (a.sortKey = placeKey none)) =
            decide (a.sortKey = k) := by
        intro a
        rw [Bool.and_eq_left_iff_imp, decide_eq_true_eq, Bool.not_eq_true',
          decide_eq_false_iff_not]
        exact fun ha => ha ▸ hk
      simp only [hfront, hback, List.filter_false, List.nil_append]

/-! ## The log -/

namespace IssueLog

theorem sorted_sortKey (log : IssueLog) :
    log.issues.Pairwise fun a b => a.sortKey ≤ b.sortKey :=
  log.sorted.imp Issue.sortKey_le_of_not_precedes

/-- From the first issue on that a new one precedes, all keys are greater than its key. -/
theorem sortKey_lt_of_mem_back {log : IssueLog} {issue other : Issue}
    (h : other ∈ log.back issue) : issue.sortKey < other.sortKey := by
  have hsorted := (log.sorted_back issue).imp Issue.sortKey_le_of_not_precedes
  cases hback : log.back issue with
  | nil =>
    rw [hback] at h
    cases h
  | cons first rest =>
    have hfirst := Issue.precedes_iff_sortKey_lt.mp (precedes_of_back_eq_cons hback)
    rw [hback] at h hsorted
    rcases List.mem_cons.mp h with rfl | hrest
    · exact hfirst
    · exact lt_of_lt_of_le hfirst ((List.pairwise_cons.mp hsorted).1 other hrest)

/-- An issue is put behind all issues of its key. -/
theorem filter_record (log : IssueLog) (issue : Issue) (k : SortKey) :
    (log.record issue).issues.filter (fun a => a.sortKey = k) =
      (log.issues ++ [issue]).filter fun a => a.sortKey = k := by
  have hissues : log.issues.filter (fun a => a.sortKey = k) =
      (log.front issue).filter (fun a => a.sortKey = k) ++
        (log.back issue).filter fun a => a.sortKey = k := by
    rw [← List.filter_append, log.front_append_back issue]
  rw [record, List.filter_append, List.filter_append, hissues, List.filter_cons]
  by_cases hk : issue.sortKey = k
  · have hback : (log.back issue).filter (fun a => a.sortKey = k) = [] := by
      apply List.filter_eq_nil_iff.mpr
      intro a ha
      rw [decide_eq_true_eq, ← hk]
      exact (sortKey_lt_of_mem_back ha).ne'
    simp [hback, hk]
  · simp [hk]

theorem filter_recordAll (log : IssueLog) (issues : List Issue) (k : SortKey) :
    (log.recordAll issues).issues.filter (fun a => a.sortKey = k) =
      (log.issues ++ issues).filter fun a => a.sortKey = k := by
  induction issues generalizing log with
  | nil => simp
  | cons issue rest ih =>
    rw [recordAll_cons, ih, List.filter_append, filter_record, ← List.filter_append,
      List.append_assoc, List.singleton_append]

/-- Recording issues one after the other sorts them, stably, into what the log held. -/
theorem issues_recordAll (log : IssueLog) (issues : List Issue) :
    (log.recordAll issues).issues = stableSort (log.issues ++ issues) :=
  eq_stableSort (sorted_sortKey _) (filter_recordAll log issues)

end IssueLog

/-- Sorting what was sorted before together with further issues is one sort of all of them. -/
theorem stableSort_stableSort_append (xs ys : List Issue) :
    stableSort (stableSort xs ++ ys) = stableSort (xs ++ ys) := by
  apply eq_stableSort (sorted_stableSort _)
  intro k
  rw [filter_stableSort, List.filter_append, filter_stableSort, List.filter_append]

/-- No issue overtakes another one when further issues are sorted in. -/
theorem stableSort_sublist_append (xs ys : List Issue) :
    (stableSort xs).Sublist (stableSort (xs ++ ys)) := by
  rw [← stableSort_stableSort_append]
  apply List.sublist_mergeSort sortKey_le_trans sortKey_le_total
  · exact (sorted_stableSort xs).imp decide_eq_true
  · exact List.sublist_append_left _ _

/-- The issues that are recorded later come between those of the log and never take their place. -/
theorem IssueLog.sublist_recordAll (log : IssueLog) (issues : List Issue) :
    log.issues.Sublist (log.recordAll issues).issues := by
  have hlog : log.issues = stableSort log.issues :=
    eq_stableSort log.sorted_sortKey fun _ => rfl
  rw [issues_recordAll]
  exact (congrArg (List.Sublist · _) hlog).mpr (stableSort_sublist_append log.issues issues)

/-! ## The order in words -/

/-- `issues` holds what was recorded in the order in which it is shown. -/
structure Arranged (recorded issues : List Issue) : Prop where
  -- Nothing is lost, repeated or altered.
  perm : issues.Perm recorded
  -- File-level issues come first, in the order in which they were recorded.
  fileLevel_first : (recorded.filter fun a => a.place? = none) <+: issues
  -- The others follow in the order of their places.
  places_sorted : (issues.filterMap Issue.place?).Pairwise fun p q => ¬ q < p
  -- Issues at one place stand in the order in which they were recorded.
  ties : ∀ place, issues.filter (fun a => a.place? = some place) =
    recorded.filter fun a => a.place? = some place

private theorem filter_place?_stableSort (issues : List Issue) (place : Option Place) :
    (stableSort issues).filter (fun a => a.place? = place) =
      issues.filter fun a => a.place? = place := by
  -- The issues at one place are the issues of one key.
  have hkey : ∀ xs : List Issue, xs.filter (fun a => a.place? = place) =
      xs.filter fun a => a.sortKey = placeKey place := by
    intro xs
    apply List.filter_congr
    intro a _
    rw [decide_eq_decide, Issue.sortKey, placeKey_injective.eq_iff]
  rw [hkey, hkey, filter_stableSort]

theorem arranged_stableSort (recorded : List Issue) : Arranged recorded (stableSort recorded) where
  perm := stableSort_perm recorded
  fileLevel_first := by
    have hfileLevel : recorded.filter (fun a => a.place? = none) =
        recorded.filter Issue.isFileLevel := by
      apply List.filter_congr
      intro a _
      rw [Bool.eq_iff_iff, decide_eq_true_eq, Issue.isFileLevel_iff_place?]
    rw [hfileLevel, stableSort_eq_append]
    exact List.prefix_append _ _
  places_sorted := by
    rw [List.pairwise_filterMap]
    apply (sorted_stableSort recorded).imp
    intro a b hle p hp q hq
    have h := Issue.not_precedes_of_sortKey_le hle
    rw [Issue.Precedes, hp, hq] at h
    exact h
  ties := fun place => filter_place?_stableSort recorded (some place)

end WordLexer
