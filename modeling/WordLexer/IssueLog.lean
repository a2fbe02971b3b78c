import WordLexer.Issue

/-!
# The log of issues

The log holds the issues that were recorded so far in the order in which they are shown: no issue
stands before one that precedes it, and of issues with equal places the one recorded first comes
first.
-/

namespace WordLexer

/-- Issues in showing order. -/
structure IssueLog where
  issues : List Issue
  sorted : issues.Pairwise fun a b => ¬ b.Precedes a

namespace IssueLog

def empty : IssueLog := ⟨[], .nil⟩

def isClean (log : IssueLog) : Bool := log.issues.isEmpty

/-! ## Recording -/

/-- The issues of a log that stay in front of a new one. -/
def front (log : IssueLog) (issue : Issue) : List Issue :=
  log.issues.takeWhile fun other => !issue.Precedes other

/-- The issues of a log from the first one on that a new one precedes. -/
def back (log : IssueLog) (issue : Issue) : List Issue :=
  log.issues.dropWhile fun other => !issue.Precedes other

theorem front_append_back (log : IssueLog) (issue : Issue) :
    log.front issue ++ log.back issue = log.issues := List.takeWhile_append_dropWhile

theorem not_precedes_of_mem_front {log : IssueLog} {issue other : Issue}
    (h : other ∈ log.front issue) : ¬ issue.Precedes other := by
  have hall := List.all_takeWhile (l := log.issues) (p := fun other => !issue.Precedes other)
  have hother := List.all_eq_true.mp hall other h
  rwa [Bool.not_eq_true', decide_eq_false_iff_not] at hother

theorem precedes_of_back_eq_cons {log : IssueLog} {issue first : Issue} {rest : List Issue}
    (h : log.back issue = first :: rest) : issue.Precedes first := by
  have hfirst := List.head?_dropWhile_not (fun other => !issue.Precedes other) log.issues
  rw [← back, h] at hfirst
  simpa using hfirst

theorem sorted_back (log : IssueLog) (issue : Issue) :
    (log.back issue).Pairwise fun a b => ¬ b.Precedes a :=
  log.sorted.sublist (List.dropWhile_sublist _)

/-- Behind the first issue that a new one precedes, no issue precedes the new one. -/
theorem not_precedes_of_mem_back {log : IssueLog} {issue other : Issue}
    (h : other ∈ log.back issue) : ¬ other.Precedes issue := by
  have hsorted := log.sorted_back issue
  cases hback : log.back issue with
  | nil =>
    rw [hback] at h
    cases h
  | cons first rest =>
    have hfirst := precedes_of_back_eq_cons hback
    rw [hback] at h hsorted
    rcases List.mem_cons.mp h with rfl | hrest
    · exact hfirst.asymm
    · exact fun hother => (List.pairwise_cons.mp hsorted).1 other hrest (hother.trans hfirst)

theorem sorted_record (log : IssueLog) (issue : Issue) :
    (log.front issue ++ issue :: log.back issue).Pairwise fun a b => ¬ b.Precedes a := by
  have hsorted := log.sorted
  rw [← log.front_append_back issue, List.pairwise_append] at hsorted
  obtain ⟨hfront, hback, hacross⟩ := hsorted
  rw [List.pairwise_append, List.pairwise_cons]
  refine ⟨hfront, ⟨fun _ => not_precedes_of_mem_back, hback⟩, fun a ha b hb => ?_⟩
  rcases List.mem_cons.mp hb with rfl | hb
  · exact not_precedes_of_mem_front ha
  · exact hacross a ha b hb

/-- Put an issue in front of the first one that it precedes. -/
def record (log : IssueLog) (issue : Issue) : IssueLog :=
  ⟨log.front issue ++ issue :: log.back issue, log.sorted_record issue⟩

def recordAll (log : IssueLog) (issues : List Issue) : IssueLog := issues.foldl record log

@[simp] theorem recordAll_nil (log : IssueLog) : log.recordAll [] = log := rfl

@[simp] theorem recordAll_cons (log : IssueLog) (issue : Issue) (issues : List Issue) :
    log.recordAll (issue :: issues) = (log.record issue).recordAll issues := rfl

theorem recordAll_append (log : IssueLog) (xs ys : List Issue) :
    log.recordAll (xs ++ ys) = (log.recordAll xs).recordAll ys := by
  simp [recordAll]

/-- Recording loses, alters and repeats nothing. -/
theorem recordAll_perm (log : IssueLog) (issues : List Issue) :
    (log.recordAll issues).issues.Perm (log.issues ++ issues) := by
  induction issues generalizing log with
  | nil => simp
  | cons issue rest ih =>
    have hrecord : (log.record issue).issues.Perm (issue :: log.issues) := by
      rw [record, ← log.front_append_back issue]
      exact List.perm_middle
    rw [recordAll_cons]
    exact (ih _).trans ((hrecord.append_right rest).trans List.perm_middle.symm)

/-! ## Showing -/

/-- Issues as they are shown in a row, each with a line break after it. -/
def renderAll (issues : List Issue) : String :=
  String.join (issues.map fun issue => issue.render ++ "\n")

/-- Everything that the log holds. -/
def render (log : IssueLog) : String := renderAll log.issues

/-- Why the log cannot be shown: the first fault of its issues. -/
def fault? (machine : Machine) (log : IssueLog) : Option Fault :=
  log.issues.findSome? (·.fault? machine)

/-- The issues that are shown: those in front of the first one that cannot be. -/
def shown (machine : Machine) (log : IssueLog) : List Issue :=
  log.issues.takeWhile fun issue => (issue.fault? machine).isNone

end IssueLog

end WordLexer
