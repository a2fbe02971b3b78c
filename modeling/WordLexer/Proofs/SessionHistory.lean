import Mathlib.Data.List.DropRight
import WordLexer.Proofs.ProgramRun
import WordLexer.Session

/-!
# The history of a session

Every request of a session makes some issues known, which depend on the disk and not on what came
before.  A step adds them to the log (`log_answer`), and so the log always holds the stable sort of
what was made known since it was cleared last (`issues_logAfter`).  What the lexer finds can be
shown, so a log can be shown if the issues that were found elsewhere can (`fault?_logAfter`).
-/

namespace WordLexer.Session

/-! ## What is made known -/

/-- The issues that a request makes known, in the order in which they are met. -/
def recorded (disk : Disk) : Request → List Issue
  | .run arguments =>
    match CommandLine.parse arguments with
    | .ok options => (Program.reached options).flatMap (fileIssues disk)
    | .error _ => []
  | .read file =>
    if isFileName file then
      match disk.readText file with
      | .ok _ => []
      | .error issue => [issue]
    else []
  | .lexFile file _ => if isFileName file then fileIssues disk file else []
  | .lexText file text => (lex file text).issues
  | .record issue => [issue]
  | .print => []
  | .clear => []
  | .look => []

def Request.isClear : Request → Bool
  | .clear => true
  | _ => false

/-- The steps since the log was cleared last. -/
def sinceClear (steps : List Step) : List Step :=
  steps.rtakeWhile fun step => !step.request.isClear

/-- All issues that were made known since the log was cleared last. -/
def history (steps : List Step) : List Issue :=
  (sinceClear steps).flatMap fun step => recorded step.disk step.request

theorem history_clear (steps : List Step) {step : Step} (hclear : step.request.isClear = true) :
    history (steps ++ [step]) = [] := by
  rw [history, sinceClear, List.rtakeWhile_concat_neg _ _ _ (by simp [hclear]), List.flatMap_nil]

theorem history_step (steps : List Step) {step : Step} (hclear : step.request.isClear = false) :
    history (steps ++ [step]) = history steps ++ recorded step.disk step.request := by
  rw [history, sinceClear, List.rtakeWhile_concat_pos _ _ _ (by simp [hclear]),
    List.flatMap_append, List.flatMap_singleton]
  rfl

/-! ## One step -/

theorem log_clear (machine : Machine) (disk : Disk) (log : IssueLog) {request : Request}
    (hclear : request.isClear = true) : (answer machine disk log request).2 = .empty := by
  cases request with
  | clear => rfl
  | _ => cases hclear

/-- A request that does not clear the log records what it makes known. -/
theorem log_answer (machine : Machine) (disk : Disk) (log : IssueLog) {request : Request}
    (hclear : request.isClear = false) :
    (answer machine disk log request).2 = log.recordAll (recorded disk request) := by
  cases request with
  | run arguments =>
    show (Program.run machine disk arguments log).2 = _
    rw [Program.run, recorded]
    cases CommandLine.parse arguments with
    | ok options => exact Program.log_perform machine disk options log
    | error interruption => rfl
  | read file =>
    rw [answer, recorded]
    cases isFileName file with
    | true => cases disk.readText file <;> rfl
    | false => rfl
  | lexFile file quiet =>
    rw [answer, recorded]
    cases isFileName file with
    | true =>
      show log.recordAll (disk.lexFile file).issues = log.recordAll (fileIssues disk file)
      rw [issues_lexFile]
    | false => rfl
  | lexText file text => rfl
  | record issue => rfl
  | print =>
    rw [answer]
    cases log.fault? machine <;> rfl
  | clear => cases hclear
  | look => rfl

/-! ## All steps -/

/-- The log after the steps of a session, which starts with an empty one. -/
def logAfter (machine : Machine) (steps : List Step) : IssueLog :=
  steps.foldl (fun log step => (answer machine step.disk log step.request).2) .empty

theorem logAfter_concat (machine : Machine) (steps : List Step) (step : Step) :
    logAfter machine (steps ++ [step]) =
      (answer machine step.disk (logAfter machine steps) step.request).2 := by
  rw [logAfter, List.foldl_append]
  rfl

/-- What is answered to a step depends on the log that the earlier steps leave. -/
theorem answers_append_cons (machine : Machine) (log : IssueLog) (earlier later : List Step)
    (step : Step) :
    (answers machine log (earlier ++ step :: later))[earlier.length]? =
      some (answer machine step.disk
        (earlier.foldl (fun log step => (answer machine step.disk log step.request).2) log)
        step.request) := by
  induction earlier generalizing log with
  | nil => rfl
  | cons first rest ih => exact ih _

theorem issues_logAfter (machine : Machine) (steps : List Step) :
    (logAfter machine steps).issues = stableSort (history steps) := by
  -- The last step decides: either it clears the log or it adds to the history.
  induction steps using List.reverseRecOn with
  | nil => exact (stableSort_nil).symm
  | append_singleton steps step ih =>
    rw [logAfter_concat]
    by_cases hclear : step.request.isClear = true
    · rw [log_clear _ _ _ hclear, history_clear _ hclear]
      exact (stableSort_nil).symm
    · have hkeep := eq_false_of_ne_true hclear
      rw [log_answer _ _ _ hkeep, IssueLog.issues_recordAll, ih, history_step _ hkeep,
        stableSort_stableSort_append]

/-! ## Issues that were found elsewhere -/

/-- The issue of a request that records an issue which was found elsewhere. -/
def Request.found? : Request → Option Issue
  | .record issue => some issue
  | _ => none

/-- The issues that were found elsewhere and recorded since the log was cleared last. -/
def foundElsewhere (steps : List Step) : List Issue :=
  (sinceClear steps).filterMap fun step => step.request.found?

/-- There is room for every text that a step lexes. -/
def Step.HasRoom (machine : Machine) (step : Step) : Prop :=
  match step.request with
  | .run arguments => ∀ options, CommandLine.parse arguments = .ok options →
      ∀ file ∈ options.files, machine.HasRoomForFile step.disk file
  | .lexFile file _ => machine.HasRoomForFile step.disk file
  | .lexText _ text => machine.HasRoomFor text
  | _ => True

theorem found?_of_mem_recorded {machine : Machine} {step : Step} (hroom : step.HasRoom machine)
    {issue : Issue} (h : issue ∈ recorded step.disk step.request)
    (hfault : issue.fault? machine ≠ none) : step.request.found? = some issue := by
  obtain ⟨disk, request⟩ := step
  cases request with
  | run arguments =>
    rw [recorded] at h
    cases hparse : CommandLine.parse arguments with
    | ok options =>
      rw [hparse] at h
      have hfiles : ∀ file ∈ Program.reached options, machine.HasRoomForFile disk file :=
        fun file hfile => hroom options hparse file ((List.takeWhile_sublist _).subset hfile)
      exact absurd (fault?_of_mem_flatMap hfiles issue h) hfault
    | error _ =>
      rw [hparse] at h
      cases h
  | read file =>
    rw [recorded] at h
    split at h
    · cases hread : disk.readText file with
      | ok _ =>
        rw [hread] at h
        cases h
      | error found =>
        rw [hread] at h
        rw [List.mem_singleton.mp h, readText_eq_error hread] at hfault
        exact absurd rfl hfault
    · cases h
  | lexFile file quiet =>
    rw [recorded] at h
    split at h
    · exact absurd (fault?_of_mem_fileIssues hroom h) hfault
    · cases h
  | lexText file text => exact absurd (fault?_of_mem_lex hroom h) hfault
  | record found => exact congrArg some (List.mem_singleton.mp h).symm
  | print | clear | look => cases h

theorem mem_recorded_of_found? {step : Step} {issue : Issue}
    (h : step.request.found? = some issue) : issue ∈ recorded step.disk step.request := by
  obtain ⟨disk, request⟩ := step
  cases request with
  | record found =>
    obtain rfl := Option.some.inj h
    exact List.mem_singleton_self found
  | _ => cases h

/-- Where there is room for all texts, a log can be shown exactly if the issues that were found
elsewhere can. -/
theorem fault?_logAfter {machine : Machine} {steps : List Step}
    (hroom : ∀ step ∈ sinceClear steps, step.HasRoom machine) :
    (logAfter machine steps).fault? machine = none ↔
      ∀ issue ∈ foundElsewhere steps, issue.fault? machine = none := by
  rw [IssueLog.fault?_eq_none_iff, issues_logAfter]
  simp only [(stableSort_perm _).mem_iff, history, foundElsewhere, List.mem_flatMap,
    List.mem_filterMap]
  constructor
  · rintro h issue ⟨step, hstep, hfound⟩
    exact h issue ⟨step, hstep, mem_recorded_of_found? hfound⟩
  · rintro h issue ⟨step, hstep, hrecorded⟩
    by_contra hfault
    exact hfault (h issue ⟨step, hstep, found?_of_mem_recorded (hroom step hstep) hrecorded hfault⟩)

/-! ## Runs with a history -/

/-- The step is a run that asks for work, and a disk takes the names of its files. -/
def Step.IsWork (step : Step) : Prop :=
  ∃ arguments options, step.request = .run arguments ∧
    CommandLine.parse arguments = .ok options ∧ ∀ file ∈ options.files, isFileName file = true

theorem foundElsewhere_concat (earlier : List Step) {step : Step} (hwork : step.IsWork) :
    foundElsewhere (earlier ++ [step]) = foundElsewhere earlier := by
  obtain ⟨disk, request⟩ := step
  obtain ⟨arguments, -, rfl, -⟩ := hwork
  rw [foundElsewhere, sinceClear, List.rtakeWhile_concat_pos _ _ _ rfl, List.filterMap_append]
  exact List.append_nil _

/-- How a run ends that does its work is up to the log that it leaves. -/
theorem exists_answer_of_isWork (machine : Machine) (earlier : List Step) {step : Step}
    (hwork : step.IsWork) :
    ∃ output, (answer machine step.disk (logAfter machine earlier) step.request).1 =
      .ran (.ended ((logAfter machine (earlier ++ [step])).fault? machine)
        (Program.status (logAfter machine (earlier ++ [step]))) output) := by
  obtain ⟨disk, request⟩ := step
  obtain ⟨arguments, options, rfl, hparse, hnames⟩ := hwork
  have hrun : Program.run machine disk arguments (logAfter machine earlier) = _ :=
    Program.run_of_isFileName machine disk hparse hnames rfl
  rw [logAfter_concat, answer]
  dsimp only
  rw [hrun]
  exact ⟨_, rfl⟩

/-! ## What the history tells -/

/-- The request changes nothing: it shows the log, looks at it, or is a command line that asks for
no work. -/
def Request.IsIdle : Request → Prop
  | .run arguments => ∃ interruption, CommandLine.parse arguments = .error interruption
  | .print => True
  | .look => True
  | _ => False

theorem recorded_of_isIdle (disk : Disk) {request : Request} (hidle : request.IsIdle) :
    recorded disk request = [] ∧ request.isClear = false := by
  cases request with
  | run arguments =>
    obtain ⟨interruption, hparse⟩ := hidle
    rw [recorded, hparse]
    exact ⟨rfl, rfl⟩
  | print => exact ⟨rfl, rfl⟩
  | look => exact ⟨rfl, rfl⟩
  | _ => cases hidle

/-- What holds of a step of a session: `before` and `after` are the logs around it. -/
structure Follows (machine : Machine) (earlier : List Step) (step : Step)
    (before after : IssueLog) (reply : Reply) : Prop where
  before_eq : before.issues = stableSort (history earlier)
  after_eq : after.issues = stableSort (history (earlier ++ [step]))
  arranged : Arranged (history (earlier ++ [step])) after.issues
  -- No issue goes away or is overtaken.
  keeps : step.request.isClear = false → before.issues.Sublist after.issues
  unchanged : step.request.IsIdle → after = before
  isClean_iff : after.isClean = true ↔ history (earlier ++ [step]) = []
  -- Once there is an issue, a run that does its work ends with status one.  Only an issue that was
  -- found elsewhere and cannot be shown keeps it from having a status.
  complains : step.IsWork → (∀ s ∈ sinceClear (earlier ++ [step]), s.HasRoom machine) →
    history earlier ≠ [] →
    if ∀ issue ∈ foundElsewhere earlier, issue.fault? machine = none then
      ∃ output, reply = .ran (.finished 1 output)
    else ∃ fault output, reply = .ran (.failed fault output)

theorem stableSort_eq_nil_iff {issues : List Issue} : stableSort issues = [] ↔ issues = [] := by
  rw [← List.perm_nil, (stableSort_perm issues).congr_left, List.perm_nil]

theorem isClean_iff_history {log : IssueLog} {steps : List Step}
    (hlog : log.issues = stableSort (history steps)) :
    log.isClean = true ↔ history steps = [] := by
  rw [IssueLog.isClean, List.isEmpty_iff, hlog, stableSort_eq_nil_iff]

theorem status_logAfter (machine : Machine) {steps : List Step} (h : history steps ≠ []) :
    Program.status (logAfter machine steps) = 1 := by
  have hle := Program.status_le_one (logAfter machine steps)
  have hne : Program.status (logAfter machine steps) ≠ 0 := by
    rw [Ne, Program.status_eq_zero_iff, issues_logAfter, stableSort_eq_nil_iff]
    exact h
  omega

theorem history_concat_ne_nil {earlier : List Step} {step : Step} (hwork : step.IsWork)
    (h : history earlier ≠ []) : history (earlier ++ [step]) ≠ [] := by
  obtain ⟨arguments, -, hrequest, -⟩ := hwork
  rw [history_step earlier (by rw [hrequest]; rfl)]
  exact List.append_ne_nil_of_left_ne_nil h _

theorem answer_complains {machine : Machine} {earlier : List Step} {step : Step}
    (hwork : step.IsWork) (hroom : ∀ s ∈ sinceClear (earlier ++ [step]), s.HasRoom machine)
    (hhistory : history earlier ≠ []) :
    if ∀ issue ∈ foundElsewhere earlier, issue.fault? machine = none then
      ∃ output, (answer machine step.disk (logAfter machine earlier) step.request).1 =
        .ran (.finished 1 output)
    else ∃ fault output, (answer machine step.disk (logAfter machine earlier) step.request).1 =
      .ran (.failed fault output) := by
  obtain ⟨output, hanswer⟩ := exists_answer_of_isWork machine earlier hwork
  have hfault := fault?_logAfter hroom
  rw [foundElsewhere_concat earlier hwork] at hfault
  rw [hanswer, status_logAfter machine (history_concat_ne_nil hwork hhistory)]
  split
  · rename_i hshown
    rw [hfault.mpr hshown]
    exact ⟨output, rfl⟩
  · rename_i hnot
    obtain ⟨fault, hsome⟩ := Option.ne_none_iff_exists'.mp (mt hfault.mp hnot)
    rw [hsome]
    exact ⟨fault, output, rfl⟩

/-- Every step of a session leaves the stable sort of the issues that were made known since the log
was cleared last. -/
theorem follows_answers (machine : Machine) (earlier later : List Step) (step : Step) :
    ∃ reply after,
      (answers machine .empty (earlier ++ step :: later))[earlier.length]? = some (reply, after) ∧
      Follows machine earlier step (logAfter machine earlier) after reply := by
  refine ⟨_, _, answers_append_cons machine .empty earlier later step, ?_⟩
  have hbefore := issues_logAfter machine earlier
  have hafter := issues_logAfter machine (earlier ++ [step])
  rw [logAfter_concat] at hafter
  exact {
    before_eq := hbefore
    after_eq := hafter
    arranged := by
      have h := arranged_stableSort (history (earlier ++ [step]))
      rw [← hafter] at h
      exact h
    keeps := by
      intro hclear
      have h := stableSort_sublist_append (history earlier) (recorded step.disk step.request)
      rw [← history_step earlier hclear, ← hbefore, ← hafter] at h
      exact h
    unchanged := by
      intro hidle
      obtain ⟨hnone, hclear⟩ := recorded_of_isIdle step.disk hidle
      show (answer machine step.disk (logAfter machine earlier) step.request).2 = _
      rw [log_answer _ _ _ hclear, hnone, IssueLog.recordAll_nil]
    isClean_iff := isClean_iff_history hafter
    complains := answer_complains }

/-- An issue was found elsewhere, and then the program is run with a file that has a stray character
and one that is missing. -/
theorem follows_answers_two_files :
    ∃ output after,
      (answers .ordinary .empty
        [⟨Program.oneFile, .record Program.oddIssue⟩,
          ⟨Program.oneFile, .run ["a.l", "b.l"]⟩])[1]? =
          some (.ran (.finished 1 output), after) ∧
      after.issues = [.unreadableFile "b.l", Program.oddIssue,
        ⟨.strayCharacter '+', some (.single ⟨⟨"a.l", 1, 4⟩, "fn +"⟩)⟩] := by
  obtain ⟨reply, after, hanswer, hfollows⟩ :=
    follows_answers .ordinary [⟨Program.oneFile, .record Program.oddIssue⟩] []
      ⟨Program.oneFile, .run ["a.l", "b.l"]⟩
  have hwork : Step.IsWork ⟨Program.oneFile, .run ["a.l", "b.l"]⟩ :=
    ⟨["a.l", "b.l"], ⟨["a.l", "b.l"], false, false⟩, rfl, rfl, by decide⟩
  have hroom : ∀ step ∈ sinceClear [⟨Program.oneFile, .record Program.oddIssue⟩,
      ⟨Program.oneFile, .run ["a.l", "b.l"]⟩], step.HasRoom .ordinary := by
    intro step hstep
    have hmem := (List.rtakeWhile_suffix _ _).subset hstep
    rw [List.mem_cons, List.mem_singleton] at hmem
    rcases hmem with rfl | rfl
    · trivial
    · exact fun _ _ file _ => Program.hasRoomForFile_oneFile file
  have hcomplains := hfollows.complains hwork hroom (List.cons_ne_nil Program.oddIssue [])
  rw [if_pos (by decide)] at hcomplains
  obtain ⟨output, rfl⟩ := hcomplains
  have hafter := Option.some.inj (congrArg (Option.map Prod.snd) hanswer)
  refine ⟨output, after, hanswer, ?_⟩
  rw [← show _ = after from hafter]
  rfl

/-- An issue with a column out of range and a file name with the null character both take the
status away from a run that comes after an issue. -/
theorem answers_without_status :
    (CommandLine.parse ["-z-list-keywords"] = .ok ⟨[], true, false⟩ ∧
      ∃ output, ((answers .ordinary .empty
        [⟨fun _ => none, .record Program.farIssue⟩,
          ⟨fun _ => none, .run ["-z-list-keywords"]⟩])[1]?).map Prod.fst =
        some (.ran (.failed .lengthOutOfRange output))) ∧
    CommandLine.parse ["a\x00b"] = .ok ⟨["a\x00b"], false, false⟩ ∧
      ((answers .ordinary .empty
        [⟨fun _ => none, .read "a.l"⟩, ⟨fun _ => none, .run ["a\x00b"]⟩])[1]?).map Prod.fst =
        some (.ran (.failed .nulInName "")) :=
  ⟨⟨rfl, _, rfl⟩, rfl, rfl⟩

end WordLexer.Session
