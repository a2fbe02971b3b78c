import WordLexer.Proofs.ProgramRun
import WordLexer.Proofs.TextReport

/-!
# The order of the files

A located issue of a file is in that file, so issues of different files never share a place.  The
log sorts issues by their places, and therefore it makes no difference to the located issues in
which order the files are lexed (`locatedIssues_perm`).  Issues about whole files have no place and
stand in the order of the files.
-/

namespace WordLexer

/-! ## Issues of several files -/

theorem file_of_mem_lex {file text : String} {issue : Issue}
    (h : issue ∈ (lex file text).issues) :
    ∃ place, issue.place? = some place ∧ place.file = file := by
  rw [issues_lex, textIssues] at h
  obtain ⟨line, -, hline⟩ := List.mem_flatMap.mp h
  obtain ⟨column, hplace⟩ := place?_of_mem_lineIssues hline
  exact ⟨_, hplace, rfl⟩

theorem isFileLevel_eq_false_of_mem_lex {file text : String} {issue : Issue}
    (h : issue ∈ (lex file text).issues) : issue.isFileLevel = false := by
  obtain ⟨place, hplace, -⟩ := file_of_mem_lex h
  rw [← Bool.not_eq_true, Issue.isFileLevel_iff, Issue.sortKey, placeKey_injective.eq_iff, hplace]
  exact Option.some_ne_none place

/-- A located issue of a file names that file in its place. -/
theorem file_of_mem_fileIssues {disk : Disk} {file : String} {issue : Issue}
    (h : issue ∈ fileIssues disk file) (hlocated : issue.isFileLevel = false) :
    ∃ place, issue.place? = some place ∧ place.file = file := by
  rw [fileIssues] at h
  split at h
  · exact file_of_mem_lex h
  · rw [List.mem_singleton.mp h] at hlocated
    cases hlocated

/-- Issues of two files are never at the same place. -/
theorem file_eq_of_sortKey_eq {disk : Disk} {f g : String} {a b : Issue}
    (ha : a ∈ fileIssues disk f) (hb : b ∈ fileIssues disk g) (hlocated : a.isFileLevel = false)
    (hkey : a.sortKey = b.sortKey) : f = g := by
  have hb' : b.isFileLevel = false := by
    rw [← Bool.not_eq_true, Issue.isFileLevel_iff, ← hkey, ← Issue.isFileLevel_iff, hlocated]
    exact Bool.false_ne_true
  obtain ⟨p, hp, hpf⟩ := file_of_mem_fileIssues ha hlocated
  obtain ⟨q, hq, hqg⟩ := file_of_mem_fileIssues hb hb'
  have hplace := placeKey_injective hkey
  rw [hp, hq] at hplace
  rw [← hpf, ← hqg, Option.some.inj hplace]

/-- If only one item contributes anything, the order of the items does not matter. -/
theorem flatMap_eq_of_perm {α β : Type} {f : α → List β}
    (hone : ∀ x y, f x ≠ [] → f y ≠ [] → x = y) {xs ys : List α} (hperm : xs.Perm ys) :
    xs.flatMap f = ys.flatMap f := by
  induction hperm with
  | nil => rfl
  | cons x _ ih => rw [List.flatMap_cons, List.flatMap_cons, ih]
  | swap x y rest =>
    rw [List.flatMap_cons, List.flatMap_cons, List.flatMap_cons, List.flatMap_cons]
    by_cases hx : f x = []
    · rw [hx, List.nil_append, List.nil_append]
    · by_cases hy : f y = []
      · rw [hy, List.nil_append, List.nil_append]
      · rw [hone x y hx hy]
  | trans _ _ ih ih' => exact ih.trans ih'

/-- The located issues of a log and of files, in the order in which they are shown. -/
def locatedIssues (disk : Disk) (log : IssueLog) (files : List String) : List Issue :=
  stableSort ((log.issues ++ files.flatMap (fileIssues disk)).filter fun a => !a.isFileLevel)

theorem locatedIssues_perm (disk : Disk) (log : IssueLog) {xs ys : List String}
    (hperm : xs.Perm ys) : locatedIssues disk log xs = locatedIssues disk log ys := by
  apply stableSort_congr
  intro k
  rw [List.filter_filter, List.filter_filter, List.filter_append, List.filter_append,
    List.filter_flatMap, List.filter_flatMap]
  congr 1
  -- The issues of one key, of which the log may have some, are in one file only.
  apply flatMap_eq_of_perm _ hperm
  intro f g hf hg
  obtain ⟨a, ha⟩ := List.exists_mem_of_ne_nil _ hf
  obtain ⟨b, hb⟩ := List.exists_mem_of_ne_nil _ hg
  rw [List.mem_filter, Bool.and_eq_true, decide_eq_true_eq, Bool.not_eq_true'] at ha hb
  exact file_eq_of_sortKey_eq ha.1 hb.1 ha.2.2 (ha.2.1.trans hb.2.1.symm)

/-- The files that cannot be read, in their order and as often as they are named. -/
def unreadable (disk : Disk) (files : List String) : List String :=
  files.filter fun file => !(disk.readText file).isOk

theorem filter_isFileLevel_files (disk : Disk) (files : List String) :
    (files.flatMap (fileIssues disk)).filter Issue.isFileLevel =
      (unreadable disk files).map Issue.unreadableFile := by
  induction files with
  | nil => rfl
  | cons file files ih =>
    rw [List.flatMap_cons, List.filter_append, ih, fileIssues, unreadable, unreadable,
      List.filter_cons]
    cases disk.readText file with
    | error issue => rfl
    | ok text =>
      have hnone : (lex file text).issues.filter Issue.isFileLevel = [] := by
        apply List.filter_eq_nil_iff.mpr
        intro issue hissue
        rw [isFileLevel_eq_false_of_mem_lex hissue]
        exact Bool.false_ne_true
      dsimp only
      rw [hnone]
      rfl

/-- The log after files were lexed: first what is about whole files, and then the located issues. -/
theorem issues_recordAll_files (disk : Disk) (log : IssueLog) (files : List String) :
    (log.recordAll (files.flatMap (fileIssues disk))).issues =
      log.issues.filter Issue.isFileLevel ++ (unreadable disk files).map Issue.unreadableFile ++
        locatedIssues disk log files := by
  rw [IssueLog.issues_recordAll, stableSort_eq_append, List.filter_append,
    filter_isFileLevel_files, locatedIssues]

/-! ## Runs with reordered files -/

namespace Program

theorem status_recordAll_perm (disk : Disk) (log : IssueLog) {xs ys : List String}
    (hperm : xs.Perm ys) :
    status (log.recordAll (xs.flatMap (fileIssues disk))) =
      status (log.recordAll (ys.flatMap (fileIssues disk))) := by
  have hzero : status (log.recordAll (xs.flatMap (fileIssues disk))) = 0 ↔
      status (log.recordAll (ys.flatMap (fileIssues disk))) = 0 := by
    rw [status_recordAll_eq_zero_iff, status_recordAll_eq_zero_iff]
    simp only [hperm.mem_iff]
  have hxs := status_le_one (log.recordAll (xs.flatMap (fileIssues disk)))
  have hys := status_le_one (log.recordAll (ys.flatMap (fileIssues disk)))
  omega

/-- Two runs that name the same files in different orders find the same located issues and have the
same status.  What is about whole files and the listings of the files stand in the order of the
command line.  If the log could not be shown before, both runs end with the same fault and print
what comes before it. -/
theorem run_perm (machine : Machine) (disk : Disk) (log : IssueLog) {first second : List String}
    {options reordered : CommandLine.Options}
    (hfirst : CommandLine.parse first = .ok options)
    (hsecond : CommandLine.parse second = .ok reordered)
    (hkeywords : reordered.listKeywords = options.listKeywords)
    (hquiet : reordered.quiet = options.quiet) (hfiles : reordered.files.Perm options.files)
    (hnames : ∀ file ∈ options.files, isFileName file = true)
    (hroom : ∀ file ∈ options.files, machine.HasRoomForFile disk file) :
    ∃ (located : List Issue) (after after' : IssueLog) (printed printed' : String),
      (∀ issue ∈ located, issue.span ≠ none) ∧
      after.issues = log.issues.filter (·.span.isNone) ++
        (unreadable disk options.files).map (fun file => ⟨.unreadableFile file, none⟩) ++
          located ∧
      after'.issues = log.issues.filter (·.span.isNone) ++
        (unreadable disk reordered.files).map (fun file => ⟨.unreadableFile file, none⟩) ++
          located ∧
      printed = (if options.listKeywords then keywordListing else "") ++
        String.join (options.files.map (fileListing disk options.quiet)) ∧
      printed' = (if options.listKeywords then keywordListing else "") ++
        String.join (reordered.files.map (fileListing disk options.quiet)) ∧
      match log.fault? machine with
      | none =>
        ∃ status : Nat,
          run machine disk first log = (.finished status (printed ++ after.render), after) ∧
          run machine disk second log = (.finished status (printed' ++ after'.render), after')
      | some fault =>
        run machine disk first log =
          (.failed fault (printed ++ IssueLog.renderAll (after.shown machine)), after) ∧
        run machine disk second log =
          (.failed fault (printed' ++ IssueLog.renderAll (after'.shown machine)), after') := by
  have hnames' : ∀ file ∈ reordered.files, isFileName file = true :=
    fun file hfile => hnames file (hfiles.mem_iff.mp hfile)
  have hroom' : ∀ file ∈ reordered.files, machine.HasRoomForFile disk file :=
    fun file hfile => hroom file (hfiles.mem_iff.mp hfile)
  have hissues := issues_recordAll_files disk log options.files
  have hissues' := issues_recordAll_files disk log reordered.files
  rw [locatedIssues_perm disk log hfiles] at hissues'
  have hrun := run_of_hasRoom log hfirst hnames hroom rfl
  have hrun' := run_of_hasRoom log hsecond hnames' hroom' rfl
  rw [status_recordAll_perm disk log hfiles, hkeywords, hquiet] at hrun'
  refine ⟨locatedIssues disk log options.files, _, _, _, _, ?_, hissues, hissues', rfl, rfl, ?_⟩
  · intro issue hissue hnone
    have hmem := (stableSort_perm _).mem_iff.mp hissue
    have hlocated := (List.mem_filter.mp hmem).2
    rw [Issue.isFileLevel, hnone] at hlocated
    cases hlocated
  · cases hlog : log.fault? machine with
    | none =>
      rw [hlog] at hrun hrun'
      exact ⟨_, hrun, hrun'⟩
    | some fault =>
      rw [hlog] at hrun hrun'
      exact ⟨hrun, hrun'⟩

/-- An issue is in the log, and a file with a stray character is named twice among two files that
cannot be read. -/
theorem run_perm_repeated_file :
    ∃ (located : List Issue) (after after' : IssueLog) (listings : String),
      located = [oddIssue, ⟨.strayCharacter '+', some (.single ⟨⟨"a.l", 1, 4⟩, "fn +"⟩)⟩,
        ⟨.strayCharacter '+', some (.single ⟨⟨"a.l", 1, 4⟩, "fn +"⟩)⟩] ∧
      after.issues = [.unreadableFile "b.l", .unreadableFile "c.l"] ++ located ∧
      after'.issues = [.unreadableFile "c.l", .unreadableFile "b.l"] ++ located ∧
      listings = "a.l:1:1: keyword fn\na.l:2:1: identifier x\n" ++
        "a.l:1:1: keyword fn\na.l:2:1: identifier x\n" ∧
      run .ordinary oneFile ["a.l", "b.l", "c.l", "a.l"] (IssueLog.empty.record oddIssue) =
        (.finished 1 (listings ++ after.render), after) ∧
      run .ordinary oneFile ["c.l", "a.l", "a.l", "b.l"] (IssueLog.empty.record oddIssue) =
        (.finished 1 (listings ++ after'.render), after') := by
  have hfirst : CommandLine.parse ["a.l", "b.l", "c.l", "a.l"] =
      .ok ⟨["a.l", "b.l", "c.l", "a.l"], false, false⟩ := rfl
  have hsecond : CommandLine.parse ["c.l", "a.l", "a.l", "b.l"] =
      .ok ⟨["c.l", "a.l", "a.l", "b.l"], false, false⟩ := rfl
  obtain ⟨located, after, after', printed, printed', -, hissues, hissues', hprinted, hprinted',
      hmatch⟩ :=
    run_perm .ordinary oneFile (IssueLog.empty.record oddIssue) hfirst hsecond rfl rfl (by decide)
      (by decide) fun file _ => hasRoomForFile_oneFile file
  rw [show (IssueLog.empty.record oddIssue).fault? .ordinary = none from rfl] at hmatch
  obtain ⟨status, hrun, hrun'⟩ := hmatch
  have hlistings : printed' = printed := by
    rw [hprinted, hprinted']
    rfl
  obtain rfl : 1 = status := Option.some.inj (congrArg finishedStatus? hrun)
  have hafter : (run .ordinary oneFile ["a.l", "b.l", "c.l", "a.l"]
    (IssueLog.empty.record oddIssue)).2 = after := congrArg Prod.snd hrun
  have hlocated : [.unreadableFile "b.l", .unreadableFile "c.l"] ++ located =
      [.unreadableFile "b.l", .unreadableFile "c.l", oddIssue,
        ⟨.strayCharacter '+', some (.single ⟨⟨"a.l", 1, 4⟩, "fn +"⟩)⟩,
        ⟨.strayCharacter '+', some (.single ⟨⟨"a.l", 1, 4⟩, "fn +"⟩)⟩] := by
    refine Eq.trans hissues.symm ?_
    rw [← hafter]
    rfl
  rw [hlistings] at hrun'
  exact ⟨located, after, after', printed, List.append_cancel_left hlocated, hissues, hissues',
    hprinted, hrun, hrun'⟩

/-- Two files in either order: with an issue that cannot be shown there is no status, and a name
with the null character keeps the files behind it from being read. -/
theorem run_perm_without_status :
    (CommandLine.parse ["a.l", "b.l"] = .ok ⟨["a.l", "b.l"], false, false⟩ ∧
      CommandLine.parse ["b.l", "a.l"] = .ok ⟨["b.l", "a.l"], false, false⟩ ∧
      (∃ output, (run .ordinary (fun _ => none) ["a.l", "b.l"]
        (IssueLog.empty.record farIssue)).1 = .failed .lengthOutOfRange output) ∧
      ∃ output, (run .ordinary (fun _ => none) ["b.l", "a.l"]
        (IssueLog.empty.record farIssue)).1 = .failed .lengthOutOfRange output) ∧
    CommandLine.parse ["a.l", "a\x00b"] = .ok ⟨["a.l", "a\x00b"], false, false⟩ ∧
      CommandLine.parse ["a\x00b", "a.l"] = .ok ⟨["a\x00b", "a.l"], false, false⟩ ∧
      (run .ordinary (fun _ => none) ["a.l", "a\x00b"] .empty).2.issues =
        [.unreadableFile "a.l"] ∧
      (run .ordinary (fun _ => none) ["a\x00b", "a.l"] .empty).2.issues = [] :=
  ⟨⟨rfl, rfl, ⟨_, rfl⟩, _, rfl⟩, rfl, rfl, rfl, rfl⟩

end Program

end WordLexer
