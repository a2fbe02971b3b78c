import WordLexer.Proofs.ShownIssues

/-!
# What a run of the program does

Every file of a command line has a listing and issues that depend on its content only.  A run prints
the listings one after the other and sorts the issues into the log that it goes on with; neither an
unreadable file nor a malformed one has an effect on the others (`Progress.lexFiles_eq`).

In the end the run shows the log.  If there is room for the files, what it finds in them can be
shown, so it is up to the log that it started with whether it comes to an end
(`run_of_hasRoom`).
-/

namespace WordLexer

/-! ## One file -/

/-- The issues of a file: those of its text, or that there is none. -/
def fileIssues (disk : Disk) (file : String) : List Issue :=
  match disk.readText file with
  | .ok text => (lex file text).issues
  | .error _ => [.unreadableFile file]

/-- What is printed of a file: a line for each token of its text. -/
def fileListing (disk : Disk) (quiet : Bool) (file : String) : String :=
  match disk.readText file with
  | .ok text =>
    if quiet then ""
    else String.join ((lex file text).tokens.map fun token => token.listing ++ "\n")
  | .error _ => ""

theorem readText_eq_error {disk : Disk} {file : String} {issue : Issue}
    (h : disk.readText file = .error issue) : issue = .unreadableFile file := by
  rw [Disk.readText] at h
  split at h
  · cases h
  · exact (Except.error.inj h).symm

theorem issues_lexFile (disk : Disk) (file : String) :
    (disk.lexFile file).issues = fileIssues disk file := by
  rw [Disk.lexFile, fileIssues]
  cases h : disk.readText file with
  | ok text => rfl
  | error issue => rw [readText_eq_error h]

theorem print_lexFile (disk : Disk) (quiet : Bool) (file : String) :
    (disk.lexFile file).print quiet = fileListing disk quiet file := by
  rw [FileReport.print, Disk.lexFile, fileListing]
  cases disk.readText file with
  | ok text => rfl
  | error issue =>
    show (if quiet then "" else "") = ""
    rw [ite_self]

theorem fileIssues_eq_nil_iff {disk : Disk} {file : String} :
    fileIssues disk file = [] ↔
      ∃ text, disk.readText file = .ok text ∧ (lex file text).issues = [] := by
  rw [fileIssues]
  cases disk.readText file with
  | ok text => simp
  | error issue => simp

/-- There is room for the text of a file, if it can be read. -/
def Machine.HasRoomForFile (machine : Machine) (disk : Disk) (file : String) : Prop :=
  ∀ text, disk.readText file = .ok text → machine.HasRoomFor text

/-- Where there is room for a file, its issues can be shown. -/
theorem fault?_of_mem_fileIssues {machine : Machine} {disk : Disk} {file : String}
    (hroom : machine.HasRoomForFile disk file) {issue : Issue} (h : issue ∈ fileIssues disk file) :
    issue.fault? machine = none := by
  rw [fileIssues] at h
  cases hread : disk.readText file with
  | ok text =>
    rw [hread] at h
    exact fault?_of_mem_lex (hroom text hread) h
  | error _ =>
    rw [hread] at h
    rw [List.mem_singleton.mp h]
    rfl

theorem fault?_of_mem_flatMap {machine : Machine} {disk : Disk} {files : List String}
    (hroom : ∀ file ∈ files, machine.HasRoomForFile disk file) :
    ∀ issue ∈ files.flatMap (fileIssues disk), issue.fault? machine = none := by
  intro issue hissue
  obtain ⟨file, hfile, hmem⟩ := List.mem_flatMap.mp hissue
  exact fault?_of_mem_fileIssues (hroom file hfile) hmem

/-! ## All files -/

namespace Program

/-- The loop over the files.  Those in front of the first name that no disk takes are lexed. -/
theorem Progress.lexFiles_eq (disk : Disk) (quiet : Bool) (progress : Progress)
    (files : List String) :
    progress.lexFiles disk quiet files =
      (if files.all isFileName then none else some .nulInName,
        ⟨progress.output ++
            String.join ((files.takeWhile isFileName).map (fileListing disk quiet)),
          progress.log.recordAll ((files.takeWhile isFileName).flatMap (fileIssues disk))⟩) := by
  -- The induction is on the files, for every progress, as each file goes on with that of the last.
  induction files generalizing progress with
  | nil =>
    show (none, progress) = (none, (⟨progress.output ++ "", progress.log⟩ : Progress))
    rw [String.append_empty]
  | cons file rest ih =>
    rw [lexFiles]
    by_cases hname : isFileName file = true
    · rw [if_pos hname, ih, List.takeWhile_cons_of_pos hname, List.all_cons, hname,
        Bool.true_and, List.map_cons, String.join_cons, List.flatMap_cons,
        IssueLog.recordAll_append, lexFile, print_lexFile, issues_lexFile, String.append_assoc]
    · rw [if_neg hname, List.takeWhile_cons_of_neg hname, List.all_cons,
        eq_false_of_ne_true hname, Bool.false_and]
      show (some Fault.nulInName, progress) =
        (some Fault.nulInName, (⟨progress.output ++ "", progress.log⟩ : Progress))
      rw [String.append_empty]

/-- The files that a command line gets to. -/
def reached (options : CommandLine.Options) : List String := options.files.takeWhile isFileName

theorem log_perform (machine : Machine) (disk : Disk) (options : CommandLine.Options)
    (log : IssueLog) :
    (perform machine disk options log).2 =
      log.recordAll ((reached options).flatMap (fileIssues disk)) := by
  rw [perform, Progress.lexFiles_eq]
  cases options.files.all isFileName <;> rfl

/-- If every file has a name that a disk takes, the log is all that can end the run early. -/
theorem run_of_isFileName (machine : Machine) (disk : Disk) {arguments : List String}
    {options : CommandLine.Options} {log after : IssueLog}
    (hparse : CommandLine.parse arguments = .ok options)
    (hnames : ∀ file ∈ options.files, isFileName file = true)
    (hafter : after = log.recordAll (options.files.flatMap (fileIssues disk))) :
    run machine disk arguments log =
      (.ended (after.fault? machine) (status after)
        ((if options.listKeywords then keywordListing else "") ++
          String.join (options.files.map (fileListing disk options.quiet)) ++
          IssueLog.renderAll (after.shown machine)), after) := by
  have hall : options.files.all isFileName = true := List.all_eq_true.mpr hnames
  have htake : options.files.takeWhile isFileName = options.files :=
    List.takeWhile_eq_self_iff.mpr hnames
  rw [run, hparse]
  dsimp only
  rw [perform, Progress.lexFiles_eq, if_pos hall, htake, ← hafter]

/-- If there is room for the files, how the run ends is up to the log that it starts with. -/
theorem run_of_hasRoom {machine : Machine} {disk : Disk} (log : IssueLog) {arguments : List String}
    {options : CommandLine.Options} {after : IssueLog}
    (hparse : CommandLine.parse arguments = .ok options)
    (hnames : ∀ file ∈ options.files, isFileName file = true)
    (hroom : ∀ file ∈ options.files, machine.HasRoomForFile disk file)
    (hafter : after = log.recordAll (options.files.flatMap (fileIssues disk))) :
    match log.fault? machine with
    | none =>
      run machine disk arguments log =
        (.finished (status after)
          ((if options.listKeywords then keywordListing else "") ++
            String.join (options.files.map (fileListing disk options.quiet)) ++ after.render),
          after)
    | some fault =>
      run machine disk arguments log =
        (.failed fault
          ((if options.listKeywords then keywordListing else "") ++
            String.join (options.files.map (fileListing disk options.quiet)) ++
            IssueLog.renderAll (after.shown machine)), after) := by
  have hend : after.fault? machine = log.fault? machine := by
    rw [hafter]
    exact log.fault?_recordAll (fault?_of_mem_flatMap hroom)
  have hrun := run_of_isFileName machine disk hparse hnames hafter
  rw [hend] at hrun
  cases hlog : log.fault? machine with
  | none =>
    rw [hlog, IssueLog.shown_eq (hend.trans hlog)] at hrun
    exact hrun
  | some fault =>
    rw [hlog] at hrun
    exact hrun

theorem status_le_one (log : IssueLog) : status log ≤ 1 := by
  rw [status]
  split <;> decide

/-- A run leaves nothing to complain about if there was nothing before and no file adds to it. -/
theorem status_recordAll_eq_zero_iff {log : IssueLog} {disk : Disk} {files : List String} :
    status (log.recordAll (files.flatMap (fileIssues disk))) = 0 ↔
      log.issues = [] ∧
        ∀ file ∈ files, ∃ text, disk.readText file = .ok text ∧ (lex file text).issues = [] := by
  have hperm := log.recordAll_perm (files.flatMap (fileIssues disk))
  rw [status_eq_zero_iff, ← List.perm_nil, hperm.congr_left, List.perm_nil,
    List.append_eq_nil_iff, List.flatMap_eq_nil_iff]
  simp only [fileIssues_eq_nil_iff]

/-! ## A command line -/

/-- What a run does whose command line asks for work: it prints the reserved words if they are asked
for, the listing of each file, and then every issue of the log.  The log ends the run if it could
not be shown before the run, and then at the first issue that cannot be shown. -/
theorem run_of_parse (machine : Machine) (disk : Disk) (log : IssueLog) {arguments : List String}
    {options : CommandLine.Options} (hparse : CommandLine.parse arguments = .ok options)
    (hnames : ∀ file ∈ options.files, isFileName file = true)
    (hroom : ∀ file ∈ options.files, machine.HasRoomForFile disk file) :
    ∃ (status : Nat) (after : IssueLog) (printed : String),
      after.issues = stableSort (log.issues ++ options.files.flatMap (fileIssues disk)) ∧
      printed =
        (if options.listKeywords then
            String.join (KeywordTable.reserved.spellings.map (· ++ "\n"))
          else "") ++
          String.join (options.files.map (fileListing disk options.quiet)) ∧
      run machine disk arguments log =
        (match log.fault? machine with
          | none =>
            .finished status
              (printed ++ String.join (after.issues.map fun issue => issue.render ++ "\n"))
          | some fault =>
            .failed fault
              (printed ++ String.join
                ((after.issues.takeWhile fun issue => (issue.fault? machine).isNone).map
                  fun issue => issue.render ++ "\n")),
          after) ∧
      status ≤ 1 ∧
      (status = 0 ↔ log.issues = [] ∧ ∀ file ∈ options.files,
        ∃ text, disk.readText file = .ok text ∧ (lex file text).issues = []) := by
  let after := log.recordAll (options.files.flatMap (fileIssues disk))
  have hrun := run_of_hasRoom log hparse hnames hroom (show after = _ from rfl)
  refine ⟨status after, after, _, IssueLog.issues_recordAll _ _, rfl, ?_, status_le_one _,
    status_recordAll_eq_zero_iff⟩
  cases hlog : log.fault? machine with
  | none =>
    rw [hlog] at hrun
    exact hrun
  | some fault =>
    rw [hlog] at hrun
    exact hrun

/-- The status of a run that was finished. -/
def finishedStatus? (result : Outcome × IssueLog) : Option Nat :=
  match result.1 with
  | .finished status _ => some status
  | _ => none

/-- A disk with one file, which holds two words and a stray character. -/
def oneFile : Disk := fun file => if file = "a.l" then some "fn +\nx".toUTF8 else none

theorem hasRoomForFile_oneFile (file : String) : Machine.ordinary.HasRoomForFile oneFile file := by
  intro text htext
  have hfile : file = "a.l" := by
    by_contra hne
    rw [Disk.readText, oneFile, if_neg hne] at htext
    cases htext
  subst hfile
  obtain rfl : "fn +\nx" = text := Except.ok.inj htext
  exact ⟨by decide, by decide⟩

/-- An issue that was found elsewhere, in front of the stray character. -/
def oddIssue : Issue := ⟨.described "odd name", some (.single ⟨⟨"a.l", 1, 2⟩, "fn"⟩)⟩

set_option maxRecDepth 4000 in
/-- An issue is in the log, one file has a stray character, and the other one is missing. -/
theorem run_of_parse_two_files :
    ∃ after : IssueLog,
      after.issues = [.unreadableFile "b.l", oddIssue,
        ⟨.strayCharacter '+', some (.single ⟨⟨"a.l", 1, 4⟩, "fn +"⟩)⟩] ∧
      run .ordinary oneFile ["a.l", "b.l"] (IssueLog.empty.record oddIssue) =
        (.finished 1
          ("a.l:1:1: keyword fn\na.l:2:1: identifier x\n" ++
            "\x1b[1mlanglex: \x1b[31merror:\x1b[0m could not read file: 'b.l'\n" ++
            "\x1b[1ma.l:1:2: \x1b[31merror:\x1b[0m odd name\n  fn\n   \x1b[31m^\x1b[0m\n" ++
            "\x1b[1ma.l:1:4: \x1b[31merror:\x1b[0m unrecognized character '+'\n  fn +\n" ++
            "     \x1b[31m^\x1b[0m\n"), after) := by
  have hparse : CommandLine.parse ["a.l", "b.l"] = .ok ⟨["a.l", "b.l"], false, false⟩ := rfl
  obtain ⟨status, after, printed, -, hprinted, hrun, hle, hzero⟩ :=
    run_of_parse .ordinary oneFile (IssueLog.empty.record oddIssue) hparse (by decide)
      fun file _ => hasRoomForFile_oneFile file
  have hone : status = 1 := by
    have hne : status ≠ 0 := fun h => List.cons_ne_nil _ _ (hzero.mp h).1
    omega
  have hissues : after.issues = [.unreadableFile "b.l", oddIssue,
      ⟨.strayCharacter '+', some (.single ⟨⟨"a.l", 1, 4⟩, "fn +"⟩)⟩] := by
    have hafter := congrArg Prod.snd hrun
    rw [← show _ = after from hafter]
    rfl
  have hlog : (IssueLog.empty.record oddIssue).fault? .ordinary = none := rfl
  refine ⟨after, hissues, ?_⟩
  rw [hrun, hlog, hone, hprinted, hissues]
  rfl

/-- An issue whose column is too far to the left for a machine integer.  It is in no line. -/
def farIssue : Issue := ⟨.described "x", some (.single ⟨⟨"a", 1, -indexBound⟩, "t"⟩)⟩

/-- A run that finds an issue in its log that cannot be shown has no status. -/
theorem run_far_issue :
    CommandLine.parse ["-z-list-keywords"] = .ok ⟨[], true, false⟩ ∧
      (run .ordinary (fun _ => none) ["-z-list-keywords"] (IssueLog.empty.record farIssue)).1 =
        .failed .lengthOutOfRange keywordListing := by
  have hparse : CommandLine.parse ["-z-list-keywords"] = .ok ⟨[], true, false⟩ := rfl
  refine ⟨hparse, ?_⟩
  rw [run_of_isFileName .ordinary (fun _ => none) hparse (by decide) rfl]
  show Outcome.failed .lengthOutOfRange (keywordListing ++ "" ++ "") = _
  rw [String.append_empty, String.append_empty]

end Program

end WordLexer
