import WordLexer.Proofs.CommandLineGrammar
import WordLexer.Proofs.ProgramRun

/-!
# Runs one after the other

A run goes on with the log that the runs before it leave, and never with anything else of them.  So
two runs, each with some files, leave the log that a single run with all the files leaves, and the
second run has the status of that run.  Each prints the listings of its own files; the second one
shows the issues of the first one again (`run_append`).
-/

namespace WordLexer

/-! ## Command lines for any files -/

namespace CommandLine

/-- Any files can be named, with or without their listings. -/
theorem exists_parse_eq {files : List String} (hfiles : files ≠ []) (quiet : Bool) :
    ∃ arguments, parse arguments = .ok ⟨files, false, quiet⟩ := by
  -- Behind the separator every text is a file, whatever it looks like.
  have hwords : ∀ argument ∈ Argument.separator :: files.map .word,
      argument.isOption = false := by
    intro argument hmem
    rcases List.mem_cons.mp hmem with rfl | hmem
    · rfl
    · obtain ⟨file, -, rfl⟩ := List.mem_map.mp hmem
      rfl
  cases quiet with
  | false =>
    let line : PlainLine := ⟨[], some files, by decide⟩
    have hrow : IsContiguous line.arguments :=
      ⟨[], .separator :: files.map .word, [], (List.append_nil _).symm, by simp, hwords, by simp⟩
    exact ⟨line.texts, PlainLine.parse_eq_ok_iff.mpr ⟨⟨hrow, .inl hfiles⟩, rfl⟩⟩
  | true =>
    let line : PlainLine := ⟨["-z-quiet"], some files, by decide⟩
    have hrow : IsContiguous line.arguments :=
      ⟨[plainArgument "-z-quiet"], .separator :: files.map .word, [], (List.append_nil _).symm,
        by simp [plainArgument, Argument.isOption], hwords, by simp⟩
    exact ⟨line.texts, PlainLine.parse_eq_ok_iff.mpr ⟨⟨hrow, .inl hfiles⟩, rfl⟩⟩

end CommandLine

/-! ## The logs of two runs -/

namespace Program

/-- A run with some files and without the reserved words. -/
theorem run_files {machine : Machine} {disk : Disk} (log : IssueLog) {quiet : Bool}
    {arguments files : List String}
    (hparse : CommandLine.parse arguments = .ok ⟨files, false, quiet⟩)
    (hnames : ∀ file ∈ files, isFileName file = true)
    (hroom : ∀ file ∈ files, machine.HasRoomForFile disk file) {after : IssueLog}
    (hafter : after = log.recordAll (files.flatMap (fileIssues disk))) :
    match log.fault? machine with
    | none =>
      run machine disk arguments log =
        (.finished (status after)
          (String.join (files.map (fileListing disk quiet)) ++ after.render), after)
    | some fault =>
      run machine disk arguments log =
        (.failed fault
          (String.join (files.map (fileListing disk quiet)) ++
            IssueLog.renderAll (after.shown machine)), after) := by
  have hrun := run_of_hasRoom log hparse hnames hroom hafter
  rw [if_neg Bool.false_ne_true, String.empty_append] at hrun
  exact hrun

/-- A run with all files leaves the log that two runs leave which share the files, and has the
status of the second one.  It prints the listings of both and then the issues that the second run
prints, among which are those that the first run prints.  If the log could not be shown before, all
three end with the same fault and print what comes before it. -/
theorem run_append (machine : Machine) (disk : Disk) (log : IssueLog) (quiet : Bool)
    {A B : List String} (hA : A ≠ []) (hB : B ≠ [])
    (hnames : ∀ file ∈ A ++ B, isFileName file = true)
    (hroom : ∀ file ∈ A ++ B, machine.HasRoomForFile disk file) :
    (∃ first second both,
      CommandLine.parse first = .ok ⟨A, false, quiet⟩ ∧
        CommandLine.parse second = .ok ⟨B, false, quiet⟩ ∧
        CommandLine.parse both = .ok ⟨A ++ B, false, quiet⟩) ∧
    ∀ first second both : List String,
      CommandLine.parse first = .ok ⟨A, false, quiet⟩ →
      CommandLine.parse second = .ok ⟨B, false, quiet⟩ →
      CommandLine.parse both = .ok ⟨A ++ B, false, quiet⟩ →
      ∃ (between after : IssueLog) (listingsA listingsB : String),
        listingsA = String.join (A.map (fileListing disk quiet)) ∧
        listingsB = String.join (B.map (fileListing disk quiet)) ∧
        between.issues.Sublist after.issues ∧
        (between.shown machine).Sublist (after.shown machine) ∧
        match log.fault? machine with
        | none =>
          ∃ earlier status : Nat,
            run machine disk first log =
              (.finished earlier (listingsA ++ between.render), between) ∧
            run machine disk second between =
              (.finished status (listingsB ++ after.render), after) ∧
            run machine disk both log =
              (.finished status (listingsA ++ listingsB ++ after.render), after)
        | some fault =>
          run machine disk first log =
            (.failed fault (listingsA ++ IssueLog.renderAll (between.shown machine)), between) ∧
          run machine disk second between =
            (.failed fault (listingsB ++ IssueLog.renderAll (after.shown machine)), after) ∧
          run machine disk both log =
            (.failed fault (listingsA ++ listingsB ++ IssueLog.renderAll (after.shown machine)),
              after) := by
  constructor
  · obtain ⟨first, hfirst⟩ := CommandLine.exists_parse_eq hA quiet
    obtain ⟨second, hsecond⟩ := CommandLine.exists_parse_eq hB quiet
    obtain ⟨both, hboth⟩ :=
      CommandLine.exists_parse_eq (List.append_ne_nil_of_left_ne_nil hA B) quiet
    exact ⟨first, second, both, hfirst, hsecond, hboth⟩
  · intro first second both hfirst hsecond hboth
    rw [List.forall_mem_append] at hnames hroom
    let between := log.recordAll (A.flatMap (fileIssues disk))
    let after := between.recordAll (B.flatMap (fileIssues disk))
    have hafter : after = log.recordAll ((A ++ B).flatMap (fileIssues disk)) := by
      rw [List.flatMap_append, IssueLog.recordAll_append]
    have hrunA := run_files log hfirst hnames.1 hroom.1 (show between = _ from rfl)
    have hrunB := run_files between hsecond hnames.2 hroom.2 (show after = _ from rfl)
    have hrun := run_files log hboth (List.forall_mem_append.mpr hnames)
      (List.forall_mem_append.mpr hroom) hafter
    -- The first run finds nothing that cannot be shown.
    have hbetween : between.fault? machine = log.fault? machine :=
      log.fault?_recordAll (fault?_of_mem_flatMap hroom.1)
    rw [hbetween] at hrunB
    rw [List.map_append, String.join_append] at hrun
    refine ⟨between, after, _, _, rfl, rfl, between.sublist_recordAll _,
      between.shown_sublist_recordAll (fault?_of_mem_flatMap hroom.2), ?_⟩
    cases hlog : log.fault? machine with
    | none =>
      rw [hlog] at hrunA hrunB hrun
      exact ⟨_, _, hrunA, hrunB, hrun⟩
    | some fault =>
      rw [hlog] at hrunA hrunB hrun
      exact ⟨hrunA, hrunB, hrun⟩

/-- An issue is in the log, one file has a stray character, and the one of the second run is
missing. -/
theorem run_append_two_files :
    ∃ between after : IssueLog,
      between.issues = [oddIssue, ⟨.strayCharacter '+', some (.single ⟨⟨"a.l", 1, 4⟩, "fn +"⟩)⟩] ∧
      after.issues = .unreadableFile "b.l" :: between.issues ∧
      run .ordinary oneFile ["a.l"] (IssueLog.empty.record oddIssue) =
        (.finished 1 ("a.l:1:1: keyword fn\na.l:2:1: identifier x\n" ++ between.render), between) ∧
      run .ordinary oneFile ["b.l"] between = (.finished 1 ("" ++ after.render), after) ∧
      run .ordinary oneFile ["a.l", "b.l"] (IssueLog.empty.record oddIssue) =
        (.finished 1 ("a.l:1:1: keyword fn\na.l:2:1: identifier x\n" ++ "" ++ after.render),
          after) := by
  obtain ⟨-, hruns⟩ := run_append .ordinary oneFile (IssueLog.empty.record oddIssue) false
    (List.cons_ne_nil "a.l" []) (List.cons_ne_nil "b.l" []) (by decide)
    fun file _ => hasRoomForFile_oneFile file
  obtain ⟨between, after, listingsA, listingsB, hA, hB, -, -, hmatch⟩ :=
    hruns ["a.l"] ["b.l"] ["a.l", "b.l"] rfl rfl rfl
  rw [show (IssueLog.empty.record oddIssue).fault? .ordinary = none from rfl] at hmatch
  obtain ⟨earlier, status, hfirst, hsecond, hboth⟩ := hmatch
  have hlistingA : listingsA = "a.l:1:1: keyword fn\na.l:2:1: identifier x\n" := hA
  have hlistingB : listingsB = "" := hB
  have hbetween : (run .ordinary oneFile ["a.l"] (IssueLog.empty.record oddIssue)).2 = between :=
    congrArg Prod.snd hfirst
  have hafter : (run .ordinary oneFile ["a.l", "b.l"] (IssueLog.empty.record oddIssue)).2 = after :=
    congrArg Prod.snd hboth
  obtain rfl : 1 = earlier := Option.some.inj (congrArg finishedStatus? hfirst)
  obtain rfl : 1 = status := Option.some.inj (congrArg finishedStatus? hboth)
  rw [hlistingA] at hfirst hboth
  rw [hlistingB] at hsecond hboth
  refine ⟨between, after, ?_, ?_, hfirst, hsecond, hboth⟩
  · rw [← hbetween]
    rfl
  · rw [← hafter, ← hbetween]
    rfl

/-- With an issue that cannot be shown no run has a status.  A name with the null character keeps
the files behind it from being read, but not the files of the next run. -/
theorem run_append_without_status :
    (CommandLine.parse ["a.l"] = .ok ⟨["a.l"], false, false⟩ ∧
      ∃ output, (run .ordinary (fun _ => none) ["a.l"] (IssueLog.empty.record farIssue)).1 =
        .failed .lengthOutOfRange output) ∧
    CommandLine.parse ["a\x00b", "a.l"] = .ok ⟨["a\x00b", "a.l"], false, false⟩ ∧
      (run .ordinary (fun _ => none) ["a\x00b", "a.l"] .empty).2.issues = [] ∧
      (run .ordinary (fun _ => none) ["a.l"]
        (run .ordinary (fun _ => none) ["a\x00b"] .empty).2).2.issues =
          [.unreadableFile "a.l"] :=
  ⟨⟨rfl, _, rfl⟩, rfl, rfl, rfl⟩

end Program

end WordLexer
