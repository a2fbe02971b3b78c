import WordLexer.CommandLine
import WordLexer.Disk
import WordLexer.IssueLog

/-!
# The program

A run of the program lexes the files that its command line names, prints the listings of their
tokens and then every issue in the log.  A run goes on with the log of the runs before it, whose
issues it prints again.
-/

namespace WordLexer

inductive Outcome where
  -- The files were lexed.
  | finished (status : Nat) (output : String)
  -- The command line did not ask for work.
  | stopped (status : Nat) (output errors : String)
  -- A fault ended the run when it had printed some output.
  | failed (fault : Fault) (output : String)
deriving DecidableEq

/-- How work ends that has printed some output: with a status, unless a fault ends it. -/
def Outcome.ended (fault : Option Fault) (status : Nat) (output : String) : Outcome :=
  match fault with
  | none => .finished status output
  | some fault => .failed fault output

namespace Program

/-- The reserved words, each on a line of its own. -/
def keywordListing : String :=
  String.join (KeywordTable.reserved.spellings.map (· ++ "\n"))

/-- What a run has printed so far, and the log that it goes on with. -/
structure Progress where
  output : String
  log : IssueLog

namespace Progress

def lexFile (disk : Disk) (quiet : Bool) (progress : Progress) (file : String) : Progress :=
  let report := disk.lexFile file
  ⟨progress.output ++ report.print quiet, progress.log.recordAll report.issues⟩

/-- Lex files one after the other.  A name that no disk takes ends the work, and the files before it
are done by then. -/
def lexFiles (disk : Disk) (quiet : Bool) (progress : Progress) :
    List String → Option Fault × Progress
  | [] => (none, progress)
  | file :: rest =>
    if isFileName file then lexFiles disk quiet (progress.lexFile disk quiet file) rest
    else (some .nulInName, progress)

end Progress

/-- The status of a program that leaves a log: zero if there are no issues. -/
def status (log : IssueLog) : Nat := if log.isClean then 0 else 1

/-- Do what a command line asks for: print the reserved words, lex the files and print the log.  An
issue that cannot be shown ends the run when all files are done and the issues before it are
printed. -/
def perform (machine : Machine) (disk : Disk) (options : CommandLine.Options) (log : IssueLog) :
    Outcome × IssueLog :=
  let keywords := if options.listKeywords then keywordListing else ""
  match Progress.lexFiles disk options.quiet ⟨keywords, log⟩ options.files with
  | (some fault, progress) => (.failed fault progress.output, progress.log)
  | (none, progress) =>
    (.ended (progress.log.fault? machine) (status progress.log)
      (progress.output ++ IssueLog.renderAll (progress.log.shown machine)), progress.log)

def interrupted : CommandLine.Interruption → Outcome
  | .help => .stopped 0 CommandLine.helpText ""
  | .misuse error => .stopped 2 "" (CommandLine.complaint error)

/-- Run the program with a command line.  One that asks for no work leaves the log as it is. -/
def run (machine : Machine) (disk : Disk) (arguments : List String) (log : IssueLog) :
    Outcome × IssueLog :=
  match CommandLine.parse arguments with
  | .error interruption => (interrupted interruption, log)
  | .ok options => perform machine disk options log

theorem status_eq_zero_iff {log : IssueLog} : status log = 0 ↔ log.issues = [] := by
  simp [status, IssueLog.isClean]

end Program

end WordLexer
