import WordLexer.Program

/-!
# Sessions

A session is a row of requests to the lexer that share one log of issues.  The disk may change
between two requests.
-/

namespace WordLexer.Session

inductive Request where
  | run (arguments : List String)
  | read (file : String)
  -- Lex a file and print its listing unless that is not wanted.
  | lexFile (file : String) (quiet : Bool)
  | lexText (file text : String)
  -- Record an issue that was found elsewhere.
  | record (issue : Issue)
  | print
  | clear
  -- Look at the log only.
  | look

inductive Reply where
  | ran (outcome : Outcome)
  | read (text : Option String)
  | lexedFile (tokens : Option (List Token)) (output : String)
  | lexedText (tokens : List Token)
  | printed (output : String)
  | done
  -- A fault ended the work when it had printed some output.
  | failed (fault : Fault) (output : String)

def answer (machine : Machine) (disk : Disk) (log : IssueLog) : Request → Reply × IssueLog
  | .run arguments =>
    let (outcome, log) := Program.run machine disk arguments log
    (.ran outcome, log)
  | .read file =>
    if !isFileName file then (.failed .nulInName "", log)
    else match disk.readText file with
      | .ok text => (.read (some text), log)
      | .error issue => (.read none, log.record issue)
  | .lexFile file quiet =>
    if !isFileName file then (.failed .nulInName "", log)
    else
      let report := disk.lexFile file
      (.lexedFile report.tokens (report.print quiet), log.recordAll report.issues)
  | .lexText file text =>
    let lexing := lex file text
    (.lexedText lexing.tokens, log.recordAll lexing.issues)
  | .record issue => (.done, log.record issue)
  | .print =>
    match log.fault? machine with
    | some fault => (.failed fault (IssueLog.renderAll (log.shown machine)), log)
    | none => (.printed log.render, log)
  | .clear => (.done, .empty)
  | .look => (.done, log)

/-- A request, with the disk as it is when the request is made. -/
structure Step where
  disk : Disk
  request : Request

/-- Answer the requests of steps one after the other, and give the log after each. -/
def answers (machine : Machine) (log : IssueLog) : List Step → List (Reply × IssueLog)
  | [] => []
  | step :: rest =>
    let (reply, after) := answer machine step.disk log step.request
    (reply, after) :: answers machine after rest

def Reply.fault? : Reply → Option Fault
  | .failed fault _ => some fault
  | .ran (.failed fault _) => some fault
  | _ => none

/-- Why a session cannot be shown, where each reply is shown with the log after it: the first fault
of a reply or of a log. -/
def fault? (machine : Machine) (answers : List (Reply × IssueLog)) : Option Fault :=
  answers.findSome? fun (reply, log) => reply.fault?.or (log.fault? machine)

end WordLexer.Session
