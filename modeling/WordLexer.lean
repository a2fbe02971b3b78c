import WordLexer.Text.Word
import WordLexer.Text.CharClass
import WordLexer.Text.Lines
import WordLexer.Text.Quoted
import WordLexer.Fault
import WordLexer.Position
import WordLexer.Kind
import WordLexer.KeywordTable
import WordLexer.Token
import WordLexer.Issue
import WordLexer.IssueLog
import WordLexer.Run
import WordLexer.LineScan
import WordLexer.Lexing
import WordLexer.Disk
import WordLexer.Disk.FileTree
import WordLexer.CommandLine.Argument
import WordLexer.CommandLine
import WordLexer.Program
import WordLexer.Session
import WordLexer.Main
import WordLexer.Proofs.IssueOrder
import WordLexer.Proofs.LineReport
import WordLexer.Proofs.TextReport
import WordLexer.Proofs.ShownIssues
import WordLexer.Proofs.ProgramRun
import WordLexer.Proofs.SessionHistory
import WordLexer.Proofs.FileText
import WordLexer.Proofs.LineByLine
import WordLexer.Proofs.Grammar
import WordLexer.Proofs.Layout
import WordLexer.Proofs.EndedLines
import WordLexer.Proofs.Spacing
import WordLexer.Proofs.FileOrder
import WordLexer.Proofs.ConsecutiveRuns
import WordLexer.Proofs.LoggedScan
import WordLexer.Proofs.StrayCharacters
import WordLexer.Proofs.IssueDisplay
import WordLexer.Proofs.ListingReader
import WordLexer.Proofs.CommandLineGrammar
import WordLexer.Proofs.KeywordLookup
import WordLexer.Proofs.RunReading
