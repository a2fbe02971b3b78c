import WordLexer.CommandLine.Argument

/-!
# The command line

A command line names the files to lex and may ask for help, for the reserved words or for no
listing.  All file names stand together: once an option follows them, no further ones are taken.
-/

namespace WordLexer.CommandLine

structure Options where
  files : List String
  listKeywords : Bool
  quiet : Bool
deriving DecidableEq

inductive UsageError where
  | ambiguous (ambiguity : Ambiguity)
  -- Text is attached to an option that takes none.
  | ignoredText (flag : Flag) (text : List Char)
  | unrecognized (arguments : List String)
  | noFiles
deriving DecidableEq

def UsageError.message : UsageError → String
  | .ambiguous e =>
    "ambiguous option: " ++ e.argument ++ " could match " ++ ", ".intercalate e.spellings
  | .ignoredText flag text =>
    "argument " ++ flag.name ++ ": ignored explicit argument " ++ Text.quote (String.ofList text)
  | .unrecognized arguments => "unrecognized arguments: " ++ " ".intercalate arguments
  | .noFiles => "the following arguments are required: files"

/-- Why no work is done for a command line: it asks for help, or it is wrong. -/
inductive Interruption where
  | help
  | misuse (error : UsageError)
deriving DecidableEq

/-! ## Reading -/

/-- Whether file names are taken: they have not begun, they are being taken, or they have ended. -/
inductive Stage where
  | before
  | among
  | after
deriving DecidableEq

structure Progress where
  options : Options
  stage : Stage
  -- The arguments that nothing was made of.
  extras : List String
deriving DecidableEq

namespace Progress

def start : Progress := ⟨⟨[], false, false⟩, .before, []⟩

/-- The stage after an argument that is no word. -/
def leaveFiles (progress : Progress) : Progress :=
  { progress with stage := if progress.stage = .among then .after else progress.stage }

/-- Do what an option asks for.  Help ends the reading. -/
def obey (progress : Progress) (flag : Flag) : Except Interruption Progress :=
  match flag with
  | .help => .error .help
  | .listKeywords => .ok { progress with options := { progress.options with listKeywords := true } }
  | .quiet => .ok { progress with options := { progress.options with quiet := true } }

/-- What the text asks for that is attached to an option.  Behind a single dash each `h` is one more
option, and no other letter is. -/
def readAttached (flag : Flag) : List Char → Except UsageError Unit
  | [] => .ok ()
  | 'h' :: rest => readAttached .help rest
  | text => .error (.ignoredText flag text)

/-- Take an option.  Attached text is checked before the option is obeyed. -/
def takeOption (progress : Progress) (switch : Switch) (attached : Option (List Char)) :
    Except Interruption Progress :=
  match attached with
  | none => progress.obey switch.flag
  | some text =>
    if text.isEmpty || switch.spelling.startsWith "--" then
      .error (.misuse (.ignoredText switch.flag text))
    else
      match readAttached switch.flag text with
      | .error e => .error (.misuse e)
      -- The text holds at least one letter, so help is asked for.
      | .ok () => .error .help

/-- Take one argument.  Of the words, those that stand together with the first one are file names;
the separator stands together with words but names no file. -/
def take (progress : Progress) : Argument → Except Interruption Progress
  | .word text =>
    if progress.stage = .after then .ok { progress with extras := progress.extras ++ [text] }
    else .ok { progress with
      stage := .among
      options := { progress.options with files := progress.options.files ++ [text] } }
  | .separator =>
    if progress.stage = .after then .ok { progress with extras := progress.extras ++ ["--"] }
    else .ok { progress with stage := .among }
  | .option switch attached => progress.leaveFiles.takeOption switch attached
  | .unknown text =>
    let left := progress.leaveFiles
    .ok { left with extras := left.extras ++ [text] }

def finish (progress : Progress) : Except Interruption Options :=
  if progress.extras ≠ [] then .error (.misuse (.unrecognized progress.extras))
  else if progress.options.files.isEmpty && !progress.options.listKeywords then
    .error (.misuse .noFiles)
  else .ok progress.options

end Progress

def parse (texts : List String) : Except Interruption Options :=
  match Argument.ofTexts texts with
  | .error e => .error (.misuse (.ambiguous e))
  | .ok arguments => do
    let progress ← arguments.foldlM Progress.take .start
    progress.finish

/-! ## Texts -/

def usage : String := "usage: langlex [-h] [options] files...\n"

def helpText : String :=
  usage ++
  "\n" ++
  "Split source files into keyword and identifier tokens. Option flags starting\n" ++
  "with \x60-z\x60 are primarily for debugging or diagnostic purposes.\n" ++
  "\n" ++
  "positional arguments:\n" ++
  "  files\n" ++
  "\n" ++
  "options:\n" ++
  "  -h, --help        show this help message and exit\n" ++
  "  -z-list-keywords  print every reserved word, one per line\n" ++
  "  -z-quiet          do not print tokens, only diagnostics\n"

def complaint (error : UsageError) : String := usage ++ "langlex: error: " ++ error.message ++ "\n"

end WordLexer.CommandLine
