import WordLexer.Text.CharClass
import WordLexer.Text.Quoted

/-!
# Arguments of a command line

Each argument is a word, an option, or the separator after which every argument is a word.  An
option may be shortened as long as it stays the only one that starts so, and text may be attached
to it.
-/

namespace WordLexer.CommandLine

inductive Flag where
  | help
  | listKeywords
  | quiet
deriving DecidableEq

def Flag.name : Flag → String
  | .help => "-h/--help"
  | .listKeywords => "-z-list-keywords"
  | .quiet => "-z-quiet"

/-- The spelling of an option, with what it asks for. -/
structure Switch where
  spelling : String
  flag : Flag
deriving DecidableEq

def switches : List Switch :=
  [⟨"-h", .help⟩, ⟨"--help", .help⟩, ⟨"-z-list-keywords", .listKeywords⟩, ⟨"-z-quiet", .quiet⟩]

/-- The option that is spelled out in full. -/
def switch? (spelling : List Char) : Option Switch :=
  switches.find? fun switch => switch.spelling.toList = spelling

inductive Argument where
  -- A file name.
  | word (text : String)
  -- The two dashes that end the options.
  | separator
  -- An option, with the text that is attached to it.
  | option (switch : Switch) (attached : Option (List Char))
  -- An argument that looks like an option but is none.
  | unknown (text : String)
deriving DecidableEq

/-- More than one option starts with the argument. -/
structure Ambiguity where
  argument : String
  spellings : List String
deriving DecidableEq

namespace Argument

/-- A text before its first equals sign and the text after it, if it has one. -/
def splitAttached (text : List Char) : List Char × Option (List Char) :=
  match text.dropWhile (· != '=') with
  | [] => (text, none)
  | _ :: attached => (text.takeWhile (· != '='), some attached)

/-- The options that an argument may be short for, with the text that is attached to each. -/
def candidates (text : List Char) : List (Switch × Option (List Char)) :=
  match text with
  | '-' :: '-' :: _ =>
    -- After two dashes, attached text follows an equals sign.
    let (start, attached) := splitAttached text
    switches.filterMap fun switch =>
      if start.isPrefixOf switch.spelling.toList then some (switch, attached) else none
  | _ =>
    -- After one dash, text can only be attached to a single letter, and follows it at once.
    switches.filterMap fun switch =>
      if switch.spelling.toList = text.take 2 then some (switch, some (text.drop 2))
      else if text.isPrefixOf switch.spelling.toList then some (switch, none)
      else none

/-- A minus and digits, among which a point may stand anywhere but at the end.  A final line feed
does no harm. -/
def isNegativeNumber (text : List Char) : Bool :=
  match Text.dropFinalLineFeed text with
  | '-' :: number =>
    match number.dropWhile Text.isDecimalDigit with
    | [] => !number.isEmpty
    | '.' :: decimals => !decimals.isEmpty && decimals.all Text.isDecimalDigit
    | _ => false
  | _ => false

/-- How an argument is taken that starts with a dash and is no option in full: as the one option
it can be short for, as a word if it is a negative number or holds a space, else as unknown. -/
def ofAbbreviation (text : String) : Except Ambiguity Argument :=
  match candidates text.toList with
  | [(switch, attached)] => .ok (.option switch attached)
  | [] =>
    if isNegativeNumber text.toList || text.toList.contains ' ' then .ok (.word text)
    else .ok (.unknown text)
  | several => .error ⟨text, several.map fun candidate => candidate.1.spelling⟩

def ofText (text : String) : Except Ambiguity Argument :=
  if text.toList.head? != some '-' || text = "-" then .ok (.word text)
  else match switch? text.toList with
    | some switch => .ok (.option switch none)
    | none =>
      match splitAttached text.toList with
      | (start, some attached) =>
        match switch? start with
        | some switch => .ok (.option switch (some attached))
        | none => ofAbbreviation text
      | (_, none) => ofAbbreviation text

/-- How the arguments of a command line are taken.  The first separator makes words of all arguments
after it. -/
def ofTexts : List String → Except Ambiguity (List Argument)
  | [] => .ok []
  | text :: rest =>
    if text = "--" then .ok (.separator :: rest.map .word)
    else do
      let argument ← ofText text
      let arguments ← ofTexts rest
      return argument :: arguments

end Argument

end WordLexer.CommandLine
