import WordLexer.Program

/-!
# The command line program

The outer layer: it reads the files that the command line names, runs the program on them, and
writes what the run prints.
-/

namespace WordLexer

/-- The bytes of a file, or nothing if it cannot be read. -/
def readBytes (file : String) : IO (Option ByteArray) := do
  try
    return some (← IO.FS.readBinFile file)
  catch _ =>
    return none

/-- The files of a command line as a disk.  One that asks for no work reads no file. -/
def readDisk (arguments : List String) : IO Disk := do
  match CommandLine.parse arguments with
  | .error _ => return fun _ => none
  | .ok options =>
    let contents ← options.files.mapM fun file => return (file, ← readBytes file)
    return fun name => (contents.lookup name).join

end WordLexer

open WordLexer in
def main (arguments : List String) : IO UInt32 := do
  let disk ← readDisk arguments
  match (Program.run .ordinary disk arguments .empty).1 with
  | .finished status output =>
    IO.print output
    return status.toUInt32
  | .stopped status output errors =>
    IO.print output
    IO.eprint errors
    return status.toUInt32
  | .failed fault output =>
    IO.print output
    IO.eprintln fault.message
    return 1
