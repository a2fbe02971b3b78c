import WordLexer.Disk
import WordLexer.Fault

/-!
# File trees

A file tree is a disk that is held in memory: directories, and files with their bytes.  A name is a
path of steps between slashes, starting at the root of the tree.  It is followed step by step, as a
disk does it: every step but the last must lead to a directory, and nothing outside the tree can be
read.
-/

namespace WordLexer

inductive FileTree.Node where
  | file (bytes : ByteArray)
  | directory

/-- The nodes of a tree by their paths, the latest one first. -/
structure FileTree where
  nodes : List (List String × FileTree.Node)

namespace FileTree

def empty : FileTree := ⟨[]⟩

/-- The steps of a name.  Two slashes in a row have an empty step between them. -/
def steps (name : String) : List String := (name.toList.splitOn '/').map String.ofList

def isIdle (step : String) : Bool := step = "" || step = "."

def enter (path : List String) (step : String) : List String :=
  if isIdle step then path else if step = ".." then path.dropLast else path ++ [step]

/-- The path that steps lead to, after the paths that they pass through. -/
def visits (path : List String) : List String → List (List String) × List String
  | [] => ([], path)
  | step :: rest =>
    let (passed, final) := visits (enter path step) rest
    (path :: passed, final)

/-- Put a node into the tree.  Every path on the way to it is a directory from then on. -/
def insert (tree : FileTree) (name : String) (node : Node) : FileTree :=
  let (passed, final) := visits [] (steps name)
  ⟨(final, node) :: passed.map (·, .directory) ++ tree.nodes⟩

def ofNodes (nodes : List (String × Node)) : Except Fault FileTree :=
  if nodes.all (isFileName ·.1) then
    .ok (nodes.foldl (fun tree (name, node) => tree.insert name node) empty)
  else .error .nulInName

def node? (tree : FileTree) (path : List String) : Option Node :=
  if path.isEmpty then some .directory else tree.nodes.lookup path

def follow (tree : FileTree) (path : List String) : List String → Option Node
  | [] => tree.node? path
  | step :: rest =>
    match tree.node? path with
    | some .directory =>
      -- A step up from the root leaves the tree.
      if step = ".." && path.isEmpty then none else tree.follow (enter path step) rest
    -- A file has no further steps, not even an idle one.
    | _ => none

/-- The most bytes that a name may have. -/
def nameLimit : Nat := 4095

/-- The tree as a disk.  A name that is too long or that starts with a slash leads nowhere. -/
def toDisk (tree : FileTree) : Disk := fun name =>
  if nameLimit < name.utf8ByteSize || name.startsWith "/" then none
  else match tree.follow [] (steps name) with
    | some (.file bytes) => some bytes
    | _ => none

end FileTree

end WordLexer
