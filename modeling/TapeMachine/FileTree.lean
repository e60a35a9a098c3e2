import TapeMachine.Text.Split

/-!
# File trees

A directory with the files and directories below it. Paths are walked one step at a time from this
directory: every step but the last has to lead to a directory, and so has the last one if a slash
follows it.
-/

namespace TapeMachine

/-- Why a path cannot be read. -/
inductive ReadFailure where
  | notFound
  | notDirectory
  | isDirectory
  | nameTooLong
  /-- The octets of the file are not a text. -/
  | notText
  /-- A failure in the words of the system. -/
  | other (detail : String)
  deriving DecidableEq, Repr

/-- The wording of a failure. -/
def ReadFailure.message : ReadFailure → String
  | .notFound => "No such file or directory (os error 2)"
  | .notDirectory => "Not a directory (os error 20)"
  | .isDirectory => "Is a directory (os error 21)"
  | .nameTooLong => "File name too long (os error 36)"
  | .notText => "stream did not contain valid UTF-8"
  | .other detail => detail

/-- The text of a file's octets. -/
def textOfOctets (octets : ByteArray) : Except ReadFailure String :=
  match String.fromUTF8? octets with
  | some text => .ok text
  | none => .error .notText

/-- What stands at a path. -/
inductive FileNode where
  | text (content : String)
  | octets (content : ByteArray)
  | directory

/-- The steps of a path from the top of a tree. -/
abbrev TreePath := List String

/-- Files and directories by their paths. Directories above an entry need no entry of their own. -/
abbrev FileTree := List (TreePath × FileNode)

namespace FileTree

/-- The pieces between the slashes of a path. -/
def pieces (path : String) : List String :=
  (Text.splitOn '/' path.toList).map String.ofList

/-- The steps of a path without the pieces that lead nowhere. -/
def steps (path : String) : TreePath :=
  (pieces path).filter fun piece => piece != "" && piece != "."

/-- What stands at a path, if anything does. -/
def node? (tree : FileTree) (path : TreePath) : Option FileNode :=
  match tree.find? (·.1 == path) with
  | some (_, node) => some node
  | none =>
    if path.isEmpty || tree.any (path.isPrefixOf ·.1) then some .directory else none

/-- Walk the pieces of a path from the directory at `place`. Leaving the tree finds nothing. -/
def walk (tree : FileTree) (place : TreePath) (node : FileNode) :
    List String → Except ReadFailure (TreePath × FileNode)
  | [] => .ok (place, node)
  | piece :: pieces =>
    match node with
    | .directory =>
      if piece = "" ∨ piece = "." then walk tree place node pieces
      else if piece = ".." then
        if place.isEmpty then .error .notFound else walk tree place.dropLast .directory pieces
      else if 255 < piece.utf8ByteSize then .error .nameTooLong
      else
        match tree.node? (place ++ [piece]) with
        | some next => walk tree (place ++ [piece]) next pieces
        | none => .error .notFound
    | _ => .error .notDirectory

/-- Find what a path leads to. The empty path and paths from the root of the file system lead
nowhere. -/
def find (tree : FileTree) (path : String) : Except ReadFailure (TreePath × FileNode) :=
  if path = "" ∨ path.startsWith "/" then .error .notFound
  else if 4096 ≤ path.utf8ByteSize then .error .nameTooLong
  else tree.walk [] .directory (pieces path)

/-- Read the text of a file. -/
def read (tree : FileTree) (path : String) : Except ReadFailure String := do
  match (← tree.find path).2 with
  | .text content => return content
  | .octets content => textOfOctets content
  | .directory => throw .isDirectory

/-- The names in the directory at a place that are files, in increasing order. -/
def filesAt (tree : FileTree) (place : TreePath) : List String :=
  let names := tree.filterMap fun (path, node) =>
    match node with
    | .directory => none
    | _ => if path.dropLast = place ∧ path ≠ [] then path.getLast? else none
  names.eraseDups.mergeSort fun first second => first ≤ second

/-- The names of the files in a directory, in increasing order. -/
def listFiles (tree : FileTree) (path : String) : Except ReadFailure (List String) := do
  match ← tree.find path with
  | (place, .directory) => return tree.filesAt place
  | _ => throw .notDirectory

end FileTree

end TapeMachine
