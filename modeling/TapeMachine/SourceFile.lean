import TapeMachine.FileTree
import TapeMachine.Load

/-!
# Source files

The format of a source file is given by the extension of its name. A directory of source files is
loaded file by file; a file that does not load does not keep the others from loading.
-/

namespace TapeMachine

namespace Format

/-- The last piece of a path that leads somewhere. -/
def fileName? (path : String) : Option String :=
  match (FileTree.steps path).getLast? with
  | some ".." => none
  | name? => name?

/-- The part of a file name after its last dot, unless nothing stands before the dot. -/
def extension? (name : String) : Option String :=
  let pieces := Text.splitOn '.' name.toList
  match pieces.dropLast with
  | [] => none
  | [[]] => none
  | _ => pieces.getLast?.map String.ofList

/-- The format of a path. -/
def ofPath? (path : String) : Option Format :=
  match (fileName? path).bind extension? with
  | some "json" => some .json
  | some "tm" => some .listing
  | _ => none

end Format

/-- Why a file does not give a machine. -/
inductive SourceError where
  /-- The extension of the file names no format. -/
  | unsupported (path : String)
  | unreadable (path : String) (failure : ReadFailure)
  | invalid (error : LoadError)
  deriving DecidableEq, Repr

/-- How the wording of a failure with files starts. -/
def SourceError.fileError (detail : String) : String :=
  "File error: " ++ detail

/-- The wording of an error. -/
def SourceError.message : SourceError → String
  | .unsupported path =>
    SourceError.fileError
      ("Unsupported description file " ++ path ++ ": expected a .json or .tm extension")
  | .unreadable path failure =>
    SourceError.fileError ("Failed to read file " ++ path ++ ": " ++ failure.message)
  | .invalid error => error.message

/-- Why a directory does not give all its machines. -/
inductive DirectoryError where
  | unlistable (path : String) (failure : ReadFailure)
  | unloadable (path : String) (error : SourceError)
  deriving DecidableEq, Repr

/-- The wording of an error. -/
def DirectoryError.message : DirectoryError → String
  | .unlistable path failure =>
    SourceError.fileError ("Failed to read directory " ++ path ++ ": " ++ failure.message)
  | .unloadable path error =>
    SourceError.fileError ("Failed to load description from " ++ path ++ ": " ++ error.message)

/-- How files are read. -/
abbrev FileReader := String → Except ReadFailure String

namespace FileReader

/-- Read the source at a path and tell its format. -/
def source (read : FileReader) (path : String) : Except SourceError (Format × String) :=
  match Format.ofPath? path with
  | none => .error (.unsupported path)
  | some format =>
    match read path with
    | .ok source => .ok (format, source)
    | .error failure => .error (.unreadable path failure)

/-- Load the machine of a file. -/
def load (read : FileReader) (path : String) : Except SourceError Machine := do
  let (format, source) ← source read path
  (format.load source).mapError .invalid

end FileReader

namespace FileTree

/-- The path of a file in a directory. -/
def join (directory name : String) : String :=
  if directory.endsWith "/" then directory ++ name else directory ++ "/" ++ name

/-- Load every source file in a directory, in the order of their paths. Other files and
directories are passed over. -/
def loadAll (tree : FileTree) (directory : String) :
    List (Except DirectoryError (String × Machine)) :=
  match tree.listFiles directory with
  | .error failure => [.error (.unlistable directory failure)]
  | .ok names =>
    ((names.map (join directory)).filter (Format.ofPath? · |>.isSome)).map fun path =>
      match FileReader.load tree.read path with
      | .ok machine => .ok (path, machine)
      | .error error => .error (.unloadable path error)

end FileTree

end TapeMachine
