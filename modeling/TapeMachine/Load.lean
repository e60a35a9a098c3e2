import TapeMachine.Document.Json
import TapeMachine.Listing
import TapeMachine.Listing.Printer
import TapeMachine.Machine.Compile

/-!
# Loading machines

A machine is written in one of two formats. Loading a source reads its document and compiles it; a
source beyond the size limit is refused before anything else is looked at. `Format.encode` writes a
machine in either format.
-/

namespace TapeMachine

/-- The formats in which machines are written. -/
inductive Format where
  /-- The JSON form of a document. -/
  | json
  /-- A listing. -/
  | listing
  deriving DecidableEq, Repr

/-- The name of a format in log events. -/
def Format.title : Format → String
  | .json => "Json"
  | .listing => "Text"

/-- Why a source does not describe a machine. -/
inductive LoadError where
  /-- The source has more octets than are allowed. -/
  | oversized (octets : Nat)
  | json (error : Json.Error)
  | listing (error : Listing.Error)
  /-- The source is a listing that names no initial state. -/
  | uninitialized
  | defect (cause : Defect)
  deriving DecidableEq, Repr

/-- The greatest number of octets of a source. -/
def maxSourceSize : Nat := 1024 * 1024

namespace LoadError

/-- How the wording of a malformed source starts. -/
def malformed (detail : String) : String :=
  "Malformed description: " ++ detail

/-- The wording of an error. -/
def message : LoadError → String
  | .oversized octets =>
    malformed ("description is " ++ octets.repr ++ " bytes, the limit is " ++ maxSourceSize.repr ++
      " bytes")
  | .json error => malformed error.message
  | .listing error => "Description parsing error: " ++ error.message
  | .uninitialized => malformed "no initial state"
  | .defect cause => malformed cause.message

/-- The error of a listing that has no document. -/
def ofRefusal : Listing.Refusal → LoadError
  | .located error => .listing error
  | .noInitialState => .uninitialized

end LoadError

namespace Format

/-- Read the document of a source. -/
def readDocument (format : Format) (source : String) : Except LoadError Document :=
  match format with
  | .json => (Document.ofJson source).mapError .json
  | .listing => (Listing.read source).mapError .ofRefusal

/-- Read the machine of a source, whatever its size. -/
def read (format : Format) (source : String) : Except LoadError Machine := do
  let document ← format.readDocument source
  (Machine.ofDocument document).mapError .defect

/-- Load the machine of a source. -/
def load (format : Format) (source : String) : Except LoadError Machine := do
  if maxSourceSize < source.utf8ByteSize then throw (.oversized source.utf8ByteSize)
  format.read source

/-- Write a machine. -/
def encode (format : Format) (machine : Machine) : String :=
  match format with
  | .json => machine.toDocument.toJson.render .pretty
  | .listing => Listing.write machine

end Format

end TapeMachine
