import TapeMachine.Text.Quoted

/-!
# What can be wrong with a JSON text

A text is read as a stream and the first problem wins. A problem is a truncated text, a text that is
not JSON, or a value of the wrong shape.
-/

namespace TapeMachine.Json

/-- What stands where something else was expected. -/
inductive Found where
  | null
  | boolean (value : Bool)
  | integer (value : Int)
  /-- A number that is not an integer of 64 bits, with its shortest decimal text. -/
  | float (text : String)
  | string (value : String)
  | sequence
  | map
  deriving DecidableEq, Repr

/-- The wording of what stands in the text. -/
def Found.text : Found → String
  | .null => "null"
  | .boolean true => "boolean `true`"
  | .boolean false => "boolean `false`"
  | .integer value => "integer `" ++ toString value ++ "`"
  | .float text => "floating point `" ++ text ++ "`"
  | .string value => "string " ++ Text.quoted value
  | .sequence => "sequence"
  | .map => "map"

/-- What a reader expects. -/
inductive Expected where
  | string
  | character
  | boolean
  /-- A natural number of 64 bits. -/
  | word64
  /-- A natural number of 32 bits. -/
  | word32
  | sequence
  | map
  | unit
  /-- A record with this title. -/
  | record (title : String)
  deriving DecidableEq, Repr

/-- The wording of an expectation. -/
def Expected.text : Expected → String
  | .string => "a string"
  | .character => "a character"
  | .boolean => "a boolean"
  | .word64 => "usize"
  | .word32 => "u32"
  | .sequence => "a sequence"
  | .map => "a map"
  | .unit => "unit"
  | .record title => "struct " ++ title

/-- Why a JSON text cannot be read. -/
inductive Error where
  | endInList
  | endInObject
  | endInString
  | endInValue
  | expectedColon
  | expectedListCommaOrEnd
  | expectedObjectCommaOrEnd
  | expectedIdent
  | expectedValue
  | invalidEscape
  | invalidNumber
  | numberOutOfRange
  | controlCharacter
  | keyNotString
  | loneSurrogate
  | trailingComma
  | trailingCharacters
  | unfinishedSurrogate
  | invalidType (found : Found) (expected : Expected)
  | invalidValue (found : Found) (expected : Expected)
  | unknownVariant (name : String) (known : List String)
  | missingField (name : String)
  | duplicateField (name : String)
  | invalidLength (length : Nat) (title : String) (fields : Nat)
  deriving DecidableEq, Repr

/-- The kinds of problems. -/
inductive ErrorKind where
  /-- The text ended too early. -/
  | truncated
  /-- The text is not JSON. -/
  | malformed
  /-- The text has the wrong shape. -/
  | mistyped
  deriving DecidableEq, Repr

namespace Error

/-- The kind of a problem. -/
def kind : Error → ErrorKind
  | .endInList | .endInObject | .endInString | .endInValue => .truncated
  | .invalidType .. | .invalidValue .. | .unknownVariant .. | .missingField .. |
    .duplicateField .. | .invalidLength .. => .mistyped
  | _ => .malformed

/-- A name between backquotes. -/
def backquoted (name : String) : String :=
  "`" ++ name ++ "`"

/-- The wording of a problem. -/
def message : Error → String
  | .endInList => "EOF while parsing a list"
  | .endInObject => "EOF while parsing an object"
  | .endInString => "EOF while parsing a string"
  | .endInValue => "EOF while parsing a value"
  | .expectedColon => "expected `:`"
  | .expectedListCommaOrEnd => "expected `,` or `]`"
  | .expectedObjectCommaOrEnd => "expected `,` or `\x7d`"
  | .expectedIdent => "expected ident"
  | .expectedValue => "expected value"
  | .invalidEscape => "invalid escape"
  | .invalidNumber => "invalid number"
  | .numberOutOfRange => "number out of range"
  | .controlCharacter => "control character (\\u0000-\\u001F) found while parsing a string"
  | .keyNotString => "key must be a string"
  | .loneSurrogate => "lone leading surrogate in hex escape"
  | .trailingComma => "trailing comma"
  | .trailingCharacters => "trailing characters"
  | .unfinishedSurrogate => "unexpected end of hex escape"
  | .invalidType found expected => "invalid type: " ++ found.text ++ ", expected " ++ expected.text
  | .invalidValue found expected =>
    "invalid value: " ++ found.text ++ ", expected " ++ expected.text
  | .unknownVariant name known =>
    "unknown variant " ++ backquoted name ++ ", expected one of " ++
      String.intercalate ", " (known.map backquoted)
  | .missingField name => "missing field " ++ backquoted name
  | .duplicateField name => "duplicate field " ++ backquoted name
  | .invalidLength length title fields =>
    "invalid length " ++ length.repr ++ ", expected struct " ++ title ++ " with " ++ fields.repr ++
      " elements"

end Error

end TapeMachine.Json
