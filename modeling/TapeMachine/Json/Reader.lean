import TapeMachine.Document.Table
import TapeMachine.Json.Skip

/-!
# Typed JSON readers

A reader takes a value of one shape from the start of a text and returns the rest. The first
problem of the text wins: a scalar is read completely before its type is complained about, while
a bracket is refused where it opens. Readers of lists, tables and records loop over the text and
take its length as a bound.
-/

namespace TapeMachine.Json

/-- Takes a value from the start of a text. -/
abbrev Reader (α : Type) := List Char → Except Error (α × List Char)

/-- The complaint about a value of the wrong type, or about the value itself if it is not JSON. The
text starts with the value. -/
def wrongType (expected : Expected) (text : List Char) : Error :=
  let complain (found : Except Error Found) : Error :=
    match found with
    | .ok found => .invalidType found expected
    | .error error => error
  match text with
  | [] => .expectedValue
  | c :: rest =>
    if c = 'n' then complain ((readIdent ['u', 'l', 'l'] rest).map fun _ => .null)
    else if c = 't' then complain ((readIdent ['r', 'u', 'e'] rest).map fun _ => .boolean true)
    else if c = 'f' then
      complain ((readIdent ['a', 'l', 's', 'e'] rest).map fun _ => .boolean false)
    else if c = '-' ∨ c.isDigit then complain ((readNumber text).map fun read => read.1.found)
    else if c = '"' then complain ((readString rest).map fun read => .string read.1)
    else if c = '[' then complain (.ok .sequence)
    else if c = '\x7b' then complain (.ok .map)
    else .expectedValue

namespace Reader

/-- Read a string. -/
def string : Reader String := fun text =>
  match skipSpace text with
  | [] => .error .endInValue
  | '"' :: rest => readString rest
  | text => .error (wrongType .string text)

/-- Read a string of one character. -/
def character : Reader Char := fun text =>
  match skipSpace text with
  | [] => .error .endInValue
  | '"' :: rest => do
    let (value, rest) ← readString rest
    match value.toList with
    | [symbol] => return (symbol, rest)
    | _ => throw (.invalidValue (.string value) .character)
  | text => .error (wrongType .character text)

/-- Read a boolean. -/
def boolean : Reader Bool := fun text =>
  match skipSpace text with
  | [] => .error .endInValue
  | 't' :: rest => do return (true, ← readIdent ['r', 'u', 'e'] rest)
  | 'f' :: rest => do return (false, ← readIdent ['a', 'l', 's', 'e'] rest)
  | text => .error (wrongType .boolean text)

/-- Read a natural number below `limit`. -/
def natural (limit : Nat) (expected : Expected) : Reader Nat := fun text =>
  match skipSpace text with
  | [] => .error .endInValue
  | c :: rest =>
    if c = '-' ∨ c.isDigit then do
      let (read, rest) ← readNumber (c :: rest)
      match read with
      | .natural value =>
        if value < limit then return (value, rest)
        else throw (.invalidValue read.found expected)
      | .negative _ => throw (.invalidValue read.found expected)
      | .float _ => throw (.invalidType read.found expected)
    else .error (wrongType expected (c :: rest))

/-- Read a natural number of 64 bits. -/
def word64 : Reader Nat := natural Text.wordLimit .word64

/-- Read a natural number of 32 bits. -/
def word32 : Reader Nat := natural 0x100000000 .word32

/-- Read the word that stands for no value. -/
def unit : Reader Unit := fun text =>
  match skipSpace text with
  | [] => .error .endInValue
  | 'n' :: rest => do return ((), ← readIdent ['u', 'l', 'l'] rest)
  | text => .error (wrongType .unit text)

/-- Whether another item of a list follows. The text after it starts with the item or with the
closing bracket; `first` tells whether no item came before. -/
def nextItem (first : Bool) (text : List Char) : Except Error (Bool × List Char) :=
  match skipSpace text with
  | [] => .error .endInList
  | ']' :: rest => .ok (false, ']' :: rest)
  | text =>
    if first then .ok (true, text)
    else
      match text with
      | ',' :: rest =>
        match skipSpace rest with
        | [] => .error .endInValue
        | ']' :: _ => .error .trailingComma
        | rest => .ok (true, rest)
      | _ => .error .expectedListCommaOrEnd

/-- Close a list. -/
def closeList (text : List Char) : Except Error (List Char) :=
  match skipSpace text with
  | [] => .error .endInList
  | ']' :: rest => .ok rest
  | ',' :: rest =>
    match skipSpace rest with
    | ']' :: _ => .error .trailingComma
    | _ => .error .trailingCharacters
  | _ => .error .trailingCharacters

/-- Whether another member of an object follows. The text after it starts with the quote of the
key or with the closing bracket; `first` tells whether no member came before. -/
def nextMember (first : Bool) (text : List Char) : Except Error (Bool × List Char) :=
  match skipSpace text with
  | [] => .error .endInObject
  | '\x7d' :: rest => .ok (false, '\x7d' :: rest)
  | text =>
    if first then
      match text with
      | '"' :: _ => .ok (true, text)
      | _ => .error .keyNotString
    else
      match text with
      | ',' :: rest =>
        match skipSpace rest with
        | [] => .error .endInValue
        | '"' :: rest => .ok (true, '"' :: rest)
        | '\x7d' :: _ => .error .trailingComma
        | _ => .error .keyNotString
      | _ => .error .expectedObjectCommaOrEnd

/-- Close an object. -/
def closeObject (text : List Char) : Except Error (List Char) :=
  match skipSpace text with
  | [] => .error .endInObject
  | '\x7d' :: rest => .ok rest
  | ',' :: _ => .error .trailingComma
  | _ => .error .trailingCharacters

/-- Read the colon between a key and its value. -/
def colon (text : List Char) : Except Error (List Char) :=
  match skipSpace text with
  | [] => .error .endInObject
  | ':' :: rest => .ok rest
  | _ => .error .expectedColon

variable {α σ : Type}

/-- Read the items of a list after those in `done`, which are listed last first. -/
def items (item : Reader α) : (fuel : Nat) → (first : Bool) → (done : List α) → Reader (List α)
  | 0, _, _, _ => .error .endInList
  | fuel + 1, first, done, text => do
    let (follows, rest) ← nextItem first text
    if follows then
      let (value, rest) ← item rest
      items item fuel false (value :: done) rest
    else return (done.reverse, rest)

/-- Read a list. -/
def list (limit : Nat) (item : Reader α) : Reader (List α) := fun text =>
  match skipSpace text with
  | [] => .error .endInValue
  | '[' :: rest => do
    let (values, rest) ← items item (limit + 1) true [] rest
    return (values, ← closeList rest)
  | text => .error (wrongType .sequence text)

/-- Read the entries of a table after those in `done`, which are listed last first. -/
def entries (value : Reader α) :
    (fuel : Nat) → (first : Bool) → (done : Table α) → Reader (Table α)
  | 0, _, _, _ => .error .endInObject
  | fuel + 1, first, done, text => do
    let (follows, rest) ← nextMember first text
    if follows then
      let (key, rest) ← Reader.string rest
      let rest ← colon rest
      let (read, rest) ← value rest
      entries value fuel false ((key, read) :: done) rest
    else return (done.reverse, rest)

/-- Read an object as a table of all its members in order. -/
def table (limit : Nat) (value : Reader α) : Reader (Table α) := fun text =>
  match skipSpace text with
  | [] => .error .endInValue
  | '\x7b' :: rest => do
    let (read, rest) ← entries value (limit + 1) true [] rest
    return (read, ← closeObject rest)
  | text => .error (wrongType .map text)

/-- Find the value with a name. -/
def named (values : List (String × α)) (name : String) : Except Error α :=
  match values.find? (·.1 == name) with
  | some (_, value) => .ok value
  | none => .error (.unknownVariant name (values.map (·.1)))

/-- Read one of several named values: its name, or an object that maps the name to `null`. -/
def variant (values : List (String × α)) : Reader α := fun text =>
  match skipSpace text with
  | [] => .error .endInValue
  | '"' :: rest => do
    let (name, rest) ← readString rest
    return (← named values name, rest)
  | '\x7b' :: rest => do
    let (name, rest) ←
      match skipSpace rest with
      | [] => .error .endInValue
      | '"' :: rest => readString rest
      | _ => .error .keyNotString
    let value ← named values name
    let rest ← colon rest
    let ((), rest) ← unit rest
    match skipSpace rest with
    | '\x7d' :: rest => return (value, rest)
    | [] => throw .endInObject
    | _ => throw .expectedValue
  | _ => .error .expectedValue

end Reader

/-- One field of a record that is read into drafts of type `σ`. -/
structure Field (σ : Type) where
  name : String
  /-- A second accepted name. -/
  alternative : Option String
  /-- Whether a draft has the field already. -/
  isRead : σ → Bool
  /-- Read the value of the field into a draft. -/
  read : σ → Reader σ

namespace Field

variable {σ α : Type}

/-- A field that is kept in an optional component of the draft. -/
def of (name : String) (alternative : Option String) (get : σ → Option α) (set : σ → α → σ)
    (reader : Reader α) : Field σ where
  name := name
  alternative := alternative
  isRead draft := (get draft).isSome
  read draft text := do
    let (value, rest) ← reader text
    return (set draft value, rest)

/-- Whether a key names a field. -/
def answersTo (field : Field σ) (key : String) : Bool :=
  key == field.name || field.alternative == some key

end Field

/-- The value of a field that has to be present. -/
def required {α : Type} (value : Option α) (absent : Error) : Except Error α :=
  match value with
  | some value => .ok value
  | none => .error absent

/-- How a record is read: its fields, and the record of a draft. A draft that lacks a required
field is refused with the error that `absent` makes of the field's position and name. -/
structure Record (σ α : Type) where
  title : String
  fields : List (Field σ)
  draft : σ
  build : (absent : Nat → String → Error) → σ → Except Error α

namespace Record

variable {σ α : Type}

/-- Read the members of an object into a draft; members that name no field are skipped. -/
def readMembers (record : Record σ α) (limit : Nat) : (fuel : Nat) → (first : Bool) → σ → Reader σ
  | 0, _, _, _ => .error .endInObject
  | fuel + 1, first, draft, text => do
    let (follows, rest) ← Reader.nextMember first text
    if follows then
      let (key, rest) ← Reader.string rest
      match record.fields.find? (·.answersTo key) with
      | some field =>
        if field.isRead draft then throw (.duplicateField field.name)
        let rest ← Reader.colon rest
        let (draft, rest) ← field.read draft rest
        record.readMembers limit fuel false draft rest
      | none =>
        let rest ← Reader.colon rest
        let rest ← skipValue limit rest
        record.readMembers limit fuel false draft rest
    else return (draft, rest)

/-- Read the items of a list into the fields of a draft, in the order of the fields. -/
def readPositions (first : Bool) (draft : σ) : List (Field σ) → Reader σ
  | [], text => .ok (draft, text)
  | field :: fields, text => do
    let (follows, rest) ← Reader.nextItem first text
    if follows then
      let (draft, rest) ← field.read draft rest
      readPositions false draft fields rest
    else return (draft, rest)

/-- Read a record: an object with its fields in any order, or a list with its fields in order. -/
def read (record : Record σ α) (limit : Nat) : Reader α := fun text =>
  match skipSpace text with
  | [] => .error .endInValue
  | '\x7b' :: rest => do
    let (draft, rest) ← record.readMembers limit (limit + 1) true record.draft rest
    let value ← record.build (fun _ name => .missingField name) draft
    return (value, ← Reader.closeObject rest)
  | '[' :: rest => do
    let (draft, rest) ← readPositions true record.draft record.fields rest
    let value ← record.build
      (fun position _ => .invalidLength position record.title record.fields.length) draft
    return (value, ← Reader.closeList rest)
  | text => .error (wrongType (.record record.title) text)

end Record

/-- Read a whole text as one value. The reader is told the length of the text. -/
def readText {α : Type} (reader : (limit : Nat) → Reader α) (text : String) : Except Error α := do
  let chars := text.toList
  let (value, rest) ← reader chars.length chars
  match skipSpace rest with
  | [] => return value
  | _ => throw .trailingCharacters

end TapeMachine.Json
