/-!
# Defects of documents

Why a document does not describe a machine. `Defect.message` is the only place that words them.
-/

namespace TapeMachine

/-- The place of a token that has to be a single character. -/
inductive TokenRole where
  | blank
  | wildcard
  | unchanged
  | tapeSymbol
  | inputSymbol
  /-- A component of a pattern of the state `source`. -/
  | patternSymbol (source : String)
  /-- A written symbol of the state `source`. -/
  | writtenSymbol (source : String)
  deriving DecidableEq, Repr

/-- The wording of a token's place. -/
def TokenRole.text : TokenRole → String
  | .blank => "blank symbol"
  | .wildcard => "wildcard token"
  | .unchanged => "unchanged token"
  | .tapeSymbol => "tape alphabet symbol"
  | .inputSymbol => "input alphabet symbol"
  | .patternSymbol source => "state '" ++ source ++ "': pattern symbol"
  | .writtenSymbol source => "state '" ++ source ++ "': write symbol"

/-- The two alphabets of a machine. -/
inductive Alphabet where
  | tape
  | input
  deriving DecidableEq, Repr

/-- The wording of an alphabet. -/
def Alphabet.text : Alphabet → String
  | .tape => "tape alphabet"
  | .input => "input alphabet"

/-- The place of a token of an alphabet. -/
def Alphabet.tokenRole : Alphabet → TokenRole
  | .tape => .tapeSymbol
  | .input => .inputSymbol

/-- The characters that may not be tape symbols. -/
inductive Reserved where
  | wildcard
  | unchanged
  | separator
  deriving DecidableEq, Repr

/-- The wording of a reserved character. -/
def Reserved.text : Reserved → String
  | .wildcard => "wildcard token"
  | .unchanged => "unchanged token"
  | .separator => "pattern separator"

/-- The places where a document refers to a state. -/
inductive StateRole where
  | initial
  | accepting
  | source
  | next
  deriving DecidableEq, Repr

/-- The wording of a reference to a state. -/
def StateRole.text : StateRole → String
  | .initial => "initial state"
  | .accepting => "accepting state"
  | .source => "transition source"
  | .next => "next state"

/-- Why a document does not describe a machine. -/
inductive Defect where
  | noTapes
  | noStates
  | emptyStateName
  | repeatedState (name : String)
  | notOneCharacter (role : TokenRole) (token : String)
  | repeatedSymbol (alphabet : Alphabet) (symbol : Char)
  | inputOutsideTapeAlphabet (symbol : Char)
  | blankOutsideTapeAlphabet (symbol : Char)
  | reservedTapeSymbol (reserved : Reserved) (symbol : Char)
  | undeclaredState (role : StateRole) (name : String)
  | repeatedSource (source : String)
  | patternArity (source pattern : String) (found expected : Nat)
  | symbolOutsideTapeAlphabet (source : String) (symbol : Char)
  | repeatedPattern (source pattern : String)
  | actionArity (source pattern : String) (writes moves expected : Nat)
  | unsupportedMove (source pattern token : String)
  deriving DecidableEq, Repr

namespace Defect

/-- A text in single quotes. -/
def quote (text : String) : String :=
  "'" ++ text ++ "'"

/-- The wording of a defect. -/
def message : Defect → String
  | .noTapes => "tape count must be at least 1"
  | .noStates => "no states declared"
  | .emptyStateName => "state names cannot be empty"
  | .repeatedState name => "state " ++ quote name ++ " is declared twice"
  | .notOneCharacter role token =>
    role.text ++ " " ++ quote token ++ " must be exactly one character"
  | .repeatedSymbol alphabet symbol =>
    alphabet.text ++ " lists " ++ quote symbol.toString ++ " twice"
  | .inputOutsideTapeAlphabet symbol =>
    "input symbol " ++ quote symbol.toString ++ " is not in the tape alphabet"
  | .blankOutsideTapeAlphabet symbol =>
    "blank symbol " ++ quote symbol.toString ++ " is not in the tape alphabet"
  | .reservedTapeSymbol reserved symbol =>
    reserved.text ++ " " ++ quote symbol.toString ++ " cannot be a tape symbol"
  | .undeclaredState role name =>
    role.text ++ " " ++ quote name ++ " is not a declared state"
  | .repeatedSource source => "transitions for state " ++ quote source ++ " are declared twice"
  | .patternArity source pattern found expected =>
    "state " ++ quote source ++ ": pattern " ++ quote pattern ++ " names " ++ found.repr ++
      " symbols, expected " ++ expected.repr
  | .symbolOutsideTapeAlphabet source symbol =>
    "state " ++ quote source ++ ": symbol " ++ quote symbol.toString ++
      " is not in the tape alphabet"
  | .repeatedPattern source pattern =>
    "state " ++ quote source ++ ": pattern " ++ quote pattern ++ " is declared twice"
  | .actionArity source pattern writes moves expected =>
    "state " ++ quote source ++ ", pattern " ++ quote pattern ++ ": action has " ++ writes.repr ++
      " writes and " ++ moves.repr ++ " moves, expected " ++ expected.repr
  | .unsupportedMove source pattern token =>
    "state " ++ quote source ++ ", pattern " ++ quote pattern ++ ": unsupported direction " ++
      quote token

end Defect

end TapeMachine
