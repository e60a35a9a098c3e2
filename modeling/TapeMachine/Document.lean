import TapeMachine.Document.Table

/-!
# Documents

A document is a machine as it is written down: every token is still a text and nothing has been
checked. Both source formats are read into documents, and a machine is compiled from one.
-/

namespace TapeMachine

/-- The written action of a rule. -/
structure ActionRecord where
  /-- One token for each tape: a symbol or the unchanged token. -/
  write : List String
  /-- One movement token for each tape. -/
  move : List String
  nextState : String
  deriving DecidableEq, Repr, Inhabited

/-- A machine as it is written down. -/
structure Document where
  name : String
  /-- Free text about the machine; nothing interprets it. -/
  description : String
  states : List String
  inputAlphabet : List String
  tapeAlphabet : List String
  tapeCount : Nat
  initialState : String
  acceptingStates : List String
  blank : String
  wildcard : String
  unchanged : String
  /-- Source states, each with its patterns and their actions. -/
  transitions : Table (Table ActionRecord)
  deriving DecidableEq, Repr, Inhabited

namespace Document

/-- The blank token of a document that names none. -/
def defaultBlank : String := "_"

/-- The wildcard token of a document that names none. -/
def defaultWildcard : String := "*"

/-- The unchanged token of a document that names none. -/
def defaultUnchanged : String := "*"

/-- A document with a name, a number of tapes and the default tokens. -/
def empty (name : String) (tapeCount : Nat) : Document where
  name := name
  description := ""
  states := []
  inputAlphabet := []
  tapeAlphabet := []
  tapeCount := tapeCount
  initialState := ""
  acceptingStates := []
  blank := defaultBlank
  wildcard := defaultWildcard
  unchanged := defaultUnchanged
  transitions := []

/-- Append a rule to a state, after the rules already written for it. -/
def addRule (document : Document) (state pattern : String) (action : ActionRecord) : Document :=
  { document with
    transitions := Table.upsert document.transitions state []
      fun rules => Table.push rules pattern action }

end Document

end TapeMachine
