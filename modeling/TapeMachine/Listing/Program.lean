/-!
# Programs

What a listing says, free of its layout: headers in the order in which they stand, and one block
of rules for each state. Every part remembers the place where it starts, so that a mistake can
be shown.
-/

namespace TapeMachine.Listing

/-- A part of a listing and the number of characters before it. -/
structure Located (α : Type) where
  offset : Nat
  item : α
  deriving DecidableEq, Repr

/-- One header. -/
inductive Header where
  | name (text : List Char)
  | tapes (digits : List Char)
  | blank (symbol : Char)
  | wildcard (symbol : Char)
  | states (names : List String)
  | input (symbols : List Char)
  | alphabet (symbols : List Char)
  | start (name : String)
  | accept (names : List String)
  deriving DecidableEq, Repr

/-- The keyword of a header. -/
def Header.keyword : Header → String
  | .name _ => "name"
  | .tapes _ => "tapes"
  | .blank _ => "blank"
  | .wildcard _ => "wildcard"
  | .states _ => "states"
  | .input _ => "input"
  | .alphabet _ => "alphabet"
  | .start _ => "start"
  | .accept _ => "accept"

/-- One rule as it is written, with the tokens of its movements. -/
structure WrittenRule where
  reads : List Char
  writes : List Char
  moves : List (Located Char)
  next : String
  deriving DecidableEq, Repr

/-- The rules of one state. -/
structure Block where
  state : String
  rules : List (Located WrittenRule)
  deriving DecidableEq, Repr

/-- What a listing says. -/
structure Program where
  headers : List (Located Header)
  blocks : List (Located Block)
  deriving DecidableEq, Repr

end TapeMachine.Listing
