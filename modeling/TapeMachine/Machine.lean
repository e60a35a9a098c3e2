import TapeMachine.Rule

/-!
# Machines

A machine is a checked multi-tape Turing machine with wildcard rules. States are named by their
position in the list of states. `Machine.findRule?` selects the rule for a state and the symbols
read: a pattern of exactly these symbols wins wherever it is listed, and otherwise the first
listed pattern that accepts them. Every state keeps an index of its rules without wildcard, so that
the first of the two is found without a look at the other rules.
-/

namespace TapeMachine

/-- Positions of rules under the symbols of their patterns, the latest entry first. -/
abbrev RuleIndex := List (List Char × Nat)

namespace RuleIndex

/-- Enter rules that stand from `position` on. Rules with a wildcard get no entry. -/
def enter (index : RuleIndex) (position : Nat) : List Rule → RuleIndex
  | [] => index
  | rule :: rules =>
    match rule.pattern.literals? with
    | some symbols => enter ((symbols, position) :: index) (position + 1) rules
    | none => enter index (position + 1) rules

/-- The entries for all rules of a list. -/
def ofRules (rules : List Rule) : RuleIndex :=
  enter [] 0 rules

/-- The index that belongs to a list of rules. A stale index does not have this type. -/
abbrev Of (rules : List Rule) := { index : RuleIndex // index = ofRules rules }

/-- Build the index of a list of rules. -/
def build (rules : List Rule) : Of rules :=
  ⟨ofRules rules, rfl⟩

end RuleIndex

/-- A state with its rules in authoring order. -/
structure StateEntry where
  name : String
  accepting : Bool
  rules : List Rule
  /-- Where the rules without wildcard stand among the rules. -/
  literals : RuleIndex.Of rules := RuleIndex.build rules
  deriving DecidableEq, Repr

/-- The index adds nothing to what a state is. -/
@[ext]
theorem StateEntry.ext {first second : StateEntry} (name : first.name = second.name)
    (accepting : first.accepting = second.accepting) (rules : first.rules = second.rules) :
    first = second := by
  cases first with
  | mk firstName firstAccepting firstRules firstLiterals =>
      cases second with
      | mk secondName secondAccepting secondRules secondLiterals =>
          obtain rfl : firstRules = secondRules := rules
          obtain rfl : firstLiterals = secondLiterals :=
            Subtype.ext (firstLiterals.property.trans secondLiterals.property.symm)
          simp_all

/-- A checked machine. -/
structure Machine where
  name : String
  /-- Free text about the machine. -/
  summary : String
  /-- The states in declaration order. -/
  states : Array StateEntry
  inputAlphabet : List Char
  tapeAlphabet : List Char
  tapeCount : Nat
  blank : Char
  /-- The written form of a wildcard component. -/
  wildcard : Char
  /-- The written form of a kept cell. -/
  unchanged : Char
  /-- The position of the initial state. -/
  initial : Nat
  deriving DecidableEq, Repr, Inhabited

namespace Machine

/-- The name of a state; a position without state has the empty name. -/
def stateName (machine : Machine) (state : Nat) : String :=
  match machine.states[state]? with
  | some entry => entry.name
  | none => ""

/-- The position of the state with a name. -/
def stateIndex? (machine : Machine) (name : String) : Option Nat :=
  machine.states.findIdx? (·.name == name)

/-- Whether a state is accepting. -/
def isAccepting (machine : Machine) (state : Nat) : Bool :=
  match machine.states[state]? with
  | some entry => entry.accepting
  | none => false

/-- The rules of a state in authoring order. -/
def rulesOf (machine : Machine) (state : Nat) : List Rule :=
  match machine.states[state]? with
  | some entry => entry.rules
  | none => []

/-- The names of all states in declaration order. -/
def stateNames (machine : Machine) : List String :=
  machine.states.toList.map (·.name)

/-- The names of the accepting states in declaration order. -/
def acceptingNames (machine : Machine) : List String :=
  (machine.states.toList.filter (·.accepting)).map (·.name)

/-- The number of rules of all states. -/
def ruleCount (machine : Machine) : Nat :=
  (machine.states.toList.flatMap (·.rules)).length

/-- The rule of a state whose pattern consists of exactly the given symbols. -/
def exactRule? (machine : Machine) (state : Nat) (symbols : List Char) : Option Rule :=
  match machine.states[state]? with
  | some entry => (entry.literals.val.lookup symbols).bind fun position => entry.rules[position]?
  | none => none

/-- The rule of a state for the symbols read, if there is one. -/
def findRule? (machine : Machine) (state : Nat) (symbols : List Char) : Option Rule :=
  match machine.exactRule? state symbols with
  | some rule => some rule
  | none => (machine.rulesOf state).find? fun rule => rule.pattern.accepts symbols

end Machine

end TapeMachine
