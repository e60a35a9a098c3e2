import TapeMachine.Machine
import TapeMachine.Text.Split

/-!
# Findings

What is suspicious about a machine that compiles: states that no rules lead to, states that
reject every visit, and wildcard rules that an earlier wildcard rule covers. A finding never
stops a machine from running.
-/

namespace TapeMachine

/-- Something suspicious about a machine. -/
inductive Finding where
  /-- States that no path of rules connects to the initial state. -/
  | unreachableStates (names : List String)
  /-- Connected states that do not accept and have no rules. -/
  | deadEndStates (names : List String)
  /-- A wildcard rule that is covered by an earlier wildcard rule of its state. -/
  | shadowedRule (state pattern shadowedBy : String)
  deriving DecidableEq, Repr

namespace Finding

/-- The wording of a finding. -/
def text : Finding → String
  | .unreachableStates names => "Unreachable states detected: " ++ Text.join ", " names
  | .deadEndStates names =>
    "States without transitions that are not accepting: " ++ Text.join ", " names
  | .shadowedRule state pattern shadowedBy =>
    "Transition '" ++ pattern ++ "' in state '" ++ state ++ "' is shadowed by '" ++ shadowedBy ++
      "'"

end Finding

namespace Machine

/-- The states that the rules of a state lead to. -/
def successors (machine : Machine) (state : Nat) : List Nat :=
  (machine.rulesOf state).map (·.action.next)

/-- Visit the states on `pending` and all states their rules lead to, after those in `visited`. Each
round takes one state from `pending`; the rules of a state are followed only when the state is
visited first, the last rule before the others, so `fuel` rounds suffice once it exceeds the number
of rules. -/
def visitFrom (machine : Machine) : (fuel : Nat) → (pending visited : List Nat) → List Nat
  | 0, _, visited => visited
  | _, [], visited => visited
  | fuel + 1, state :: pending, visited =>
    if visited.contains state then machine.visitFrom fuel pending visited
    else
      let visited := state :: visited
      let fresh := (machine.successors state).filter (!visited.contains ·)
      machine.visitFrom fuel (fresh.reverse ++ pending) visited

/-- The states connected to the initial state by a path of rules. -/
def reachableStates (machine : Machine) : List Nat :=
  machine.visitFrom (machine.ruleCount + 1) [machine.initial] []

/-- The names of the states that satisfy a condition, in declaration order. -/
def namesWhere (machine : Machine) (condition : Nat → Bool) : List String :=
  ((List.range machine.states.size).filter condition).map machine.stateName

/-- Report a list of names unless it is empty. -/
def reportNames (finding : List String → Finding) (names : List String) : List Finding :=
  if names.isEmpty then [] else [finding names]

/-- The patterns of a list of rules that have a wildcard. -/
def wildcardPatterns (rules : List Rule) : List Pattern :=
  (rules.map (·.pattern)).filter (·.literals?.isNone)

/-- The findings about wildcard patterns of one state, each compared with those `earlier`. -/
def shadowedIn (machine : Machine) (state : String) (earlier : List Pattern) :
    List Pattern → List Finding
  | [] => []
  | pattern :: patterns =>
    let rest := machine.shadowedIn state (earlier ++ [pattern]) patterns
    match earlier.find? (·.covers pattern) with
    | some cover =>
      .shadowedRule state (pattern.render machine.wildcard) (cover.render machine.wildcard) :: rest
    | none => rest

/-- The findings about wildcard rules, in state order and rule order. -/
def shadowedRules (machine : Machine) : List Finding :=
  machine.states.toList.flatMap fun entry =>
    machine.shadowedIn entry.name [] (wildcardPatterns entry.rules)

/-- All findings about a machine. -/
def findings (machine : Machine) : List Finding :=
  let reachable := machine.reachableStates
  reportNames .unreachableStates (machine.namesWhere (!reachable.contains ·)) ++
    reportNames .deadEndStates (machine.namesWhere fun state =>
      reachable.contains state && !machine.isAccepting state && (machine.rulesOf state).isEmpty) ++
    machine.shadowedRules

end Machine

end TapeMachine
