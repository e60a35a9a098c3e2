/-!
# Patterns

A pattern names one component for each tape: a symbol, or a wildcard that matches whatever stands
under the head. `Pattern.covers` compares two patterns component by component.
-/

namespace TapeMachine

/-- One component of a pattern. -/
inductive PatternSymbol where
  /-- Matches whatever symbol is read. -/
  | any
  /-- Matches this symbol only. -/
  | literal (symbol : Char)
  deriving DecidableEq, Repr, Inhabited

namespace PatternSymbol

/-- Whether a component accepts the symbol read. -/
def accepts : PatternSymbol → Char → Bool
  | .any, _ => true
  | .literal expected, symbol => expected == symbol

/-- Whether the first component accepts every symbol that the second one accepts. -/
def covers : PatternSymbol → PatternSymbol → Bool
  | .any, _ => true
  | .literal mine, .literal theirs => mine == theirs
  | .literal _, .any => false

/-- The symbol of a literal component. -/
def literal? : PatternSymbol → Option Char
  | .any => none
  | .literal symbol => some symbol

/-- The written symbol of a component, where wildcards are written as `wildcard`. -/
def written (wildcard : Char) : PatternSymbol → Char
  | .any => wildcard
  | .literal symbol => symbol

end PatternSymbol

/-- One component for each tape, in tape order. -/
abbrev Pattern := List PatternSymbol

namespace Pattern

/-- The character between the components of a written pattern. -/
def separator : Char := ','

/-- The wildcard of a pattern that is written without a machine to say otherwise. -/
def defaultWildcard : Char := '*'

/-- The symbols of a pattern without wildcards. -/
def literals? (pattern : Pattern) : Option (List Char) :=
  pattern.mapM PatternSymbol.literal?

/-- Whether a pattern has as many components as symbols were read and accepts each of them. -/
def accepts : Pattern → List Char → Bool
  | [], [] => true
  | component :: pattern, symbol :: symbols => component.accepts symbol && accepts pattern symbols
  | _, _ => false

/-- Whether two patterns have equally many components and each of the first covers its partner. -/
def covers : Pattern → Pattern → Bool
  | [], [] => true
  | mine :: pattern, theirs :: other => mine.covers theirs && covers pattern other
  | _, _ => false

/-- The symbols of a pattern, where wildcards are written as `wildcard`. -/
def written (pattern : Pattern) (wildcard : Char) : List Char :=
  pattern.map (PatternSymbol.written wildcard)

/-- The written form of a pattern: its symbols, joined by the separator. -/
def render (pattern : Pattern) (wildcard : Char) : String :=
  String.ofList ((pattern.written wildcard).intersperse separator)

end Pattern

end TapeMachine
