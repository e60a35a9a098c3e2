/-!
# Ranges of characters

Classes of characters that are given by a table of code points.
-/

namespace TapeMachine.Text

/-- Whether a character lies in one of several inclusive ranges of code points. -/
def isWithin (ranges : List (Nat × Nat)) (c : Char) : Bool :=
  ranges.any fun range => range.1 ≤ c.toNat && c.toNat ≤ range.2

end TapeMachine.Text
