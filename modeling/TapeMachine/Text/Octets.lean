/-!
# Cutting text by octets

Pieces of a text at positions that count the octets of its UTF-8 form.
-/

namespace TapeMachine.Text

/-- The text from its octet `count` on. -/
def dropOctets : (count : Nat) → List Char → List Char
  | 0, text => text
  | _ + 1, [] => []
  | count + 1, c :: text => dropOctets (count + 1 - c.utf8Size) text

/-- The first `count` octets of a text. -/
def takeOctets : (count : Nat) → List Char → List Char
  | 0, _ => []
  | _ + 1, [] => []
  | count + 1, c :: text => c :: takeOctets (count + 1 - c.utf8Size) text

/-- The octets of a text from `start` up to `stop`. -/
def cutOctets (start stop : Nat) (text : List Char) : List Char :=
  takeOctets (stop - start) (dropOctets start text)

end TapeMachine.Text
