/-!
# White space

The characters that count as white space at the ends of names, in case files and in listings, and
trimming by them. The class is the Unicode property of the same name.
-/

namespace TapeMachine.Text

/-- Whether a character is white space. -/
def isBlank (c : Char) : Bool :=
  let code := c.toNat
  (0x09 ≤ code && code ≤ 0x0d) || code == 0x20 || code == 0x85 || code == 0xa0 ||
    code == 0x1680 || (0x2000 ≤ code && code ≤ 0x200a) || code == 0x2028 || code == 0x2029 ||
    code == 0x202f || code == 0x205f || code == 0x3000

/-- Remove white space at the start. -/
def trimStart (text : List Char) : List Char :=
  text.dropWhile isBlank

/-- Remove white space at the end. -/
def trimEnd (text : List Char) : List Char :=
  (text.reverse.dropWhile isBlank).reverse

/-- Remove white space at both ends. -/
def trim (text : List Char) : List Char :=
  trimEnd (trimStart text)

end TapeMachine.Text
