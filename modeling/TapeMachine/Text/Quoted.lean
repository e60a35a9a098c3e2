import TapeMachine.Text.Hidden

/-!
# Quoted text

Text between quotes in messages and log events. A backslash and the quote itself are escaped, the
usual controls have short escapes, and characters that do not show are written by their code point.
-/

namespace TapeMachine.Text

/-- The short escape letter of a control character. -/
def controlEscape? (c : Char) : Option Char :=
  if c = '\x00' then some '0'
  else if c = '\t' then some 't'
  else if c = '\r' then some 'r'
  else if c = '\n' then some 'n'
  else none

/-- The written form of one character between two `quote` characters. -/
def escapeChar (quote c : Char) : List Char :=
  match controlEscape? c with
  | some letter => ['\\', letter]
  | none =>
    if c = '\\' ∨ c = quote then ['\\', c]
    else if isHidden c then
      ['\\', 'u', '\x7b'] ++ Nat.toDigits 16 c.toNat ++ ['\x7d']
    else [c]

/-- A text between double quotes. -/
def quoted (text : String) : String :=
  String.ofList ('"' :: text.toList.flatMap (escapeChar '"') ++ ['"'])

/-- A symbol between single quotes. -/
def quotedSymbol (symbol : Char) : String :=
  String.ofList ('\'' :: escapeChar '\'' symbol ++ ['\''])

/-- Items between brackets, separated by commas. -/
def bracketed (items : List String) : String :=
  "[" ++ String.intercalate ", " items ++ "]"

/-- Symbols as a bracketed list of quoted symbols. -/
def symbolList (symbols : List Char) : String :=
  bracketed (symbols.map quotedSymbol)

/-- Numbers as a bracketed list. -/
def numberList (numbers : List Nat) : String :=
  bracketed (numbers.map Nat.repr)

end TapeMachine.Text
