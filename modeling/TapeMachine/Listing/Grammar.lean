import TapeMachine.Listing.Phrase
import TapeMachine.Listing.Program

/-!
# The grammar of listings

A listing is a sequence of header lines followed by the rules:

```
name: Unary Doubling
tapes: 2
accept: [yes]
rules:
  start:
    [a, *] -> [_, a], [S, R], second
    [_, *] -> [*, *], [S, S], yes
  second:
    [*, *] -> [*, a], [R, R], start     # once more for the same symbol
```

On a single tape the brackets may be left out, as in `_ -> _, S, yes`. Spaces, tabs and comments
may stand between any two tokens. A symbol that could be read as punctuation is written between
single quotes. Alternatives are tried in the order in which they are listed here, and a repetition
takes as much as it can.
-/

namespace TapeMachine.Listing

open Phrase

/-- Whether a character may stand in the name of a state. -/
def isNameChar (c : Char) : Bool :=
  c.isAlphanum || c == '_' || c == '-' || c == '.'

/-- Whether a symbol may be written without quotes. -/
def isBareSymbol (c : Char) : Bool :=
  !(c == '[' || c == ']' || c == ',' || c == '\'' || c == '#' || isFiller c || isLineEnd c)

/-- Whether a character may stand in the name of a machine. -/
def isTextChar (c : Char) : Bool :=
  !(isLineEnd c || c == '#')

/-- Whether a character may stand for a head movement. -/
def isMoveToken (c : Char) : Bool :=
  c == 'L' || c == 'R' || c == 'S' || c == '<' || c == '>' || c == '-'

/-- The end of a line: a line feed, a carriage return and a line feed, or a carriage return. -/
def newline : Phrase Unit :=
  choice [literal ['\n'], literal ['\r', '\n'], literal ['\r']]

/-- At least one end of a line. Blank lines and comments count as such. -/
def newlines (limit : Nat) : Phrase Unit := do
  let _ ← many1 limit newline

/-- The name of a state. -/
def stateName : Phrase String :=
  named do return String.ofList (← run isNameChar)

/-- The name of a machine, up to the end of its line or a comment. -/
def text : Phrase (List Char) :=
  named (run isTextChar)

/-- A number of tapes. -/
def count : Phrase (List Char) :=
  named (run Char.isDigit)

/-- A symbol, with or without quotes. -/
def symbol : Phrase Char :=
  named fun cursor =>
    match cursor.rest with
    | '\'' :: c :: '\'' :: rest =>
      { furthest := 0, result := some (c, { offset := cursor.offset + 3, rest }) }
    | c :: rest =>
      if isBareSymbol c then
        { furthest := 0, result := some (c, { offset := cursor.offset + 1, rest }) }
      else fail cursor
    | [] => fail cursor

/-- The token of a head movement. -/
def move : Phrase Char :=
  named fun cursor =>
    match cursor.rest with
    | c :: rest =>
      if isMoveToken c then
        { furthest := 0, result := some (c, { offset := cursor.offset + 1, rest }) }
      else fail cursor
    | [] => fail cursor

/-- A phrase with the place where it starts. -/
def withPlace {α : Type} (phrase : Phrase α) : Phrase (Located α) := do
  let (offset, item) ← located phrase
  return { offset, item }

/-- Read a phrase after a fixed word. -/
def after {α : Type} (word : String) (phrase : Phrase α) : Phrase α := do
  literal word.toList
  filler
  phrase

/-- At least one item, separated by commas. -/
def commaSeparated {α : Type} (limit : Nat) (item : Phrase α) : Phrase (List α) := do
  let first ← item
  filler
  let others ← many limit (after "," item)
  return first :: others

/-- Items between brackets. -/
def bracketed {α : Type} (items : Phrase (List α)) : Phrase (List α) := do
  literal ['[']
  filler
  let values ← items
  filler
  literal [']']
  return values

/-- A bracketed list of symbols, which may be empty. -/
def symbolList (limit : Nat) : Phrase (List Char) :=
  named (bracketed (optional (commaSeparated limit symbol) []))

/-- A bracketed list of movements. -/
def moveList (limit : Nat) : Phrase (List (Located Char)) :=
  named (bracketed (commaSeparated limit (withPlace move)))

/-- A bracketed list of state names, which may be empty, or a single name. -/
def stateNames (limit : Nat) : Phrase (List String) :=
  named (orElse (bracketed (optional (commaSeparated limit stateName) []))
    do return [← stateName])

/-- One symbol for each tape, or a single symbol. -/
def symbols (limit : Nat) : Phrase (List Char) :=
  orElse (symbolList limit) do return [← symbol]

/-- One movement for each tape, or a single movement. -/
def moves (limit : Nat) : Phrase (List (Located Char)) :=
  orElse (moveList limit) do return [← withPlace move]

/-- One header. -/
def header (limit : Nat) : Phrase Header :=
  choice [
    named (after "name:" do return .name (← text)),
    named (after "tapes:" do return .tapes (← count)),
    named (after "blank:" do return .blank (← symbol)),
    named (after "wildcard:" do return .wildcard (← symbol)),
    named (after "states:" do return .states (← stateNames limit)),
    named (after "input:" do return .input (← symbolList limit)),
    named (after "alphabet:" do return .alphabet (← symbolList limit)),
    named (after "start:" do return .start (← stateName)),
    named (after "accept:" do return .accept (← stateNames limit))]

/-- One rule. -/
def ruleLine (limit : Nat) : Phrase WrittenRule :=
  named do
    let reads ← symbols limit
    filler
    literal ['-', '>']
    filler
    let writes ← symbols limit
    filler
    literal [',']
    filler
    let moves ← moves limit
    filler
    literal [',']
    filler
    let next ← stateName
    return { reads, writes, moves, next }

/-- Read a phrase on a line below. -/
def onNextLine {α : Type} (limit : Nat) (phrase : Phrase α) : Phrase α := do
  newlines limit
  filler
  phrase

/-- The rules of one state. -/
def block (limit : Nat) : Phrase Block :=
  named do
    let state ← stateName
    filler
    literal [':']
    filler
    let rules ← many limit (onNextLine limit (withPlace (ruleLine limit)))
    return { state, rules }

/-- The rules of all states. -/
def blocks (limit : Nat) : Phrase (List (Located Block)) :=
  named (after "rules:" (many1 limit (onNextLine limit (withPlace (block limit)))))

/-- A header and the end of its line. -/
def headerLine (limit : Nat) : Phrase (Located Header) := do
  let header ← withPlace (header limit)
  filler
  newlines limit
  return header

/-- The end of the text. -/
def endOfText : Phrase Unit :=
  named fun cursor =>
    match cursor.rest with
    | [] => Phrase.pure () cursor
    | _ :: _ => fail cursor

/-- A whole listing. -/
def program (limit : Nat) : Phrase Program :=
  named do
    filler
    let _ ← many limit newline
    filler
    let headers ← many limit (headerLine limit)
    filler
    let blocks ← blocks limit
    filler
    let _ ← many limit newline
    filler
    endOfText
    return { headers, blocks }

/-- Read a listing, or tell the place of its mistake. -/
def parse (text : List Char) : Except Nat Program :=
  let reply := program (text.length + 1) (Cursor.start text)
  match reply.result with
  | some (program, _) => .ok program
  | none => .error reply.furthest

end TapeMachine.Listing
