import TapeMachine.Machine
import TapeMachine.Text.Blank

/-!
# Writing listings

A machine as a listing in which nothing is left to inference. Kept cells are written as wildcards,
since a listing uses one character for both. Names are written as they are.
-/

namespace TapeMachine.Listing

/-- Whether a symbol could be read as punctuation, a comment or white space. -/
def needsQuotes (symbol : Char) : Bool :=
  symbol == '[' || symbol == ']' || symbol == ',' || symbol == '\'' || symbol == '#' ||
    Text.isBlank symbol

/-- A symbol, between quotes where it needs them. -/
def writeSymbol (symbol : Char) : List Char :=
  if needsQuotes symbol then ['\'', symbol, '\''] else [symbol]

/-- Items separated by commas. -/
def writeItems (items : List (List Char)) : List Char :=
  (items.intersperse [',', ' ']).flatten

/-- Items between brackets. -/
def writeList (items : List (List Char)) : List Char :=
  '[' :: writeItems items ++ [']']

/-- Symbols between brackets. -/
def writeSymbols (symbols : List Char) : List Char :=
  writeList (symbols.map writeSymbol)

/-- State names between brackets. -/
def writeNames (names : List String) : List Char :=
  writeList (names.map String.toList)

/-- A header line. -/
def writeHeader (keyword : String) (value : List Char) : List Char :=
  keyword.toList ++ [':', ' '] ++ value ++ ['\n']

/-- The line of one rule. -/
def writeRule (machine : Machine) (rule : Rule) : List Char :=
  let writes := rule.action.writes.map (Write.written machine.wildcard)
  [' ', ' ', ' ', ' '] ++ writeSymbols (rule.pattern.written machine.wildcard) ++
    [' ', '-', '>', ' '] ++ writeSymbols writes ++ [',', ' '] ++
    writeList (rule.action.moves.map fun direction => direction.token.toList) ++ [',', ' '] ++
    (machine.stateName rule.action.next).toList ++ ['\n']

/-- The lines of one state. -/
def writeBlock (machine : Machine) (name : String) (rules : List Rule) : List Char :=
  [' ', ' '] ++ name.toList ++ [':', '\n'] ++ rules.flatMap (writeRule machine)

/-- The blocks of all states that have rules. A machine without rules gets one empty block, since a
listing has at least one. -/
def writeBlocks (machine : Machine) : List Char :=
  match machine.states.toList.filter (!·.rules.isEmpty) with
  | [] => writeBlock machine (machine.stateName machine.initial) []
  | entries => entries.flatMap fun entry => writeBlock machine entry.name entry.rules

/-- A machine as a listing. -/
def write (machine : Machine) : String :=
  String.ofList (
    (if machine.name = "" then [] else writeHeader "name" machine.name.toList) ++
    writeHeader "tapes" (Nat.toDigits 10 machine.tapeCount) ++
    writeHeader "blank" (writeSymbol machine.blank) ++
    writeHeader "wildcard" (writeSymbol machine.wildcard) ++
    writeHeader "states" (writeNames machine.stateNames) ++
    writeHeader "input" (writeSymbols machine.inputAlphabet) ++
    writeHeader "alphabet" (writeSymbols machine.tapeAlphabet) ++
    writeHeader "start" (machine.stateName machine.initial).toList ++
    writeHeader "accept" (writeNames machine.acceptingNames) ++
    ['\n'] ++ "rules:\n".toList ++ writeBlocks machine)

end TapeMachine.Listing
