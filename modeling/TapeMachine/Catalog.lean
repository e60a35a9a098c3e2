import TapeMachine.Load

/-!
# The catalog

Four machines that come with the library, in the formats in which they are written. They are
found by their position or by their name, where the case of letters does not matter.
-/

namespace TapeMachine

/-- The source of a machine with an input to try it on. -/
structure CatalogSource where
  source : String
  format : Format
  sample : List String
  deriving DecidableEq, Repr

/-- A machine of the catalog. -/
structure CatalogEntry extends CatalogSource where
  machine : Machine

namespace Catalog

/-- Adds one to a binary number, least significant digit first. -/
def binaryIncrement : String :=
  "# Adds one to a binary number written least significant bit first.\n" ++
  "name: Binary Increment\n" ++
  "accept: [done]\n" ++
  "rules:\n" ++
  "  carry:\n" ++
  "    1 -> 0, R, carry\n" ++
  "    0 -> 1, S, done\n" ++
  "    _ -> 1, S, done\n" ++
  "  done:\n"

/-- Adds two unary numbers. -/
def unaryAddition : String :=
  "\x7b\n" ++
  "  \"name\": \"Unary Addition\",\n" ++
  "  \"description\": \"Adds two unary numbers separated by '+', e.g. 11+1 becomes 111.\",\n" ++
  "  \"states\": [\"scan\", \"seek_end\", \"erase\", \"done\"],\n" ++
  "  \"inputAlphabet\": [\"1\", \"+\"],\n" ++
  "  \"tapeAlphabet\": [\"1\", \"+\", \"_\"],\n" ++
  "  \"tapeCount\": 1,\n" ++
  "  \"initialState\": \"scan\",\n" ++
  "  \"acceptingStates\": [\"done\"],\n" ++
  "  \"transitions\": \x7b\n" ++
  "    \"scan\": \x7b\n" ++
  "      \"1\": \x7b \"write\": [\"*\"], \"move\": [\"R\"], \"nextState\": \"scan\" \x7d,\n" ++
  "      \"+\": \x7b \"write\": [\"1\"], \"move\": [\"R\"], \"nextState\": \"seek_end\" \x7d\n" ++
  "    \x7d,\n" ++
  "    \"seek_end\": \x7b\n" ++
  "      \"1\": \x7b \"write\": [\"*\"], \"move\": [\"R\"], \"nextState\": \"seek_end\" \x7d,\n" ++
  "      \"_\": \x7b \"write\": [\"*\"], \"move\": [\"L\"], \"nextState\": \"erase\" \x7d\n" ++
  "    \x7d,\n" ++
  "    \"erase\": \x7b\n" ++
  "      \"1\": \x7b \"write\": [\"_\"], \"move\": [\"S\"], \"nextState\": \"done\" \x7d\n" ++
  "    \x7d\n" ++
  "  \x7d\n" ++
  "\x7d\n"

/-- Copies a binary word to the second tape. -/
def twoTapeCopy : String :=
  "\x7b\n" ++
  "  \"name\": \"Two-Tape Copy\",\n" ++
  "  \"description\": \"Copies a binary word from tape 0 to tape 1.\",\n" ++
  "  \"states\": [\"copy\", \"done\"],\n" ++
  "  \"inputAlphabet\": [\"0\", \"1\"],\n" ++
  "  \"tapeAlphabet\": [\"0\", \"1\", \"_\"],\n" ++
  "  \"tapeCount\": 2,\n" ++
  "  \"initialState\": \"copy\",\n" ++
  "  \"acceptingStates\": [\"done\"],\n" ++
  "  \"transitions\": \x7b\n" ++
  "    \"copy\": \x7b\n" ++
  "      \"0,*\": \x7b \"write\": [\"*\", \"0\"], \"move\": [\"R\", \"R\"], \"nextState\": \"copy\" \x7d,\n" ++
  "      \"1,*\": \x7b \"write\": [\"*\", \"1\"], \"move\": [\"R\", \"R\"], \"nextState\": \"copy\" \x7d,\n" ++
  "      \"_,*\": \x7b \"write\": [\"*\", \"*\"], \"move\": [\"S\", \"S\"], \"nextState\": \"done\" \x7d\n" ++
  "    \x7d\n" ++
  "  \x7d\n" ++
  "\x7d\n"

/-- Accepts the words that read the same in both directions. -/
def palindrome : String :=
  "# Decides whether a word over \x7ba, b\x7d reads the same in both directions.\n" ++
  "# Tape 1 receives a copy of the input behind a '$' end marker; the copy is\n" ++
  "# then read forwards while the input is read backwards.\n" ++
  "name: Palindrome\n" ++
  "tapes: 2\n" ++
  "input: [a, b]\n" ++
  "alphabet: [a, b, $, _]\n" ++
  "accept: [yes]\n" ++
  "rules:\n" ++
  "  mark:\n" ++
  "    [*, _] -> [*, $], [S, R], copy\n" ++
  "  copy:\n" ++
  "    [a, _] -> [*, a], [R, R], copy\n" ++
  "    [b, _] -> [*, b], [R, R], copy\n" ++
  "    [_, _] -> [*, *], [L, S], rewind\n" ++
  "  rewind:\n" ++
  "    [*, $] -> [*, *], [S, R], compare\n" ++
  "    [*, *] -> [*, *], [S, L], rewind\n" ++
  "  compare:\n" ++
  "    [a, a] -> [*, *], [L, R], compare\n" ++
  "    [b, b] -> [*, *], [L, R], compare\n" ++
  "    [*, _] -> [*, *], [S, S], yes\n" ++
  "  yes:\n"

/-- The sources of the catalog. -/
def sources : List CatalogSource := [
  { source := binaryIncrement, format := .listing, sample := ["1101"] },
  { source := unaryAddition, format := .json, sample := ["11+1"] },
  { source := twoTapeCopy, format := .json, sample := ["1011"] },
  { source := palindrome, format := .listing, sample := ["abba"] }]

/-- The machine of a source; a source that does not load is left out. -/
def load? (source : CatalogSource) : Option CatalogEntry :=
  match source.format.load source.source with
  | .ok machine => some { source with machine }
  | .error _ => none

/-- The machines of the catalog. -/
def entries : List CatalogEntry :=
  sources.filterMap load?

/-- The names of the machines. -/
def names : List String :=
  entries.map (·.machine.name)

/-- The entry at a position. -/
def entry? (index : Nat) : Option CatalogEntry :=
  entries[index]?

/-- Whether two names differ at most in the case of their ASCII letters. -/
def sameName (first second : String) : Bool :=
  first.toList.map Char.toLower == second.toList.map Char.toLower

/-- The machine with a name. -/
def machine? (name : String) : Option Machine :=
  (entries.find? fun entry => sameName entry.machine.name name).map (·.machine)

end Catalog

end TapeMachine
