import TapeMachine.Direction
import TapeMachine.Document
import TapeMachine.Listing.Program
import TapeMachine.Text.Blank
import TapeMachine.Text.Word

/-!
# The meaning of programs

`Program.toDocument` turns what a listing says into a document. Headers may stand in any order
but only once, and so may the blocks of states. What no header settles is inferred: the initial
state from the first block, the number of tapes from the first rule, and states and alphabets
from their use.
-/

namespace TapeMachine.Listing

/-- A mistake of a listing that has the right form. -/
inductive Problem where
  | duplicateHeader (keyword : String)
  | invalidTapeCount (digits : List Char)
  | duplicateBlock (state : String)
  | unsupportedDirection (token : Char)
  | inconsistentRule (reads writes moves : Nat)
  deriving DecidableEq, Repr

/-- The wording of a mistake. -/
def Problem.message : Problem → String
  | .duplicateHeader keyword => "Duplicate \"" ++ keyword ++ ":\" declaration"
  | .invalidTapeCount digits => "Invalid tape count: " ++ String.ofList digits
  | .duplicateBlock state => "Duplicate transition rule: " ++ state
  | .unsupportedDirection token => "Unsupported direction: " ++ token.toString
  | .inconsistentRule reads writes moves =>
    "Inconsistent multi-tape action: read=" ++ reads.repr ++ ", write=" ++ writes.repr ++
      ", directions=" ++ moves.repr

/-- Why a program has no meaning. -/
inductive Mistake where
  /-- The part at this place is wrong. -/
  | wrong (offset : Nat) (problem : Problem)
  /-- There is nothing to start in. -/
  | noInitialState
  deriving DecidableEq, Repr

/-- What the headers of a listing settle. -/
structure Heading where
  name : Option (List Char) := none
  tapes : Option Nat := none
  blank : Option Char := none
  wildcard : Option Char := none
  states : Option (List String) := none
  input : Option (List Char) := none
  alphabet : Option (List Char) := none
  start : Option String := none
  accept : Option (List String) := none
  deriving DecidableEq, Repr

namespace Heading

/-- Whether a header of the same kind was declared before. -/
def declares (heading : Heading) : Header → Bool
  | .name _ => heading.name.isSome
  | .tapes _ => heading.tapes.isSome
  | .blank _ => heading.blank.isSome
  | .wildcard _ => heading.wildcard.isSome
  | .states _ => heading.states.isSome
  | .input _ => heading.input.isSome
  | .alphabet _ => heading.alphabet.isSome
  | .start _ => heading.start.isSome
  | .accept _ => heading.accept.isSome

/-- Add what one header settles. -/
def set (heading : Heading) : Header → Except Problem Heading
  | .name text => .ok { heading with name := some (Text.trim text) }
  | .tapes digits =>
    match Text.wordOfDigits? digits with
    | some tapes => .ok { heading with tapes := some tapes }
    | none => .error (.invalidTapeCount digits)
  | .blank symbol => .ok { heading with blank := some symbol }
  | .wildcard symbol => .ok { heading with wildcard := some symbol }
  | .states names => .ok { heading with states := some names }
  | .input symbols => .ok { heading with input := some symbols }
  | .alphabet symbols => .ok { heading with alphabet := some symbols }
  | .start name => .ok { heading with start := some name }
  | .accept names => .ok { heading with accept := some names }

/-- Add one header, unless its kind was declared before. -/
def declare (heading : Heading) (header : Header) : Except Problem Heading :=
  if heading.declares header then .error (.duplicateHeader header.keyword)
  else heading.set header

end Heading

/-- Tell the place of a mistake. -/
def atPlace {α : Type} (offset : Nat) (result : Except Problem α) : Except Mistake α :=
  result.mapError (.wrong offset)

/-- Collect the headers of a listing. -/
def collectHeaders (heading : Heading) : List (Located Header) → Except Mistake Heading
  | [] => .ok heading
  | header :: headers => do
    let heading ← atPlace header.offset (heading.declare header.item)
    collectHeaders heading headers

/-- One rule and the movements that it says. -/
structure RuleLine where
  reads : List Char
  writes : List Char
  moves : List Direction
  next : String
  deriving DecidableEq, Repr

/-- Check that a rule has equally many reads, writes and movements. -/
def RuleLine.check (rule : RuleLine) : Except Problem Unit :=
  if rule.reads.length = rule.writes.length ∧ rule.reads.length = rule.moves.length then .ok ()
  else
    .error (.inconsistentRule rule.reads.length rule.writes.length rule.moves.length)

/-- The movement that a token stands for. -/
def readMove (token : Char) : Except Problem Direction :=
  match Direction.ofToken? token.toString with
  | some direction => .ok direction
  | none => .error (.unsupportedDirection token)

/-- What one rule says. -/
def readRule (rule : Located WrittenRule) : Except Mistake RuleLine := do
  let moves ← rule.item.moves.mapM fun token => atPlace token.offset (readMove token.item)
  let line : RuleLine :=
    { reads := rule.item.reads, writes := rule.item.writes, moves, next := rule.item.next }
  atPlace rule.offset line.check
  return line

/-- What the blocks of a listing say after blocks for the states in `seen`. -/
def readBlocks (seen : List String) :
    List (Located Block) → Except Mistake (List (String × List RuleLine))
  | [] => .ok []
  | block :: blocks => do
    if seen.contains block.item.state then
      throw (.wrong block.offset (.duplicateBlock block.item.state))
    let rules ← block.item.rules.mapM readRule
    let others ← readBlocks (block.item.state :: seen) blocks
    return (block.item.state, rules) :: others

/-- The elements of a list without later repetitions, after those in `seen`. -/
def distinctAfter {α : Type} [BEq α] (seen : List α) : List α → List α
  | [] => []
  | item :: items =>
    if seen.contains item then distinctAfter seen items
    else item :: distinctAfter (item :: seen) items

/-- The elements of a list without later repetitions. -/
def distinct {α : Type} [BEq α] (items : List α) : List α :=
  distinctAfter [] items

/-- All rules of a list of blocks, in order. -/
def rulesOf (blocks : List (String × List RuleLine)) : List RuleLine :=
  blocks.flatMap (·.2)

/-- The states that a listing mentions: the initial state, the blocks, the targets of the rules
and the accepting states, each where it is mentioned first. -/
def inferStates (start : String) (blocks : List (String × List RuleLine)) (accept : List String) :
    List String :=
  distinct (start :: blocks.map (·.1) ++ (rulesOf blocks).map (·.next) ++ accept)

/-- The symbols that a listing mentions: the input symbols, what the rules read and write apart from
the wildcard, and the blank, each where it is mentioned first. -/
def inferAlphabet (input : List Char) (blocks : List (String × List RuleLine))
    (blank wildcard : Char) : List Char :=
  let used := (rulesOf blocks).flatMap fun rule => rule.reads ++ rule.writes
  distinct (input ++ used.filter (· != wildcard) ++ [blank])

/-- The number of tapes that the first rule uses. -/
def inferTapes (blocks : List (String × List RuleLine)) : Nat :=
  match rulesOf blocks with
  | rule :: _ => rule.reads.length
  | [] => 1

/-- The table entry of one rule. -/
def RuleLine.entry (rule : RuleLine) : String × ActionRecord :=
  (String.ofList (rule.reads.intersperse ','),
    { write := rule.writes.map Char.toString
      move := rule.moves.map Direction.token
      nextState := rule.next })

/-- The table of one block. -/
def contentEntry (content : String × List RuleLine) : String × Table ActionRecord :=
  (content.1, content.2.map RuleLine.entry)

/-- The document of headers and blocks that hold no mistake. -/
def Heading.toDocument (heading : Heading) (start : String)
    (blocks : List (String × List RuleLine)) : Document :=
  let blank := heading.blank.getD '_'
  let wildcard := heading.wildcard.getD '*'
  let accept := heading.accept.getD []
  let alphabet := heading.alphabet.getD
    (inferAlphabet (heading.input.getD []) blocks blank wildcard)
  let input := heading.input.getD (alphabet.filter (· != blank))
  { name := String.ofList (heading.name.getD [])
    description := ""
    states := heading.states.getD (inferStates start blocks accept)
    inputAlphabet := input.map Char.toString
    tapeAlphabet := alphabet.map Char.toString
    tapeCount := heading.tapes.getD (inferTapes blocks)
    initialState := start
    acceptingStates := accept
    blank := blank.toString
    wildcard := wildcard.toString
    unchanged := wildcard.toString
    transitions := blocks.map contentEntry }

/-- The document of a program, or its first mistake. The initial state is the declared one, or else
the state of the first block. -/
def Program.toDocument (program : Program) : Except Mistake Document := do
  let heading ← collectHeaders {} program.headers
  let blocks ← readBlocks [] program.blocks
  match heading.start.or (blocks.head?.map (·.1)) with
  | some start => return heading.toDocument start blocks
  | none => throw .noInitialState

end TapeMachine.Listing
