import TapeMachine.Defect
import TapeMachine.Document
import TapeMachine.Machine
import TapeMachine.Text.Split

/-!
# Compiling documents

`Machine.ofDocument` checks a document from its heading to its last rule and reports the first
defect it meets. What the heading settles for all rules is collected in a `Signature`.
`Machine.toDocument` writes a machine down again in its normal form.
-/

namespace TapeMachine

/-- What a document's heading settles for its rules. -/
structure Signature where
  tapeCount : Nat
  states : List String
  blank : Char
  wildcard : Char
  unchanged : Char
  tapeAlphabet : List Char
  inputAlphabet : List Char
  deriving DecidableEq, Repr

namespace Signature

/-- Read a token that has to be a single character. -/
def readToken (role : TokenRole) (token : String) : Except Defect Char :=
  match token.toList with
  | [symbol] => .ok symbol
  | _ => .error (.notOneCharacter role token)

/-- Check that state names are not empty and differ from the names before them. -/
def checkStates (seen : List String) : List String → Except Defect Unit
  | [] => .ok ()
  | name :: names =>
    if name = "" then .error .emptyStateName
    else if name ∈ seen then .error (.repeatedState name)
    else checkStates (name :: seen) names

/-- Read the tokens of an alphabet after the symbols in `seen`, which are listed last first. -/
def readAlphabet (alphabet : Alphabet) (seen : List Char) : List String → Except Defect (List Char)
  | [] => .ok seen.reverse
  | token :: tokens => do
    let symbol ← readToken alphabet.tokenRole token
    if symbol ∈ seen then .error (.repeatedSymbol alphabet symbol)
    else readAlphabet alphabet (symbol :: seen) tokens

/-- Check that the input symbols and the blank are tape symbols and the reserved characters are
not. -/
def checkAlphabets (signature : Signature) : Except Defect Unit :=
  let isTapeSymbol (symbol : Char) : Bool := signature.tapeAlphabet.contains symbol
  match signature.inputAlphabet.find? (!isTapeSymbol ·) with
  | some symbol => .error (.inputOutsideTapeAlphabet symbol)
  | none =>
    if !isTapeSymbol signature.blank then
      .error (.blankOutsideTapeAlphabet signature.blank)
    else if isTapeSymbol signature.wildcard then
      .error (.reservedTapeSymbol .wildcard signature.wildcard)
    else if isTapeSymbol signature.unchanged then
      .error (.reservedTapeSymbol .unchanged signature.unchanged)
    else if isTapeSymbol Pattern.separator then
      .error (.reservedTapeSymbol .separator Pattern.separator)
    else .ok ()

/-- Read the heading of a document. -/
def ofDocument (document : Document) : Except Defect Signature := do
  if document.tapeCount = 0 then throw .noTapes
  if document.states = [] then throw .noStates
  checkStates [] document.states
  let blank ← readToken .blank document.blank
  let wildcard ← readToken .wildcard document.wildcard
  let unchanged ← readToken .unchanged document.unchanged
  let tapeAlphabet ← readAlphabet .tape [] document.tapeAlphabet
  let inputAlphabet ← readAlphabet .input [] document.inputAlphabet
  let signature : Signature :=
    { tapeCount := document.tapeCount, states := document.states
      blank, wildcard, unchanged, tapeAlphabet, inputAlphabet }
  signature.checkAlphabets
  return signature

/-- The position of a declared state. -/
def readState (signature : Signature) (role : StateRole) (name : String) : Except Defect Nat :=
  match signature.states.findIdx? (· == name) with
  | some state => .ok state
  | none => .error (.undeclaredState role name)

/-- Check that a symbol used by a rule of `source` is a tape symbol. -/
def checkSymbol (signature : Signature) (source : String) (symbol : Char) : Except Defect Unit :=
  if signature.tapeAlphabet.contains symbol then .ok ()
  else .error (.symbolOutsideTapeAlphabet source symbol)

/-- Read one component of a pattern. -/
def readPatternSymbol (signature : Signature) (source : String) (component : List Char) :
    Except Defect PatternSymbol := do
  let symbol ← readToken (.patternSymbol source) (String.ofList component)
  if symbol = signature.wildcard then return .any
  signature.checkSymbol source symbol
  return .literal symbol

/-- Read a written pattern, one component for each tape. -/
def readPattern (signature : Signature) (source pattern : String) : Except Defect Pattern :=
  let components := Text.splitOn Pattern.separator pattern.toList
  if components.length = signature.tapeCount then
    components.mapM (signature.readPatternSymbol source)
  else
    .error (.patternArity source pattern components.length signature.tapeCount)

/-- Read one written symbol of an action. -/
def readWrite (signature : Signature) (source token : String) : Except Defect Write := do
  let symbol ← readToken (.writtenSymbol source) token
  if symbol = signature.unchanged then return .keep
  signature.checkSymbol source symbol
  return .put symbol

/-- Read one movement token of an action. -/
def readMove (source pattern token : String) : Except Defect Direction :=
  match Direction.ofToken? token with
  | some direction => .ok direction
  | none => .error (.unsupportedMove source pattern token)

/-- Read the action of a rule: one write and one movement for each tape, and a declared state. -/
def readAction (signature : Signature) (source pattern : String) (record : ActionRecord) :
    Except Defect Action := do
  if record.write.length ≠ signature.tapeCount ∨ record.move.length ≠ signature.tapeCount then
    throw (.actionArity source pattern record.write.length record.move.length signature.tapeCount)
  let writes ← record.write.mapM (signature.readWrite source)
  let moves ← record.move.mapM (readMove source pattern)
  let next ← signature.readState .next record.nextState
  return { writes, moves, next }

/-- Read the rules of one state after the rules in `done`, which are listed last first. -/
def readRules (signature : Signature) (source : String) (done : List Rule) :
    Table ActionRecord → Except Defect (List Rule)
  | [] => .ok done.reverse
  | (key, record) :: table => do
    let pattern ← signature.readPattern source key
    if done.any (·.pattern == pattern) then throw (.repeatedPattern source key)
    let action ← signature.readAction source key record
    readRules signature source ({ pattern, action } :: done) table

/-- Read the rules of all states after the states in `done`, which are listed last first. -/
def readTables (signature : Signature) (done : Table (List Rule)) :
    Table (Table ActionRecord) → Except Defect (Table (List Rule))
  | [] => .ok done.reverse
  | (source, table) :: tables => do
    let _ ← signature.readState .source source
    if done.any (·.1 == source) then throw (.repeatedSource source)
    let rules ← signature.readRules source [] table
    readTables signature ((source, rules) :: done) tables

end Signature

namespace Machine

/-- Compile a document into a machine, or report the first defect of the document. -/
def ofDocument (document : Document) : Except Defect Machine := do
  let signature ← Signature.ofDocument document
  let initial ← signature.readState .initial document.initialState
  document.acceptingStates.forM fun name => do
    let _ ← signature.readState .accepting name
  let tables ← signature.readTables [] document.transitions
  let entry (name : String) : StateEntry :=
    { name := name
      accepting := document.acceptingStates.contains name
      rules := (Table.get? tables name).getD [] }
  return {
    name := document.name
    summary := document.description
    states := (document.states.map entry).toArray
    inputAlphabet := signature.inputAlphabet
    tapeAlphabet := signature.tapeAlphabet
    tapeCount := signature.tapeCount
    blank := signature.blank
    wildcard := signature.wildcard
    unchanged := signature.unchanged
    initial := initial }

/-- The written form of an action. -/
def actionRecord (machine : Machine) (action : Action) : ActionRecord where
  write := action.writes.map fun write => (write.written machine.unchanged).toString
  move := action.moves.map Direction.token
  nextState := machine.stateName action.next

/-- The written form of the rules of a state. -/
def ruleTable (machine : Machine) (rules : List Rule) : Table ActionRecord :=
  rules.map fun rule => (rule.pattern.render machine.wildcard, machine.actionRecord rule.action)

/-- Write a machine down. Only states that have rules get a table. -/
def toDocument (machine : Machine) : Document where
  name := machine.name
  description := machine.summary
  states := machine.stateNames
  inputAlphabet := machine.inputAlphabet.map Char.toString
  tapeAlphabet := machine.tapeAlphabet.map Char.toString
  tapeCount := machine.tapeCount
  initialState := machine.stateName machine.initial
  acceptingStates := machine.acceptingNames
  blank := machine.blank.toString
  wildcard := machine.wildcard.toString
  unchanged := machine.unchanged.toString
  transitions := (machine.states.toList.filter (!·.rules.isEmpty)).map fun entry =>
    (entry.name, machine.ruleTable entry.rules)

end Machine

end TapeMachine
