import Mathlib.Data.List.Nodup
import TapeMachine.Listing
import TapeMachine.Proofs.Checks
import TapeMachine.Proofs.Listing.Program

/-!
# When a program has a meaning

A program whose tokens all stand for movements has a meaning exactly when no header is declared
twice, every tape count fits, no state has two blocks, every rule is balanced and there is a state to
start in. Places of the parts only matter for mistakes, and if there is a block, no mistake is about
a movement or the initial state (`Program.refusesOnly_toDocument`).
-/

namespace TapeMachine.Listing

open Checks

/-- Headers are collected from what they say. -/
theorem collectHeaders_eq_ok {heading result : Heading} {headers : List (Located Header)} :
    collectHeaders heading headers = .ok result ↔
      (headers.map (·.item)).foldlM Heading.declare heading = .ok result := by
  induction headers generalizing heading with
  | nil => simp [collectHeaders, pure, Except.pure]
  | cons header headers ih =>
      rw [collectHeaders, List.map_cons, List.foldlM_cons]
      simp only [atPlace, bind_eq_ok, mapError_eq_ok, ih]

/-- Only the name of a machine is trimmed, and trimming it before makes no difference. -/
theorem Heading.declare_trimmed (heading : Heading) (header : Header) :
    heading.declare header.trimmed = heading.declare header := by
  cases header with
  | name text =>
      have same : heading.set (.name (Text.trim text)) = heading.set (.name text) := by
        rw [Heading.set, Heading.set, Text.trim_trim]
      rw [Header.trimmed, Heading.declare, same]
      rfl
  | _ => rfl

/-- Headers that differ in white space at the ends of names are collected alike. -/
theorem foldlM_declare_congr {headers others : List Header}
    (same : headers.map Header.trimmed = others.map Header.trimmed) (heading : Heading) :
    headers.foldlM Heading.declare heading = others.foldlM Heading.declare heading := by
  have trimmed (items : List Header) : (items.map Header.trimmed).foldlM Heading.declare heading =
      items.foldlM Heading.declare heading := by
    simp only [List.foldlM_map, Heading.declare_trimmed]
  rw [← trimmed headers, same, trimmed others]

/-- A rule with equally many reads, writes and movements. -/
def RuleLine.Balanced (rule : RuleLine) : Prop :=
  rule.reads.length = rule.writes.length ∧ rule.reads.length = rule.moves.length

/-- The check of a rule passes exactly when the rule is balanced. -/
theorem RuleLine.check_eq_ok {rule : RuleLine} : rule.check = .ok () ↔ rule.Balanced := by
  simp [RuleLine.check, RuleLine.Balanced]

/-! ## Movements -/

/-- A character that may stand for a movement stands for one. -/
theorem exists_spells {token : Char} (isToken : isMoveToken token) :
    ∃ direction, Spells direction token := by
  simp only [isMoveToken, Bool.or_eq_true, beq_iff_eq, or_assoc] at isToken
  rcases isToken with rfl | rfl | rfl | rfl | rfl | rfl <;> exact ⟨_, rfl⟩

/-- Tokens are read as the movements that they stand for. -/
theorem mapM_readMove {tokens : List (Located Char)}
    (spelled : ∀ token ∈ tokens, isMoveToken token.item) :
    (tokens.mapM fun token => atPlace token.offset (readMove token.item)) =
      .ok (tokens.filterMap fun token => Direction.ofToken? token.item.toString) := by
  induction tokens with
  | nil => rfl
  | cons token tokens ih =>
      obtain ⟨direction, spells⟩ := exists_spells (spelled token List.mem_cons_self)
      rw [Spells] at spells
      have read : atPlace token.offset (readMove token.item) = .ok direction := by
        rw [readMove, spells]
        rfl
      rw [List.mapM_cons, read, ih fun other member => spelled other (List.mem_cons_of_mem _ member),
        List.filterMap_cons, spells]
      rfl

/-- Each token stands for one movement. -/
theorem length_filterMap_ofToken? {tokens : List (Located Char)}
    (spelled : ∀ token ∈ tokens, isMoveToken token.item) :
    (tokens.filterMap fun token => Direction.ofToken? token.item.toString).length =
      tokens.length := by
  induction tokens with
  | nil => rfl
  | cons token tokens ih =>
      obtain ⟨direction, spells⟩ := exists_spells (spelled token List.mem_cons_self)
      rw [Spells] at spells
      rw [List.filterMap_cons, spells, List.length_cons, List.length_cons,
        ih fun other member => spelled other (List.mem_cons_of_mem _ member)]

/-! ## Rules and blocks -/

/-- All tokens of a rule may stand for movements. -/
def WrittenRule.Spelled (rule : WrittenRule) : Prop :=
  ∀ token ∈ rule.moves, isMoveToken token.item

/-- Only the lengths of its lists can be wrong in a rule whose tokens are movements. -/
theorem readRule_eq {rule : Located WrittenRule} (spelled : rule.item.Spelled) :
    readRule rule =
      (do atPlace rule.offset rule.item.line.check; return rule.item.line) := by
  rw [readRule, mapM_readMove spelled]
  rfl

/-- A rule is read as what it says, if that is balanced. -/
theorem readRule_eq_ok {rule : Located WrittenRule} {line : RuleLine}
    (spelled : rule.item.Spelled) :
    readRule rule = .ok line ↔ rule.item.line.Balanced ∧ rule.item.line = line := by
  rw [readRule_eq spelled, ← RuleLine.check_eq_ok]
  simp only [atPlace, bind_eq_ok, mapError_eq_ok, pure_eq_ok]
  constructor
  · rintro ⟨_, checked, same⟩
    exact ⟨checked, same⟩
  · rintro ⟨checked, same⟩
    exact ⟨(), checked, same⟩

/-- The rules of a block are read if all of them are balanced. -/
theorem mapM_readRule_eq_ok {rules : List (Located WrittenRule)} {lines : List RuleLine}
    (spelled : ∀ rule ∈ rules, rule.item.Spelled) :
    rules.mapM readRule = .ok lines ↔
      (∀ rule ∈ rules, rule.item.line.Balanced) ∧ rules.map (·.item.line) = lines := by
  induction rules generalizing lines with
  | nil => simp
  | cons rule rules ih =>
      rw [List.forall_mem_cons] at spelled
      simp only [List.mapM_cons, bind_eq_ok, pure_eq_ok, readRule_eq_ok spelled.1, ih spelled.2,
        List.forall_mem_cons, List.map_cons]
      constructor
      · rintro ⟨_, ⟨first, rfl⟩, _, ⟨others, rfl⟩, same⟩
        exact ⟨⟨first, others⟩, same⟩
      · rintro ⟨⟨first, others⟩, same⟩
        exact ⟨_, ⟨first, rfl⟩, _, ⟨others, rfl⟩, same⟩

/-- Blocks are read if they are of different states and their rules are balanced. -/
theorem readBlocks_eq_ok {seen : List String} {blocks : List (Located Block)}
    {contents : List (String × List RuleLine)}
    (spelled : ∀ block ∈ blocks, ∀ rule ∈ block.item.rules, rule.item.Spelled) :
    readBlocks seen blocks = .ok contents ↔
      (blocks.map (·.item.state)).Nodup ∧ (∀ block ∈ blocks, block.item.state ∉ seen) ∧
        (∀ block ∈ blocks, ∀ rule ∈ block.item.rules, rule.item.line.Balanced) ∧
        blocks.map (·.item.content) = contents := by
  -- The states of the blocks passed are those seen, so no later block may be for one of them.
  induction blocks generalizing seen contents with
  | nil => simp [readBlocks]
  | cons block blocks ih =>
      rw [List.forall_mem_cons] at spelled
      simp only [readBlocks]
      split
      case isTrue repeated =>
          have listed : block.item.state ∈ seen := by simpa using repeated
          simp [listed]
      case isFalse fresh =>
          have unlisted : block.item.state ∉ seen := by simpa using fresh
          simp only [bind_eq_ok, pure_eq_ok, mapM_readRule_eq_ok spelled.1, ih spelled.2,
            List.map_cons, List.nodup_cons, List.forall_mem_cons]
          simp only [List.mem_cons, not_or]
          constructor
          · rintro ⟨_, ⟨rules, rfl⟩, _, ⟨distinct, unseen, balanced, rfl⟩, same⟩
            refine ⟨⟨?_, distinct⟩, ⟨unlisted, fun other member => (unseen other member).2⟩,
              ⟨rules, balanced⟩, same⟩
            rintro repeated
            obtain ⟨other, member, alike⟩ := List.mem_map.mp repeated
            exact (unseen other member).1 alike
          · rintro ⟨⟨new, distinct⟩, ⟨-, unseen⟩, ⟨rules, balanced⟩, same⟩
            refine ⟨_, ⟨rules, rfl⟩, _, ⟨distinct, fun other member => ⟨?_, unseen other member⟩,
              balanced, rfl⟩, same⟩
            exact fun alike => new (List.mem_map.mpr ⟨other, member, alike⟩)

/-! ## Programs -/

/-- All tokens of a program may stand for movements. -/
def Program.Spelled (program : Program) : Prop :=
  ∀ block ∈ program.blocks, ∀ rule ∈ block.item.rules, rule.item.Spelled

/-- What the blocks of a program say, free of places. -/
def Program.contents (program : Program) : List (String × List RuleLine) :=
  program.blocks.map (·.item.content)

/-- The blocks of a program are read as what they say, if their states are different and their rules
balanced. -/
theorem readBlocks_nil_eq_ok {program : Program} {contents : List (String × List RuleLine)}
    (spelled : program.Spelled) :
    readBlocks [] program.blocks = .ok contents ↔
      (program.contents.map (·.1)).Nodup ∧
        (∀ content ∈ program.contents, ∀ rule ∈ content.2, rule.Balanced) ∧
        program.contents = contents := by
  simp [readBlocks_eq_ok spelled, Program.contents, Block.content, Function.comp_def]

/-- A program has a meaning exactly when its headers can be collected, its blocks are of different
states, its rules are balanced and there is a state to start in. -/
theorem Program.toDocument_eq_ok {program : Program} {document : Document}
    (spelled : program.Spelled) :
    program.toDocument = .ok document ↔
      ∃ heading, (program.headers.map (·.item)).foldlM Heading.declare {} = .ok heading ∧
        (program.contents.map (·.1)).Nodup ∧
        (∀ content ∈ program.contents, ∀ rule ∈ content.2, rule.Balanced) ∧
        ∃ start, heading.start.or (program.contents.head?.map (·.1)) = some start ∧
          heading.toDocument start program.contents = document := by
  simp only [Program.toDocument, bind_eq_ok, collectHeaders_eq_ok, readBlocks_nil_eq_ok spelled]
  constructor
  · rintro ⟨heading, collected, _, ⟨distinct, balanced, rfl⟩, same⟩
    refine ⟨heading, collected, distinct, balanced, ?_⟩
    split at same
    case h_1 start named => exact ⟨start, named, pure_eq_ok.mp same⟩
    case h_2 => cases same
  · rintro ⟨heading, collected, distinct, balanced, start, named, same⟩
    refine ⟨heading, collected, _, ⟨distinct, balanced, rfl⟩, ?_⟩
    rw [named]
    exact pure_eq_ok.mpr same

/-! ## Mistakes -/

/-- The problems of parts that the grammar gives: no token fails to stand for a movement. -/
def Problem.Possible (problem : Problem) : Prop :=
  ∀ token, problem ≠ .unsupportedDirection token

/-- The mistakes of programs that the grammar gives: such a program has a state to start in. -/
def Mistake.Possible : Mistake → Prop
  | .wrong _ problem => problem.Possible
  | .noInitialState => False

/-- A mistake at a place is of the kind of its problem. -/
theorem refusesOnly_atPlace {α : Type} {offset : Nat} {result : Except Problem α}
    (only : RefusesOnly result Problem.Possible) :
    RefusesOnly (atPlace offset result) Mistake.Possible := by
  rintro mistake refused
  cases result with
  | error problem =>
      cases refused
      exact only problem rfl
  | ok value => cases refused

/-- A header can be repeated or have too large a number, and nothing else can be wrong with it. -/
theorem Heading.refusesOnly_declare (heading : Heading) (header : Header) :
    RefusesOnly (heading.declare header) Problem.Possible := by
  rw [declare]
  split
  · refine refusesOnly_error ?_
    rintro token ⟨⟩
  · cases header with
    | tapes digits =>
        rw [set]
        split
        · exact refusesOnly_ok _
        · refine refusesOnly_error ?_
          rintro token ⟨⟩
    | _ => exact refusesOnly_ok _

/-- No header makes a mistake about a movement or the initial state. -/
theorem refusesOnly_collectHeaders (heading : Heading) (headers : List (Located Header)) :
    RefusesOnly (collectHeaders heading headers) Mistake.Possible := by
  induction headers generalizing heading with
  | nil => exact refusesOnly_ok heading
  | cons header headers ih =>
      exact (refusesOnly_atPlace (heading.refusesOnly_declare header.item)).bind
        fun declared _ => ih declared

/-- No rule whose tokens are movements makes a mistake about a movement. -/
theorem refusesOnly_readRule {rule : Located WrittenRule} (spelled : rule.item.Spelled) :
    RefusesOnly (readRule rule) Mistake.Possible := by
  have check : RefusesOnly rule.item.line.check Problem.Possible := by
    rw [RuleLine.check]
    split
    · exact refusesOnly_ok ()
    · refine refusesOnly_error ?_
      rintro token ⟨⟩
  rw [readRule_eq spelled]
  exact (refusesOnly_atPlace check).bind fun _ _ => refusesOnly_ok _

/-- No block of such rules makes a mistake about a movement. -/
theorem refusesOnly_readBlocks {seen : List String} {blocks : List (Located Block)}
    (spelled : ∀ block ∈ blocks, ∀ rule ∈ block.item.rules, rule.item.Spelled) :
    RefusesOnly (readBlocks seen blocks) Mistake.Possible := by
  induction blocks generalizing seen with
  | nil => exact refusesOnly_ok []
  | cons block blocks ih =>
      rw [List.forall_mem_cons] at spelled
      have rules : RefusesOnly (block.item.rules.mapM readRule) Mistake.Possible :=
        refusesOnly_mapM fun rule member => refusesOnly_readRule (spelled.1 rule member)
      rw [readBlocks]
      split
      · refine refusesOnly_error ?_
        rintro token ⟨⟩
      · exact rules.bind fun lines _ => (ih spelled.2).bind fun others _ => refusesOnly_ok _

/-- A program with a block whose tokens are movements makes no other mistake. -/
theorem Program.refusesOnly_toDocument {program : Program} (spelled : program.Spelled)
    (someBlock : program.blocks ≠ []) : RefusesOnly program.toDocument Mistake.Possible := by
  refine (refusesOnly_collectHeaders {} program.headers).bind fun heading _ => ?_
  refine (refusesOnly_readBlocks spelled).bind fun contents read => ?_
  obtain ⟨-, -, rfl⟩ := (readBlocks_nil_eq_ok spelled).mp read
  obtain ⟨block, others, blocks⟩ := List.exists_cons_of_ne_nil someBlock
  have named : ∃ start, heading.start.or (program.contents.head?.map (·.1)) = some start := by
    rw [Program.contents, blocks]
    cases heading.start with
    | none => exact ⟨block.item.state, rfl⟩
    | some start => exact ⟨start, rfl⟩
  obtain ⟨start, named⟩ := named
  rw [named]
  exact refusesOnly_ok _

/-! ## Listings -/

/-- A listing is read by parsing it and taking the meaning of its program. -/
theorem read_eq_ok {source : String} {document : Document} :
    read source = .ok document ↔
      ∃ program, parse source.toList = .ok program ∧ program.toDocument = .ok document := by
  unfold read
  dsimp only
  cases parse source.toList with
  | error offset => simp
  | ok program =>
      cases meaning : program.toDocument with
      | error mistake => cases mistake <;> simp [meaning]
      | ok document => simp [meaning]

end TapeMachine.Listing
