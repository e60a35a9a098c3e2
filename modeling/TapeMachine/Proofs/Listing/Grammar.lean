import TapeMachine.Proofs.Listing.Meaning

/-!
# What the grammar gives

A phrase gives only values of a kind, and every way of combining phrases keeps this. Whatever a
listing says, the names of its states are plain, the name of its machine stays on one line, it has a
block, and every rule moves a head (`plain_of_parse`).
-/

namespace TapeMachine.Listing

namespace Phrase

variable {α β : Type} {limit : Nat} {phrase first other : Phrase α} {second : α → Phrase β}

/-- All values of a phrase are good. -/
def Gives (phrase : Phrase α) (good : α → Prop) : Prop :=
  ∀ cursor value next, (phrase cursor).result = some (value, next) → good value

variable {good : α → Prop} {better : β → Prop}

/-- A value taken without reading is good if it was before. -/
theorem gives_pure {value : α} (holds : good value) : Gives (pure value) good := by
  rintro cursor _ next ⟨⟩
  exact holds

/-- Every phrase gives values of some kind. -/
theorem gives_anything (phrase : Phrase α) : phrase.Gives fun _ => True :=
  fun _ _ _ _ => trivial

/-- What is good is also good in a weaker sense. -/
theorem Gives.imp {weaker : α → Prop} (gives : phrase.Gives good)
    (implies : ∀ value, good value → weaker value) : phrase.Gives weaker :=
  fun cursor value next result => implies value (gives cursor value next result)

/-- The values of the first phrase may be used to show that those of the second are good. -/
theorem Gives.bind (gives : first.Gives good)
    (continues : ∀ value, good value → (second value).Gives better) :
    (first >>= second).Gives better := by
  intro cursor value next result
  rw [result_bind] at result
  obtain ⟨⟨middle, place⟩, taken, continued⟩ := Option.bind_eq_some_iff.mp result
  exact continues middle (gives cursor middle place taken) place value next continued

/-- What is read before a phrase does not matter to its values. -/
theorem gives_bind (continues : ∀ value, (second value).Gives better) :
    (first >>= second).Gives better :=
  (gives_anything first).bind fun value _ => continues value

/-- A name changes where a phrase fails, not what it gives. -/
theorem Gives.named (gives : phrase.Gives good) : phrase.named.Gives good := by
  intro cursor value next result
  rw [result_named] at result
  exact gives cursor value next result

/-- Alternatives give good values if both do. -/
theorem Gives.orElse (gives : first.Gives good) (otherGives : other.Gives good) :
    (first.orElse other).Gives good := by
  intro cursor value next result
  rw [result_orElse] at result
  rcases Option.or_eq_some_iff.mp result with taken | ⟨-, taken⟩
  · exact gives cursor value next taken
  · exact otherGives cursor value next taken

/-- A choice gives good values if each of its phrases does. -/
theorem gives_choice {phrases : List (Phrase α)} (gives : ∀ phrase ∈ phrases, phrase.Gives good) :
    (choice phrases).Gives good := by
  induction phrases with
  | nil =>
      rintro cursor value next ⟨⟩
  | cons first phrases ih =>
      have later := ih fun phrase member => gives phrase (List.mem_cons_of_mem _ member)
      exact (gives first List.mem_cons_self).orElse later

/-- The place of a value does not matter to whether it is good. -/
theorem Gives.withPlace (gives : phrase.Gives good) :
    (withPlace phrase).Gives fun value => good value.item := by
  have located : (located phrase).Gives fun value => good value.2 := by
    intro cursor value next result
    simp only [Phrase.located, result_bind] at result
    obtain ⟨⟨taken, place⟩, read, same⟩ := Option.bind_eq_some_iff.mp result
    cases same
    exact gives cursor taken _ read
  exact located.bind fun value holds => gives_pure holds

/-- A run gives at least one character, and only characters that satisfy its condition. -/
theorem gives_run (condition : Char → Bool) :
    (run condition).Gives fun taken => taken ≠ [] ∧ ∀ c ∈ taken, condition c := by
  intro cursor value next result
  simp only [run] at result
  split at result
  case h_1 => cases result
  case h_2 nonempty =>
      cases result
      exact ⟨nonempty, fun c member => List.mem_takeWhile_imp member⟩

/-- A repetition adds good values to those that it has already. -/
theorem gives_manyFrom (gives : phrase.Gives good) {fuel furthest : Nat} {done : List α}
    (holds : ∀ value ∈ done, good value) :
    ∀ cursor values next, (manyFrom phrase fuel furthest done cursor).result = some (values, next) →
      ∀ value ∈ values, good value := by
  induction fuel generalizing furthest done with
  | zero =>
      rintro cursor _ next ⟨⟩ value member
      exact holds value (List.mem_reverse.mp member)
  | succ fuel ih =>
      intro cursor values next result
      simp only [manyFrom] at result
      split at result
      case h_1 =>
          cases result
          intro value member
          exact holds value (List.mem_reverse.mp member)
      case h_2 taken place read =>
          refine ih ?_ place values next result
          intro value member
          rcases List.mem_cons.mp member with rfl | earlier
          · exact gives _ _ _ read
          · exact holds value earlier

/-- A repetition gives good values only. -/
theorem Gives.many (gives : phrase.Gives good) :
    (many limit phrase).Gives fun values => ∀ value ∈ values, good value :=
  fun cursor values next result => gives_manyFrom gives (by simp) cursor values next result

/-- A repetition of at least one reading gives at least one value, and good values only. -/
theorem Gives.many1 (gives : phrase.Gives good) :
    (many1 limit phrase).Gives fun values => values ≠ [] ∧ ∀ value ∈ values, good value := by
  refine gives.bind fun value holds => gives_bind fun _ => gives.many.bind fun values others => ?_
  refine gives_pure ⟨by simp, ?_⟩
  rw [List.forall_mem_cons]
  exact ⟨holds, others⟩

end Phrase

open Phrase

variable {limit : Nat}

/-! ## Programs -/

/-- A word before a phrase does not change its values. -/
theorem gives_after {α : Type} {phrase : Phrase α} {good : α → Prop} (word : String)
    (gives : phrase.Gives good) : (after word phrase).Gives good :=
  gives_bind fun _ => gives_bind fun _ => gives

/-- A list without brackets has at least one value, and good values only. -/
theorem gives_commaSeparated {α : Type} {item : Phrase α} {good : α → Prop}
    (gives : item.Gives good) :
    (commaSeparated limit item).Gives fun values =>
      values ≠ [] ∧ ∀ value ∈ values, good value := by
  refine gives.bind fun value holds => gives_bind fun _ =>
    (gives_after "," gives).many.bind fun values others => ?_
  refine gives_pure ⟨by simp, ?_⟩
  rw [List.forall_mem_cons]
  exact ⟨holds, others⟩

/-- Brackets around a list do not change its values. -/
theorem gives_bracketed {α : Type} {items : Phrase (List α)} {good : List α → Prop}
    (gives : items.Gives good) : (bracketed items).Gives good :=
  gives_bind fun _ => gives_bind fun _ => gives.bind fun _ holds =>
    gives_bind fun _ => gives_bind fun _ => gives_pure holds

/-- Every name that is read is plain. -/
theorem gives_stateName : stateName.Gives PlainName := by
  refine Gives.named ((gives_run isNameChar).bind ?_)
  rintro taken ⟨nonempty, nameChars⟩
  refine gives_pure ⟨?_, ?_⟩
  · simpa using nonempty
  · intro c member
    exact isNameChar_iff.mp (nameChars c (by simpa using member))

/-- A list of names holds plain names only, and may be empty. -/
theorem gives_stateNames :
    (stateNames limit).Gives fun names => ∀ name ∈ names, PlainName name := by
  have list : (commaSeparated limit stateName).Gives fun names => ∀ name ∈ names, PlainName name :=
    (gives_commaSeparated gives_stateName).imp fun _ names => names.2
  have single : (do return [← stateName] : Phrase (List String)).Gives fun names =>
      ∀ name ∈ names, PlainName name :=
    gives_stateName.bind fun name plain => gives_pure (by simpa using plain)
  exact Gives.named ((gives_bracketed (list.orElse (gives_pure (by simp)))).orElse single)

/-- The headers that the grammar gives. -/
def Header.Plain : Header → Prop
  | .name chars => ∀ c ∈ chars, isTextChar c
  | .states names => ∀ name ∈ names, PlainName name
  | .start state => PlainName state
  | .accept names => ∀ name ∈ names, PlainName name
  | _ => True

/-- A header is plain if every value that may follow its keyword makes a plain one. -/
theorem gives_keyword {α : Type} {phrase : Phrase α} {good : α → Prop} {make : α → Header}
    (word : String) (gives : phrase.Gives good) (plain : ∀ value, good value → (make value).Plain) :
    (named (after word do return make (← phrase))).Gives Header.Plain :=
  (gives_after word (gives.bind fun value holds => gives_pure (plain value holds))).named

/-- Every header that is read is plain, whichever keyword it starts with. -/
theorem gives_header : (header limit).Gives Header.Plain := by
  have name : text.Gives fun chars => ∀ c ∈ chars, isTextChar c :=
    ((gives_run isTextChar).named).imp fun _ taken => taken.2
  apply gives_choice
  simp only [List.forall_mem_cons, List.not_mem_nil, IsEmpty.forall_iff, implies_true, and_true]
  exact ⟨gives_keyword _ name fun _ holds => holds,
    gives_keyword _ (gives_anything count) fun _ _ => trivial,
    gives_keyword _ (gives_anything symbol) fun _ _ => trivial,
    gives_keyword _ (gives_anything symbol) fun _ _ => trivial,
    gives_keyword _ gives_stateNames fun _ holds => holds,
    gives_keyword _ (gives_anything (symbolList limit)) fun _ _ => trivial,
    gives_keyword _ (gives_anything (symbolList limit)) fun _ _ => trivial,
    gives_keyword _ gives_stateName fun _ holds => holds,
    gives_keyword _ gives_stateNames fun _ holds => holds⟩

/-- The rules that the grammar gives: unlike symbols, movements have no empty list, and each token
is one of the six. -/
structure WrittenRule.Plain (rule : WrittenRule) : Prop where
  someMove : rule.moves ≠ []
  spelled : rule.Spelled
  next : PlainName rule.next

/-- The blocks that the grammar gives. -/
structure Block.Plain (block : Block) : Prop where
  state : PlainName block.state
  rules : ∀ rule ∈ block.rules, rule.item.Plain

/-- Each token of a plain rule stands for one movement. -/
theorem WrittenRule.Plain.length_moves {rule : WrittenRule} (plain : rule.Plain) :
    rule.line.moves.length = rule.moves.length :=
  length_filterMap_ofToken? plain.spelled

/-- Only the six tokens of movements are read as such. -/
theorem gives_move : move.Gives fun token => isMoveToken token := by
  refine Gives.named ?_
  intro cursor token next result
  dsimp only at result
  split at result
  case h_1 =>
      split at result
      case isTrue isToken =>
          cases result
          exact isToken
      case isFalse => cases result
  case h_2 => cases result

/-- A rule has at least one movement. -/
theorem gives_moves :
    (moves limit).Gives fun tokens => tokens ≠ [] ∧ ∀ token ∈ tokens, isMoveToken token.item := by
  have list : (moveList limit).Gives fun tokens =>
      tokens ≠ [] ∧ ∀ token ∈ tokens, isMoveToken token.item :=
    (gives_bracketed (gives_commaSeparated gives_move.withPlace)).named
  exact list.orElse (gives_move.withPlace.bind fun token isToken =>
    gives_pure ⟨by simp, by simpa using isToken⟩)

/-- Every rule that is read is plain. -/
theorem gives_ruleLine : (ruleLine limit).Gives WrittenRule.Plain := by
  refine Gives.named ?_
  iterate 8 refine gives_bind fun _ => ?_
  refine gives_moves.bind fun tokens holds => ?_
  iterate 3 refine gives_bind fun _ => ?_
  exact gives_stateName.bind fun _ plain => gives_pure ⟨holds.1, holds.2, plain⟩

/-- The lines before a phrase do not change its values. -/
theorem gives_onNextLine {α : Type} {phrase : Phrase α} {good : α → Prop}
    (gives : phrase.Gives good) : (onNextLine limit phrase).Gives good :=
  gives_bind fun _ => gives_bind fun _ => gives

/-- Every block that is read is plain, with all of its rules. -/
theorem gives_block : (block limit).Gives Block.Plain := by
  refine Gives.named (gives_stateName.bind fun state plain => ?_)
  iterate 3 refine gives_bind fun _ => ?_
  refine (gives_onNextLine gives_ruleLine.withPlace).many.bind fun rules holds => ?_
  exact gives_pure ⟨plain, holds⟩

/-- The programs that the grammar gives: plain headers, and at least one block, all of them
plain. -/
structure Program.Plain (program : Program) : Prop where
  headers : ∀ header ∈ program.headers, header.item.Plain
  someBlock : program.blocks ≠ []
  blocks : ∀ block ∈ program.blocks, block.item.Plain

/-- Every program that is read is plain: its headers, its blocks, and that it has a block. -/
theorem gives_program : (program limit).Gives Program.Plain := by
  have lines : (headerLine limit).Gives fun header => header.item.Plain :=
    gives_header.withPlace.bind fun _ plain =>
      gives_bind fun _ => gives_bind fun _ => gives_pure plain
  have all : (blocks limit).Gives fun values => values ≠ [] ∧ ∀ block ∈ values, block.item.Plain :=
    (gives_after _ (gives_onNextLine gives_block.withPlace).many1).named
  refine Gives.named ?_
  iterate 3 refine gives_bind fun _ => ?_
  refine lines.many.bind fun headers plain => gives_bind fun _ => all.bind ?_
  rintro blocks ⟨someBlock, plainBlocks⟩
  iterate 4 refine gives_bind fun _ => ?_
  exact gives_pure ⟨plain, someBlock, plainBlocks⟩

/-- The tokens of a plain program may all stand for movements. -/
theorem Program.Plain.spelled {program : Program} (plain : program.Plain) : program.Spelled :=
  fun block inside rule listed => ((plain.blocks block inside).rules rule listed).spelled

/-- Every program that is parsed from a text is plain. -/
theorem plain_of_parse {text : List Char} {program : Program} (parsed : parse text = .ok program) :
    program.Plain := by
  simp only [parse] at parsed
  split at parsed
  case h_1 result =>
      cases parsed
      exact gives_program _ _ _ result
  case h_2 => cases parsed

end TapeMachine.Listing
