import TapeMachine.Proofs.Json.Skip

/-!
# What typed readers answer

A typed reader either takes a value whole, wherever the value stands, or refuses it wherever it
stands. `Answers` says which of the two, as an optional value, so that the answers for lists and
tables are computed from the answers for their parts. A reader that has an answer for every value is
`Regular`.
-/

namespace TapeMachine.Json

variable {α : Type} {limit : Nat} {reader : Reader α} {text full rest : List Char}

/-- Wherever the text stands as a value, the reader gives this answer and leaves what follows. No
answer means an error. -/
def Answers (limit : Nat) (reader : Reader α) (text : List Char) (answer : Option α) : Prop :=
  ∀ full rest, skipSpace full = text ++ rest → Delimited rest → text.length ≤ limit →
    (reader full).toOption = answer.map (·, rest)

/-- The reader has an answer for every value. -/
def Regular (limit : Nat) (reader : Reader α) : Prop :=
  ∀ text, Form.IsValue text → ∃ answer, Answers limit reader text answer

/-- A reader has no answer to a text that it refuses whatever follows. -/
theorem answers_none (refuses : ∀ full rest, skipSpace full = text ++ rest → Delimited rest →
    ∃ error, reader full = .error error) : Answers limit reader text none :=
  fun full rest start delimited _ => Checks.toOption_eq_none.mpr (refuses full rest start delimited)

/-- A reader answers a text with the value that it reads whatever follows. -/
theorem answers_some {value : α} (reads : ∀ full rest, skipSpace full = text ++ rest →
    Delimited rest → reader full = .ok (value, rest)) : Answers limit reader text (some value) :=
  fun full rest start delimited _ => Checks.toOption_eq_some.mpr (reads full rest start delimited)

/-- What is answered is read, up to what follows the text. -/
theorem Answers.read {value : α} (answers : Answers limit reader text (some value))
    (start : skipSpace full = text ++ rest) (delimited : Delimited rest)
    (room : text.length ≤ limit) : reader full = .ok (value, rest) :=
  Checks.toOption_eq_some.mp (answers full rest start delimited room)

/-- What has no answer is refused. -/
theorem Answers.refused (answers : Answers limit reader text none)
    (start : skipSpace full = text ++ rest) (delimited : Delimited rest)
    (room : text.length ≤ limit) : ∃ error, reader full = .error error :=
  Checks.toOption_eq_none.mp (answers full rest start delimited room)

/-- How a value starts tells what it is. -/
theorem Form.IsValue.cases_first (isValue : Form.IsValue text) :
    ∃ c others, text = c :: others ∧
      (c ∈ ['n', 't', 'f'] ∨ (c = '-' ∨ c.isDigit) ∧ text ∈ Form.number ∨
        c = '"' ∧ text ∈ Form.anyString ∨
        (c = '[' ∧ ∃ items, (∀ item ∈ items, Form.IsValue item) ∧ text ∈ Form.array items) ∨
        c = '\x7b' ∧ ∃ parts, (∀ part ∈ parts, part.1 ∈ Form.anyString ∧ Form.IsValue part.2) ∧
          text ∈ Form.object parts) := by
  cases isValue with
  | word isWord =>
      simp only [Form.words, List.mem_cons, List.not_mem_nil, or_false] at isWord
      rcases isWord with rfl | rfl | rfl <;> exact ⟨_, _, rfl, .inl (by decide)⟩
  | number isNumber =>
      obtain ⟨c, others, rfl, first⟩ := exists_cons_of_mem_number isNumber
      exact ⟨c, others, rfl, .inr (.inl ⟨first, isNumber⟩)⟩
  | string isString =>
      obtain ⟨body, rfl, -⟩ := skipString_of_mem isString
      exact ⟨'"', body, rfl, .inr (.inr (.inl ⟨rfl, isString⟩))⟩
  | array values listed =>
      obtain ⟨others, rfl⟩ := Form.exists_cons_of_mem_bracket listed
      exact ⟨'[', others, rfl, .inr (.inr (.inr (.inl ⟨rfl, _, values, listed⟩)))⟩
  | object keys values listed =>
      obtain ⟨items, members, bracket⟩ := listed
      obtain ⟨others, rfl⟩ := Form.exists_cons_of_mem_bracket bracket
      exact ⟨'\x7b', others, rfl, .inr (.inr (.inr (.inr ⟨rfl, _,
        fun part inside => ⟨keys part inside, values part inside⟩, items, members, bracket⟩)))⟩

/-! ## Strings and numbers -/

/-- No string is read where another character than a quote stands. -/
theorem string_refuses {c : Char} {others : List Char} (start : skipSpace full = c :: others)
    (other : c ≠ '"') : Reader.string full = .error (wrongType .string (c :: others)) := by
  simp only [Reader.string, start]
  split
  · simp_all
  · simp_all
  · rfl

/-- A string is read from each of its forms. -/
theorem answers_string {value : String} (isForm : text ∈ Form.string value) :
    Answers limit Reader.string text (some value) := by
  obtain ⟨body, rfl, reads⟩ := readString_of_mem isForm
  refine answers_some fun full rest start _ => ?_
  rw [List.cons_append] at start
  simp only [Reader.string, start, reads]

/-- A string that has no value is refused. -/
theorem exists_value_or_answers_none (isString : text ∈ Form.anyString) :
    (∃ value, text ∈ Form.string value) ∨ Answers limit Reader.string text none := by
  rcases exists_value_or_refused isString with spelled | ⟨body, rfl, refuses⟩
  · exact .inl spelled
  · refine .inr (answers_none fun full rest start _ => ?_)
    rw [List.cons_append] at start
    simp only [Reader.string, start]
    exact refuses rest

/-- The reader of strings answers every value, if only with a refusal. -/
theorem regular_string : Regular limit Reader.string := by
  intro text isValue
  obtain ⟨c, others, rfl, shape⟩ := isValue.cases_first
  by_cases quote : c = '"'
  · have isString : c :: others ∈ Form.anyString := by
      subst quote
      simpa using shape
    rcases exists_value_or_answers_none isString with ⟨value, isForm⟩ | refuses
    · exact ⟨some value, answers_string isForm⟩
    · exact ⟨none, refuses⟩
  · exact ⟨none, answers_none fun full rest start _ => ⟨_, string_refuses start quote⟩⟩

/-- No number is read where neither a sign nor a digit stands. -/
theorem natural_refuses {bound : Nat} {expected : Expected} {c : Char} {others : List Char}
    (start : skipSpace full = c :: others) (other : ¬ (c = '-' ∨ c.isDigit)) :
    Reader.natural bound expected full = .error (wrongType expected (c :: others)) := by
  simp only [Reader.natural, start, if_neg other]

/-- Where a number stands, it is read and then compared with the bound. -/
theorem natural_eq {bound : Nat} {expected : Expected} {c : Char} {others : List Char}
    (start : skipSpace full = c :: others) (first : c = '-' ∨ c.isDigit) :
    Reader.natural bound expected full = (readNumber (c :: others)).bind fun read =>
      match read.1 with
      | .natural value =>
        if value < bound then .ok (value, read.2)
        else .error (.invalidValue read.1.found expected)
      | .negative _ => .error (.invalidValue read.1.found expected)
      | .float _ => .error (.invalidType read.1.found expected) := by
  simp only [Reader.natural, start, if_pos first]
  rfl

/-- The reader of bounded numbers answers every value. -/
theorem regular_natural (bound : Nat) (expected : Expected) :
    Regular limit (Reader.natural bound expected) := by
  intro text isValue
  obtain ⟨c, others, rfl, shape⟩ := isValue.cases_first
  by_cases first : c = '-' ∨ c.isDigit
  · have isNumber : c :: others ∈ Form.number := by
      rcases shape with word | ⟨-, isNumber⟩ | ⟨rfl, -⟩ | ⟨rfl, -⟩ | ⟨rfl, -⟩
      · simp only [List.mem_cons, List.not_mem_nil, or_false] at word
        rcases word with rfl | rfl | rfl <;> exact absurd first (by decide)
      · exact isNumber
      all_goals exact absurd first (by decide)
    rcases readNumber_cases isNumber with noNatural | ⟨value, reads⟩
    · refine ⟨none, answers_none fun full rest start delimited => ?_⟩
      rw [natural_eq start first]
      have noNatural := noNatural rest delimited
      rw [List.cons_append] at noNatural
      cases read : readNumber (c :: (others ++ rest)) with
      | error error => exact ⟨error, rfl⟩
      | ok found =>
          obtain ⟨number, left⟩ := found
          cases number with
          | natural value => exact absurd read (noNatural value left)
          | negative value => exact ⟨_, rfl⟩
          | float value => exact ⟨_, rfl⟩
    · refine ⟨if value < bound then some value else none, fun full rest start delimited _ => ?_⟩
      rw [List.cons_append] at start
      rw [natural_eq start first]
      have reads := reads rest delimited
      rw [List.cons_append] at reads
      rw [reads]
      by_cases small : value < bound
      · simp [Except.bind, small, Except.toOption]
      · simp [Except.bind, small, Except.toOption]
  · exact ⟨none, answers_none fun full rest start _ => ⟨_, natural_refuses start first⟩⟩

/-- A natural number of 64 bits is read from its numeral. -/
theorem answers_numeral {number : Nat} (fits : number < Text.wordLimit) :
    Answers limit Reader.word64 (Nat.toDigits 10 number) (some number) := by
  refine answers_some fun full rest start delimited => ?_
  have reads := readNumber_toDigits fits delimited
  cases digits : Nat.toDigits 10 number with
  | nil => exact absurd digits Nat.toDigits_ne_nil
  | cons digit others =>
      have isDigit : digit.isDigit :=
        Text.isDigit_of_mem_toDigits (digits ▸ List.mem_cons_self)
      rw [digits, List.cons_append] at start reads
      rw [Reader.word64, natural_eq start (.inr isDigit), reads]
      simp [Except.bind, fits]

/-! ## Brackets -/

/-- A loop of readers stands inside a bracket with these items before it: `next` finds each of them
and then the end of the bracket, and `rest` is what follows the bracket. -/
inductive Walks (next : Bool → List Char → Except Error (Bool × List Char)) (close : Char)
    (limit : Nat) (rest : List Char) : (first : Bool) → List Char → List (List Char) → Prop
  | closed {first : Bool} {full : List Char} (ends : next first full = .ok (false, close :: rest)) :
      Walks next close limit rest first full []
  | item {first : Bool} {full item after : List Char} {items : List (List Char)}
      (follows : next first full = .ok (true, item ++ after)) (delimited : Delimited after)
      (room : item.length ≤ limit) (later : Walks next close limit rest false after items) :
      Walks next close limit rest first full (item :: items)

/-- Each item that is walked over fits the limit. -/
theorem Walks.length_le {next : Bool → List Char → Except Error (Bool × List Char)} {close : Char}
    {full rest : List Char} {first : Bool} {items : List (List Char)}
    (walks : Walks next close limit rest first full items) :
    ∀ item ∈ items, item.length ≤ limit := by
  induction walks with
  | closed => simp
  | item _ _ room _ ih => exact List.forall_mem_cons.mpr ⟨room, ih⟩

section Brackets

variable {next : Bool → List Char → Except Error (Bool × List Char)} {opening close : Char}
  {items : List (List Char)}

/-- What a loop needs to know about the function that finds the next item of a bracket. -/
structure Finds (next : Bool → List Char → Except Error (Bool × List Char)) (close : Char)
    (items : List (List Char)) : Prop where
  visible : isSpace close = false
  closes : close = ']' ∨ close = '\x7d'
  opens : ∀ item ∈ items, Opens item
  ends : ∀ {first full rest}, skipSpace full = close :: rest →
    next first full = .ok (false, close :: rest)
  starts : ∀ item ∈ items, ∀ {full rest}, skipSpace full = item ++ rest →
    next true full = .ok (true, item ++ rest)
  follows : ∀ item ∈ items, ∀ {full inside rest}, skipSpace full = ',' :: inside →
    skipSpace inside = item ++ rest → next false full = .ok (true, item ++ rest)

/-- What finds all items finds all but the first. -/
theorem Finds.tail {item : List Char} (finds : Finds next close (item :: items)) :
    Finds next close items where
  visible := finds.visible
  closes := finds.closes
  opens other inside := finds.opens other (List.mem_cons_of_mem _ inside)
  ends := finds.ends
  starts other inside := finds.starts other (List.mem_cons_of_mem _ inside)
  follows other inside := finds.follows other (List.mem_cons_of_mem _ inside)

/-- What finds the items walks over the rest of their brackets. -/
theorem Finds.walks_rest (finds : Finds next close items) (listed : text ∈ Form.rest close items)
    (room : text.length ≤ limit) (rest : List Char) :
    Walks next close limit rest false (text ++ rest) items := by
  induction items generalizing text with
  | nil => exact .closed (finds.ends (rest_nil listed finds.visible rest))
  | cons item items ih =>
      have here : item ∈ item :: items := List.mem_cons_self
      obtain ⟨inside, later, isLater, size, starts⟩ := rest_cons (finds.opens item here) listed
      obtain ⟨comma, start⟩ := starts rest
      exact .item (finds.follows item here comma start) (delimited_rest finds.closes isLater rest)
        (by omega) (ih finds.tail isLater (by omega))

/-- A loop walks through a bracket item by item. -/
theorem Finds.walks (finds : Finds next close items) (limit : Nat)
    (listed : text ∈ Form.bracket opening close items) :
    ∃ inside, text = opening :: inside ∧ (text.length ≤ limit → items.length < limit + 1 ∧
      ∀ rest, Walks next close limit rest true (inside ++ rest) items) := by
  cases items with
  | nil =>
      obtain ⟨inside, rfl, ending⟩ := bracket_nil listed finds.visible
      exact ⟨inside, rfl, fun _ => ⟨by simp, fun rest => .closed (finds.ends (ending rest))⟩⟩
  | cons item items =>
      have here : item ∈ item :: items := List.mem_cons_self
      obtain ⟨inside, later, isLater, rfl, size, starts⟩ :=
        bracket_cons (finds.opens item here) listed
      have few := length_lt_of_mem_rest isLater
      refine ⟨inside, rfl, fun room => ?_⟩
      rw [List.length_cons] at room ⊢
      exact ⟨by omega, fun rest => .item (finds.starts item here (starts rest))
        (delimited_rest finds.closes isLater rest) (by omega)
        (finds.tail.walks_rest isLater (by omega) rest)⟩

end Brackets

/-! ## Lists -/

/-- A list ends at its closing bracket. -/
theorem nextItem_end (first : Bool) {text rest : List Char}
    (start : skipSpace text = ']' :: rest) :
    Reader.nextItem first text = .ok (false, ']' :: rest) := by
  simp only [Reader.nextItem, start]

/-- The first item of a list stands right after the bracket. -/
theorem nextItem_first {c : Char} {others : List Char} (start : skipSpace full = c :: others)
    (opens : opensValue c) : Reader.nextItem true full = .ok (true, c :: others) := by
  rw [Reader.nextItem, start]
  split
  case h_1 empty => cases empty
  case h_2 closed =>
    obtain ⟨rfl, -⟩ := List.cons.inj closed
    exact absurd opens (by decide)
  case h_3 => rfl

/-- Every later item stands after a comma. -/
theorem nextItem_later {c : Char} {inside others : List Char}
    (comma : skipSpace full = ',' :: inside) (start : skipSpace inside = c :: others)
    (opens : opensValue c) : Reader.nextItem false full = .ok (true, c :: others) := by
  rw [Reader.nextItem, comma]
  split
  case h_1 empty => cases empty
  case h_2 closed => exact absurd (List.cons.inj closed).1 (by decide)
  case h_3 =>
    rw [if_neg Bool.false_ne_true]
    split
    case h_1 same =>
      obtain ⟨-, rfl⟩ := List.cons.inj same
      rw [start]
      split
      case h_1 empty => cases empty
      case h_2 closed =>
        obtain ⟨rfl, -⟩ := List.cons.inj closed
        exact absurd opens (by decide)
      case h_3 => rfl
    case h_2 other => exact absurd rfl (other inside)

/-- The items of a list are found one after the other. -/
theorem finds_nextItem {items : List (List Char)} (opens : ∀ item ∈ items, Opens item) :
    Finds Reader.nextItem ']' items where
  visible := by decide
  closes := .inl rfl
  opens := opens
  ends {first} _ _ start := nextItem_end first start
  starts item inside {full rest} start := by
    obtain ⟨c, others, rfl, opens⟩ := opens item inside
    exact nextItem_first start opens
  follows item listed {full inside rest} comma start := by
    obtain ⟨c, others, rfl, opens⟩ := opens item listed
    exact nextItem_later comma start opens

/-- The answer for a list is the list of the answers for its items. -/
def together : List (Option α) → Option (List α)
  | [] => some []
  | answer :: answers => answer.bind fun value => (together answers).map (value :: ·)

/-- Where all items are answered, so is the list. -/
@[simp] theorem together_map_some (values : List α) : together (values.map some) = some values := by
  induction values with
  | nil => rfl
  | cons value values ih => simp [together, ih]

/-- One refused item refuses the list. -/
theorem together_eq_none {answers : List (Option α)} (refused : none ∈ answers) :
    together answers = none := by
  induction answers with
  | nil => cases refused
  | cons answer answers ih =>
      rcases List.mem_cons.mp refused with rfl | later
      · rfl
      · simp [together, ih later]

/-- The items of a list are read one after the other. -/
theorem items_walk {items : List (List Char)} {answers : List (Option α)} {first : Bool}
    (walks : Walks Reader.nextItem ']' limit rest first full items)
    (each : List.Forall₂ (fun item answer => Opens item ∧ Answers limit reader item answer) items
      answers)
    {fuel : Nat} (enough : items.length < fuel) (done : List α) :
    (Reader.items reader fuel first done full).toOption =
      (together answers).map fun values => (done.reverse ++ values, ']' :: rest) := by
  induction walks generalizing answers fuel done with
  | closed ends =>
      cases each
      obtain ⟨fuel, rfl⟩ : ∃ more, fuel = more + 1 := ⟨fuel - 1, by omega⟩
      simp [Reader.items, ends, together, Except.toOption, bind, Except.bind, pure, Except.pure]
  | item follows delimited room later ih =>
      obtain ⟨answer, answers, ⟨opens, read⟩, others, rfl⟩ := List.forall₂_cons_left_iff.mp each
      obtain ⟨fuel, rfl⟩ : ∃ more, fuel = more + 1 := ⟨fuel - 1, by omega⟩
      have bounded := Nat.lt_of_succ_lt_succ enough
      have read := read _ _ (opens.skipSpace_append _) delimited room
      rw [Reader.items, follows]
      cases answer with
      | none =>
          obtain ⟨error, failed⟩ := Checks.toOption_eq_none.mp read
          simp [together, bind, Except.bind, failed]
      | some value =>
          have succeeded := Checks.toOption_eq_some.mp read
          simp [together, bind, Except.bind, succeeded, ih others bounded, Function.comp_def]

/-- No list is read where another character than a bracket stands. -/
theorem list_refuses {c : Char} {others : List Char} (start : skipSpace full = c :: others)
    (other : c ≠ '[') :
    Reader.list limit reader full = .error (wrongType .sequence (c :: others)) := by
  simp only [Reader.list, start]
  split
  case h_1 empty => cases empty
  case h_2 bracket => exact absurd (List.cons.inj bracket).1 other
  case h_3 => rfl

/-- A list is closed by its bracket. -/
theorem closeList_eq (rest : List Char) : Reader.closeList (']' :: rest) = .ok rest := by
  rw [Reader.closeList, skipSpace_cons (by decide)]
  rfl

/-- The answer for a list is made of the answers for its items. -/
theorem answers_list {items : List (List Char)} {answers : List (Option α)}
    (each : List.Forall₂ (fun item answer => Opens item ∧ Answers limit reader item answer) items
      answers)
    (listed : text ∈ Form.array items) :
    Answers limit (Reader.list limit reader) text (together answers) := by
  have opens : ∀ item ∈ items, Opens item := by
    intro item inside
    obtain ⟨answer, -, opens, -⟩ := Checks.exists_mem_of_forall₂ each.flip inside
    exact opens
  obtain ⟨inside, rfl, walks⟩ := (finds_nextItem opens).walks limit listed
  intro full rest start _ room
  obtain ⟨enough, walks⟩ := walks room
  have read := items_walk (walks rest) each enough []
  rw [List.cons_append] at start
  simp only [Reader.list, start, Checks.toOption_bind, read]
  cases together answers <;> simp [closeList_eq, pure, Except.pure, Except.toOption]

/-- A regular reader has an answer for each item that is a value. -/
theorem Regular.answers (regular : Regular limit reader) {items : List (List Char)}
    (values : ∀ item ∈ items, Form.IsValue item) :
    ∃ answers, List.Forall₂ (fun item answer => Opens item ∧ Answers limit reader item answer) items
      answers := by
  refine Checks.exists_forall₂.mpr fun item inside => ?_
  obtain ⟨answer, answers⟩ := regular item (values item inside)
  exact ⟨answer, (values item inside).opens, answers⟩

/-- The reader of lists is regular if the reader of their items is. -/
theorem Regular.list (regular : Regular limit reader) :
    Regular limit (Reader.list limit reader) := by
  intro text isValue
  obtain ⟨c, others, rfl, shape⟩ := isValue.cases_first
  by_cases bracket : c = '['
  · obtain ⟨items, values, listed⟩ : ∃ items, (∀ item ∈ items, Form.IsValue item) ∧
        c :: others ∈ Form.array items := by
      subst bracket
      simpa using shape
    obtain ⟨answers, each⟩ := regular.answers values
    exact ⟨_, answers_list each listed⟩
  · exact ⟨none, answers_none fun full rest start _ => ⟨_, list_refuses start bracket⟩⟩

/-! ## Typed forms -/

/-- Every text of the form is a value, and the reader takes the given value from it. -/
def Takes (limit : Nat) (reader : Reader α) (form : Language Char) (value : α) : Prop :=
  ∀ text ∈ form, Form.IsValue text ∧ Answers limit reader text (some value)

/-- The reader of strings takes every form of a string. -/
theorem takes_string (value : String) : Takes limit Reader.string (Form.string value) value :=
  fun _ isForm => ⟨.string (mem_anyString_of_mem_string isForm), answers_string isForm⟩

/-- The decimal digits of a number spell it. -/
theorem toDigits_mem_number (number : Nat) : Nat.toDigits 10 number ∈ Form.number := by
  have isWhole : Nat.toDigits 10 number ∈ Form.whole := by
    by_cases zero : number = 0
    · exact .inl (by rw [zero, Nat.toDigits_zero])
    · exact .inr ⟨⟨Nat.toDigits_ne_nil, fun digit => Text.isDigit_of_mem_toDigits⟩,
        Text.head?_toDigits_ne_zero (Nat.pos_of_ne_zero zero)⟩
  have isNumber : [] ++ Nat.toDigits 10 number ++ ([] ++ []) ∈ Form.number :=
    Language.append_mem_mul (Language.append_mem_mul (.inl rfl) isWhole)
      (Language.append_mem_mul (.inl rfl) (.inl rfl))
  rwa [List.append_nil, List.nil_append, List.append_nil] at isNumber

/-- The reader of 64-bit numbers takes the digits of a number that fits. -/
theorem takes_numeral {number : Nat} (fits : number < Text.wordLimit) :
    Takes limit Reader.word64 {Nat.toDigits 10 number} number := by
  rintro _ rfl
  exact ⟨.number (toDigits_mem_number number), answers_numeral fits⟩

/-- A list is taken from the forms of its items. -/
theorem Takes.list {form : α → Language Char}
    (takes : ∀ value, Takes limit reader (form value) value) (values : List α) :
    Takes limit (Reader.list limit reader) (Form.list form values) values := by
  rintro text ⟨items, each, listed⟩
  have isValue : ∀ item ∈ items, Form.IsValue item := by
    intro item inside
    obtain ⟨value, -, isForm⟩ := Checks.exists_mem_of_forall₂ each.flip inside
    exact (takes value item isForm).1
  have answers : List.Forall₂ (fun item answer => Opens item ∧ Answers limit reader item answer)
      items (values.map some) := by
    rw [List.forall₂_map_right_iff]
    refine each.imp fun item value isForm => ?_
    obtain ⟨isValue, reads⟩ := takes value item isForm
    exact ⟨isValue.opens, reads⟩
  refine ⟨.array isValue listed, ?_⟩
  have read := answers_list answers listed
  rwa [together_map_some] at read

end TapeMachine.Json
