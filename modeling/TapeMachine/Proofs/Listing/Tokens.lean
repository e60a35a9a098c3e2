import TapeMachine.Proofs.Listing.Phrase

/-!
# Line ends and characters

Line ends lead from one token to the next, whatever space stands between them. What follows a token
matters only to names and numerals, which extend as far as they can.
-/

namespace TapeMachine.Listing

open Phrase

variable {limit : Nat}

/-! ## Line ends -/

/-- Skipping does not make a text longer. -/
theorem length_dropFiller_le (text : List Char) : (dropFiller text).length ≤ text.length := by
  have comment := (List.dropWhile_sublist (!isLineEnd ·) (l := text.dropWhile isFiller)).length_le
  have filler := (List.dropWhile_sublist isFiller (l := text)).length_le
  simp only [dropFiller]
  split
  case h_1 starts =>
      rw [starts] at comment filler
      omega
  case h_2 => exact filler

/-- A line ends with a line feed or a carriage return. -/
theorem newline_cases {c : Char} (ends : isLineEnd c) : c = '\n' ∨ c = '\r' := by
  simpa [isLineEnd] using ends

/-- A line end is read with its second character, if it has one; neither matters to what follows. -/
theorem yields_newline {c : Char} (ends : isLineEnd c) (rest : List Char) :
    newline.Yields (c :: rest) fun _ left =>
      nextToken left = nextToken rest ∧ left.length ≤ rest.length := by
  rcases newline_cases ends with rfl | rfl
  · exact (yields_literal ['\n'] ⟨rfl, Nat.le_refl _⟩).orElse
  · have lineFeed : (literal ['\n']).Refuses ('\r' :: rest) := refuses_literal_of_ne (by decide) _ _
    refine lineFeed.orElse_yields ?_
    by_cases pair : rest.head? = some '\n'
    · obtain ⟨left, rfl⟩ : ∃ left, rest = '\n' :: left := by
        cases rest with
        | nil => cases pair
        | cons d left => exact ⟨left, by rw [Option.some.inj pair]⟩
      exact (yields_literal ['\r', '\n'] ⟨rfl, by simp⟩).orElse
    · have single : (literal ['\r', '\n']).Refuses ('\r' :: rest) := by
        intro offset
        cases rest with
        | nil => rfl
        | cons d left =>
            have other : d ≠ '\n' := fun same => pair (by rw [same]; rfl)
            simp [literal, other, fail]
      exact single.orElse_yields (yields_literal ['\r'] ⟨rfl, Nat.le_refl _⟩).orElse

/-- No line end is read where none stands. -/
theorem refuses_newline {text : List Char} (sameLine : ∀ c ∈ text.head?, isLineEnd c = false) :
    newline.Refuses text := by
  apply refuses_choice
  cases text with
  | nil => simp [refuses_literal_nil]
  | cons c rest =>
      have other : c ≠ '\n' ∧ c ≠ '\r' := by simpa [isLineEnd] using sameLine c rfl
      simp [refuses_literal_of_ne other.1, refuses_literal_of_ne other.2]

/-- Reading all line ends leads to the next token. -/
theorem yields_many_newline {text : List Char} (room : text.length ≤ limit) :
    (many limit newline).Yields text fun _ left => dropFiller left = nextToken text := by
  have step : ∀ left, nextToken left = nextToken text →
      (newline.Refuses (dropFiller left) ∧ dropFiller left = nextToken text) ∨
      newline.Yields (dropFiller left) fun _ rest =>
        nextToken rest = nextToken text ∧ rest.length < left.length := by
    intro left same
    by_cases sameLine : ∀ c ∈ (dropFiller left).head?, isLineEnd c = false
    · exact Or.inl ⟨refuses_newline sameLine, (dropFiller_eq_nextToken sameLine).trans same⟩
    · cases skipped : dropFiller left with
      | nil => simp [skipped] at sameLine
      | cons c rest =>
          have ends : isLineEnd c := by simpa [skipped] using sameLine
          have shorter := length_dropFiller_le left
          rw [skipped, List.length_cons] at shorter
          refine Or.inr ((yields_newline ends rest).mono ?_)
          rintro _ left' ⟨next, bound⟩
          refine ⟨?_, by omega⟩
          rw [next, ← same, ← nextToken_dropFiller left, skipped,
            nextToken_cons_of_isLineEnd ends]
  exact yields_many_until step rfl room

/-- Line ends lead to the next token. -/
theorem yields_newlines {c : Char} (ends : isLineEnd c) {rest : List Char}
    (room : rest.length ≤ limit) :
    (newlines limit).Yields (c :: rest) fun _ left => dropFiller left = nextToken rest := by
  have all : (many1 limit newline).Yields (c :: rest) fun _ left =>
      dropFiller left = nextToken rest := by
    refine (yields_newline ends rest).bind ?_
    rintro _ next ⟨same, bound⟩
    have shorter := length_dropFiller_le next
    refine Yields.after_filler ?_
    refine (@yields_many_newline limit (dropFiller next) (by omega)).bind ?_
    intro _ left reached
    rw [nextToken_dropFiller, same] at reached
    exact yields_pure reached
  exact all.bind fun _ _ reached => yields_pure reached

/-- A phrase on a line below. -/
theorem Phrase.Yields.onNextLine {α : Type} {phrase : Phrase α} {post : α → List Char → Prop}
    {c : Char} (ends : isLineEnd c) {rest : List Char} (room : rest.length ≤ limit)
    (yields : phrase.Yields (nextToken rest) post) :
    (onNextLine limit phrase).Yields (c :: rest) post := by
  refine (yields_newlines ends room).bind ?_
  intro _ left reached
  rw [← reached] at yields
  exact yields.after_filler

/-- A phrase on a line below fails where it fails on the next token. -/
theorem Phrase.Refuses.onNextLine {α : Type} {phrase : Phrase α} {c : Char} (ends : isLineEnd c)
    {rest : List Char} (room : rest.length ≤ limit) (refuses : phrase.Refuses (nextToken rest)) :
    (onNextLine limit phrase).Refuses (c :: rest) := by
  refine (yields_newlines ends room).bind_refuses ?_
  intro _ left reached
  rw [← reached] at refuses
  exact refuses.after_filler

/-! ## Symbols, names and movements -/

/-- What follows cannot continue a name. -/
def Bounded (rest : List Char) : Prop :=
  ∀ c ∈ rest.head?, isNameChar c = false

/-- A character that no name has ends a name. -/
theorem bounded_cons {c : Char} (other : isNameChar c = false) (rest : List Char) :
    Bounded (c :: rest) := by
  rintro d ⟨⟩
  exact other

/-- A symbol that needs no quotes is read as itself. -/
theorem reads_bareSymbol {c : Char} (bare : isBareSymbol c) (rest : List Char) :
    symbol.Reads (c :: rest) c rest := by
  refine Yields.named fun offset => ⟨c, { offset := offset + 1, rest }, ?_, rfl, rfl⟩
  split
  case h_1 d tail quoted =>
      rw [(List.cons.inj quoted).1] at bare
      exact absurd bare (by decide)
  case h_2 same =>
      obtain ⟨rfl, rfl⟩ := List.cons.inj same
      simp [bare]
  case h_3 empty => cases empty

/-- No symbol is read where punctuation stands. -/
theorem refuses_symbol {c : Char} (quote : c ≠ '\'') (special : isBareSymbol c = false)
    (rest : List Char) : symbol.Refuses (c :: rest) := by
  refine Refuses.named fun offset => ?_
  split
  case h_1 quoted => exact absurd (List.cons.inj quoted).1 quote
  case h_2 same =>
      obtain ⟨rfl, rfl⟩ := List.cons.inj same
      simp [special, fail]
  case h_3 empty => cases empty

/-- A symbol without quotes is not skipped. -/
theorem opensToken_of_isBareSymbol {c : Char} (bare : isBareSymbol c) : opensToken c := by
  simp only [isBareSymbol, Bool.not_eq_true', Bool.or_eq_false_iff, beq_eq_false_iff_ne] at bare
  simp [opensToken, bare]

/-- A symbol without quotes does not end its line. -/
theorem isLineEnd_of_isBareSymbol {c : Char} (bare : isBareSymbol c) : isLineEnd c = false := by
  simp only [isBareSymbol, Bool.not_eq_true', Bool.or_eq_false_iff] at bare
  exact bare.2

/-- The characters of names: letters, digits, underscores, hyphens and points. -/
def NameChar (c : Char) : Prop :=
  'A' ≤ c ∧ c ≤ 'Z' ∨ 'a' ≤ c ∧ c ≤ 'z' ∨ '0' ≤ c ∧ c ≤ '9' ∨ c = '_' ∨ c = '-' ∨ c = '.'

instance : DecidablePred NameChar :=
  fun _ => inferInstanceAs (Decidable (_ ∨ _))

/-- The reader takes these characters for names and no others. -/
theorem isNameChar_iff {c : Char} : isNameChar c ↔ NameChar c := by
  have upper : c.isUpper ↔ 'A' ≤ c ∧ c ≤ 'Z' := decide_eq_true_iff
  have lower : c.isLower ↔ 'a' ≤ c ∧ c ≤ 'z' :=
    Bool.and_eq_true_iff.trans (and_congr decide_eq_true_iff decide_eq_true_iff)
  have digit : c.isDigit ↔ '0' ≤ c ∧ c ≤ '9' :=
    Bool.and_eq_true_iff.trans (and_congr decide_eq_true_iff decide_eq_true_iff)
  have named : isNameChar c =
      (c.isUpper || c.isLower || c.isDigit || c == '_' || c == '-' || c == '.') := rfl
  simp only [named, NameChar, Bool.or_eq_true, upper, lower, digit, beq_iff_eq, or_assoc]

/-- The names that a listing can hold. -/
def PlainName (name : String) : Prop :=
  name ≠ "" ∧ ∀ c ∈ name.toList, NameChar c

/-- The reader takes all characters of a plain name for a name. -/
theorem PlainName.nameChars {name : String} (plain : PlainName name) :
    ∀ c ∈ name.toList, isNameChar c :=
  fun c member => isNameChar_iff.mpr (plain.2 c member)

/-- The characters of names need no quotes as symbols. -/
theorem isBareSymbol_of_isNameChar {c : Char} (nameChar : isNameChar c) : isBareSymbol c := by
  have other : ∀ d, isNameChar d = false → c ≠ d := by
    rintro d special rfl
    rw [nameChar] at special
    cases special
  simp [isBareSymbol, isFiller, isLineEnd, other '[' (by decide), other ']' (by decide),
    other ',' (by decide), other '\'' (by decide), other '#' (by decide), other ' ' (by decide),
    other '\t' (by decide), other '\n' (by decide), other '\r' (by decide)]

/-- A plain name has a first character. -/
theorem PlainName.exists_cons {name : String} (plain : PlainName name) :
    ∃ c others, name.toList = c :: others ∧ isNameChar c := by
  cases chars : name.toList with
  | nil => exact absurd (by simpa using chars) plain.1
  | cons c others => exact ⟨c, others, rfl, plain.nameChars c (chars ▸ List.mem_cons_self)⟩

/-- No name is read where its first character is missing. -/
theorem refuses_stateName {text : List Char} (other : ∀ c ∈ text.head?, isNameChar c = false) :
    stateName.Refuses text :=
  Refuses.named (refuses_run other).bind

/-- Digits may stand in names. -/
theorem isNameChar_of_isDigit {c : Char} (digit : c.isDigit) : isNameChar c := by
  simp [isNameChar, Char.isAlphanum, digit]

end TapeMachine.Listing
