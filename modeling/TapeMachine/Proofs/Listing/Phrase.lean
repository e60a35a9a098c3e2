import Mathlib.Data.List.Forall2
import TapeMachine.Listing.Grammar
import TapeMachine.Proofs.Text

/-!
# What phrases do to texts

A phrase yields on a text if it takes a value and leaves a rest, wherever the text stands; it
refuses the text if it fails everywhere. Both are stated for the remaining text alone, so offsets
and the furthest failure never occur in a proof about results. Sequences, choices and repetitions
have one rule each. The rule for repetitions asks for an invariant between the items that are still
to come and the text that is left.
-/

namespace TapeMachine.Listing

/-! ## White space and comments -/

/-- The text after spaces, tabs and a comment. -/
def dropFiller (text : List Char) : List Char :=
  match text.dropWhile isFiller with
  | '#' :: comment => ('#' :: comment).dropWhile (!isLineEnd ·)
  | rest => rest

/-- Skipping leaves the text after spaces, tabs and a comment. -/
theorem rest_skipFiller (cursor : Cursor) : cursor.skipFiller.rest = dropFiller cursor.rest := by
  simp only [Cursor.skipFiller, Cursor.dropWhile, dropFiller]
  cases cursor.rest.dropWhile isFiller with
  | nil => rfl
  | cons c rest =>
      by_cases mark : c = '#'
      · subst mark
        rfl
      · simp [mark]

/-- A character that neither is skipped between the parts of a phrase nor starts a comment. -/
def opensToken (c : Char) : Bool :=
  !isFiller c && c != '#'

/-- Where a token may start, nothing is skipped. -/
theorem dropFiller_cons {c : Char} (opens : opensToken c) (rest : List Char) :
    dropFiller (c :: rest) = c :: rest := by
  simp only [opensToken, Bool.and_eq_true, Bool.not_eq_true', bne_iff_ne] at opens
  rw [dropFiller, List.dropWhile_cons_of_neg (by simp [opens.1])]
  split
  case h_1 comment starts => exact absurd (List.cons.inj starts).1 opens.2
  case h_2 => rfl

/-- A space or tab is skipped before the rest is. -/
theorem dropFiller_cons_of_isFiller {c : Char} (filler : isFiller c) (rest : List Char) :
    dropFiller (c :: rest) = dropFiller rest := by
  rw [dropFiller, List.dropWhile_cons_of_pos filler]
  rfl

/-- The text from its next token on, over any number of lines; `comment` tells whether the text
starts inside a comment. -/
def dropLines (comment : Bool) : List Char → List Char
  | [] => []
  | c :: rest =>
    if isLineEnd c then dropLines false rest
    else if comment || c == '#' then dropLines true rest
    else if isFiller c then dropLines false rest
    else c :: rest

/-- The text from its next token on, over any number of lines. -/
abbrev nextToken (text : List Char) : List Char :=
  dropLines false text

/-- Inside a comment, the next token comes after the end of its line. -/
theorem dropLines_true (text : List Char) :
    dropLines true text = nextToken (text.dropWhile (!isLineEnd ·)) := by
  induction text with
  | nil => rfl
  | cons c rest ih =>
      by_cases ends : isLineEnd c
      · simp [dropLines, ends]
      · simp only [dropLines, ends, Bool.true_or, if_true, List.dropWhile_cons]
        simpa [ends] using ih

/-- Skipping on the same line does not change what the next token is. -/
theorem nextToken_dropFiller (text : List Char) : nextToken (dropFiller text) = nextToken text := by
  induction text with
  | nil => rfl
  | cons c rest ih =>
      by_cases filler : isFiller c
      · have other : isLineEnd c = false ∧ c ≠ '#' := by
          simp only [isFiller, Bool.or_eq_true, beq_iff_eq] at filler
          rcases filler with rfl | rfl <;> decide
        rw [dropFiller_cons_of_isFiller filler, ih]
        simp [nextToken, dropLines, filler, other]
      · by_cases mark : c = '#'
        · subst mark
          have comment : dropFiller ('#' :: rest) = rest.dropWhile (!isLineEnd ·) := rfl
          rw [comment, ← dropLines_true]
          rfl
        · rw [dropFiller_cons (by simp [opensToken, filler, mark])]

/-- A token that starts at once is the next one. -/
theorem nextToken_cons {c : Char} (opens : opensToken c) (sameLine : isLineEnd c = false)
    (rest : List Char) : nextToken (c :: rest) = c :: rest := by
  simp only [opensToken, Bool.and_eq_true, Bool.not_eq_true', bne_iff_ne] at opens
  simp [nextToken, dropLines, opens, sameLine]

/-- A line end does not change what the next token is. -/
theorem nextToken_cons_of_isLineEnd {c : Char} (ends : isLineEnd c) (rest : List Char) :
    nextToken (c :: rest) = nextToken rest := by
  simp [nextToken, dropLines, ends]

/-- After skipping, the line ends or a token starts. -/
theorem isLineEnd_or_opensToken (text : List Char) :
    ∀ c ∈ (dropFiller text).head?, isLineEnd c ∨ opensToken c := by
  induction text with
  | nil => simp [dropFiller]
  | cons c rest ih =>
      by_cases filler : isFiller c
      · rw [dropFiller_cons_of_isFiller filler]
        exact ih
      · by_cases mark : c = '#'
        · subst mark
          intro d first
          have ends := List.head?_dropWhile_not (!isLineEnd ·) rest
          have comment : dropFiller ('#' :: rest) = rest.dropWhile (!isLineEnd ·) := rfl
          rw [← comment, Option.mem_def.mp first] at ends
          exact Or.inl (by simpa using ends)
        · have opens : opensToken c := by simp [opensToken, filler, mark]
          rw [dropFiller_cons opens]
          rintro d ⟨⟩
          exact Or.inr opens

/-- Skipping twice is skipping once. -/
theorem dropFiller_dropFiller (text : List Char) :
    dropFiller (dropFiller text) = dropFiller text := by
  have starts := isLineEnd_or_opensToken text
  cases skipped : dropFiller text with
  | nil => rfl
  | cons c rest =>
      rw [skipped] at starts
      apply dropFiller_cons
      rcases starts c rfl with ends | opens
      · simp only [isLineEnd, Bool.or_eq_true, beq_iff_eq] at ends
        rcases ends with rfl | rfl <;> decide
      · exact opens

/-- Skipping on one line finds the next token, unless the line ends before. -/
theorem dropFiller_eq_nextToken {text : List Char}
    (sameLine : ∀ c ∈ (dropFiller text).head?, isLineEnd c = false) :
    dropFiller text = nextToken text := by
  have starts := isLineEnd_or_opensToken text
  rw [← nextToken_dropFiller text]
  cases skipped : dropFiller text with
  | nil => rfl
  | cons c rest =>
      rw [skipped] at sameLine starts
      have stays := sameLine c rfl
      have opens : opensToken c := (starts c rfl).resolve_left (by simp [stays])
      rw [nextToken_cons opens stays]

/-! ## Results of phrases -/

namespace Phrase

variable {α β : Type}

/-- The phrase takes a value and leaves a rest, both as described, wherever the text stands. -/
def Yields (phrase : Phrase α) (text : List Char) (post : α → List Char → Prop) : Prop :=
  ∀ offset, ∃ value place,
    (phrase { offset, rest := text }).result = some (value, place) ∧ post value place.rest

/-- The phrase takes exactly this value and leaves exactly this rest. -/
abbrev Reads (phrase : Phrase α) (text : List Char) (value : α) (rest : List Char) : Prop :=
  phrase.Yields text fun taken left => taken = value ∧ left = rest

/-- The phrase fails, wherever the text stands. -/
def Refuses (phrase : Phrase α) (text : List Char) : Prop :=
  ∀ offset, (phrase { offset, rest := text }).result = none

variable {phrase first other : Phrase α} {second : α → Phrase β} {text : List Char}

/-- The result of two phrases is the result of the second where the first one stopped. -/
theorem result_bind (first : Phrase α) (second : α → Phrase β) (cursor : Cursor) :
    ((first >>= second) cursor).result =
      (first cursor).result.bind fun (value, next) => (second value next).result := by
  change (Phrase.bind first second cursor).result = _
  simp only [Phrase.bind]
  cases (first cursor).result <;> rfl

/-- What holds after a reading may be weakened. -/
theorem Yields.mono {post weaker : α → List Char → Prop} (yields : phrase.Yields text post)
    (implies : ∀ value rest, post value rest → weaker value rest) :
    phrase.Yields text weaker := by
  intro offset
  obtain ⟨value, place, result, holds⟩ := yields offset
  exact ⟨value, place, result, implies _ _ holds⟩

/-- Nothing is read to take a value. -/
theorem yields_pure {post : α → List Char → Prop} {value : α} (holds : post value text) :
    Yields (pure value) text post :=
  fun _ => ⟨value, _, rfl, holds⟩

/-- Two phrases in sequence. -/
theorem Yields.bind {middle : α → List Char → Prop} {post : β → List Char → Prop}
    (yields : first.Yields text middle)
    (continues : ∀ value rest, middle value rest → (second value).Yields rest post) :
    (first >>= second).Yields text post := by
  intro offset
  obtain ⟨value, place, result, holds⟩ := yields offset
  obtain ⟨last, final, continued, reached⟩ := continues value place.rest holds place.offset
  refine ⟨last, final, ?_, reached⟩
  rw [result_bind, result]
  exact continued

/-- Two phrases fail where the first of them does. -/
theorem Refuses.bind (refuses : first.Refuses text) : (first >>= second).Refuses text := by
  intro offset
  rw [result_bind, refuses offset]
  rfl

/-- Two phrases fail where the second one fails after any reading of the first. -/
theorem Yields.bind_refuses {middle : α → List Char → Prop} (yields : first.Yields text middle)
    (stops : ∀ value rest, middle value rest → (second value).Refuses rest) :
    (first >>= second).Refuses text := by
  intro offset
  obtain ⟨value, place, result, holds⟩ := yields offset
  rw [result_bind, result]
  exact stops value place.rest holds place.offset

/-- A name does not change the result of a phrase. -/
theorem result_named (phrase : Phrase α) (cursor : Cursor) :
    (phrase.named cursor).result = (phrase cursor).result := by
  simp only [named]
  split <;> rfl

/-- A named phrase reads what the phrase reads. -/
theorem Yields.named {post : α → List Char → Prop} (yields : phrase.Yields text post) :
    phrase.named.Yields text post := by
  intro offset
  rw [result_named]
  exact yields offset

/-- A named phrase fails where the phrase fails. -/
theorem Refuses.named (refuses : phrase.Refuses text) : phrase.named.Refuses text := by
  intro offset
  rw [result_named]
  exact refuses offset

/-- The second alternative counts where the first one has no result. -/
theorem result_orElse (first other : Phrase α) (cursor : Cursor) :
    (first.orElse other cursor).result = (first cursor).result.or (other cursor).result := by
  simp only [orElse]
  cases taken : (first cursor).result with
  | none => rfl
  | some reply => exact taken

/-- The first alternative is taken if it reads. -/
theorem Yields.orElse {post : α → List Char → Prop} (yields : first.Yields text post) :
    (first.orElse other).Yields text post := by
  intro offset
  obtain ⟨value, place, result, holds⟩ := yields offset
  refine ⟨value, place, ?_, holds⟩
  rw [result_orElse, result]
  rfl

/-- The second alternative is taken if the first one fails. -/
theorem Refuses.orElse_yields {post : α → List Char → Prop} (refuses : first.Refuses text)
    (yields : other.Yields text post) : (first.orElse other).Yields text post := by
  intro offset
  rw [result_orElse, refuses offset]
  exact yields offset

/-- Alternatives fail where both of them do. -/
theorem Refuses.orElse (refuses : first.Refuses text) (otherRefuses : other.Refuses text) :
    (first.orElse other).Refuses text := by
  intro offset
  rw [result_orElse, refuses offset]
  exact otherRefuses offset

/-- A choice fails where all of its phrases do. -/
theorem refuses_choice {phrases : List (Phrase α)}
    (refuse : ∀ phrase ∈ phrases, phrase.Refuses text) : (choice phrases).Refuses text := by
  induction phrases with
  | nil => exact fun _ => rfl
  | cons first phrases ih =>
      have later := ih fun phrase member => refuse phrase (List.mem_cons_of_mem _ member)
      exact (refuse first List.mem_cons_self).orElse later

/-- A phrase with its place reads what the phrase reads. -/
theorem Yields.withPlace {post : α → List Char → Prop} (yields : phrase.Yields text post) :
    (withPlace phrase).Yields text fun value rest => post value.item rest := by
  intro offset
  obtain ⟨value, place, result, holds⟩ := yields offset
  refine ⟨{ offset, item := value }, place, ?_, holds⟩
  simp only [Listing.withPlace, result_bind, located, result]
  rfl

/-- A phrase with its place fails where the phrase fails. -/
theorem Refuses.withPlace (refuses : phrase.Refuses text) : (withPlace phrase).Refuses text := by
  intro offset
  simp only [Listing.withPlace, result_bind, located, refuses offset]
  rfl

/-! ## Fixed words, runs and filler -/

/-- A fixed word is read off a text that starts with it. -/
theorem yields_literal {post : Unit → List Char → Prop} (word : List Char) {rest : List Char}
    (holds : post () rest) : (literal word).Yields (word ++ rest) post := by
  induction word with
  | nil => exact yields_pure holds
  | cons c word ih =>
      intro offset
      simpa [literal] using ih (offset + 1)

/-- A fixed word is not read where another character stands first. -/
theorem refuses_literal_of_ne {c next : Char} (different : next ≠ c) (word rest : List Char) :
    (literal (c :: word)).Refuses (next :: rest) := by
  intro offset
  simp [literal, different, fail]

/-- A fixed word is not read off an empty text. -/
theorem refuses_literal_nil (c : Char) (word : List Char) : (literal (c :: word)).Refuses [] :=
  fun _ => rfl

/-- A fixed word is not read off a text that does not start with it. -/
theorem refuses_literal {word text : List Char} (different : ¬ word <+: text) :
    (literal word).Refuses text := by
  induction word generalizing text with
  | nil => exact absurd (List.nil_prefix) different
  | cons c word ih =>
      intro offset
      cases text with
      | nil => rfl
      | cons next rest =>
          by_cases same : next = c
          · subst same
            have later : ¬ word <+: rest := by simpa using different
            simpa [literal] using ih later (offset + 1)
          · exact refuses_literal_of_ne same word rest offset

/-- A run is read up to the first character that does not satisfy its condition. -/
theorem yields_run {condition : Char → Bool} {post : List Char → List Char → Prop}
    {taken rest : List Char} (nonempty : taken ≠ []) (satisfied : ∀ c ∈ taken, condition c)
    (bounded : ∀ c ∈ rest.head?, condition c = false) (holds : post taken rest) :
    (run condition).Yields (taken ++ rest) post := by
  intro offset
  obtain ⟨c, others, rfl⟩ := List.exists_cons_of_ne_nil nonempty
  refine ⟨c :: others, Cursor.dropWhile { offset, rest := c :: others ++ rest } condition, ?_, ?_⟩
  · simp only [run, Text.takeWhile_run satisfied bounded]
  · simp only [Cursor.dropWhile, Text.dropWhile_run satisfied bounded]
    exact holds

/-- A run is not read where its condition does not hold at once. -/
theorem refuses_run {condition : Char → Bool} (other : ∀ c ∈ text.head?, condition c = false) :
    (run condition).Refuses text := by
  intro offset
  have none : text.takeWhile condition = [] := by
    cases text with
    | nil => rfl
    | cons c rest => exact List.takeWhile_cons_of_neg (by simp [other c rfl])
  simp only [run, none]
  rfl

/-- Filler is read off every text. -/
theorem yields_filler {post : Unit → List Char → Prop} (holds : post () (dropFiller text)) :
    filler.Yields text post := by
  intro offset
  refine ⟨(), _, rfl, ?_⟩
  rw [rest_skipFiller]
  exact holds

/-- Filler before a phrase. -/
theorem Yields.after_filler {post : α → List Char → Prop}
    (yields : phrase.Yields (dropFiller text) post) :
    (do filler; phrase : Phrase α).Yields text post := by
  have skipped : filler.Yields text fun _ rest => rest = dropFiller text := yields_filler rfl
  refine skipped.bind ?_
  rintro _ _ rfl
  exact yields

/-- A phrase after filler fails where it fails on what the filler leaves. -/
theorem Refuses.after_filler (refuses : phrase.Refuses (dropFiller text)) :
    (do filler; phrase : Phrase α).Refuses text := by
  have skipped : filler.Yields text fun _ rest => rest = dropFiller text := yields_filler rfl
  refine skipped.bind_refuses ?_
  rintro _ _ rfl
  exact refuses

/-- A phrase after a fixed word and filler. -/
theorem Yields.after_literal {post : α → List Char → Prop} (word : List Char) {rest : List Char}
    (yields : phrase.Yields rest post) :
    (do literal word; phrase : Phrase α).Yields (word ++ rest) post := by
  have read : (literal word).Yields (word ++ rest) fun _ left => left = rest :=
    yields_literal word rfl
  refine read.bind ?_
  rintro _ _ rfl
  exact yields

/-! ## Repetition -/

section Repetition

variable {limit : Nat} {invariant : List β → List Char → Prop} {holds : β → α → Prop}

/-- A repetition reads item after item while the invariant holds, after the values that it has
already. -/
theorem yields_manyFrom
    (step : ∀ item items text, invariant (item :: items) text →
      phrase.Yields (dropFiller text) fun value rest => holds item value ∧ invariant items rest)
    (stop : ∀ text, invariant [] text → phrase.Refuses (dropFiller text))
    {items : List β} (current : invariant items text) (fuel : Nat) (enough : items.length ≤ fuel)
    (furthest offset : Nat) (done : List α) :
    ∃ values place,
      (manyFrom phrase fuel furthest done { offset, rest := text }).result =
        some (done.reverse ++ values, place) ∧
      List.Forall₂ holds items values ∧ invariant [] place.rest := by
  -- The items that are left decide when the repetition ends, and the fuel only has to last.
  induction items generalizing text fuel furthest offset done with
  | nil =>
      refine ⟨[], { offset, rest := text }, ?_, .nil, current⟩
      cases fuel with
      | zero => simp [manyFrom]
      | succ fuel =>
          have refused := stop text current (Cursor.skipFiller { offset, rest := text }).offset
          rw [← rest_skipFiller { offset, rest := text }] at refused
          simp only [manyFrom, List.append_nil]
          rw [refused]
  | cons item items ih =>
      obtain ⟨fuel, rfl⟩ : ∃ more, fuel = more + 1 :=
        ⟨fuel - 1, by rw [List.length_cons] at enough; omega⟩
      obtain ⟨value, place, taken, holdsItem, next⟩ :=
        step item items text current (Cursor.skipFiller { offset, rest := text }).offset
      rw [← rest_skipFiller { offset, rest := text }] at taken
      rw [List.length_cons] at enough
      obtain ⟨values, last, rest, related, final⟩ := ih next fuel (by omega)
        (max furthest (phrase (Cursor.skipFiller { offset, rest := text })).furthest) place.offset
        (value :: done)
      refine ⟨value :: values, last, ?_, .cons holdsItem related, final⟩
      simp only [manyFrom]
      rw [taken]
      simpa using rest

/-- A phrase is repeated as long as items remain. The invariant relates the items that remain to the
text that is left; with no items left, the phrase has to refuse. -/
theorem yields_many
    (step : ∀ item items text, invariant (item :: items) text →
      phrase.Yields (dropFiller text) fun value rest => holds item value ∧ invariant items rest)
    (stop : ∀ text, invariant [] text → phrase.Refuses (dropFiller text))
    {items : List β} (current : invariant items text) (enough : items.length ≤ limit) :
    (many limit phrase).Yields text fun values rest =>
      List.Forall₂ holds items values ∧ invariant [] rest := by
  intro offset
  exact yields_manyFrom step stop current limit enough 0 offset []

/-- A repetition whose readings shorten the text comes to a text where the phrase fails. -/
theorem yields_manyFrom_until {valid last : List Char → Prop}
    (step : ∀ text, valid text → (phrase.Refuses (dropFiller text) ∧ last text) ∨
      phrase.Yields (dropFiller text) fun _ rest => valid rest ∧ rest.length < text.length)
    (current : valid text) (fuel : Nat) (enough : text.length ≤ fuel)
    (furthest offset : Nat) (done : List α) :
    ∃ values place,
      (manyFrom phrase fuel furthest done { offset, rest := text }).result =
        some (values, place) ∧ last place.rest := by
  induction fuel generalizing text furthest offset done with
  | zero =>
      -- Without fuel no text is left, and a reading would have to shorten it.
      rcases step text current with ⟨-, final⟩ | yields
      · exact ⟨done.reverse, { offset, rest := text }, rfl, final⟩
      · obtain ⟨_, _, -, -, shorter⟩ := yields 0
        omega
  | succ fuel ih =>
      simp only [manyFrom]
      rcases step text current with ⟨refuses, final⟩ | yields
      · have refused := refuses (Cursor.skipFiller { offset, rest := text }).offset
        rw [← rest_skipFiller { offset, rest := text }] at refused
        rw [refused]
        exact ⟨done.reverse, { offset, rest := text }, rfl, final⟩
      · obtain ⟨value, place, taken, next, shorter⟩ :=
          yields (Cursor.skipFiller { offset, rest := text }).offset
        rw [← rest_skipFiller { offset, rest := text }] at taken
        rw [taken]
        exact ih next (by omega) _ place.offset (value :: done)

/-- A phrase is repeated until it refuses, where every reading makes the text shorter. -/
theorem yields_many_until {valid last : List Char → Prop}
    (step : ∀ text, valid text → (phrase.Refuses (dropFiller text) ∧ last text) ∨
      phrase.Yields (dropFiller text) fun _ rest => valid rest ∧ rest.length < text.length)
    (current : valid text) (enough : text.length ≤ limit) :
    (many limit phrase).Yields text fun _ rest => last rest := by
  intro offset
  exact yields_manyFrom_until step current limit enough 0 offset []

end Repetition

end Phrase

end TapeMachine.Listing
