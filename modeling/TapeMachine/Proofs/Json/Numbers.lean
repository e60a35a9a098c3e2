import TapeMachine.Proofs.Json.Forms
import TapeMachine.Proofs.Numerals

/-!
# Numbers

Every number is skipped up to what follows it. The reader of natural numbers takes a number without
fraction and exponent whole or refuses it, and refuses all other numbers.
-/

namespace TapeMachine.Json

variable {digits rest form part : List Char}

/-- A digit differs from every character that is none. -/
theorem ne_of_isDigit {c other : Char} (digit : c.isDigit) (noDigit : other.isDigit = false) :
    c ≠ other := by
  rintro rfl
  rw [digit] at noDigit
  cases noDigit

/-- The text does not go on with a digit. -/
def EndsDigits (text : List Char) : Prop :=
  ∀ c ∈ text.head?, c.isDigit = false

/-- Where a number may end, no digit goes on. -/
theorem Delimited.endsDigits (delimited : Delimited rest) : EndsDigits rest :=
  fun c first => (delimited c first).1

/-- Where digits end, the next character is none. -/
theorem EndsDigits.head?_any (ends : EndsDigits rest) : rest.head?.any Char.isDigit = false := by
  cases rest with
  | nil => rfl
  | cons c rest => exact ends c rfl

/-- Digits start with a digit. -/
theorem head?_any_digits (isDigits : digits ∈ Form.digits) (rest : List Char) :
    (digits ++ rest).head?.any Char.isDigit := by
  obtain ⟨nonempty, all⟩ := isDigits
  cases digits with
  | nil => exact absurd rfl nonempty
  | cons digit digits => simpa using all digit List.mem_cons_self

/-- The forms of what follows the digits of a number. -/
theorem exists_of_mem_exponent (isPart : part ∈ Form.exponent) :
    part = [] ∨ ∃ mark sign digits, isExponentMark mark ∧
      (sign = [] ∨ sign = ['+'] ∨ sign = ['-']) ∧ digits ∈ Form.digits ∧
      part = mark :: (sign ++ digits) := by
  rcases isPart with none | some
  · exact .inl none
  · obtain ⟨_, marked, digits, isDigits, rfl⟩ := Language.mem_mul.mp some
    obtain ⟨mark, isMark, sign, isSign, rfl⟩ := Language.mem_mul.mp marked
    refine .inr ?_
    rcases isMark with rfl | rfl
    · exact ⟨'e', sign, digits, by decide, isSign, isDigits, by simp⟩
    · exact ⟨'E', sign, digits, by decide, isSign, isDigits, by simp⟩

/-- A fraction is empty or a point with digits. -/
theorem exists_of_mem_fraction (isPart : part ∈ Form.fraction) :
    part = [] ∨ ∃ digits ∈ Form.digits, part = '.' :: digits := by
  rcases isPart with none | some
  · exact .inl none
  · obtain ⟨_, rfl, digits, isDigits, rfl⟩ := Language.mem_mul.mp some
    exact .inr ⟨digits, isDigits, rfl⟩

/-- The mark of an exponent is neither a digit nor a point. -/
theorem isDigit_of_isExponentMark {mark : Char} (isMark : isExponentMark mark) :
    mark.isDigit = false ∧ mark ≠ '.' := by
  simp only [isExponentMark, Bool.or_eq_true, beq_iff_eq] at isMark
  rcases isMark with rfl | rfl <;> decide

/-- An exponent continues neither the digits nor the fraction before it. -/
theorem head?_exponent (isPart : part ∈ Form.exponent) (delimited : Delimited rest) :
    ∀ c ∈ (part ++ rest).head?, c.isDigit = false ∧ c ≠ '.' := by
  rcases exists_of_mem_exponent isPart with rfl | ⟨mark, sign, digits, isMark, -, -, rfl⟩
  · intro c first
    obtain ⟨noDigit, noPoint, -⟩ := delimited c first
    exact ⟨noDigit, noPoint⟩
  · rintro c ⟨⟩
    exact isDigit_of_isExponentMark isMark

/-- An exponent ends the digits before it. -/
theorem endsDigits_exponent (isPart : part ∈ Form.exponent) (delimited : Delimited rest) :
    EndsDigits (part ++ rest) :=
  fun c first => (head?_exponent isPart delimited c first).1

/-- A fraction or an exponent ends the digits before it. -/
theorem endsDigits_part (isPart : part ∈ Form.fraction * Form.exponent)
    (delimited : Delimited rest) : EndsDigits (part ++ rest) := by
  obtain ⟨fraction, isFraction, exponent, isExponent, rfl⟩ := Language.mem_mul.mp isPart
  rcases exists_of_mem_fraction isFraction with rfl | ⟨digits, -, rfl⟩
  · exact endsDigits_exponent isExponent delimited
  · rintro c ⟨⟩
    decide

/-! ## Skipping -/

/-- The digits of an exponent are skipped with their sign. -/
theorem skipExponent_digits {sign : List Char} (isSign : sign = [] ∨ sign = ['+'] ∨ sign = ['-'])
    (isDigits : digits ∈ Form.digits) (ends : EndsDigits rest) :
    skipExponent (sign ++ (digits ++ rest)) = .ok rest := by
  have starts := head?_any_digits isDigits rest
  have left : (digits ++ rest).dropWhile Char.isDigit = rest :=
    Text.dropWhile_run isDigits.2 ends
  have skips : skipExponent (sign ++ (digits ++ rest)) =
      if (digits ++ rest).head?.any Char.isDigit then
        .ok ((digits ++ rest).dropWhile Char.isDigit) else .error .invalidNumber := by
    rcases isSign with rfl | rfl | rfl
    · rw [List.nil_append, skipExponent]
      · intro others signed
        simp [signed] at starts
      · intro others signed
        simp [signed] at starts
    · rfl
    · rfl
  rw [skips, if_pos starts, left]

/-- Skip what follows the last digits of a number without exponent. -/
def skipExponentPart (text : List Char) : Except Error (List Char) :=
  match text with
  | mark :: rest => if isExponentMark mark then skipExponent rest else .ok text
  | [] => .ok []

/-- An exponent is skipped, if there is one. -/
theorem skipExponentPart_of_mem (isPart : part ∈ Form.exponent) (delimited : Delimited rest) :
    skipExponentPart (part ++ rest) = .ok rest := by
  rcases exists_of_mem_exponent isPart with
    rfl | ⟨mark, sign, digits, isMark, isSign, isDigits, rfl⟩
  · cases rest with
    | nil => rfl
    | cons c rest =>
        have noMark := (delimited c rfl).2.2
        simp [skipExponentPart, noMark]
  · have skips := skipExponent_digits isSign isDigits delimited.endsDigits
    simpa [skipExponentPart, isMark] using skips

/-- The fraction and the exponent of a number are skipped. -/
theorem skipNumberEnd_of_mem (isPart : part ∈ Form.fraction * Form.exponent)
    (delimited : Delimited rest) : skipNumberEnd (part ++ rest) = .ok rest := by
  obtain ⟨fraction, isFraction, exponent, isExponent, rfl⟩ := Language.mem_mul.mp isPart
  have skips := skipExponentPart_of_mem isExponent delimited
  rw [List.append_assoc]
  rcases exists_of_mem_fraction isFraction with rfl | ⟨digits, isDigits, rfl⟩
  · have noPoint := head?_exponent isExponent delimited
    rw [← skips, List.nil_append]
    cases following : exponent ++ rest with
    | nil => rfl
    | cons c others =>
        rw [skipNumberEnd]
        · rfl
        · intro point
          exact (noPoint c (by simp [following])).2 point
  · have starts := head?_any_digits isDigits (exponent ++ rest)
    have left : (digits ++ (exponent ++ rest)).dropWhile Char.isDigit = exponent ++ rest :=
      Text.dropWhile_run isDigits.2 (endsDigits_exponent isExponent delimited)
    rw [List.cons_append, skipNumberEnd, if_pos starts, left, ← skips]
    cases exponent ++ rest <;> rfl

/-- The sign, the digits and the rest of a number. -/
theorem exists_of_mem_number (isNumber : form ∈ Form.number) :
    ∃ sign whole part, (sign = [] ∨ sign = ['-']) ∧ whole ∈ Form.whole ∧
      part ∈ Form.fraction * Form.exponent ∧ form = sign ++ (whole ++ part) := by
  obtain ⟨_, unsigned, part, isPart, rfl⟩ := Language.mem_mul.mp isNumber
  obtain ⟨sign, isSign, whole, isWhole, rfl⟩ := Language.mem_mul.mp unsigned
  exact ⟨sign, whole, part, isSign, isWhole, isPart, by simp⟩

/-- The whole part of a number has digits, without a leading zero. -/
theorem exists_of_mem_whole {whole : List Char} (isWhole : whole ∈ Form.whole) :
    ∃ digit digits, whole = digit :: digits ∧ (∀ c ∈ whole, c.isDigit) ∧
      (digit = '0' → digits = []) := by
  rcases isWhole with rfl | ⟨⟨nonempty, all⟩, leading⟩
  · exact ⟨'0', [], rfl, by simp, fun _ => rfl⟩
  · cases whole with
    | nil => exact absurd rfl nonempty
    | cons digit digits =>
        refine ⟨digit, digits, rfl, all, fun zero => ?_⟩
        exact absurd (by simp [zero]) leading

/-- A number without its sign is skipped. -/
theorem skipUnsigned_of_mem {whole : List Char} (isWhole : whole ∈ Form.whole)
    (isPart : part ∈ Form.fraction * Form.exponent) (delimited : Delimited rest) :
    skipUnsigned (whole ++ part ++ rest) = .ok rest := by
  have ends := endsDigits_part isPart delimited
  have skips := skipNumberEnd_of_mem isPart delimited
  obtain ⟨digit, digits, rfl, all, single⟩ := exists_of_mem_whole isWhole
  rw [List.append_assoc, List.cons_append]
  by_cases zero : digit = '0'
  · rw [zero, single zero, List.nil_append, skipUnsigned, ends.head?_any]
    exact skips
  · rw [skipUnsigned, if_pos (all digit List.mem_cons_self),
      Text.dropWhile_run (fun c inside => all c (List.mem_cons_of_mem _ inside)) ends]
    · exact skips
    · exact zero

/-- A number is skipped up to what follows it. -/
theorem skipNumber_of_mem (isNumber : form ∈ Form.number) (delimited : Delimited rest) :
    skipNumber (form ++ rest) = .ok rest := by
  obtain ⟨sign, whole, part, isSign, isWhole, isPart, rfl⟩ := exists_of_mem_number isNumber
  have skips := skipUnsigned_of_mem isWhole isPart delimited
  rcases isSign with rfl | rfl
  · obtain ⟨digit, digits, rfl, all, -⟩ := exists_of_mem_whole isWhole
    have unsigned := ne_of_isDigit (all digit List.mem_cons_self) (by decide : '-'.isDigit = false)
    rw [List.nil_append, skipNumber]
    · exact skips
    · intro others signed
      exact unsigned (List.cons.inj signed).1
  · exact skips

/-! ## Reading natural numbers -/

/-- The result is no natural number. -/
def NoNatural (result : Except Error (Number × List Char)) : Prop :=
  ∀ value left, result ≠ .ok (.natural value, left)

/-- A refusal gives no natural number. -/
theorem noNatural_error (error : Error) : NoNatural (.error error) := by
  rintro value left ⟨⟩

/-- A number that is read as a fraction is never a natural one. -/
theorem noNatural_finishFloat (negative : Bool) (significand : Nat) (exponent : Int)
    (text : List Char) : NoNatural (finishFloat negative significand exponent text) := by
  rw [finishFloat]
  cases scale significand exponent with
  | error error => exact noNatural_error error
  | ok value => rintro natural left ⟨⟩

/-- A number with an exponent is never a natural one. -/
theorem noNatural_readExponentDigits (negative : Bool) (significand : Nat) (exponent : Int)
    (exponentNegative : Bool) (text : List Char) :
    NoNatural (readExponentDigits negative significand exponent exponentNegative text) := by
  simp only [readExponentDigits]
  split
  · exact noNatural_error _
  · exact noNatural_error _
  · split
    · split
      · exact noNatural_error _
      · rintro natural left ⟨⟩
    · exact noNatural_finishFloat _ _ _ _

/-- A number that goes on after its digits is never a natural one. -/
theorem noNatural_readFloatEnd (negative : Bool) (significand : Nat) (exponent : Int)
    (text : List Char) : NoNatural (readFloatEnd negative significand exponent text) := by
  rw [readFloatEnd.eq_def]
  split
  · split
    · rw [readExponent.eq_def]
      split <;> exact noNatural_readExponentDigits _ _ _ _ _
    · exact noNatural_finishFloat _ _ _ _
  · exact noNatural_finishFloat _ _ _ _

/-- A number with a fraction is never a natural one. -/
theorem noNatural_readFraction (negative : Bool) (significand : Nat) (exponent : Int)
    (text : List Char) : NoNatural (readFraction negative significand exponent text) := by
  simp only [readFraction]
  split
  · exact noNatural_error _
  · exact noNatural_error _
  · exact noNatural_readFloatEnd _ _ _ _

/-- A number with fraction or exponent is no natural number. -/
theorem noNatural_readNumberEnd (isPart : part ∈ Form.fraction * Form.exponent)
    (nonempty : part ≠ []) (negative : Bool) (significand exponent : Nat) (rest : List Char) :
    NoNatural (readNumberEnd negative significand exponent (part ++ rest)) := by
  obtain ⟨fraction, isFraction, power, isPower, rfl⟩ := Language.mem_mul.mp isPart
  rcases exists_of_mem_fraction isFraction with rfl | ⟨digits, -, rfl⟩
  · rcases exists_of_mem_exponent isPower with rfl | ⟨mark, sign, digits, isMark, -, -, rfl⟩
    · exact absurd rfl nonempty
    · obtain ⟨-, noPoint⟩ := isDigit_of_isExponentMark isMark
      rw [List.nil_append, List.cons_append, readNumberEnd]
      · rw [if_neg (by simp [isMark])]
        exact noNatural_readFloatEnd _ _ _ _
      · intro others point
        exact noPoint (List.cons.inj point).1
  · exact noNatural_readFraction _ _ _ _

/-- A number without fraction and exponent ends where something follows that does not continue
it. -/
theorem readNumberEnd_delimited (delimited : Delimited rest) (negative : Bool)
    (significand exponent : Nat) :
    readNumberEnd negative significand exponent rest =
      if exponent = 0 then .ok (integerNumber negative significand, rest)
      else readFloatEnd negative significand exponent rest := by
  cases rest with
  | nil => simp [readNumberEnd]
  | cons c rest =>
      obtain ⟨-, noPoint, noMark⟩ := delimited c rfl
      rw [readNumberEnd]
      · simp [noMark]
      · intro others point
        exact noPoint (List.cons.inj point).1

/-- The digits of a number are read, up to its fraction or exponent. -/
theorem exists_readUnsigned_eq {whole : List Char} (isWhole : whole ∈ Form.whole)
    (negative : Bool) :
    ∃ significand exponent, ∀ text, EndsDigits text →
      readUnsigned negative (whole ++ text) =
        readNumberEnd negative significand exponent text := by
  obtain ⟨digit, digits, rfl, all, single⟩ := exists_of_mem_whole isWhole
  by_cases zero : digit = '0'
  · refine ⟨0, 0, fun text ends => ?_⟩
    rw [zero, single zero, List.singleton_append, readUnsigned, ends.head?_any]
    rfl
  · refine ⟨(takeDigits Text.wordLimit 0 0 (digit :: digits)).1,
      (digit :: digits).length - (takeDigits Text.wordLimit 0 0 (digit :: digits)).2,
      fun text ends => ?_⟩
    have split : spanDigits (digit :: digits ++ text) = (digit :: digits, text) := by
      rw [spanDigits, List.span_eq_takeWhile_dropWhile, Text.takeWhile_run all ends,
        Text.dropWhile_run all ends]
    rw [List.cons_append, readUnsigned, if_pos (all digit List.mem_cons_self), ← List.cons_append]
    · rw [split]
    · exact zero

/-- What is read of a number is never natural, whatever follows it, or it is the same natural number
whatever follows. -/
theorem readNumber_cases (isNumber : form ∈ Form.number) :
    (∀ rest, Delimited rest → NoNatural (readNumber (form ++ rest))) ∨
      ∃ value, ∀ rest, Delimited rest → readNumber (form ++ rest) = .ok (.natural value, rest) := by
  obtain ⟨sign, whole, part, isSign, isWhole, isPart, rfl⟩ := exists_of_mem_number isNumber
  obtain ⟨negative, reads⟩ : ∃ negative, ∀ text, readNumber (sign ++ (whole ++ text)) =
      readUnsigned negative (whole ++ text) := by
    rcases isSign with rfl | rfl
    · obtain ⟨digit, digits, rfl, all, -⟩ := exists_of_mem_whole isWhole
      refine ⟨false, fun text => ?_⟩
      rw [List.nil_append, readNumber]
      intro others signed
      exact ne_of_isDigit (all digit List.mem_cons_self) (by decide) (List.cons.inj signed).1
    · exact ⟨true, fun text => rfl⟩
  obtain ⟨significand, exponent, ends⟩ := exists_readUnsigned_eq isWhole negative
  have whole (rest : List Char) (delimited : Delimited rest) :
      readNumber (sign ++ (whole ++ part) ++ rest) =
        readNumberEnd negative significand exponent (part ++ rest) := by
    rw [List.append_assoc, List.append_assoc, reads, ends _ (endsDigits_part isPart delimited)]
  by_cases nonempty : part ≠ []
  · refine .inl fun rest delimited => ?_
    rw [whole rest delimited]
    exact noNatural_readNumberEnd isPart nonempty _ _ _ _
  · obtain rfl : part = [] := not_not.mp nonempty
    by_cases natural : exponent = 0 ∧ negative = false
    · obtain ⟨rfl, rfl⟩ := natural
      refine .inr ⟨significand, fun rest delimited => ?_⟩
      rw [whole rest delimited]
      exact readNumberEnd_delimited delimited _ _ _
    · refine .inl fun rest delimited => ?_
      rw [whole rest delimited, List.nil_append, readNumberEnd_delimited delimited]
      split
      case isTrue zero =>
        obtain rfl : negative = true := by simpa [zero] using natural
        rw [integerNumber]
        split
        · contradiction
        · split <;> rintro value left ⟨⟩
      case isFalse => exact noNatural_readFloatEnd _ _ _ _

end TapeMachine.Json
