import Mathlib.Algebra.Order.Group.Nat
import Mathlib.Data.List.TakeDrop
import TapeMachine.Json.Numbers
import TapeMachine.Proofs.Text
import TapeMachine.Text.Word

/-!
# Decimal numerals

Numbers of 64 bits are read back from their decimal numerals, both by the reader of listings
(`Text.wordOfDigits?`) and by the reader of JSON numbers (`Json.takeDigits`). Both read from the
left and refuse as soon as the value is too large, so it matters that the value never shrinks.
-/

namespace TapeMachine

/-- Reading on never makes a value smaller. -/
theorem Text.le_ofDigitChars (digits : List Char) (value : Nat) :
    value ≤ Nat.ofDigitChars 10 digits value := by
  induction digits generalizing value with
  | nil => simp
  | cons digit digits ih =>
      rw [Nat.ofDigitChars_cons]
      calc value ≤ 10 * value + (digit.toNat - 48) := by omega
        _ ≤ _ := ih _

/-- The numeral of a positive number does not start with a zero. -/
theorem Text.head?_toDigits_ne_zero {number : Nat} (positive : 0 < number) :
    (Nat.toDigits 10 number).head? ≠ some '0' := by
  induction number using Nat.strong_induction_on with
  | _ number ih =>
      by_cases small : number < 10
      · have single : ∀ digit < 10, 0 < digit → [Nat.digitChar digit].head? ≠ some '0' := by
          decide
        rw [Nat.toDigits_of_lt_base small]
        exact single number small positive
      · have leading := ih (number / 10) (by omega) (by omega)
        rw [Nat.toDigits_of_base_le (by decide) (by omega)]
        cases digits : Nat.toDigits 10 (number / 10) with
        | nil => exact absurd digits Nat.toDigits_ne_nil
        | cons digit others => simpa [digits] using leading

namespace Text

/-- Digits are appended one by one as long as the number fits. -/
theorem foldl_appendDigit (digits : List Char) (value : Nat)
    (fits : Nat.ofDigitChars 10 digits value < wordLimit) :
    digits.foldl appendDigit (some value) = some (Nat.ofDigitChars 10 digits value) := by
  induction digits generalizing value with
  | nil => simp
  | cons digit digits ih =>
      rw [Nat.ofDigitChars_cons] at fits ⊢
      have bounded := le_ofDigitChars digits (10 * value + (digit.toNat - 48))
      have next : appendDigit (some value) digit = some (10 * value + (digit.toNat - 48)) := by
        simp only [appendDigit, Option.bind_some, Nat.mul_comm value]
        exact if_pos (Nat.lt_of_le_of_lt bounded fits)
      rw [List.foldl_cons, next]
      exact ih _ fits

theorem foldl_appendDigit_none (digits : List Char) : digits.foldl appendDigit none = none := by
  induction digits with
  | nil => rfl
  | cons digit digits ih => exact ih

/-- Digits are refused as soon as their value is too large. -/
theorem foldl_appendDigit_of_le (digits : List Char) {value : Nat} (small : value < wordLimit)
    (large : wordLimit ≤ Nat.ofDigitChars 10 digits value) :
    digits.foldl appendDigit (some value) = none := by
  induction digits generalizing value with
  | nil => exact absurd small (Nat.not_lt.mpr large)
  | cons digit digits ih =>
      rw [Nat.ofDigitChars_cons] at large
      have next : appendDigit (some value) digit =
          if 10 * value + (digit.toNat - 48) < wordLimit then
            some (10 * value + (digit.toNat - 48)) else none := by
        simp only [appendDigit, Option.bind_some, Nat.mul_comm value]
      rw [List.foldl_cons, next]
      split
      case isTrue fits => exact ih fits large
      case isFalse => exact foldl_appendDigit_none digits

/-- Digits have a value exactly when it fits 64 bits. -/
theorem wordOfDigits?_eq_some {digits : List Char} {value : Nat} :
    wordOfDigits? digits = some value ↔
      Nat.ofDigitChars 10 digits 0 < wordLimit ∧ Nat.ofDigitChars 10 digits 0 = value := by
  rw [wordOfDigits?]
  by_cases fits : Nat.ofDigitChars 10 digits 0 < wordLimit
  · simp [foldl_appendDigit digits 0 fits, fits]
  · simp [foldl_appendDigit_of_le digits (by decide) (Nat.not_lt.mp fits), fits]

/-- A number of 64 bits is read back from its numeral. -/
theorem wordOfDigits?_toDigits {number : Nat} (fits : number < wordLimit) :
    wordOfDigits? (Nat.toDigits 10 number) = some number := by
  have read := foldl_appendDigit (Nat.toDigits 10 number) 0
  rw [Nat.ofDigitChars_ten_toDigits] at read
  exact read fits

theorem isDigit_of_mem_toDigits {number : Nat} {digit : Char}
    (member : digit ∈ Nat.toDigits 10 number) : digit.isDigit :=
  Nat.isDigit_of_mem_toDigits (by decide) (by decide) member

end Text

namespace Json

/-- Digits whose value stays below the limit are all used. -/
theorem takeDigits_eq {limit : Nat} (digits : List Char) (value used : Nat)
    (fits : Nat.ofDigitChars 10 digits value < limit) :
    takeDigits limit value used digits =
      (Nat.ofDigitChars 10 digits value, used + digits.length) := by
  induction digits generalizing value used with
  | nil => simp [takeDigits]
  | cons digit digits ih =>
      rw [Nat.ofDigitChars_cons] at fits ⊢
      have bounded := Text.le_ofDigitChars digits (10 * value + (digit.toNat - 48))
      have next : value * 10 + digitValue digit = 10 * value + (digit.toNat - 48) := by
        rw [Nat.mul_comm, digitValue]
      simp only [takeDigits, next]
      rw [if_pos (Nat.lt_of_le_of_lt bounded fits)]
      refine (ih _ _ fits).trans ?_
      simp only [List.length_cons, Prod.mk.injEq, true_and]
      omega

/-- What follows a number: nothing that would continue it. -/
def Delimited (rest : List Char) : Prop :=
  ∀ c ∈ rest.head?, c.isDigit = false ∧ c ≠ '.' ∧ isExponentMark c = false

theorem Delimited.head {rest : List Char} (delimited : Delimited rest) :
    rest.head?.any Char.isDigit = false := by
  cases rest with
  | nil => rfl
  | cons c rest => exact (delimited c rfl).1

/-- An integer ends where something follows that does not continue it. -/
theorem readNumberEnd_of_delimited {value : Nat} {rest : List Char}
    (delimited : Delimited rest) :
    readNumberEnd false value 0 rest = .ok (.natural value, rest) := by
  cases rest with
  | nil => rfl
  | cons c rest =>
      obtain ⟨-, point, mark⟩ := delimited c rfl
      rw [readNumberEnd]
      · simp [integerNumber, mark]
      · rintro _ same
        exact point (List.cons.inj same).1

/-- The digits before something that does not continue a number. -/
theorem spanDigits_append {digits rest : List Char} (isDigit : ∀ digit ∈ digits, digit.isDigit)
    (delimited : Delimited rest) : spanDigits (digits ++ rest) = (digits, rest) := by
  have bounded : ∀ c ∈ rest.head?, c.isDigit = false := fun c first => (delimited c first).1
  rw [spanDigits, List.span_eq_takeWhile_dropWhile, Text.takeWhile_run isDigit bounded,
    Text.dropWhile_run isDigit bounded]

/-- A number of 64 bits is read back from its numeral. -/
theorem readNumber_toDigits {number : Nat} (fits : number < Text.wordLimit) {rest : List Char}
    (delimited : Delimited rest) :
    readNumber (Nat.toDigits 10 number ++ rest) = .ok (.natural number, rest) := by
  by_cases zero : number = 0
  · subst zero
    have first : readNumber ('0' :: rest) = readUnsigned false ('0' :: rest) := rfl
    rw [Nat.toDigits_zero, List.singleton_append, first, readUnsigned, delimited.head]
    exact readNumberEnd_of_delimited delimited
  · have leading := Text.head?_toDigits_ne_zero (Nat.pos_of_ne_zero zero)
    have value : takeDigits Text.wordLimit 0 0 (Nat.toDigits 10 number) =
        (number, (Nat.toDigits 10 number).length) := by
      have taken := @takeDigits_eq Text.wordLimit (Nat.toDigits 10 number) 0 0
      rw [Nat.ofDigitChars_ten_toDigits, Nat.zero_add] at taken
      exact taken fits
    have split := spanDigits_append (fun digit => @Text.isDigit_of_mem_toDigits number digit)
      delimited
    cases numeral : Nat.toDigits 10 number with
    | nil => exact absurd numeral Nat.toDigits_ne_nil
    | cons digit others =>
        have isDigit : digit.isDigit :=
          Text.isDigit_of_mem_toDigits (numeral ▸ List.mem_cons_self)
        have nonzero : digit ≠ '0' := by simpa [numeral] using leading
        have unsigned : readNumber (digit :: others ++ rest) =
            readUnsigned false (digit :: others ++ rest) := by
          rw [List.cons_append, readNumber]
          rintro _ same
          rw [(List.cons.inj same).1] at isDigit
          exact absurd isDigit (by decide)
        rw [numeral] at value split
        rw [unsigned, List.cons_append, readUnsigned, if_pos isDigit, ← List.cons_append]
        · simp only [split, value, Nat.sub_self]
          exact readNumberEnd_of_delimited delimited
        · exact nonzero

end Json

end TapeMachine
