import TapeMachine.Proofs.Json.Forms
import TapeMachine.Json.Strings

/-!
# Strings are read from every form

A kept string is read from each of its forms. Among all strings, those without a value are refused:
half of a surrogate pair without the other means nothing.
-/

namespace TapeMachine.Json

open scoped Computability

variable {c : Char} {unit : Nat} {form : List Char}

/-- Every character takes at least one octet. -/
theorem hasOctets_of_le_length {count : Nat} {text : List Char} (enough : count ≤ text.length) :
    hasOctets count text := by
  induction text generalizing count with
  | nil => simpa [hasOctets] using enough
  | cons c text ih =>
      have size := c.utf8Size_pos
      rw [List.length_cons] at enough
      simp only [hasOctets, Bool.or_eq_true]
      exact Or.inr (ih (by omega))

/-- A hexadecimal digit is read as its value. -/
theorem hexValue?_of_isHexDigit {value : Nat} (isDigit : Form.IsHexDigit c value) :
    hexValue? c = some value := by
  have known : ∀ digit ∈ "0123456789abcdef".toList.zipIdx ++ "0123456789ABCDEF".toList.zipIdx,
      hexValue? digit.1 = some digit.2 := by
    decide
  refine known (c, value) (List.mem_append.mpr ?_)
  rcases isDigit with lower | upper
  · exact .inl (List.mem_zipIdx_iff_getElem?.mpr lower)
  · exact .inr (List.mem_zipIdx_iff_getElem?.mpr upper)

/-- A letter after a backslash is read as the character that it stands for. -/
theorem letterEscape?_of_mem {letter : Char} (known : (letter, c) ∈ Form.letters) :
    letter ≠ 'u' ∧ letterEscape? letter = some c := by
  have all : ∀ pair ∈ Form.letters, pair.1 ≠ 'u' ∧ letterEscape? pair.1 = some pair.2 := by decide
  exact all (letter, c) known

/-- How a kept string goes on after a code unit. -/
def afterUnit (done rest : List Char) : UnitMeaning → Except Error (List Char × List Char)
  | .char c => readStringFrom .plain (c :: done) rest
  | .leading unit => readStringFrom (.pairBackslash unit) done rest
  | .lone => .error .loneSurrogate

/-- The escape of a code unit is read, first of a pair or second. -/
theorem readStringFrom_unit (isUnit : form ∈ Form.codeUnit unit) (done rest : List Char) :
    readStringFrom .plain done (form ++ rest) = afterUnit done rest (unitMeaning none unit) ∧
      ∀ leading, readStringFrom (.pairBackslash leading) done (form ++ rest) =
        afterUnit done rest (unitMeaning (some leading) unit) := by
  obtain ⟨first, second, third, fourth, rfl, isFirst, isSecond, isThird, isFourth⟩ := isUnit
  have room : hasOctets 4 (first :: second :: third :: fourth :: rest) :=
    hasOctets_of_le_length (by simp)
  have value : (((0 * 16 + unit / 0x1000) * 16 + unit / 0x100 % 0x10) * 16 +
      unit / 0x10 % 0x10) * 16 + unit % 0x10 = unit := by
    omega
  have digits (leading : Option Nat) : readStringFrom (.digits leading 3 0) done
      (first :: second :: third :: fourth :: rest) = afterUnit done rest
        (unitMeaning leading unit) := by
    simp only [readStringFrom, hexValue?_of_isHexDigit isFirst, hexValue?_of_isHexDigit isSecond,
      hexValue?_of_isHexDigit isThird, hexValue?_of_isHexDigit isFourth, value]
    cases unitMeaning leading unit <;> rfl
  exact ⟨(if_pos room).trans (digits none), fun leading => (if_pos room).trans (digits leading)⟩

/-- No character is half of a pair. -/
theorem toNat_lt_or_lt (c : Char) : c.toNat < 0xd800 ∨ 0xdfff < c.toNat := by
  rcases c.valid with low | ⟨high, -⟩
  · exact .inl low
  · exact .inr high

/-- Characters have code points of at most 21 bits. -/
theorem toNat_lt (c : Char) : c.toNat < 0x110000 := by
  rcases c.valid with low | ⟨-, high⟩
  · exact low.trans (by decide)
  · exact high

/-- A code unit that is not half of a pair means the character with its number. -/
theorem unitMeaning_none (alone : unit < 0xd800 ∨ 0xdfff < unit) :
    unitMeaning none unit = .char (Char.ofNat unit) := by
  have trailing : isTrailingHalf unit = false := by
    simp only [isTrailingHalf, Bool.and_eq_false_iff, decide_eq_false_iff_not]
    omega
  have leading : isLeadingHalf unit = false := by
    simp only [isLeadingHalf, Bool.and_eq_false_iff, decide_eq_false_iff_not]
    omega
  simp [unitMeaning, trailing, leading]

/-- The first half of a pair waits for the second. -/
theorem unitMeaning_leading (least : 0xd800 ≤ unit) (most : unit ≤ 0xdbff) :
    unitMeaning none unit = .leading unit := by
  have trailing : isTrailingHalf unit = false := by
    simp only [isTrailingHalf, Bool.and_eq_false_iff, decide_eq_false_iff_not]
    omega
  simp [unitMeaning, trailing, isLeadingHalf, least, most]

/-- The second half of a pair completes the character. -/
theorem unitMeaning_trailing {leading : Nat} (least : 0xdc00 ≤ unit) (most : unit ≤ 0xdfff) :
    unitMeaning (some leading) unit = .char (pairedChar leading unit) := by
  simp [unitMeaning, isTrailingHalf, least, most]

/-- The second half of a pair means nothing on its own. -/
theorem unitMeaning_lone (least : 0xdc00 ≤ unit) (most : unit ≤ 0xdfff) :
    unitMeaning none unit = .lone := by
  simp [unitMeaning, isTrailingHalf, least, most]

/-- A character is read from each of its forms. -/
theorem readStringFrom_character (isForm : form ∈ Form.character c) (done rest : List Char) :
    readStringFrom .plain done (form ++ rest) = readStringFrom .plain (c :: done) rest := by
  rcases isForm with (⟨rfl, quote, backslash, visible⟩ | ⟨letter, known, rfl⟩) | coded
  · have visible : ¬ c.toNat < 0x20 := Nat.not_lt.mpr visible
    simp [readStringFrom, quote, backslash, visible]
  · obtain ⟨other, escaped⟩ := letterEscape?_of_mem known
    simp [readStringFrom, other, escaped]
  · rw [Form.coded] at coded
    split at coded
    case isTrue =>
      rw [(readStringFrom_unit coded done rest).1, unitMeaning_none (toNat_lt_or_lt c),
        Char.ofNat_toNat]
      rfl
    case isFalse large =>
      have bound := toNat_lt c
      obtain ⟨first, isFirst, second, isSecond, rfl⟩ := Language.mem_mul.mp coded
      have pair : pairedChar (0xd800 + (c.toNat - 0x10000) / 0x400)
          (0xdc00 + (c.toNat - 0x10000) % 0x400) = c := by
        rw [pairedChar]
        convert Char.ofNat_toNat c using 2
        omega
      rw [List.append_assoc, (readStringFrom_unit isFirst done _).1,
        unitMeaning_leading (by omega) (by omega), afterUnit,
        (readStringFrom_unit isSecond done rest).2,
        unitMeaning_trailing (by omega) (by omega), pair]
      rfl

/-- Characters are read from their forms one after the other. -/
theorem readStringFrom_characters {chars : List Char}
    (isForm : form ∈ (chars.map Form.character).prod) (done rest : List Char) :
    readStringFrom .plain done (form ++ rest) =
      readStringFrom .plain (chars.reverse ++ done) rest := by
  induction chars generalizing form done with
  | nil =>
      obtain rfl : form = [] := isForm
      rfl
  | cons c chars ih =>
      rw [List.map_cons, List.prod_cons] at isForm
      obtain ⟨first, isFirst, others, isOthers, rfl⟩ := Language.mem_mul.mp isForm
      rw [List.append_assoc, readStringFrom_character isFirst, ih isOthers]
      simp

/-- A string is read from each of its forms, from behind its first quote. -/
theorem readString_of_mem {value : String} (isForm : form ∈ Form.string value) :
    ∃ body, form = '"' :: body ∧ ∀ rest, readString (body ++ rest) = .ok (value, rest) := by
  obtain ⟨opened, isOpened, _, rfl, rfl⟩ := Language.mem_mul.mp isForm
  obtain ⟨_, rfl, body, isBody, rfl⟩ := Language.mem_mul.mp isOpened
  refine ⟨body ++ ['"'], by simp, fun rest => ?_⟩
  have read : readStringFrom .plain [] (body ++ '"' :: rest) = .ok (value.toList, rest) := by
    rw [readStringFrom_characters isBody]
    simp [readStringFrom]
  rw [List.append_assoc, List.singleton_append, readString, read]
  simp [bind, Except.bind, pure, Except.pure]

/-! ## Strings without a value -/

/-- The rest of a string has characters, or it is refused. -/
def SpelledOrRefused (form : List Char) : Prop :=
  (∃ chars : List Char, form ∈ (chars.map Form.character).prod) ∨
    ∀ done rest, ∃ error, readStringFrom .plain done (form ++ '"' :: rest) = .error error

/-- A character before a text that is spelled or refused does not change which of both it is. -/
theorem SpelledOrRefused.append {later : List Char} (isFirst : form ∈ Form.character c)
    (outcome : SpelledOrRefused later) : SpelledOrRefused (form ++ later) := by
  rcases outcome with ⟨chars, isLater⟩ | refused
  · refine .inl ⟨c :: chars, ?_⟩
    rw [List.map_cons, List.prod_cons]
    exact Language.append_mem_mul isFirst isLater
  · refine .inr fun done rest => ?_
    rw [List.append_assoc, readStringFrom_character isFirst]
    exact refused _ rest

/-- A valid code point is the one of its character. -/
theorem toNat_ofNat {number : Nat} (valid : number.isValidChar) :
    (Char.ofNat number).toNat = number := by
  rw [Char.ofNat, dif_pos valid]
  rfl

/-- A code unit has 16 bits. -/
theorem lt_of_mem_codeUnit (isUnit : form ∈ Form.codeUnit unit) : unit < 0x10000 := by
  obtain ⟨first, -, -, -, -, isFirst, -⟩ := isUnit
  have known : unit / 0x1000 < 16 := by
    rcases isFirst with lower | upper
    · exact (List.getElem?_eq_some_iff.mp lower).1
    · exact (List.getElem?_eq_some_iff.mp upper).1
  omega

/-- A code unit that is not half of a pair is the form of a character. -/
theorem mem_character_of_codeUnit (isUnit : form ∈ Form.codeUnit unit)
    (alone : unit < 0xd800 ∨ 0xdfff < unit) : form ∈ Form.character (Char.ofNat unit) := by
  have small := lt_of_mem_codeUnit isUnit
  have same : (Char.ofNat unit).toNat = unit :=
    toNat_ofNat (alone.imp id fun high => ⟨high, small.trans (by decide)⟩)
  refine .inr ?_
  rw [Form.coded, same, if_pos small]
  exact isUnit

/-- A pair of code units is the form of a character. -/
theorem mem_character_of_pair {leading : Nat} {other : List Char}
    (isLeading : form ∈ Form.codeUnit leading) (isTrailing : other ∈ Form.codeUnit unit)
    (leadingHalf : 0xd800 ≤ leading ∧ leading ≤ 0xdbff)
    (trailingHalf : 0xdc00 ≤ unit ∧ unit ≤ 0xdfff) :
    form ++ other ∈ Form.character (pairedChar leading unit) := by
  have same : (pairedChar leading unit).toNat =
      (leading - 0xd800) * 0x400 + (unit - 0xdc00) + 0x10000 :=
    toNat_ofNat (.inr ⟨by omega, by omega⟩)
  have first : 0xd800 + ((pairedChar leading unit).toNat - 0x10000) / 0x400 = leading := by omega
  have second : 0xdc00 + ((pairedChar leading unit).toNat - 0x10000) % 0x400 = unit := by omega
  refine .inr ?_
  rw [Form.coded, first, second, if_neg (by omega)]
  exact Language.append_mem_mul isLeading isTrailing

/-- The first half of a pair is refused with what follows it, unless that is the second half. -/
theorem SpelledOrRefused.of_leading {later : List Char} (isUnit : form ∈ Form.codeUnit unit)
    (leadingHalf : 0xd800 ≤ unit ∧ unit ≤ 0xdbff)
    (refused : ∀ done rest, ∃ error,
      readStringFrom (.pairBackslash unit) done (later ++ '"' :: rest) = .error error) :
    SpelledOrRefused (form ++ later) := by
  refine .inr fun done rest => ?_
  rw [List.append_assoc, (readStringFrom_unit isUnit done _).1,
    unitMeaning_leading leadingHalf.1 leadingHalf.2]
  exact refused done rest

/-- What follows the first half of a pair is refused, unless it is the second half. -/
theorem refused_of_element {leading : Nat} {later : List Char} (isElement : form ∈ Form.element)
    (other : ∀ unit, form ∈ Form.codeUnit unit → ¬ (0xdc00 ≤ unit ∧ unit ≤ 0xdfff))
    (done rest : List Char) :
    ∃ error, readStringFrom (.pairBackslash leading) done (form ++ later ++ '"' :: rest) =
      .error error := by
  rcases isElement with ⟨c, ⟨rfl, -, backslash, -⟩ | ⟨letter, known, rfl⟩⟩ | ⟨unit, isUnit⟩
  · exact ⟨.unfinishedSurrogate, if_neg backslash⟩
  · exact ⟨.unfinishedSurrogate, if_neg (letterEscape?_of_mem known).1⟩
  · have half := other unit isUnit
    have lone : unitMeaning (some leading) unit = .lone := by
      simp [unitMeaning, isTrailingHalf, half]
    refine ⟨.loneSurrogate, ?_⟩
    rw [List.append_assoc, (readStringFrom_unit isUnit done _).2, lone]
    rfl

/-- What consists of elements has characters, or it is refused. -/
theorem spelledOrRefused {elements : List (List Char)}
    (all : ∀ element ∈ elements, element ∈ Form.element) :
    SpelledOrRefused elements.flatten := by
  -- A pair takes two elements at once.
  induction size : elements.length using Nat.strong_induction_on generalizing elements with
  | _ _ ih =>
      cases elements with
      | nil => exact .inl ⟨[], rfl⟩
      | cons element others =>
          obtain ⟨isElement, isOthers⟩ := List.forall_mem_cons.mp all
          have later := ih others.length (by simp [← size]) isOthers rfl
          rw [List.flatten_cons]
          rcases isElement with ⟨c, isPlain | isLettered⟩ | ⟨unit, isUnit⟩
          · exact later.append (.inl (.inl isPlain))
          · exact later.append (.inl (.inr isLettered))
          · by_cases alone : unit < 0xd800 ∨ 0xdfff < unit
            · exact later.append (mem_character_of_codeUnit isUnit alone)
            by_cases trailing : 0xdc00 ≤ unit
            · refine .inr fun done rest => ⟨.loneSurrogate, ?_⟩
              rw [List.append_assoc, (readStringFrom_unit isUnit done _).1,
                unitMeaning_lone trailing (by omega)]
              rfl
            cases others with
            | nil =>
                exact .of_leading isUnit (by omega) fun done rest =>
                  ⟨.unfinishedSurrogate, rfl⟩
            | cons next others =>
                obtain ⟨isNext, isOthers⟩ := List.forall_mem_cons.mp isOthers
                rw [List.flatten_cons]
                by_cases pair : ∃ other, next ∈ Form.codeUnit other ∧
                    0xdc00 ≤ other ∧ other ≤ 0xdfff
                · obtain ⟨other, isOther, half⟩ := pair
                  have shorter : others.length < (element :: next :: others).length :=
                    Nat.lt_succ_of_lt (Nat.lt_succ_self _)
                  have last := ih others.length (size ▸ shorter) isOthers rfl
                  rw [← List.append_assoc]
                  exact last.append (mem_character_of_pair isUnit isOther (by omega) half)
                · refine .of_leading isUnit (by omega) (refused_of_element isNext ?_)
                  intro other isOther half
                  exact pair ⟨other, isOther, half⟩

/-- A string has a value, or it is refused. -/
theorem exists_value_or_refused (isString : form ∈ Form.anyString) :
    (∃ value, form ∈ Form.string value) ∨
      ∃ body, form = '"' :: body ∧ ∀ rest, ∃ error, readString (body ++ rest) = .error error := by
  obtain ⟨opened, isOpened, _, rfl, rfl⟩ := Language.mem_mul.mp isString
  obtain ⟨_, rfl, body, isBody, rfl⟩ := Language.mem_mul.mp isOpened
  obtain ⟨elements, rfl, all⟩ := Language.mem_kstar.mp isBody
  rcases spelledOrRefused all with ⟨chars, isForm⟩ | refused
  · refine .inl ⟨String.ofList chars, ?_⟩
    rw [Form.string, String.toList_ofList]
    exact Language.append_mem_mul (Language.append_mem_mul rfl isForm) rfl
  · refine .inr ⟨elements.flatten ++ ['"'], by simp, fun rest => ?_⟩
    obtain ⟨error, failed⟩ := refused [] rest
    refine ⟨error, ?_⟩
    rw [List.append_assoc, List.singleton_append, readString, failed]
    rfl

/-! ## Strings with a value -/

/-- An element alone is a sequence of elements. -/
theorem mem_elements (isElement : form ∈ Form.element) : form ∈ Form.element∗ := by
  rw [Language.mem_kstar]
  exact ⟨[form], by simp, by simpa using isElement⟩

/-- Every form of a character is made of elements. -/
theorem mem_elements_of_mem_character {c : Char} (isForm : form ∈ Form.character c) :
    form ∈ Form.element∗ := by
  rcases isForm with (isPlain | isLettered) | isCoded
  · exact mem_elements (.inl ⟨c, .inl isPlain⟩)
  · exact mem_elements (.inl ⟨c, .inr isLettered⟩)
  · rw [Form.coded] at isCoded
    split at isCoded
    · exact mem_elements (.inr ⟨_, isCoded⟩)
    · obtain ⟨first, isFirst, second, isSecond, rfl⟩ := Language.mem_mul.mp isCoded
      rw [← kstar_mul_kstar]
      exact Language.append_mem_mul (mem_elements (.inr ⟨_, isFirst⟩))
        (mem_elements (.inr ⟨_, isSecond⟩))

/-- Every form of a text is made of elements. -/
theorem mem_elements_of_mem_characters {chars : List Char}
    (isForm : form ∈ (chars.map Form.character).prod) : form ∈ Form.element∗ := by
  induction chars generalizing form with
  | nil =>
      obtain rfl : form = [] := isForm
      exact Language.nil_mem_kstar _
  | cons c chars ih =>
      rw [List.map_cons, List.prod_cons] at isForm
      obtain ⟨first, isFirst, others, isOthers, rfl⟩ := Language.mem_mul.mp isForm
      rw [← kstar_mul_kstar]
      exact Language.append_mem_mul (mem_elements_of_mem_character isFirst) (ih isOthers)

/-- What has a value is a string. -/
theorem mem_anyString_of_mem_string {value : String} (isForm : form ∈ Form.string value) :
    form ∈ Form.anyString := by
  obtain ⟨_, opened, _, rfl, rfl⟩ := Language.mem_mul.mp isForm
  obtain ⟨_, rfl, body, isBody, rfl⟩ := Language.mem_mul.mp opened
  exact Language.append_mem_mul
    (Language.append_mem_mul rfl (mem_elements_of_mem_characters isBody)) rfl

/-! ## Skipped strings -/

/-- An element is skipped without a look at what it stands for. -/
theorem skipStringFrom_element (isElement : form ∈ Form.element) (rest : List Char) :
    skipStringFrom .plain (form ++ rest) = skipStringFrom .plain rest := by
  rcases isElement with
    ⟨c, ⟨rfl, quote, backslash, visible⟩ | ⟨letter, known, rfl⟩⟩ | ⟨unit, isUnit⟩
  · have visible : ¬ c.toNat < 0x20 := Nat.not_lt.mpr visible
    simp [skipStringFrom, quote, backslash, visible]
  · obtain ⟨other, escaped⟩ := letterEscape?_of_mem known
    simp [skipStringFrom, other, escaped]
  · obtain ⟨first, second, third, fourth, rfl, isFirst, isSecond, isThird, isFourth⟩ := isUnit
    have room : hasOctets 4 (first :: second :: third :: fourth :: rest) :=
      hasOctets_of_le_length (by simp)
    simp [skipStringFrom, room, hexValue?_of_isHexDigit isFirst, hexValue?_of_isHexDigit isSecond,
      hexValue?_of_isHexDigit isThird, hexValue?_of_isHexDigit isFourth]

/-- Elements are skipped one after the other. -/
theorem skipStringFrom_elements {elements : List (List Char)}
    (all : ∀ element ∈ elements, element ∈ Form.element) (rest : List Char) :
    skipStringFrom .plain (elements.flatten ++ rest) = skipStringFrom .plain rest := by
  induction elements with
  | nil => rfl
  | cons element elements ih =>
      obtain ⟨isElement, isOthers⟩ := List.forall_mem_cons.mp all
      rw [List.flatten_cons, List.append_assoc, skipStringFrom_element isElement, ih isOthers]

/-- Every string can be skipped, from behind its first quote. -/
theorem skipString_of_mem (isString : form ∈ Form.anyString) :
    ∃ body, form = '"' :: body ∧ ∀ rest, skipString (body ++ rest) = .ok rest := by
  obtain ⟨opened, isOpened, _, rfl, rfl⟩ := Language.mem_mul.mp isString
  obtain ⟨_, rfl, body, isBody, rfl⟩ := Language.mem_mul.mp isOpened
  obtain ⟨elements, rfl, all⟩ := Language.mem_kstar.mp isBody
  refine ⟨elements.flatten ++ ['"'], by simp, fun rest => ?_⟩
  rw [List.append_assoc, List.singleton_append, skipString, skipStringFrom_elements all]
  rfl

end TapeMachine.Json
