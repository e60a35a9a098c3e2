import Mathlib.Computability.Language
import TapeMachine.Document.Table

/-!
# The forms of JSON

The texts that JSON allows, as formal languages that do not mention the readers. `Form.string` is
the language of one string: every character may stand for itself or be escaped, by a letter, by its
code unit or by a pair of surrogates. `Form.IsValue` holds of all values, with strings whose
surrogates are not paired among them. Lists and objects add nothing but white space, commas, colons
and brackets to the texts of their parts, so they are languages over these texts.
-/

namespace TapeMachine.Json.Form

open scoped Computability

/-- White space between tokens. -/
def space : Language Char :=
  {text | ∀ c ∈ text, c ∈ [' ', '\n', '\t', '\r']}

/-! ## Strings -/

/-- A hexadecimal digit with its value. -/
def IsHexDigit (c : Char) (value : Nat) : Prop :=
  "0123456789abcdef".toList[value]? = some c ∨ "0123456789ABCDEF".toList[value]? = some c

/-- The escape of a code unit. -/
def codeUnit (unit : Nat) : Language Char :=
  {text | ∃ first second third fourth, text = ['\\', 'u', first, second, third, fourth] ∧
    IsHexDigit first (unit / 0x1000) ∧ IsHexDigit second (unit / 0x100 % 0x10) ∧
    IsHexDigit third (unit / 0x10 % 0x10) ∧ IsHexDigit fourth (unit % 0x10)}

/-- A character that stands for itself. -/
def plain (c : Char) : Language Char :=
  {text | text = [c] ∧ c ≠ '"' ∧ c ≠ '\\' ∧ 0x20 ≤ c.toNat}

/-- The letters of escapes with the characters they stand for. -/
def letters : List (Char × Char) :=
  [('"', '"'), ('\\', '\\'), ('/', '/'), ('b', '\x08'), ('f', '\x0c'), ('n', '\n'), ('r', '\r'),
    ('t', '\t')]

/-- A character that is escaped by a letter. -/
def lettered (c : Char) : Language Char :=
  {text | ∃ letter, (letter, c) ∈ letters ∧ text = ['\\', letter]}

/-- A character that is escaped by its code unit, or by two if it needs them. -/
def coded (c : Char) : Language Char :=
  if c.toNat < 0x10000 then codeUnit c.toNat
  else
    codeUnit (0xd800 + (c.toNat - 0x10000) / 0x400) *
      codeUnit (0xdc00 + (c.toNat - 0x10000) % 0x400)

/-- The forms of one character in a string. -/
def character (c : Char) : Language Char :=
  plain c + lettered c + coded c

/-- The forms of a string. -/
def string (value : String) : Language Char :=
  {['"']} * (value.toList.map character).prod * {['"']}

/-- What strings consist of, whether or not it has a meaning. -/
def element : Language Char :=
  {text | (∃ c, text ∈ plain c ∨ text ∈ lettered c) ∨ ∃ unit, text ∈ codeUnit unit}

/-- All strings. -/
def anyString : Language Char :=
  {['"']} * element∗ * {['"']}

/-! ## Numbers -/

/-- One or more decimal digits. -/
def digits : Language Char :=
  {text | text ≠ [] ∧ ∀ c ∈ text, c.isDigit}

/-- Digits without a needless zero in front. -/
def whole : Language Char :=
  {text | text = ['0'] ∨ text ∈ digits ∧ text.head? ≠ some '0'}

/-- The part of a number behind its point. -/
def fraction : Language Char :=
  1 + {['.']} * digits

/-- The exponent of a number. -/
def exponent : Language Char :=
  1 + {['e'], ['E']} * {[], ['+'], ['-']} * digits

/-- All numbers. -/
def number : Language Char :=
  {[], ['-']} * whole * (fraction * exponent)

/-! ## Lists and objects -/

/-- The rest of a bracket behind one of its items. -/
def rest (close : Char) : List (List Char) → Language Char
  | [] => space * {[close]}
  | item :: items => space * {[',']} * space * {item} * rest close items

/-- Items between brackets. -/
def bracket (opening close : Char) : List (List Char) → Language Char
  | [] => {[opening]} * space * {[close]}
  | item :: items => {[opening]} * space * {item} * rest close items

/-- A list of items. -/
def array (items : List (List Char)) : Language Char :=
  bracket '[' ']' items

/-- A key and a value with a colon between them. -/
def member (part : List Char × List Char) : Language Char :=
  {part.1} * space * {[':']} * space * {part.2}

/-- An object of keys and values. -/
def object (parts : List (List Char × List Char)) : Language Char :=
  {text | ∃ items, List.Forall₂ (fun item part => item ∈ member part) items parts ∧
    text ∈ bracket '\x7b' '\x7d' items}

/-- The words that are values. -/
def words : List (List Char) :=
  [['n', 'u', 'l', 'l'], ['t', 'r', 'u', 'e'], ['f', 'a', 'l', 's', 'e']]

/-- All values. -/
inductive IsValue : List Char → Prop
  | word {text : List Char} (isWord : text ∈ words) : IsValue text
  | number {text : List Char} (isNumber : text ∈ number) : IsValue text
  | string {text : List Char} (isString : text ∈ anyString) : IsValue text
  | array {items : List (List Char)} {text : List Char} (values : ∀ item ∈ items, IsValue item)
      (listed : text ∈ array items) : IsValue text
  | object {parts : List (List Char × List Char)} {text : List Char}
      (keys : ∀ part ∈ parts, part.1 ∈ anyString) (values : ∀ part ∈ parts, IsValue part.2)
      (listed : text ∈ object parts) : IsValue text

/-! ## Typed forms -/

variable {α : Type}

/-- A list of values with forms of their own. -/
def list (form : α → Language Char) (values : List α) : Language Char :=
  {text | ∃ items, List.Forall₂ (fun item value => item ∈ form value) items values ∧
    text ∈ array items}

/-- An object with the given keys, and values with forms of their own. -/
def table (form : α → Language Char) (entries : Table α) : Language Char :=
  {text | ∃ parts, List.Forall₂ (fun (part : List Char × List Char) entry =>
    part.1 ∈ string entry.1 ∧ part.2 ∈ form entry.2) parts entries ∧ text ∈ object parts}

/-! ## The parts of a bracket -/

variable {opening close : Char} {item text : List Char} {items : List (List Char)}

/-- Nothing but space stands before the bracket that closes a finished list. -/
theorem mem_rest_nil : text ∈ rest close [] ↔ ∃ before ∈ space, text = before ++ [close] := by
  simp only [rest, Language.mem_mul]
  constructor
  · rintro ⟨before, isBefore, _, rfl, rfl⟩
    exact ⟨before, isBefore, rfl⟩
  · rintro ⟨before, isBefore, rfl⟩
    exact ⟨before, isBefore, _, rfl, rfl⟩

/-- A later item follows a comma, with space around the comma. -/
theorem mem_rest_cons :
    text ∈ rest close (item :: items) ↔
      ∃ before ∈ space, ∃ behind ∈ space, ∃ later ∈ rest close items,
        text = before ++ (',' :: (behind ++ (item ++ later))) := by
  simp only [rest, mul_assoc, Language.mem_mul]
  constructor
  · rintro ⟨before, isBefore, _, ⟨_, rfl, _, ⟨behind, isBehind, _, ⟨_, rfl, later, isLater, rfl⟩,
      rfl⟩, rfl⟩, rfl⟩
    exact ⟨before, isBefore, behind, isBehind, later, isLater, rfl⟩
  · rintro ⟨before, isBefore, behind, isBehind, later, isLater, rfl⟩
    exact ⟨before, isBefore, _, ⟨_, rfl, _, ⟨behind, isBehind, _, ⟨_, rfl, later, isLater, rfl⟩,
      rfl⟩, rfl⟩, rfl⟩

/-- Nothing but space stands between the brackets of an empty list. -/
theorem mem_bracket_nil :
    text ∈ bracket opening close [] ↔ ∃ before ∈ space, text = opening :: (before ++ [close]) := by
  simp only [bracket, mul_assoc, Language.mem_mul]
  constructor
  · rintro ⟨_, rfl, _, ⟨before, isBefore, _, rfl, rfl⟩, rfl⟩
    exact ⟨before, isBefore, rfl⟩
  · rintro ⟨before, isBefore, rfl⟩
    exact ⟨_, rfl, _, ⟨before, isBefore, _, rfl, rfl⟩, rfl⟩

/-- The first item follows its bracket, maybe after space. -/
theorem mem_bracket_cons :
    text ∈ bracket opening close (item :: items) ↔
      ∃ before ∈ space, ∃ later ∈ rest close items,
        text = opening :: (before ++ (item ++ later)) := by
  simp only [bracket, mul_assoc, Language.mem_mul]
  constructor
  · rintro ⟨_, rfl, _, ⟨before, isBefore, _, ⟨_, rfl, later, isLater, rfl⟩, rfl⟩, rfl⟩
    exact ⟨before, isBefore, later, isLater, rfl⟩
  · rintro ⟨before, isBefore, later, isLater, rfl⟩
    exact ⟨_, rfl, _, ⟨before, isBefore, _, ⟨_, rfl, later, isLater, rfl⟩, rfl⟩, rfl⟩

/-- What stands in brackets starts with one. -/
theorem exists_cons_of_mem_bracket (listed : text ∈ bracket opening close items) :
    ∃ others, text = opening :: others := by
  cases items with
  | nil =>
      obtain ⟨before, -, rfl⟩ := mem_bracket_nil.mp listed
      exact ⟨_, rfl⟩
  | cons item items =>
      obtain ⟨before, -, later, -, rfl⟩ := mem_bracket_cons.mp listed
      exact ⟨_, rfl⟩

/-- A member is its key and its value with a colon between them, and space around the colon. -/
theorem mem_member {part : List Char × List Char} :
    text ∈ member part ↔ ∃ before ∈ space, ∃ behind ∈ space,
      text = part.1 ++ (before ++ (':' :: (behind ++ part.2))) := by
  simp only [member, mul_assoc, Language.mem_mul]
  constructor
  · rintro ⟨_, rfl, _, ⟨before, isBefore, _, ⟨_, rfl, _, ⟨behind, isBehind, _, rfl, rfl⟩, rfl⟩,
      rfl⟩, rfl⟩
    exact ⟨before, isBefore, behind, isBehind, rfl⟩
  · rintro ⟨before, isBefore, behind, isBehind, rfl⟩
    exact ⟨_, rfl, _, ⟨before, isBefore, _, ⟨_, rfl, _, ⟨behind, isBehind, _, rfl, rfl⟩, rfl⟩,
      rfl⟩, rfl⟩

end TapeMachine.Json.Form
