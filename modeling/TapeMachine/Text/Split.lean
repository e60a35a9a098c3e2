/-!
# Splitting text

Words between separators. A text with `n` separators has `n + 1` words, so the empty text has one
empty word.
-/

namespace TapeMachine.Text

/-- Put a character in front of the first of several words. -/
def consWord (c : Char) : List (List Char) → List (List Char)
  | [] => [[c]]
  | word :: words => (c :: word) :: words

/-- The words between the occurrences of `separator`. -/
def splitOn (separator : Char) (text : List Char) : List (List Char) :=
  text.foldr (fun c words => if c = separator then [] :: words else consWord c words) [[]]

@[simp]
theorem splitOn_nil (separator : Char) : splitOn separator [] = [[]] := rfl

@[simp]
theorem splitOn_cons (separator c : Char) (text : List Char) :
    splitOn separator (c :: text) =
      if c = separator then [] :: splitOn separator text
      else consWord c (splitOn separator text) := rfl

/-- Every text has at least one word. -/
theorem splitOn_ne_nil (separator : Char) (text : List Char) : splitOn separator text ≠ [] := by
  induction text with
  | nil => simp
  | cons c text ih =>
    rw [splitOn_cons]
    split
    · simp
    · cases h : splitOn separator text <;> simp [consWord]

/-- Join words with a text between neighbours. -/
def join (separator : String) (words : List String) : String :=
  String.intercalate separator words

end TapeMachine.Text
