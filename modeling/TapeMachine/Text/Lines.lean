import TapeMachine.Text.Split

/-!
# Lines

The lines of a text end at a line feed, with or without a carriage return before it. What
follows the last line feed is a line of its own unless it is empty, and keeps its carriage
return.
-/

namespace TapeMachine.Text

/-- A line without the carriage return at its end. -/
def dropReturn (line : List Char) : List Char :=
  if line.getLast? = some '\r' then line.dropLast else line

/-- The lines of a text. -/
def lines (text : List Char) : List (List Char) :=
  let pieces := splitOn '\n' text
  pieces.dropLast.map dropReturn ++ pieces.getLast?.toList.filter (!·.isEmpty)

/-- A text as a line of output. -/
def line (text : String) : String :=
  text ++ "\n"

/-- Texts as lines of output. -/
def unlines (texts : List String) : String :=
  String.join (texts.map line)

end TapeMachine.Text
