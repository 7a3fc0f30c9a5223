import ServiceWatch.Text.Split

/-!
# Lines of a text

A line feed ends a line, and a carriage return right before it belongs to the line end.  What
follows the last line feed is a line of its own, unless it is empty; a carriage return at its end
is kept, for no line feed follows it.
-/

namespace ServiceWatch.Text

/-- The characters without one carriage return at the end. -/
def dropReturn (cs : List Char) : List Char :=
  if cs.getLast? = some '\r' then cs.dropLast else cs

/-- The lines among the pieces between line feeds: each but the last was ended by a line feed. -/
def linesOfPieces : List (List Char) → List (List Char)
  | [] => []
  | [last] => if last.isEmpty then [] else [last]
  | piece :: pieces => dropReturn piece :: linesOfPieces pieces

/-- The lines of a text, without their line ends. -/
def lines (cs : List Char) : List (List Char) :=
  linesOfPieces (splitOn '\n' cs)

end ServiceWatch.Text
