import Sim6809.Text.Blank

/-!
The lines of a text. A line ends with a line feed, or with a carriage return and a line feed; what
follows the last line feed is a line of its own unless it is empty.
-/
namespace Sim6809.Text

def dropReturn (line : List Char) : List Char :=
  if line.getLast? = some '\r' then line.dropLast else line

/-- The lines of the pieces between line feeds; only the last piece has no ending. -/
def linesOfPieces : List (List Char) → List (List Char)
  | [] => []
  | [rest] => if rest.isEmpty then [] else [rest]
  | piece :: pieces => dropReturn piece :: linesOfPieces pieces

def lines (text : List Char) : List (List Char) := linesOfPieces (splitBy (· == '\n') text)

end Sim6809.Text
