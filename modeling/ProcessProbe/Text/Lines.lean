import ProcessProbe.Text.Blank

/-!
# Lines

A line ends at a line feed, which takes one carriage return before it along. What follows the last line feed
is a line only if it is not empty, and keeps its carriage return.
-/

namespace ProcessProbe.Text

/-- Drops one carriage return from the end. -/
def dropFinalReturn (line : List Char) : List Char :=
  if line.getLast? = some '\r' then line.dropLast else line

def lines (s : List Char) : List (List Char) :=
  let parts := split (· == '\n') s
  parts.dropLast.map dropFinalReturn ++ (parts.getLast?.toList.filter (!·.isEmpty))

@[simp] theorem lines_nil : lines [] = [] := rfl

end ProcessProbe.Text
