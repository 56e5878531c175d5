/-!
# Named values

Finding one of finitely many values by its name.
-/

namespace ProcessProbe.Text

/-- Two texts that differ in the case of ASCII letters at most. -/
def sameLetters (s t : List Char) : Bool := s.map Char.toLower == t.map Char.toLower

/-- The value of a name, which may be written in any case if `anyCase` holds. -/
def named? {α : Type} (all : List α) (name : α → String) (anyCase : Bool) (s : List Char) : Option α :=
  all.find? fun a => if anyCase then sameLetters s (name a).toList else s == (name a).toList

end ProcessProbe.Text
