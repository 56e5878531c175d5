import ProcessProbe.Pattern.Basic
import ProcessProbe.Text.Blank

/-!
# Modes of a pattern

The letters in a group such as `(?i-s)` change how the rest of the group is read. With `x` blanks and comments in a
pattern mean nothing. With `u`, as it starts, a pattern is about characters: each can be named, but their cases and the
classes behind a backslash are not known, and a pattern that needs them is refused. Without it a pattern is about bytes:
cases and classes are those of ASCII, and no set may have a byte beyond ASCII, since that is no character.
-/

namespace ProcessProbe.Pattern

/-- How a pattern is read: `^` and `$` stand for the ends of a line in `multiLine`, repetitions are lazy unless a
question mark makes them greedy in `lazyFirst`, and a carriage return ends a line too in `anyLineEnd`. -/
structure Modes where
  anyCase : Bool
  multiLine : Bool
  dotIsAll : Bool
  lazyFirst : Bool
  unicode : Bool
  anyLineEnd : Bool
  spaced : Bool
  deriving Repr

namespace Modes

def initial : Modes := ⟨false, false, false, false, true, false, false⟩

def set? (m : Modes) (letter : Char) (on : Bool) : Option Modes :=
  match letter with
  | 'i' => some { m with anyCase := on }
  | 'm' => some { m with multiLine := on }
  | 's' => some { m with dotIsAll := on }
  | 'U' => some { m with lazyFirst := on }
  | 'u' => some { m with unicode := on }
  | 'R' => some { m with anyLineEnd := on }
  | 'x' => some { m with spaced := on }
  | _ => none

/-- What follows blanks and comments, which go from `#` to the end of the line. -/
def afterNotes : (inComment : Bool) → List Char → List Char
  | _, [] => []
  | true, c :: s => afterNotes (c != '\n') s
  | false, c :: s => if c = '#' then afterNotes true s else if Text.isBlank c then afterNotes false s else c :: s

/-- Skips what means nothing. -/
def skip (m : Modes) (s : List Char) : List Char := if m.spaced then afterNotes false s else s

/-- Reads letters up to the colon or the parenthesis that ends them. A minus sign turns off the letters behind it.
Nothing may stand there twice, and the minus sign not at the end; `seen` holds what was read, the last first. -/
def read (seen : List Char) (on : Bool) (m : Modes) : List Char → Option (Modes × List Char × List Char)
  | [] => none
  | c :: s =>
    if c = ':' || c = ')' then if seen.head? = some '-' then none else some (m, seen, c :: s)
    else if seen.contains c then none
    else if c = '-' then read (c :: seen) false m s
    else
      match m.set? c on with
      | some m => read (c :: seen) on m s
      | none => none

/-- Whether a set may have the character. -/
def admits (m : Modes) (c : Char) : Bool := m.unicode || c.toNat < 128

/-- The set that is asked for by writing a set. In any case, a set of characters must not name one. -/
def fold? (m : Modes) (set : CharSet) : Option CharSet :=
  if !m.anyCase then some set
  else if !m.unicode then some (.anyCase set)
  else if set.namesNone then some set
  else none

/-- The set or all characters outside of it. Outside there are always some beyond ASCII. -/
def complement? (m : Modes) (negated : Bool) (set : CharSet) : Option CharSet :=
  if !negated then some set else if m.unicode then some (.complement set) else none

/-- The set that is asked for by a set or by what is outside of it. -/
def asked? (m : Modes) (negated : Bool) (set : CharSet) : Option CharSet := do
  m.complement? negated (← m.fold? set)

def point? (m : Modes) : Option CharSet :=
  m.complement? true (if m.dotIsAll then .empty else if m.anyLineEnd then .ofList ['\r', '\n'] else .single '\n')

def caret (m : Modes) : Look := if !m.multiLine then .start else if m.anyLineEnd then .anyLineStart else .lineStart

def dollar (m : Modes) : Look := if !m.multiLine then .finish else if m.anyLineEnd then .anyLineFinish else .lineFinish

end Modes

end ProcessProbe.Pattern
