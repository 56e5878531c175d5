import ProcessProbe.Text.Integer

/-!
# Sets of characters

The sets that a pattern can ask for, with the classes that have a name. The classes and the two cases of letters are
those of ASCII.
-/

namespace ProcessProbe

/-- A set of characters. Bounds belong to their range; `anyCase` has what differs from a member in the case of a letter
at most. -/
inductive CharSet where
  | ranges (bounds : List (Char × Char))
  | union (a b : CharSet)
  | inter (a b : CharSet)
  | complement (a : CharSet)
  | anyCase (a : CharSet)
  deriving Repr, BEq

namespace CharSet

def contains : CharSet → Char → Bool
  | ranges bounds, c => bounds.any fun (first, last) => first ≤ c && c ≤ last
  | union a b, c => a.contains c || b.contains c
  | inter a b, c => a.contains c && b.contains c
  | complement a, c => !a.contains c
  | anyCase a, c => a.contains c || a.contains c.toLower || a.contains c.toUpper

/-- Whether no character is named in it, so that case does not matter. -/
def namesNone : CharSet → Bool
  | ranges bounds => bounds.isEmpty
  | union a b | inter a b => a.namesNone && b.namesNone
  | complement a | anyCase a => a.namesNone

def empty : CharSet := ranges []

def all : CharSet := complement empty

def single (c : Char) : CharSet := ranges [(c, c)]

def ofList (cs : List Char) : CharSet := ranges (cs.map fun c => (c, c))

def diff (a b : CharSet) : CharSet := inter a (complement b)

def symmDiff (a b : CharSet) : CharSet := union (diff a b) (diff b a)

def lower : CharSet := ranges [('a', 'z')]

def upper : CharSet := ranges [('A', 'Z')]

def letter : CharSet := union lower upper

def digit : CharSet := ranges [('0', '9')]

def space : CharSet := ranges [('\t', '\r'), (' ', ' ')]

def word : CharSet := union letter (union digit (single '_'))

/-- The classes with a name of their own. -/
def ofName? (name : String) : Option CharSet :=
  match name with
  | "alnum" => some (union letter digit)
  | "alpha" => some letter
  | "ascii" => some (ranges [('\x00', '\x7f')])
  | "blank" => some (ofList ['\t', ' '])
  | "cntrl" => some (ranges [('\x00', '\x1f'), ('\x7f', '\x7f')])
  | "digit" => some digit
  | "graph" => some (ranges [('!', '~')])
  | "lower" => some lower
  | "print" => some (ranges [(' ', '~')])
  | "punct" => some (ranges [('!', '/'), (':', '@'), ('[', '\x60'), ('\x7b', '~')])
  | "space" => some space
  | "upper" => some upper
  | "word" => some word
  | "xdigit" => some (ranges [('0', '9'), ('A', 'F'), ('a', 'f')])
  | _ => none

/-- The class that a backslash and this letter stand for. -/
def ofEscape? (c : Char) : Option CharSet :=
  match c with
  | 'd' => some digit
  | 's' => some space
  | 'w' => some word
  | _ => none

end CharSet

end ProcessProbe
