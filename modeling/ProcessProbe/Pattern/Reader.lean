import ProcessProbe.Pattern.Bracket
import ProcessProbe.Pattern.Program
import ProcessProbe.Text.Visible

/-!
# Reading patterns

Parts follow each other or are separated by bars, groups stand in parentheses, and a repetition sign follows what it
repeats. Counted repetitions cannot be written, because the brace that would end one ends the pattern.
-/

namespace ProcessProbe.Pattern

/-- A group that is not read to its end, with the modes outside of it. What the bars end and what follows the last bar
is given with the last one first, and a part that sets modes only is none. -/
structure Group where
  outside : Modes
  alternatives : List (Part Pattern)
  parts : List (Option (Part Pattern))
  deriving Repr

namespace Group

def start (outside : Modes) : Group := ⟨outside, [], []⟩

def add (g : Group) (p : Part Pattern) : Group := { g with parts := some p :: g.parts }

def sequence (g : Group) : Part Pattern := .join .seq .empty (g.parts.map (·.getD (.leaf .empty)))

def bar (g : Group) : Group := { g with alternatives := g.sequence :: g.alternatives, parts := [] }

def content (g : Group) : Part Pattern := .join .either .empty (g.sequence :: g.alternatives)

/-- Repeats the last part; there has to be one. -/
def repeatLast? (g : Group) (repetition : Pattern → Pattern) : Option Group :=
  match g.parts with
  | some p :: parts => some { g with parts := some (p.around repetition) :: parts }
  | _ => none

end Group

/-- What was read of a pattern: the names of its groups, and the groups that are open, the innermost first. -/
structure Draft where
  modes : Modes
  names : List (List Char)
  group : Group
  outer : List Group
  deriving Repr

namespace Draft

def initial : Draft := ⟨.initial, [], .start .initial, []⟩

def add (d : Draft) (p : Part Pattern) : Draft := { d with group := d.group.add p }

def openGroup (d : Draft) (inside : Modes) : Draft :=
  { d with modes := inside, group := .start d.modes, outer := d.group :: d.outer }

def closeGroup? (d : Draft) : Option Draft :=
  match d.outer with
  | [] => none
  | g :: outer => some { d with modes := d.group.outside, group := g.add (d.group.content.around id), outer }

def setModes (d : Draft) (m : Modes) : Draft :=
  { d with modes := m, group := { d.group with parts := none :: d.group.parts } }

/-- Whether a name may have the character, at its start or further on. -/
def isNameChar (isFirst : Bool) (c : Char) : Bool :=
  c == '_' || c.isAlpha || Text.isForeign c || (!isFirst && (c.isDigit || c == '.' || c == '[' || c == ']'))

/-- Reads the name of a group. Two groups do not share a name. -/
def readName (d : Draft) (s : List Char) : Option (Draft × List Char) :=
  let (name, s) := s.span (· != '>')
  match name, s with
  | first :: more, '>' :: s =>
    if isNameChar true first && more.all (isNameChar false) && !d.names.contains name then
      some ({ d.openGroup d.modes with names := name :: d.names }, s)
    else none
  | _, _ => none

/-- Reads what follows an opening parenthesis, up to the content of the group. -/
def readOpening (d : Draft) (s : List Char) : Option (Draft × List Char) :=
  match d.modes.skip s with
  | '?' :: 'P' :: '<' :: s | '?' :: '<' :: s => d.readName s
  | '?' :: s =>
    match d.modes.read [] true s with
    | some (m, _, ':' :: s) => some (d.openGroup m, s)
    | some (m, _ :: _, ')' :: s) => some (d.setModes m, s)
    | _ => none
  | s => some (d.openGroup d.modes, s)

/-- Repeats the last part; a question mark behind makes the repetition a lazy one, or a greedy one where repetitions are
lazy first. -/
def readRepetition (d : Draft) (repetition : (isLazy : Bool) → Pattern → Pattern) (s : List Char) :
    Option (Draft × List Char) := do
  let (isMarked, s) := match s with
    | '?' :: s => (true, s)
    | s => (false, s)
  return ({ d with group := ← d.group.repeatLast? (repetition (isMarked != d.modes.lazyFirst)) }, s)

def step (d : Draft) (c : Char) (s : List Char) : Option (Draft × List Char) :=
  match c with
  | '(' => d.readOpening s
  | ')' => d.closeGroup?.map fun d => (d, s)
  | '|' => some ({ d with group := d.group.bar }, s)
  | '[' => (Bracket.read d.modes s).map fun (set, s) => (d.add ⟨.one set.value, set.depth⟩, s)
  | '?' => d.readRepetition .optional s
  | '*' => d.readRepetition .many s
  | '+' => d.readRepetition .oneOrMore s
  | '\x7b' => none
  | '\\' => do
    let (atom, s) ← Atom.readEscape d.modes s
    return (d.add (.leaf (← atom.toPattern? d.modes)), s)
  | '.' => d.modes.point?.map fun set => (d.add (.leaf (.one set)), s)
  | '^' => some (d.add (.leaf (.look d.modes.caret)), s)
  | '$' => some (d.add (.leaf (.look d.modes.dollar)), s)
  | c => ((Atom.char c).toPattern? d.modes).map fun p => (d.add (.leaf p), s)

/-- Reads to the end. Each step takes a character or more. -/
def readFrom : Nat → Draft → List Char → Option (Part Pattern)
  | 0, _, _ => none
  | fuel + 1, d, s =>
    match d.modes.skip s with
    | [] => if d.outer.isEmpty then some d.group.content else none
    | c :: s => do
      let (d, s) ← d.step c s
      readFrom fuel d s

end Draft

def ofText? (s : List Char) : Option Pattern := do
  let p ← Draft.readFrom (s.length + 1) .initial s
  if p.depth ≤ depthLimit then return p.value else none

end ProcessProbe.Pattern
