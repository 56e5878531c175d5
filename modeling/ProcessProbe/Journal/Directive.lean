import ProcessProbe.Journal.Test
import ProcessProbe.Text.Blank
import ProcessProbe.Text.Visible

/-!
# Directives of a filter

A directive gives a threshold for the targets that start in a given way. It may also name a span, or a value of a span,
and then holds for all that happens inside such a span.
-/

namespace ProcessProbe.Journal

/-- A value that a span or an event has, perhaps one that passes a test. -/
structure Condition where
  name : String
  test : Option Test
  deriving Repr, BEq

/-- A threshold, and what it holds for: targets that start with a text, and what happens in a span. -/
structure Directive where
  threshold : Threshold
  target : Option String
  span : Option String
  condition : Option Condition
  deriving Repr, BEq

namespace Condition

/-- Reads a name, with a test behind `=` perhaps; what stands behind a second `=` does not matter. -/
def ofText? (s : List Char) : Option Condition :=
  match Text.split (· == '=') s with
  | name :: test :: _ => (Test.ofText? test).map fun test => ⟨String.ofList name, some test⟩
  | _ => some ⟨String.ofList s, none⟩

def holds (c : Condition) (fields : Fields) : Bool :=
  fields.any fun (name, value) => name == c.name && c.test.all (·.holds value)

end Condition

namespace Directive

/-- What the reader of a directive is inside of, with the position at which that starts. -/
inductive Part where
  | start
  | target (position : Nat)
  | span (position : Nat)
  | condition (position : Nat)
  | closing
  | closed
  | level (position : Nat)
  deriving Repr, DecidableEq

def mayStart (c : Char) : Bool := c == '-' || c == ':' || c == '_' || c.isAlphanum || Text.isForeign c

/-- The characters of a text from one position to another. -/
def slice (s : List Char) (first last : Nat) : String := String.ofList ((s.drop first).take (last - first))

/-- Reads a character at a position; the names it completes are cut out of the text `s`. -/
def step (s : List Char) (d : Directive) (part : Part) (i : Nat) (c : Char) : Option (Directive × Part) :=
  match part with
  | .start => if c = '[' then some (d, .span (i + 1)) else if mayStart c then some (d, .target i) else none
  | .target first =>
    if c = '=' then some ({ d with target := some (slice s first i) }, .level (i + 1))
    else if c = '[' then some ({ d with target := some (slice s first i) }, .span (i + 1))
    else some (d, part)
  | .span first =>
    if c = ']' then some ({ d with span := some (slice s first i) }, .closed)
    else if c = '\x7b' then
      some ({ d with span := if first < i then some (slice s first i) else none }, .condition (i + 1))
    else some (d, part)
  | .condition first =>
    if c = '\x7d' then
      if first < i then
        (Condition.ofText? ((s.drop first).take (i - first))).map fun c => ({ d with condition := some c }, .closing)
      else none
    else some (d, part)
  | .closing => if c = ']' then some (d, .closed) else none
  | .closed => if c = '=' then some (d, .level (i + 1)) else none
  | .level _ => some (d, part)

def steps (s : List Char) : Directive → Part → Nat → List Char → Option (Directive × Part)
  | d, part, _, [] => some (d, part)
  | d, part, i, c :: rest => do
    let (d, part) ← step s d part i c
    steps s d part (i + 1) rest

/-- Reads a directive: a level, a target, or a target, a span or both with a level after `=`. Without a level everything
is written. Positions are those of the trimmed text, yet names are cut out of the text as it is, so a directive with
blanks around it names nothing that exists. -/
def ofText? (s : List Char) : Option Directive := do
  match ← steps s ⟨.upTo .trace, none, none, none⟩ .start 0 (Text.trim s) with
  | (d, .target first) =>
    match Threshold.ofText? (s.drop first) with
    | some threshold => return { d with threshold, target := none }
    | none => return { d with target := some (String.ofList (s.drop first)) }
  | (d, .level first) =>
    if (s.drop first).isEmpty then return d else return { d with threshold := ← Threshold.ofText? (s.drop first) }
  | (d, .closed) => return d
  | _ => none

/-- The directive is about spans. -/
def isDynamic (d : Directive) : Bool := d.span.isSome || d.condition.isSome

def isNameOnly (d : Directive) : Bool := d.condition.all (·.test.isNone)

/-- The directive can be judged by the target and the names of the values alone. -/
def isStatic (d : Directive) : Bool := d.span.isNone && d.isNameOnly

def matchesTarget (d : Directive) (target : String) : Bool := d.target.all fun t => t.toList.isPrefixOf target.toList

/-- Whether it is about spans like this one, whatever their values are. -/
def matchesSpan (d : Directive) (span : Span) : Bool :=
  d.matchesTarget span.target && d.span.all (· == span.name) && d.condition.all fun c => span.fields.any (·.1 == c.name)

/-- A longer target is more specific than a shorter one, and both are more so than none. -/
def isMoreSpecific (d e : Directive) : Bool :=
  let length (d : Directive) : Nat := d.target.elim 0 (·.length + 1)
  let name (d : Directive) : String := d.condition.elim "" (·.name)
  length e < length d || (length d == length e && decide (name e < name d))

/-- The directive has the same subject as another one, whatever their thresholds. -/
def sharesSubject (d e : Directive) : Bool := d.target == e.target && d.span == e.span && d.condition == e.condition

end Directive

end ProcessProbe.Journal
