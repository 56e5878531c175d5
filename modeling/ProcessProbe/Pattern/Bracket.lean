import ProcessProbe.Pattern.Atom
import ProcessProbe.Pattern.Part

/-!
# Sets in brackets

Characters, ranges of them, classes and further sets in brackets, joined or combined by operators. All operators bind
alike, and what stands between two of them is joined first. An operand may be empty.
-/

namespace ProcessProbe.Pattern

inductive SetOperator where
  | inter
  | diff
  | symmDiff
  deriving Repr

def SetOperator.apply : SetOperator → CharSet → CharSet → CharSet
  | inter => .inter
  | diff => .diff
  | symmDiff => .symmDiff

/-- A set in brackets that is not read to its end. It is fresh while nothing but minus signs were read, which stand for
themselves there. The last item comes first, and `left` is what stands before the last operand. -/
structure Bracket where
  negated : Bool
  isFresh : Bool
  items : List (Part CharSet)
  left : Option (SetOperator × Part CharSet)
  deriving Repr

namespace Bracket

def start (m : Modes) (s : List Char) : Bracket × List Char :=
  match m.skip s with
  | '^' :: s => (⟨true, true, [], none⟩, s)
  | s => (⟨false, true, [], none⟩, s)

def add (b : Bracket) (item : Part CharSet) : Bracket := { b with isFresh := false, items := item :: b.items }

/-- All that was read, as one set. -/
def combined? (b : Bracket) (m : Modes) : Option (Part CharSet) :=
  let operand := Part.join .union .empty b.items
  match b.left with
  | none => some operand
  | some (operator, left) => do
    let left := { left with value := ← m.fold? left.value }
    let operand := { operand with value := ← m.fold? operand.value }
    return left.both operator.apply operand

def operate? (b : Bracket) (m : Modes) (operator : SetOperator) : Option Bracket := do
  return { b with isFresh := false, items := [], left := some (operator, ← b.combined? m) }

def close? (b : Bracket) (m : Modes) : Option (Part CharSet) := do
  let inside ← b.combined? m
  return ⟨← m.asked? b.negated inside.value, inside.depth + 1⟩

/-- A named class such as `[:alpha:]` or `[:^alpha:]`, behind its opening bracket. -/
def readNamed (s : List Char) : Option (Bool × CharSet × List Char) :=
  match s with
  | ':' :: s =>
    let (negated, s) := match s with
      | '^' :: s => (true, s)
      | s => (false, s)
    let (name, s) := s.span (· != ':')
    match s with
    | ':' :: ']' :: s => (CharSet.ofName? (String.ofList name)).map fun set => (negated, set, s)
    | _ => none
  | _ => none

/-- Reads minus signs that come first, or a closing bracket that does, as themselves. -/
def readLeading (b : Bracket) : List Char → Option (Bracket × List Char)
  | '-' :: s => if b.isFresh then some ({ b.add (.leaf (.single '-')) with isFresh := true }, s) else none
  | ']' :: s => if b.isFresh && b.items.isEmpty then some (b.add (.leaf (.single ']')), s) else none
  | _ => none

/-- Inside of brackets only a backslash makes an atom special. -/
def readAtom (m : Modes) : List Char → Option (Atom × List Char)
  | [] => none
  | '\\' :: s => Atom.readEscape m s
  | c :: s => some (.char c, s)

def ofAtom (m : Modes) : Atom → Option CharSet
  | .char c => if m.admits c then some (.single c) else none
  | .set set => some set
  | .look _ => none

def ofBounds (m : Modes) : Atom → Atom → Option CharSet
  | .char first, .char last =>
    if first ≤ last && m.admits last then some (.ranges [(first, last)]) else none
  | _, _ => none

/-- An item, or a range of two of them. A minus sign before the closing bracket or another minus sign makes no range. -/
def readItem (m : Modes) (s : List Char) : Option (CharSet × List Char) := do
  let (first, s) ← readAtom m s
  let alone := (ofAtom m first).map fun set => (set, m.skip s)
  match m.skip s with
  | '-' :: r =>
    match m.skip r with
    | ']' :: _ | '-' :: _ => alone
    | r =>
      let (last, r) ← readAtom m r
      return (← ofBounds m first last, r)
  | _ => alone

/-- Reads up to the bracket that closes the outermost set; `outer` are the sets around the innermost one. Each turn
takes a character or more. -/
def readFrom (m : Modes) : Nat → Bracket → List Bracket → List Char → Option (Part CharSet × List Char)
  | 0, _, _, _ => none
  | fuel + 1, b, outer, s =>
    match b.readLeading (m.skip s) with
    | some (b, s) => readFrom m fuel b outer s
    | none =>
      match m.skip s with
      | [] => none
      | '[' :: s =>
        match readNamed s with
        | some (negated, set, s) => do
          readFrom m fuel (b.add (.leaf (← m.asked? negated set))) outer s
        | none =>
          let (inner, s) := start m s
          readFrom m fuel inner (b :: outer) s
      | ']' :: s => do
        let set ← b.close? m
        match outer with
        | [] => return (set, s)
        | b :: outer => readFrom m fuel (b.add set) outer s
      | '&' :: '&' :: s => do readFrom m fuel (← b.operate? m .inter) outer s
      | '-' :: '-' :: s => do readFrom m fuel (← b.operate? m .diff) outer s
      | '~' :: '~' :: s => do readFrom m fuel (← b.operate? m .symmDiff) outer s
      | s => do
        let (set, s) ← readItem m s
        readFrom m fuel (b.add (.leaf set)) outer s

def read (m : Modes) (s : List Char) : Option (Part CharSet × List Char) :=
  let (b, rest) := start m s
  readFrom m (s.length + 1) b [] rest

end Bracket

end ProcessProbe.Pattern
