import ProcessProbe.Pattern.Modes

/-!
# Atoms of patterns

The smallest parts of a pattern: a character, a class of characters or a place. What is special in patterns, and what is
not written easily, stands behind a backslash.
-/

namespace ProcessProbe.Pattern

inductive Atom where
  | char (c : Char)
  | set (set : CharSet)
  | look (look : Look)
  deriving Repr

/-- A number of digits of base sixteen. -/
def readHex (m : Modes) : (count value : Nat) → List Char → Option (Nat × List Char)
  | 0, value, s => some (value, s)
  | count + 1, value, s =>
    match m.skip s with
    | [] => none
    | c :: s => do readHex m count (value * 16 + (← Text.hexDigit? c)) s

def readCode (m : Modes) (count : Nat) (s : List Char) : Option (Char × List Char) := do
  let (value, s) ← readHex m count 0 s
  if value.isValidChar then return (Char.ofNat value, s) else none

namespace Atom

def control? (c : Char) : Option Char :=
  match c with
  | 'a' => some '\x07'
  | 'f' => some '\x0c'
  | 'n' => some '\n'
  | 'r' => some '\r'
  | 't' => some '\t'
  | 'v' => some '\x0b'
  | _ => none

/-- The places inside of a text, which are judged by the words around. -/
def innerLook? (c : Char) : Option Look :=
  match c with
  | 'b' => some .wordBoundary
  | 'B' => some .notWordBoundary
  | '<' => some .wordStart
  | '>' => some .wordFinish
  | _ => none

/-- A character that stands for itself behind a backslash. -/
def isEscapable (c : Char) : Bool := c.toNat < 128 && !c.isAlphanum && c != '<' && c != '>'

/-- What a single character behind a backslash stands for. The classes of characters are not known, nor is what a word
of them is. -/
def ofEscape? (m : Modes) (c : Char) : Option Atom :=
  if isEscapable c then some (.char c)
  else if c = 'A' then some (.look .start)
  else if c = 'z' then some (.look .finish)
  else if let some control := control? c then some (.char control)
  else if m.unicode then none
  else
    match CharSet.ofEscape? c with
    | some found => some (.set found)
    | none => (innerLook? c).map .look

def readEscape (m : Modes) : List Char → Option (Atom × List Char)
  | [] => none
  | 'x' :: s => do
    let (c, s) ← readCode m 2 s
    if m.admits c then return (.char c, s) else none
  | 'u' :: s => (readCode m 4 s).map fun (c, s) => (.char c, s)
  | 'U' :: s => (readCode m 8 s).map fun (c, s) => (.char c, s)
  | c :: s => (ofEscape? m c).map fun atom => (atom, s)

def toPattern? (m : Modes) : Atom → Option Pattern
  | .char c => (m.fold? (.single c)).map .one
  | .set found => some (.one found)
  | .look l => some (.look l)

end Atom

end ProcessProbe.Pattern
