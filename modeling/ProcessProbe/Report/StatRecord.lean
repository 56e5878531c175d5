import ProcessProbe.Report.ProcessTable

/-!
# The stat record of a process

The line `pid (name) state ppid …` that the kernel writes for a process. The name may hold anything, so it ends at
the last closing parenthesis.
-/

namespace ProcessProbe.Report

structure StatRecord where
  pid : Nat
  name : List Char
  state : Char
  ppid : Nat
  deriving Repr, DecidableEq

namespace StatRecord

def isZombie (r : StatRecord) : Bool := r.state == zombie

def cutFirst? (c : Char) (s : List Char) : Option (List Char × List Char) :=
  match s.span (· != c) with
  | (before, _ :: after) => some (before, after)
  | (_, []) => none

def cutLast? (c : Char) (s : List Char) : Option (List Char × List Char) :=
  (cutFirst? c s.reverse).map fun (after, before) => (before.reverse, after.reverse)

/-- What follows the one-byte separator after the name. -/
def afterSeparator? : List Char → Option (List Char)
  | c :: rest => if c.toNat < 0x80 then some rest else none
  | [] => none

/-- Decodes the fields after the name. -/
def ofFields (pid : Nat) (name : List Char) (fields : List (List Char)) : Except String StatRecord :=
  match fields with
  | (state :: _) :: ppid :: _ =>
    match Text.readU32? ppid with
    | some q => .ok ⟨pid, name, state, q⟩
    | none => .error "invalid ppid"
  | (_ :: _) :: [] => .error "missing ppid"
  | _ => .error "missing state"

/-- Decodes a record without blanks at its end. -/
def ofLine (line : List Char) : Except String StatRecord :=
  match cutFirst? '(' line, cutLast? ')' line with
  | none, _ => .error "missing comm start"
  | _, none => .error "missing comm end"
  | some (before, _), some (upTo, after) =>
    if upTo.length < before.length then .error "comm delimiters out of order"
    else
      match Text.readU32? (Text.trim before) with
      | none => .error "invalid pid"
      | some pid =>
        match afterSeparator? after with
        | none => .error "truncated after comm"
        | some rest => ofFields pid (upTo.drop (before.length + 1)) (Text.words rest)

def ofText (text : List Char) : Except Defect StatRecord :=
  match Text.trimEnd text with
  | [] => .error .empty
  | line => (ofLine line).mapError (.malformed 1)

end StatRecord

end ProcessProbe.Report
