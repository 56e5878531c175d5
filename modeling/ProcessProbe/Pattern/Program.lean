import ProcessProbe.Pattern.Basic

/-!
# Matching with a pattern

A pattern is compiled to a program whose instructions are followed side by side, those of the preferred match first.
The match sought is the preferred one of those that start first, and it has to end where the text ends.
-/

namespace ProcessProbe.Pattern

/-- An instruction of the machine that runs patterns. The first way of a `split` is preferred. -/
inductive Instruction where
  | one (set : CharSet)
  | look (look : Look)
  | split (first second : Nat)
  | jump (target : Nat)
  | accept
  deriving Repr

/-- Goes on in the repetition or behind it; a lazy one prefers what is behind it. -/
def Instruction.choice (isLazy : Bool) (inside behind : Nat) : Instruction :=
  if isLazy then .split behind inside else .split inside behind

/-- The instructions of a pattern, of which the first has the number `n`. What is repeated and may be empty is entered
at another instruction than the one at which it is repeated, so that an empty first turn leads on. -/
def compile (n : Nat) : Pattern → List Instruction
  | empty => []
  | one set => [.one set]
  | look l => [.look l]
  | seq p q =>
    let first := p.compile n
    first ++ q.compile (n + first.length)
  | either p q =>
    let first := p.compile (n + 1)
    let second := q.compile (n + first.length + 2)
    .split (n + 1) (n + first.length + 2) :: first ++ .jump (n + first.length + 2 + second.length) :: second
  | optional isLazy p =>
    let body := p.compile (n + 1)
    .choice isLazy (n + 1) (n + 1 + body.length) :: body
  | oneOrMore isLazy p =>
    let body := p.compile n
    body ++ [.choice isLazy n (n + body.length + 1)]
  | many isLazy p =>
    let body := p.compile (n + 1)
    if p.isNullable then
      .choice isLazy (n + 1) (n + body.length + 2) :: body ++ [.choice isLazy (n + 1) (n + body.length + 2)]
    else .choice isLazy (n + 1) (n + body.length + 2) :: body ++ [.jump n]

/-- The program that looks for a match at each place of a text, the earlier ones first. -/
def program (p : Pattern) : Array Instruction :=
  let search : List Instruction := [.split 3 1, .one .all, .jump 0]
  let finish : List Instruction := [.accept]
  (search ++ p.compile 3 ++ finish).toArray

/-- The instructions that can be followed from those pending without taking a character, the preferred ones last and
each of them once. -/
def reachFrom (program : Array Instruction) (before after : Option Char) : Nat → List Nat → List Nat → List Nat
  | 0, _, reached => reached
  | _, [], reached => reached
  | fuel + 1, n :: pending, reached =>
    if reached.contains n then reachFrom program before after fuel pending reached
    else
      let next := match program[n]? with
        | some (.look l) => if l.holds before after then [n + 1] else []
        | some (.split first second) => [first, second]
        | some (.jump target) => [target]
        | _ => []
      reachFrom program before after fuel (next ++ pending) (n :: reached)

/-- The instructions that can be followed at a place, the preferred ones first. Each is looked at once and adds two to
those pending at most. -/
def reach (program : Array Instruction) (before after : Option Char) (pending : List Nat) : List Nat :=
  (reachFrom program before after (pending.length + 2 * program.size + 2) pending []).reverse

def isAccept (program : Array Instruction) (n : Nat) : Bool :=
  match program[n]? with
  | some .accept => true
  | _ => false

/-- The instructions to follow after a character. Where a match is complete, what is less preferred is given up. -/
def advance (program : Array Instruction) (c : Char) (reached : List Nat) : List Nat :=
  (reached.takeWhile (!isAccept program ·)).filterMap fun n : Nat =>
    match program[n]? with
    | some (.one set) => if set.contains c then some (n + 1) else none
    | _ => none

/-- Whether a match is complete at the end of a text. -/
def endsMatched (program : Array Instruction) (pending : List Nat) (before : Option Char) : List Char → Bool
  | [] => (reach program before none pending).any (isAccept program)
  | c :: s => endsMatched program (advance program c (reach program before (some c) pending)) (some c) s

/-- Whether the preferred match in a text ends where the text ends. -/
def accepts (p : Pattern) (s : List Char) : Bool := endsMatched p.program [0] none s

end ProcessProbe.Pattern
