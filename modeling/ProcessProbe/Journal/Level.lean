import ProcessProbe.Text.Integer
import ProcessProbe.Text.Named

/-!
# Levels

How important an event is, and the threshold up to which events are written.
-/

namespace ProcessProbe.Journal

inductive Level where
  | error
  | warn
  | info
  | debug
  | trace
  deriving Repr, DecidableEq

def Level.all : List Level := [.error, .warn, .info, .debug, .trace]

def Level.name : Level → String
  | .error => "error"
  | .warn => "warn"
  | .info => "info"
  | .debug => "debug"
  | .trace => "trace"

def Level.rank : Level → Nat
  | .error => 1
  | .warn => 2
  | .info => 3
  | .debug => 4
  | .trace => 5

/-- Up to which level events are written; none at all when it is off. -/
inductive Threshold where
  | off
  | upTo (level : Level)
  deriving Repr, DecidableEq

namespace Threshold

def all : List Threshold := off :: Level.all.map upTo

def name : Threshold → String
  | off => "off"
  | upTo level => level.name

def rank : Threshold → Nat
  | off => 0
  | upTo level => level.rank

def admits (t : Threshold) (level : Level) : Bool := level.rank ≤ t.rank

/-- Reads a threshold: its rank as a number, its name in any case, or nothing for errors only. -/
def ofText? (s : List Char) : Option Threshold :=
  match Text.readNat Text.maxU64 s with
  | .ok n => all.find? (·.rank == n)
  | .error _ => if s.isEmpty then some (upTo .error) else Text.named? all name true s

end Threshold

end ProcessProbe.Journal
