import ProcessProbe.Journal.Entry
import ProcessProbe.Pattern.Reader
import ProcessProbe.Text.Real

/-!
# Tests of values

What a directive asks of a value of a span. A text that denotes a truth value or a number asks for that, and any other
is a pattern; only texts are matched with patterns, and only numbers are compared with numbers.
-/

namespace ProcessProbe.Journal

/-- What a value is compared with. A pattern comes with the text that denotes it. -/
inductive Test where
  | bool (b : Bool)
  | integer (n : Int)
  | real (x : Float)
  | pattern (text : String) (p : Pattern)
  deriving Repr, BEq

namespace Test

/-- Real numbers closer to each other than this are taken for the same. -/
def tolerance : Float := 2.220446049250313e-16

def ofText? (s : List Char) : Option Test :=
  if s = "true".toList then some (.bool true)
  else if s = "false".toList then some (.bool false)
  else if let .ok n := Text.readNat Text.maxU64 s then some (.integer n)
  else if let some n := Text.readI64? s then some (.integer n)
  else if let some x := Text.readReal? s then some (.real x)
  else (Pattern.ofText? s).map (.pattern (String.ofList s))

def holds : Test → Value → Bool
  | bool b, .bool c => b == c
  | integer n, .integer m => n == m
  | real x, .real y => (x.isNaN && y.isNaN) || (x - y).abs < tolerance
  | pattern _ p, .text s => p.accepts s.toList
  | _, _ => false

end Test

end ProcessProbe.Journal
