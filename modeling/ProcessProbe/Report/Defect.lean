import ProcessProbe.Failure
import ProcessProbe.Text.Quoted

/-!
# Defects of a report

Why what a diagnostic printed cannot be decoded.
-/

namespace ProcessProbe

inductive Defect where
  | empty
  | malformed (line : Nat) (reason : String)
  | noRows (total : Nat)
  deriving Repr, DecidableEq

namespace Defect

def message : Defect → String
  | empty => "empty input"
  | malformed line reason => s!"line {line}: {reason}"
  | noRows total => s!"no usable rows in {total} lines"

def failure (d : Defect) (backend : String) : Failure := .parse backend d.message

/-- A line in a message: quoted, at most 64 characters of it. -/
def excerpt (line : List Char) : String := Text.quote (line.take 64)

end Defect

end ProcessProbe
