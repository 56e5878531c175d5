import ProcessProbe.Report.Defect
import ProcessProbe.Text.Integer
import ProcessProbe.Text.Lines

/-!
# The list of children

The report of `pgrep`: one positive process number on each line that is not blank. Any other line makes the whole
report useless.
-/

namespace ProcessProbe.Report.ChildList

/-- The process number on a trimmed line. -/
def pid? (line : List Char) : Option Nat := (Text.readU32? line).filter (0 < ·)

/-- Decodes the lines from number `n` on. -/
def ofLines (n : Nat) : List (List Char) → Except Defect (List Nat)
  | [] => .ok []
  | line :: lines =>
    if (Text.trim line).isEmpty then ofLines (n + 1) lines
    else
      match pid? (Text.trim line) with
      | some pid => (ofLines (n + 1) lines).map (pid :: ·)
      | none => .error (.malformed n s!"expected a pid, got {Defect.excerpt (Text.trim line)}")

def ofText (text : List Char) : Except Defect (List Nat) := ofLines 1 (Text.lines text)

end ProcessProbe.Report.ChildList
