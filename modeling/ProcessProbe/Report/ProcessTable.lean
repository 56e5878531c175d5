import ProcessProbe.Process.Relation
import ProcessProbe.Report.Defect
import ProcessProbe.Text.Lines

/-!
# The process table

The report of `ps` with one process on a line: its number, its parent's, and optionally its state. Lines that are no
row are counted and passed over, and so is a header in the first place.
-/

namespace ProcessProbe

/-- The state letter of a process that ended and was not yet waited for. -/
def zombie : Char := 'Z'

namespace Report

/-- A row, with the first letter of its state column. -/
structure TableRow where
  pid : Nat
  ppid : Nat
  state : Option Char
  deriving Repr, DecidableEq

def TableRow.isZombie (r : TableRow) : Bool := r.state == some zombie

/-- A row has two numbers and at most one more word. -/
def TableRow.ofLine? (line : List Char) : Option TableRow :=
  match Text.words line with
  | [pid, ppid] => row? pid ppid none
  | [pid, ppid, state] => row? pid ppid state.head?
  | _ => none
where
  row? (pid ppid : List Char) (state : Option Char) : Option TableRow :=
    match Text.readU32? pid, Text.readU32? ppid with
    | some p, some q => some ⟨p, q, state⟩
    | _, _ => none

/-- The rows of a report, and the number of lines that are neither blank nor one of them. -/
structure ProcessTable where
  rows : List TableRow
  skipped : Nat
  deriving Repr, DecidableEq

namespace ProcessTable

def isHeader (line : List Char) : Bool :=
  match Text.words line with
  | a :: b :: _ =>
    (a == "PID".toList && b == "PPID".toList) || (a == "pid".toList && b == "ppid".toList)
  | _ => false

/-- The lines of a report that are not blank, trimmed. -/
def filledLines (text : List Char) : List (List Char) := ((Text.lines text).map Text.trim).filter (!·.isEmpty)

/-- The lines after a header in the first place. -/
def body : List (List Char) → List (List Char)
  | line :: lines => if isHeader line then lines else line :: lines
  | [] => []

/-- Decodes a report. A process that is its own parent is left out without being counted. -/
def ofText (text : List Char) : Except Defect ProcessTable :=
  let lines := filledLines text
  let decoded := (body lines).map TableRow.ofLine?
  let rows := decoded.filterMap fun row => row.filter fun r => r.pid != r.ppid
  if lines.isEmpty then .error .empty
  else if rows.isEmpty then .error (.noRows lines.length)
  else .ok ⟨rows, decoded.countP (·.isNone)⟩

/-- The relations of the live processes in the table. -/
def relations (t : ProcessTable) : RelationTable :=
  .ofList ((t.rows.filter (!·.isZombie)).filterMap fun r => Relation.ofPids? r.pid r.ppid)

end ProcessTable

end Report

namespace RelationTable

/-- The relations that a report of `ps` holds. -/
def ofReport (text : List Char) : Except Failure RelationTable :=
  match Report.ProcessTable.ofText text with
  | .ok table => .ok table.relations
  | .error defect => .error (defect.failure "ps")

end RelationTable

end ProcessProbe
