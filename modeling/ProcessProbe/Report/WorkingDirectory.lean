import ProcessProbe.Report.Defect
import ProcessProbe.Text.Lines

/-!
# The open working directory

The report of `lsof` in field lines: a letter, and the value of that field. A line `p` starts a process and a line `f`
a descriptor; the name wanted is the first line `n` of a descriptor `cwd`.
-/

namespace ProcessProbe.Report

/-- What a report says of the directory. It is denied when the tool saw the descriptor and could not resolve it. -/
inductive WorkingDirectory where
  | path (raw : List Char)
  | denied (detail : List Char)
  deriving Repr, DecidableEq

namespace WorkingDirectory

def isDenied (name : List Char) : Bool :=
  "(readlink: Permission denied)".toList.isSuffixOf name || "(stat: Permission denied)".toList.isSuffixOf name

def ofName (name : List Char) : WorkingDirectory := if isDenied name then .denied name else .path name

/-- Decodes the lines from number `n` on; `inside` when they continue a descriptor `cwd`. -/
def ofLines (n : Nat) (inside : Bool) : List (List Char) → Except Defect (Option WorkingDirectory)
  | [] => if inside then .error (.malformed (n - 1) "cwd descriptor without a name") else .ok none
  | [] :: lines => ofLines (n + 1) inside lines
  | (tag :: value) :: lines =>
    if !tag.isAlpha then .error (.malformed n s!"not a field line: {Defect.excerpt (tag :: value)}")
    else if tag = 'p' then ofLines (n + 1) false lines
    else if tag = 'f' then ofLines (n + 1) (value == "cwd".toList) lines
    else if tag = 'n' && inside then
      if value.isEmpty then .error (.malformed n "empty name for cwd") else .ok (some (ofName value))
    else ofLines (n + 1) inside lines

def ofText (text : List Char) : Except Defect (Option WorkingDirectory) := ofLines 1 false (Text.lines text)

end WorkingDirectory

end ProcessProbe.Report
