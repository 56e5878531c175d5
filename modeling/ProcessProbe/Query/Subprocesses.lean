import ProcessProbe.Process.Enumeration
import ProcessProbe.Report.ChildList

/-!
# Subprocesses

Whether a process has a live child, by one strategy.
-/

namespace ProcessProbe.Subprocesses

open Diagnostic (Policy Output)

/-- Where the children of a process are looked for: in the whole table of `ps`, in the list of `pgrep`, by the interface
of the platform, or in the process file system. -/
inductive Strategy where
  | generic
  | processGroup
  | native
  | procfs
  deriving Repr, DecidableEq

namespace Strategy

def all : List Strategy := [generic, processGroup, native, procfs]

def platformOrder : List Strategy := [procfs, generic, processGroup]

def name : Strategy → String
  | generic => "generic"
  | processGroup => "process-group"
  | native => "native"
  | procfs => "procfs"

def ofName? (name : String) : Option Strategy := all.find? (·.name == name)

end Strategy

/-- The answer of a table: a process that is not in it is not found. -/
def ofTable (t : RelationTable) (h : Handle) : Except Failure Bool :=
  if t.contains h then .ok (!(t.childrenOf h).isEmpty) else .error (.notFound h.pid)

/-- False for a child that is a zombie or gone. A number that is no handle counts as live. -/
def stillLive (p : Policy) (procRoot : Path) (pid : Nat) : Inquiry Bool :=
  match Handle.ofNat? pid with
  | none => return true
  | some child => do
    match ← (Liveness.runState p procRoot child).outcome with
    | .ok state => return state != some zombie
    | .error failure => return failure.kind != .notFound

/-- What a report of `pgrep` means, before any child is ignored: the children it lists. -/
def listed (o : Output) : Except Failure (List Nat) :=
  if o.truncated then .error (.parse "pgrep" "output truncated")
  else if o.exit = some 0 then
    match Report.ChildList.ofText o.stdoutText with
    | .error defect => .error (defect.failure "pgrep")
    | .ok [] => .error (.parse "pgrep" "exit 0 without any pid")
    | .ok pids => .ok pids
  else if o.exit = some 1 then
    if (Text.trim o.stdoutText).isEmpty then .ok [] else .error (.parse "pgrep" "exit 1 with unexpected output")
  else .error (.parse "pgrep" s!"unexpected exit {o.exitShown}: {o.stderrHead}")

def interpret (o : Output) (ignore : Nat → Bool) : Except Failure Bool := (listed o).map (·.any (!ignore ·))

/-- Whether one of the children is live, as far as it takes to find one. -/
def anyLive (live : Nat → Inquiry Bool) : List Nat → Inquiry Bool
  | [] => return false
  | pid :: pids => do if ← live pid then return true else anyLive live pids

/-- Asks `pgrep`. It cannot tell a childless process from one that does not exist, so liveness is settled first; and
where it cannot select live children they are looked at one by one. -/
def viaChildList (p : Policy) (procRoot : Path) (selectLive : Bool) (h : Handle) : Query Bool := do
  Liveness.ensureLive p procRoot h
  let since ← Inquiry.clock
  match ← p.run "pgrep" (Diagnostic.childrenArgs selectLive h) none with
  | .error e => throw (e.failure "pgrep")
  | .ok o =>
    let diagnostics ← Inquiry.diagnosticsSince since
    let pids ← Query.ofExcept (listed o)
    anyLive (fun pid =>
      if diagnostics.contains pid then return false
      else if selectLive then return true
      else stillLive p procRoot pid) pids

def detect (p : Policy) (procRoot : Path) (selectLive : Bool) (h : Handle) : Strategy → Query Bool
  | .generic => do Query.ofExcept (ofTable (← RelationTable.fromPs p) h)
  | .native => do Query.ofExcept (ofTable (← RelationTable.fromNative) h)
  | .procfs => do Query.ofExcept (ofTable (← RelationTable.fromProcfs procRoot) h)
  | .processGroup => viaChildList p procRoot selectLive h

end ProcessProbe.Subprocesses
