import ProcessProbe.Process.Liveness

/-!
# Enumeration of processes

The parent relation of all live processes, from one source a capture. The diagnostics that the caller runs are left
out, so they never count as its children.
-/

namespace ProcessProbe

open Diagnostic (Policy)

inductive Source where
  | ps
  | native
  | procfs
  deriving Repr, DecidableEq

namespace Source

def all : List Source := [ps, native, procfs]

def name : Source → String
  | ps => "ps"
  | native => "native"
  | procfs => "procfs"

def ofName? (name : String) : Option Source := all.find? (·.name == name)

end Source

namespace RelationTable

/-- Leaves out the diagnostics that ran from `since` on, and the process `also`. -/
def withoutDiagnostics (t : RelationTable) (since : Diagnostic.Instant) (also : Option Nat) :
    Inquiry RelationTable := do
  let pids ← Inquiry.diagnosticsSince since
  return t.without fun h => also == some h.pid || pids.contains h.pid

def fromPs (p : Policy) : Query RelationTable := do
  let since ← Inquiry.clock
  match ← p.run "ps" Diagnostic.tableArgs none with
  | .error e => throw (e.failure "ps")
  | .ok o =>
    if !o.succeeded then throw (.backendUnavailable "ps" s!"exited with {o.exitShown}: {o.stderrHead}")
    if o.truncated then throw (.parse "ps" "process table truncated")
    let table ← Query.ofExcept (ofReport o.stdoutText)
    table.withoutDiagnostics since (some o.pid)

/-- The process number that a directory of the process file system is named by. -/
def pidOfName? (name : Bytes) : Option Nat := (Utf8.decode? name).bind Text.readU32?

/-- The relation in the stat record of a process. A process that vanished, a zombie and an unreadable record have
none. -/
def relationOf? (procRoot : Path) (pid : Nat) : Inquiry (Option Relation) := do
  match ← Liveness.readText (Liveness.entry procRoot pid "stat") with
  | .error _ => return none
  | .ok text =>
    match Report.StatRecord.ofText text with
    | .error _ => return none
    | .ok record => return if record.isZombie then none else Relation.ofPids? record.pid record.ppid

def relationsOf (procRoot : Path) : List Nat → Inquiry (List Relation)
  | [] => return []
  | pid :: pids => do
    let relation ← relationOf? procRoot pid
    return relation.toList ++ (← relationsOf procRoot pids)

def fromProcfs (procRoot : Path) : Query RelationTable := do
  let since ← Inquiry.clock
  match ← Inquiry.list procRoot with
  | .error e => throw (.backendUnavailable "procfs" s!"cannot list {procRoot.shown}: {e.message}")
  | .ok names =>
    let pids := names.filterMap pidOfName?
    let relations ← relationsOf procRoot pids
    if pids.isEmpty then throw (.backendUnavailable "procfs" s!"no process entries under {procRoot.shown}")
    (ofList relations).withoutDiagnostics since none

/-- There is no interface of the platform to processes. -/
def fromNative : Query RelationTable := throw (.backendUnavailable "native" "no native process API on linux")

def capture (p : Policy) (procRoot : Path) : Source → Query RelationTable
  | .ps => fromPs p
  | .native => fromNative
  | .procfs => fromProcfs procRoot

end RelationTable

end ProcessProbe
