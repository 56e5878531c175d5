import ProcessProbe.Diagnostic.Policy
import ProcessProbe.Report.StatRecord

/-!
# Liveness

Whether a process exists, and whether it is more than a zombie. A process is declared gone on positive evidence only:
when no source can tell its state, it counts as live.
-/

namespace ProcessProbe.Liveness

open Diagnostic (Policy)

/-- The path of an entry of a process below the root of the process file system. -/
def entry (procRoot : Path) (pid : Nat) (name : String) : Path :=
  (procRoot.join (.ofString (toString pid))).join (.ofString name)

def readText (path : Path) : Inquiry (Except SystemError (List Char)) := do
  match ← Inquiry.readFile path with
  | .error e => return .error e
  | .ok bytes =>
    match Utf8.decode? bytes with
    | some text => return .ok text
    | none => return .error .notText

/-- A process of another owner refuses the signal and exists nevertheless. -/
def ensureExists (h : Handle) : Query Unit := do
  if h.toInt ≤ 0 then throw (.invalidHandle h.toInt)
  match ← Inquiry.probe h.toInt with
  | .ok () => return ()
  | .error e =>
    if e = .operationNotPermitted then return ()
    else if e = .noSuchProcess then throw (.notFound h.pid)
    else throw (.backendUnavailable "kill" s!"existence check failed: {e.message}")

inductive Evidence where
  | state (letter : Char)
  | gone
  | undecided
  deriving Repr, DecidableEq

/-- The evidence of the process file system. A missing record means that the process is gone if the caller's own
entry is there. -/
def recordEvidence (procRoot : Path) (h : Handle) : Inquiry Evidence := do
  match ← readText (entry procRoot h.pid "stat") with
  | .ok text =>
    match Report.StatRecord.ofText text with
    | .ok record => return .state record.state
    | .error _ => return .undecided
  | .error e =>
    if e.isNotFound then
      return if ← Inquiry.isPresent (procRoot.join (.ofString "self")) then .gone else .undecided
    else return .undecided

/-- The evidence of a finished report of the state of one process. -/
def reportEvidence (o : Diagnostic.Output) : Evidence :=
  match o.exit, (Text.trim o.stdoutText).head? with
  | some 0, some letter => .state letter
  | some 1, none => .gone
  | _, _ => .undecided

/-- The evidence of the process file system, and of `ps` where that does not decide. -/
def evidence (p : Policy) (procRoot : Path) (h : Handle) : Inquiry Evidence := do
  match ← recordEvidence procRoot h with
  | .undecided =>
    match ← p.run "ps" (Diagnostic.stateArgs h) none with
    | .ok o => return reportEvidence o
    | .error _ => return .undecided
  | decided => return decided

/-- The first letter of the state of a process, if a source can tell it. -/
def runState (p : Policy) (procRoot : Path) (h : Handle) : Query (Option Char) := do
  match ← evidence p procRoot h with
  | .state letter => return some letter
  | .gone => throw (.notFound h.pid)
  | .undecided => return none

/-- Fails for a process that does not exist and for a zombie. -/
def ensureLive (p : Policy) (procRoot : Path) (h : Handle) : Query Unit := do
  ensureExists h
  if (← runState p procRoot h) = some zombie then throw (.notFound h.pid)

end ProcessProbe.Liveness
