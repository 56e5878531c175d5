import ProcessProbe.Capability.Basic
import ProcessProbe.Diagnostic.Policy

/-!
# Detection of capabilities

Each diagnostic is looked up on the search path and then has to answer a question about the caller itself.
-/

namespace ProcessProbe

/-- Whether this is a regular file with one of its three execute bits set. -/
def Metadata.isExecutable (data : Metadata) : Bool := data.kind == .file && data.mode &&& 0o111 != 0

namespace Capabilities

open Diagnostic (Policy Output)

/-- The policy on diagnostics during detection. -/
def detectionPolicy : Policy := ⟨.ofMillis 5000, 64 * 1024, Diagnostic.tools⟩

def searchPath (path : Bytes) : List Path := (Text.split (· == 58) path).map Path.mk

def isExecutable (path : Path) : Inquiry Bool := do
  return (← Inquiry.metadata path).toOption.any Metadata.isExecutable

def firstExecutable : List Path → Inquiry (Option Path)
  | [] => return Option.none
  | path :: paths => do if ← isExecutable path then return some path else firstExecutable paths

/-- Where a command is on the search path. -/
def locate (name : String) : Inquiry (Option Path) := do
  match ← Inquiry.environment "PATH" with
  | .none => return Option.none
  | some path => firstExecutable ((searchPath path).map (·.join (.ofString name)))

/-- Looks a command up, runs it, and judges what it answers. -/
def checkTool (name : String) (args : List String) (passes : Output → Bool) : Inquiry Tool := do
  match ← locate name with
  | .none => return .missing
  | some path =>
    match ← detectionPolicy.run name args Option.none with
    | .ok o =>
      return if passes o then .working path.shown
        else .broken path.shown s!"{name} check failed: exit {o.exitShown}: {o.stderrHead}"
    | .error (.commandNotFound command) => return .broken path.shown s!"{command} not found on PATH"
    | .error e => return .broken path.shown e.message

/-- The tool exits as one does that found something, or nothing. -/
def foundOrNot (o : Output) : Bool := o.exit == some 0 || o.exit == some 1

def detect : Inquiry Capabilities := do
  let platform ← Inquiry.platform
  let procfs ← Inquiry.isPresent (.ofString "/proc/self/stat")
  let me := toString (← Inquiry.ownPid)
  let ps ← checkTool "ps" ["-o", "pid=", "-p", me] fun o => o.succeeded && Text.trim o.stdoutText == me.toList
  let pgrep ← checkTool "pgrep" ["-P", me] foundOrNot
  let lsof ← checkTool "lsof" ["-a", "-p", me, "-d", "cwd", "-Ffn"] fun o =>
    o.succeeded && (Text.lines o.stdoutText).contains "fcwd".toList
  let selectsStates ←
    if pgrep.usable then do
      match ← detectionPolicy.run "pgrep" ["-r", Diagnostic.liveStates, "-P", me] Option.none with
      | .ok o => pure (foundOrNot o)
      | .error _ => pure false
    else pure false
  let detectedAt ← Inquiry.timestamp
  return ⟨platform, procfs, false, ps, pgrep, lsof, selectsStates, detectedAt⟩

end Capabilities

end ProcessProbe
