import ProcessProbe.Failure
import ProcessProbe.Host.SystemError
import ProcessProbe.Text.Lines
import ProcessProbe.Text.Utf8

/-!
# Runs of diagnostics

What a diagnostic that ran to its end has printed, and why one did not get that far.
-/

namespace ProcessProbe.Diagnostic

/-- What a diagnostic printed, and how its process ended: a signal leaves no exit status. Output is truncated when one
of the two streams was longer than its cap. -/
structure Output where
  command : String
  args : List String
  pid : Nat
  stdout : Bytes
  stderr : Bytes
  exit : Option Int
  truncated : Bool
  deriving Repr, DecidableEq

namespace Output

def stdoutText (o : Output) : List Char := Utf8.decodeLossy o.stdout

def stderrText (o : Output) : List Char := Utf8.decodeLossy o.stderr

def succeeded (o : Output) : Bool := o.exit == some 0

/-- The first line of the error stream, trimmed. -/
def stderrHead (o : Output) : String := String.ofList (Text.trim ((Text.lines o.stderrText).headD []))

def exitShown (o : Output) : String :=
  match o.exit with
  | some code => s!"Some({code})"
  | none => "None"

end Output

/-- Why a diagnostic has no output. -/
inductive Error where
  | commandNotFound (command : String)
  | spawnFailed (reason : String)
  | timeout (after : Duration)
  | io (error : SystemError)
  | invalidPath (reason : String)
  | notAllowed (command : String)
  deriving Repr, DecidableEq

namespace Error

def kindName : Error → String
  | commandNotFound _ => "command_not_found"
  | spawnFailed _ => "spawn_failed"
  | timeout _ => "timeout"
  | io _ => "io"
  | invalidPath _ => "invalid_path"
  | notAllowed _ => "not_allowed"

def message : Error → String
  | commandNotFound command => s!"command not found: {command}"
  | spawnFailed reason => s!"command failed to spawn: {reason}"
  | timeout after => s!"command timed out after {after.message}"
  | io error => s!"I/O error: {error.message}"
  | invalidPath reason => s!"invalid command path: {reason}"
  | notAllowed command => s!"command not in allowlist: {command}"

/-- What the error means for a query. A timeout stays one; all else leaves the backend unavailable. -/
def failure (backend : String) : Error → Failure
  | timeout after => .timeout backend after
  | commandNotFound _ => .backendUnavailable backend "not installed or not on PATH"
  | notAllowed command => .backendUnavailable backend s!"{command} is not allowlisted"
  | invalidPath reason | spawnFailed reason => .backendUnavailable backend reason
  | io error => .backendUnavailable backend error.message

end Error

end ProcessProbe.Diagnostic
