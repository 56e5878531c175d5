import ProcessProbe.Diagnostic.Policy

/-!
# Settings

How long a diagnostic may take, how much of its output is kept, and where the process file system is. Each value is a
default that a variable of the environment replaces, and that a caller may replace again.
-/

namespace ProcessProbe

structure Settings where
  toolTimeout : Duration
  maxOutputBytes : Nat
  procRoot : Path
  deriving Repr, DecidableEq

namespace Settings

def defaultProcRoot : Path := .ofString "/proc"

def default : Settings := ⟨.ofMillis 5000, 10 * 1024 * 1024, defaultProcRoot⟩

def timeoutVariable : String := "PQ_TOOL_TIMEOUT_MS"

def outputVariable : String := "PQ_MAX_OUTPUT_BYTES"

def rootVariable : String := "PQ_PROC_ROOT"

/-- A variable of the environment with a value that cannot be used. -/
structure Invalid where
  name : String
  value : String
  reason : String
  deriving Repr, DecidableEq

def Invalid.message (e : Invalid) : String :=
  s!"invalid {e.name}={Text.quote e.value.toList}: {e.reason}"

/-- A positive number of 64 bits between blanks. -/
def positive (name value : String) : Except Invalid Nat :=
  match Text.readNat Text.maxU64 (Text.trim value.toList) with
  | .ok 0 => .error ⟨name, value, "must be greater than zero"⟩
  | .ok n => .ok n
  | .error defect => .error ⟨name, value, defect.message⟩

/-- An absolute path between blanks. -/
def absolutePath (name value : String) : Except Invalid Path :=
  let path : Path := ⟨Utf8.encode (Text.trim value.toList)⟩
  if path.isAbsolute then .ok path else .error ⟨name, value, "must be an absolute path"⟩

/-- The value of a variable, or the default if it is not set. -/
def setting {α : Type} (read : String → String → Except Invalid α) (name : String) (lookup : String → Option String)
    (default : α) : Except Invalid α :=
  match lookup name with
  | some value => read name value
  | none => .ok default

/-- The settings of an environment. The first variable that is invalid makes it so. -/
def ofEnvironment (lookup : String → Option String) : Except Invalid Settings := do
  let timeout ← setting positive timeoutVariable lookup default.toolTimeout.toMillis
  let output ← setting positive outputVariable lookup default.maxOutputBytes
  let root ← setting absolutePath rootVariable lookup default.procRoot
  return ⟨.ofMillis timeout, output, root⟩

/-- Whether the process file system is the one that the host mounts. -/
def usesDefaultRoot (s : Settings) : Bool := s.procRoot.same defaultProcRoot

def policy (s : Settings) : Diagnostic.Policy := ⟨s.toolTimeout, s.maxOutputBytes, Diagnostic.tools⟩

/-- A path is written as the text it encodes, and one that encodes none cannot be written. -/
def pathToJson? (p : Path) : Option Json := (Utf8.decode? p.bytes).map fun s => .text (String.ofList s)

/-- The timeout in whole milliseconds, of which 64 bits are kept. -/
def timeoutMillis (s : Settings) : Nat := s.toolTimeout.toMillis % (Text.maxU64 + 1)

def toJson? (s : Settings) : Option Json :=
  (pathToJson? s.procRoot).map fun root =>
    .object [("tool_timeout_ms", .ofNat s.timeoutMillis), ("max_output_bytes", .ofNat s.maxOutputBytes),
      ("proc_root", root)]

def ofJson? (v : Json) : Option Settings := do
  match ← Json.record? ["tool_timeout_ms", "max_output_bytes", "proc_root"] v with
  | [timeout, output, root] =>
    return ⟨.ofMillis (← Json.required? (Json.nat? Text.maxU64) timeout),
      ← Json.required? (Json.nat? Text.maxU64) output, .ofString (← Json.required? Json.text? root)⟩
  | _ => none

end Settings

end ProcessProbe
