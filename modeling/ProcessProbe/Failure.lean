import ProcessProbe.Json.Basic
import ProcessProbe.Text.Duration

/-!
# Failures of a query

Why a question about a process has no answer. A failure of the tooling lets the next strategy try; a statement about
the process itself, a timeout and a bad handle are final.
-/

namespace ProcessProbe

inductive Failure where
  | notFound (pid : Nat)
  | permissionDenied (pid : Nat) (detail : String)
  | backendUnavailable (backend reason : String)
  | parse (backend message : String)
  | timeout (backend : String) (after : Duration)
  | unavailable (pid : Nat) (reason : String)
  | invalidHandle (raw : Int)
  deriving Repr, DecidableEq

namespace Failure

inductive Kind where
  | notFound
  | permissionDenied
  | backendUnavailable
  | parseError
  | timeout
  | unavailable
  | invalidHandle
  deriving Repr, DecidableEq

def Kind.all : List Kind :=
  [.notFound, .permissionDenied, .backendUnavailable, .parseError, .timeout, .unavailable, .invalidHandle]

def Kind.name : Kind → String
  | .notFound => "not_found"
  | .permissionDenied => "permission_denied"
  | .backendUnavailable => "backend_unavailable"
  | .parseError => "parse_error"
  | .timeout => "timeout"
  | .unavailable => "unavailable"
  | .invalidHandle => "invalid_handle"

def Kind.ofName? (name : String) : Option Kind := Kind.all.find? (·.name == name)

inductive Category where
  | target
  | backend
  | input
  deriving Repr, DecidableEq

def Category.all : List Category := [.target, .backend, .input]

def Category.name : Category → String
  | .target => "target"
  | .backend => "backend"
  | .input => "input"

def Category.ofName? (name : String) : Option Category := Category.all.find? (·.name == name)

def kind : Failure → Kind
  | notFound _ => .notFound
  | permissionDenied .. => .permissionDenied
  | backendUnavailable .. => .backendUnavailable
  | parse .. => .parseError
  | timeout .. => .timeout
  | unavailable .. => .unavailable
  | invalidHandle _ => .invalidHandle

def Kind.category : Kind → Category
  | .notFound | .permissionDenied | .unavailable => .target
  | .backendUnavailable | .parseError | .timeout => .backend
  | .invalidHandle => .input

def category (f : Failure) : Category := f.kind.category

/-- Whether another strategy may do better. -/
def mayFallBack (f : Failure) : Bool := f.kind == .backendUnavailable || f.kind == .parseError

/-- The number that scripts know a failure by. -/
def Kind.code : Kind → Nat
  | .notFound => 21
  | .permissionDenied => 22
  | .unavailable => 23
  | .backendUnavailable => 30
  | .parseError => 31
  | .timeout => 32
  | .invalidHandle => 40

/-- What the user may do about it. -/
def Kind.remediation : Kind → String
  | .notFound => "The process exited or the pid was never valid"
  | .permissionDenied => "Run as the process owner or with elevated privileges"
  | .backendUnavailable => "Install ps/pgrep/lsof or run on a host with /proc mounted"
  | .parseError => "The diagnostic tool produced unexpected output; try another strategy"
  | .timeout => "Raise --timeout-ms or PQ_TOOL_TIMEOUT_MS"
  | .unavailable => "The directory was removed while the process still uses it"
  | .invalidHandle => "Process ids are positive integers"

def message : Failure → String
  | notFound pid => s!"process {pid} not found"
  | permissionDenied pid detail => s!"permission denied inspecting process {pid}: {detail}"
  | backendUnavailable backend reason => s!"backend {backend} unavailable: {reason}"
  | parse backend message => s!"failed to parse {backend} output: {message}"
  | timeout backend after => s!"{backend} timed out after {after.message}"
  | unavailable pid reason => s!"working directory of process {pid} unavailable: {reason}"
  | invalidHandle raw => s!"invalid process handle: {raw}"

def toJson (f : Failure) : Json :=
  .object [("code", .ofNat f.kind.code), ("kind", .text f.kind.name), ("category", .text f.category.name),
    ("message", .text f.message), ("fallback_eligible", .bool f.mayFallBack), ("remediation", .text f.kind.remediation)]

end Failure

end ProcessProbe
