import ProcessProbe.Failure

/-!
# Exit codes

The codes 0 and 1 carry an answer, those from 10 to 19 a fault of the caller or its environment, and those from 20
on an internal one.
-/

namespace ProcessProbe

inductive ExitCode where
  | ok
  | no
  | arguments
  | capability
  | permission
  | notFound
  | unavailable
  | internal
  | io
  | timeout
  deriving Repr, DecidableEq

namespace ExitCode

def all : List ExitCode :=
  [ok, no, arguments, capability, permission, notFound, unavailable, internal, io, timeout]

def code : ExitCode → Nat
  | ok => 0
  | no => 1
  | arguments => 10
  | capability => 11
  | permission => 12
  | notFound => 13
  | unavailable => 14
  | internal => 20
  | io => 21
  | timeout => 22

def name : ExitCode → String
  | ok => "OK"
  | no => "OK_FALSE"
  | arguments => "ERR_ARGS"
  | capability => "ERR_CAPABILITY"
  | permission => "ERR_PERMISSION"
  | notFound => "ERR_NOT_FOUND"
  | unavailable => "ERR_UNAVAILABLE"
  | internal => "ERR_INTERNAL"
  | io => "ERR_IO"
  | timeout => "ERR_TIMEOUT"

def message (c : ExitCode) : String := s!"{c.name} ({c.code})"

def isAnswer (c : ExitCode) : Bool := c.code < 10

def isUserError (c : ExitCode) : Bool := 10 ≤ c.code && c.code < 20

def isInternalError (c : ExitCode) : Bool := 20 ≤ c.code

/-- The answer to a yes-or-no question. -/
def ofBool : Bool → ExitCode
  | true => ok
  | false => no

def ofFailure (f : Failure) : ExitCode :=
  match f.kind with
  | .notFound => notFound
  | .permissionDenied => permission
  | .backendUnavailable => capability
  | .parseError => internal
  | .timeout => timeout
  | .unavailable => unavailable
  | .invalidHandle => arguments

theorem not_isAnswer_ofFailure (f : Failure) : (ofFailure f).isAnswer = false := by cases f <;> rfl

end ExitCode

end ProcessProbe
