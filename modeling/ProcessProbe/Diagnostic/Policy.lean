import ProcessProbe.Host.Inquiry
import ProcessProbe.Process.Handle

/-!
# The policy on running diagnostics

Which commands may run, for how long, and how much of their output is kept. A diagnostic runs without a shell, with
an empty standard input and an environment of its search path and the locale `C` only.
-/

namespace ProcessProbe.Diagnostic

/-- What diagnostics may do. Commands are allowed by name or by path, and all of them when none are given. -/
structure Policy where
  timeout : Duration
  maxOutputBytes : Nat
  allowed : List String
  deriving Repr, DecidableEq

namespace Policy

def default : Policy := ⟨.ofMillis 10000, 10 * 1024 * 1024, []⟩

def forbidden : List Char := ['|', '&', ';', '$', '\x60', '\n', '\r', ' ']

def baseName (command : String) : String :=
  match (Path.ofString command).fileName? with
  | some name => name.shown
  | none => command

/-- Whether the policy lets a command run, as far as its text tells. -/
def screen (p : Policy) (command : String) : Except Error Unit :=
  if command.isEmpty || command.toList.any forbidden.contains then
    .error (.invalidPath s!"command contains shell metacharacters: {Text.quote command.toList}")
  else if !p.allowed.isEmpty && !p.allowed.contains command && !p.allowed.contains (baseName command) then
    .error (.notAllowed command)
  else .ok ()

/-- Whether the policy lets a command run; one given by an absolute path has to be there. -/
def check (p : Policy) (command : String) : Inquiry (Except Error Unit) :=
  match p.screen command with
  | .error e => return .error e
  | .ok () =>
    if (Path.ofString command).isAbsolute then do
      let present ← Inquiry.isPresent (.ofString command)
      return if present then .ok () else .error (.commandNotFound command)
    else return .ok ()

def holdsZeroByte (command : String) (args : List String) : Bool :=
  (command :: args).any fun s => s.toList.contains '\x00'

def outcome (command : String) (args : List String) : Run → Except Error Output
  | .notStarted e => .error (if e.isNotFound then .commandNotFound command else .spawnFailed e.message)
  | .failed e => .error e
  | .finished pid stdout stderr truncated exit => .ok ⟨command, args, pid, stdout, stderr, exit, truncated⟩

/-- Runs a command, for as long as the policy says if no other time is given. Every exit status gives an output. -/
def run (p : Policy) (command : String) (args : List String) (timeout : Option Duration) :
    Inquiry (Except Error Output) := do
  match ← p.check command with
  | .error e => return .error e
  | .ok () =>
    if holdsZeroByte command args then return .error (.spawnFailed SystemError.zeroByte.message)
    else
      return outcome command args
        (← Inquiry.start ⟨command, args, timeout.getD p.timeout, p.maxOutputBytes⟩)

end Policy

def tools : List String := ["ps", "pgrep", "lsof"]

def tableArgs : List String := ["-A", "-o", "pid=", "-o", "ppid=", "-o", "stat="]

def stateArgs (h : Handle) : List String := ["-o", "stat=", "-p", h.message]

/-- All run states but that of a zombie. -/
def liveStates : String := "D,R,S,T,t,W,X,P,I"

/-- The report of the children of a process, of live ones only if the tool can select them. -/
def childrenArgs (selectLive : Bool) (h : Handle) : List String :=
  (if selectLive then ["-r", liveStates] else []) ++ ["-P", h.message]

def directoryArgs (h : Handle) : List String := ["-a", "-p", h.message, "-d", "cwd", "-Ffn"]

end ProcessProbe.Diagnostic
