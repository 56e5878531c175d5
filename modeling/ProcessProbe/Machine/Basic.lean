import ProcessProbe.Diagnostic.Supervision
import ProcessProbe.Host.Inquiry
import ProcessProbe.Machine.FileSystem

/-!
# Machines

A machine is a host whose state is a value: its files, the processes that a signal reaches, the responses of its
diagnostics, and faults that its system calls meet. It keeps the journal and the runs of diagnostics, so what an inquiry
does on it can be computed and reasoned about.
-/

namespace ProcessProbe

namespace Machine

inductive Part where
  | bytes (bytes : Bytes)
  | ownPid
  deriving Repr, DecidableEq

def Part.printed (pid : Nat) : Part → Bytes
  | bytes b => b
  | ownPid => Bytes.ofString (toString pid)

/-- What a diagnostic does when it is run with `args`: it prints, takes its time after that, and exits or dies of a
signal. -/
structure Response where
  args : List String
  stdout : List Part
  stderr : Bytes
  signalled : Bool
  exit : Int
  delay : Duration
  deriving Repr, DecidableEq

inductive Call where
  | link
  | canonical
  | file
  | directory
  deriving Repr, DecidableEq

end Machine

/-- A host that is computed. Diagnostics have their own files under `home`; `otherwise` is the response to arguments
that they have none for. A process that has no entry in `signals` does not exist, and the entry says what a signal
meets, `none` for success. A fault of `none` was mended. The first entry of a list counts, and `journal` and `runs` have
the last one first. -/
structure Machine where
  home : Path
  files : Machine.FileSystem
  signals : List (Int × Option SystemError)
  faults : List ((Machine.Call × Path) × Option SystemError)
  responses : List (Bytes × List Machine.Response)
  otherwise : Machine.Response
  environment : List (String × Bytes)
  platform : Platform
  caller : Nat
  next : Nat
  now : Diagnostic.Instant
  registry : Diagnostic.Registry
  timestamp : String
  identity : String × String
  journal : List Journal.Entry
  runs : List (List String)
  deriving Repr

namespace Machine

variable {α : Type}

/-- A diagnostic that prints nothing and exits with a status. -/
def Response.silent (exit : Int) : Response := ⟨[], [], [], false, exit, .ofMillis 0⟩

def empty (home : Path) (platform : Platform) (caller : Nat) (timestamp : String) (identity : String × String) :
    Machine :=
  ⟨home, .empty, [], [], [], .silent 1, [], platform, caller, caller + 1, 0, .empty, timestamp, identity, [], []⟩

def faulty (m : Machine) (call : Call) (path : Path) (result : Except SystemError α) : Except SystemError α :=
  match (m.faults.find? (·.1 == (call, path))).bind (·.2) with
  | some e => .error e
  | none => result

/-- No file has a name with a zero byte in it. -/
def zeroByteName : SystemError := .unnumbered "file name contained an unexpected NUL byte"

def holdsZeroByte (path : Path) : Bool := path.bytes.contains 0

/-- The result of a call on a path, which is refused if the path holds a zero byte. -/
def call (m : Machine) (c : Call) (path : Path) (f : FileSystem → Path → Except SystemError α) : Except SystemError α :=
  if holdsZeroByte path then .error zeroByteName else m.faulty c path (f m.files path)

/-- What is known of an entry. The three execute bits of a file go together. -/
def Node.metadata : Node → Metadata
  | directory => ⟨.directory, 0o755⟩
  | file _ executable => ⟨.file, if executable then 0o755 else 0o644⟩
  | tool => ⟨.file, 0o755⟩
  | link _ => ⟨.other, 0o777⟩

/-- The entry that a path leads to, with every link followed. -/
def entry (m : Machine) (path : Path) : Except SystemError Node :=
  if holdsZeroByte path then .error zeroByteName else m.files.lookUp true path

def node? (m : Machine) (path : Path) : Option Node := (m.entry path).toOption

def metadata (m : Machine) (path : Path) : Except SystemError Metadata := (m.entry path).map Node.metadata

def probe (m : Machine) (pid : Int) : Except SystemError Unit :=
  match m.signals.find? (·.1 == pid) with
  | none => .error .noSuchProcess
  | some (_, some e) => .error e
  | some (_, none) => .ok ()

/-- The first line of a script after `#!`, the program that runs it. -/
def interpreter? (content : Bytes) : Option Path :=
  match content with
  | 35 :: 33 :: line => some ⟨((line.takeWhile (· != 10)).dropWhile (· == 32)).takeWhile (· != 32)⟩
  | _ => none

/-- Whether the entry at a path can be run as a diagnostic. -/
def execute (m : Machine) (path : Path) : Except SystemError Unit := do
  match ← m.files.lookUp true path with
  | .tool => return ()
  | .file content true =>
    match interpreter? content with
    | some interpreter => do
      let _ ← m.files.lookUp true interpreter
      throw .badExecutable
    | none => throw .badExecutable
  | _ => throw .accessDenied

/-- The directories that are searched for commands when there is no search path. -/
def defaultSearchPath : Bytes := Bytes.ofString "/bin:/usr/bin"

/-- Tries paths in order. One that is missing gives way to the next, and so does one that may not be run, which is
what the search fails with if there is nothing better. -/
def search (m : Machine) (last : SystemError) : List Path → Except SystemError Path
  | [] => .error last
  | path :: paths =>
    match m.execute path with
    | .ok () => .ok path
    | .error e =>
      if e = .accessDenied then m.search .accessDenied paths
      else if e = .noSuchEntry || e = .notADirectory then m.search last paths
      else .error e

def locate (m : Machine) (command : String) : Except SystemError Path :=
  let path := Path.ofString command
  if path.bytes.contains Path.separator then (m.execute path).map fun () => path
  else if FileSystem.maxName < path.bytes.length then .error .nameTooLong
  else
    let directories := (((m.environment.find? (·.1 == "PATH")).map (·.2)).getD defaultSearchPath)
    m.search .noSuchEntry ((Text.split (· == 58) directories).map fun directory => Path.join ⟨directory⟩ path)

/-- The last name in a path, and the path of the directory above the one that it is in. -/
def homeOf (path : Path) : Bytes × Path :=
  let parts := path.segments
  (parts.getLastD [], ⟨(parts.dropLast.dropLast).foldl (fun out part => out ++ Path.separator :: part) [] |>.drop 1⟩)

/-- How a diagnostic responds that is run by a path, and the name under which its run is noted. It has responses, and
its runs are noted, only if it finds its home from that path. -/
def respond (m : Machine) (path : Path) (args : List String) : Response × Option Bytes :=
  let (name, above) := homeOf path
  match m.files.resolve above with
  | .ok above =>
    if above = m.home then
      let responses := ((m.responses.find? (·.1 == name)).map (·.2)).getD []
      ((responses.find? (·.args == args)).getD m.otherwise, some name)
    else (m.otherwise, none)
  | .error _ => (m.otherwise, none)

/-- What the supervision of a diagnostic meets: everything that it prints, and its end unless it takes too long. -/
def rounds (r : Response) (pid : Nat) (now deadline : Diagnostic.Instant) : List Diagnostic.Round :=
  let out : List Diagnostic.ReadResult := [.data (r.stdout.flatMap (Part.printed pid)), .stopped]
  let err : List Diagnostic.ReadResult := [.data r.stderr, .stopped]
  let ended : Diagnostic.Poll := .ended (if r.signalled then none else some (r.exit % 256))
  if now + r.delay.nanoseconds < deadline then [⟨out, err, ended, now, [.endOfStream], [.endOfStream]⟩]
  else [⟨out, err, .running, deadline, [], []⟩]

def outcome (pid : Nat) (timeout : Duration) : Option Diagnostic.Supervised → Run
  | some ⟨_, .completed c exit⟩ => .finished pid c.stdout.kept c.stderr.kept c.truncated exit
  | some ⟨_, .failed e⟩ => .failed e
  | some ⟨_, .noDeadline⟩ | none => .failed (.timeout timeout)

def start (m : Machine) (i : Invocation) : Run × Machine :=
  match m.locate i.command with
  | .error e => (.notStarted e, m)
  | .ok path =>
    let (response, noted) := m.respond path i.args
    let pid := m.next
    let deadline := m.now + i.timeout.nanoseconds
    let tended := Diagnostic.Supervision.tend m.registry pid (m.now + 1) i.timeout i.limit m.now (.ok ())
      (rounds response pid m.now deadline)
      (deadline, [(deadline, .running), (deadline + Diagnostic.Supervision.grace, .running)])
    let registry := (tended.map (·.2)).getD (m.registry.register m.now pid)
    let call := noted.toList.map fun name => name.shown :: i.args
    (outcome pid i.timeout (tended.map (·.1)),
      { m with registry, next := pid + 1, now := m.now + 2, runs := call ++ m.runs })

def answer : (request : Request) → Machine → request.Answer × Machine
  | .probe pid, m => (m.probe pid, m)
  | .readFile path, m => (m.call .file path FileSystem.readFile, m)
  | .readLink path, m => (m.call .link path FileSystem.readLink, m)
  | .resolve path, m => (m.call .canonical path FileSystem.resolve, m)
  | .list path, m => (m.call .directory path FileSystem.list, m)
  | .isPresent path, m => ((m.node? path).isSome, m)
  | .isDirectory path, m => (m.node? path == some .directory, m)
  | .metadata path, m => (m.metadata path, m)
  | .run invocation, m => m.start invocation
  | .diagnosticsSince since, m => (m.registry.since since, m)
  | .clock, m => (m.now, { m with now := m.now + 1 })
  | .record entry, m => ((), { m with journal := entry :: m.journal })
  | .environment name, m => ((m.environment.find? (·.1 == name)).map (·.2), m)
  | .ownPid, m => (m.caller, m)
  | .platform, m => (m.platform, m)
  | .timestamp, m => (m.timestamp, m)
  | .identity, m => (m.identity, m)

def host : Host Machine := ⟨answer⟩

end Machine

end ProcessProbe
