import ProcessProbe.CommandLine.Help
import ProcessProbe.CommandLine.Run
import ProcessProbe.Journal.Line
import ProcessProbe.Text.Timestamp

/-!
# The program

Serves the requests of a command line on this machine, as far as files can tell, and prints the answer. Processes are
looked up in the process file system. Diagnostics are not started, as if none were installed.

A link is not read but resolved, so one that leads to a removed directory counts as missing. Permission bits are not
read either, and taken to be unset, so that no file counts as executable.
-/

namespace ProcessProbe.Local

/-- Where the journal goes, and the spans that are open in it. -/
structure Memory where
  options : Journal.Options
  scopes : List Journal.Scope

def systemError : IO.Error → SystemError
  | .noFileOrDirectory .. => .noSuchEntry
  | .noSuchThing _ code _ | .permissionDenied _ code _ | .inappropriateType _ code _ | .invalidArgument _ code _
  | .otherError code _ => .numbered code.toNat
  | e => .unnumbered (toString e)

def attempt {α : Type} (action : IO α) : IO (Except SystemError α) := do
  try return .ok (← action) catch e => return .error (systemError e)

def resolve (path : Path) : IO (Except SystemError Path) :=
  attempt do return .ofString (← IO.FS.realPath path.shown).toString

def list (path : Path) : IO (Except SystemError (List Bytes)) :=
  attempt do
    let directory ← IO.FS.realPath path.shown
    return (← directory.readDir).toList.map fun entry => Bytes.ofString entry.fileName

def isPresent (path : Path) : IO Bool := do return (← resolve path).toOption.isSome

def isDirectory (path : Path) : IO Bool := do
  match ← attempt (IO.FS.realPath path.shown) with
  | .ok entry => entry.isDir
  | .error _ => return false

def metadata (path : Path) : IO (Except SystemError Metadata) :=
  attempt do
    let data ← (← IO.FS.realPath path.shown).metadata
    match data.type with
    | .file => return ⟨.file, 0⟩
    | .dir => return ⟨.directory, 0⟩
    | _ => return ⟨.other, 0⟩

def firstLine (file default : String) : IO String := do
  match ← attempt (IO.FS.readFile file) with
  | .ok text => return ((text.splitOn "\n").headD default)
  | .error _ => return default

def ownPid : IO Nat := do
  match ← resolve (.ofString "/proc/self") with
  | .ok path => return ((path.fileName?.map Bytes.shown).bind String.toNat?).getD 0
  | .error _ => return 0

/-- The time at which the program started, which is that of its entry in the process file system. -/
def timestamp : IO String := do
  match ← attempt (do (← IO.FS.realPath "/proc/self").metadata) with
  | .ok data => return Text.timestamp data.modified.sec.toNat data.modified.nsec.toNat
  | .error _ => return Text.timestamp 0 0

def identity : IO (String × String) := do
  let random ← IO.getRandomBytes 6
  let digits := random.toList.flatMap fun b => Text.hexDigits (b.toNat / 16) ++ Text.hexDigits (b.toNat % 16)
  let machine := (← firstLine "/etc/machine-id" "").toList.take 8
  return ("run-" ++ String.ofList digits, "host-" ++ String.ofList (machine ++ List.replicate (8 - machine.length) '0'))

def platform : IO Platform := do
  return ⟨"linux", some (← firstLine "/proc/sys/kernel/osrelease" "unknown"),
    ← firstLine "/proc/sys/kernel/arch" "unknown"⟩

/-- A line of the journal for people: level, name and message, and the other values. -/
def humanLine (line : Json) : String :=
  " ".intercalate (["level", "event", "message", "fields"].filterMap fun name =>
    (line.get? name).map fun value =>
      match value with
      | .text s => s
      | value => value.compact)

/-- Writes an entry of the journal to the error stream. -/
def record (entry : Journal.Entry) : StateT Memory IO Unit := do
  let memory ← get
  match Journal.lineOf? memory.options.filter (← timestamp) memory.scopes entry, memory.options.format with
  | some line, .jsonl => IO.eprintln line.compact
  | some line, .human => IO.eprintln (humanLine line)
  | none, _ => pure ()
  set { memory with scopes := Journal.scopesAfter memory.options.filter memory.scopes entry }

def answer : (request : Request) → StateT Memory IO request.Answer
  | .probe pid => do
    let there ← isPresent (.ofString s!"/proc/{pid}")
    return if there then .ok () else .error .noSuchProcess
  | .readFile path => attempt do return (← IO.FS.readBinFile path.shown).toList
  | .readLink path => resolve path
  | .resolve path => resolve path
  | .list path => list path
  | .isPresent path => isPresent path
  | .isDirectory path => isDirectory path
  | .metadata path => metadata path
  | .run _ => return .notStarted .noSuchEntry
  | .diagnosticsSince _ => return []
  | .clock => IO.monoNanosNow
  | .record entry => record entry
  | .environment name => do return (← IO.getEnv name).map Bytes.ofString
  | .ownPid => ownPid
  | .platform => platform
  | .timestamp => timestamp
  | .identity => identity

/-- Answers one request after the other until the inquiry is done. -/
def serve {α : Type} : Inquiry α → StateT Memory IO α
  | .done value => return value
  | .ask request next => do serve (next (← answer request))

def print (answer : CommandLine.Answer) : IO Unit := do
  match answer.payload with
  | .nothing => pure ()
  | .object fields => IO.println (Json.object fields).pretty
  | .lines lines => lines.forM fun line => IO.println line
  answer.messages.forM fun message => IO.eprintln message

def run (args : List String) : IO Nat := do
  match CommandLine.read args with
  | .help => do
    CommandLine.helpLines.forM fun line => IO.println line
    return ExitCode.ok.code
  | .version command => do
    IO.println (CommandLine.versionLine command)
    return ExitCode.ok.code
  | .refused => do
    CommandLine.helpLines.forM fun line => IO.eprintln line
    return ExitCode.arguments.code
  | .run line => do
    let (options, memory) ← (serve (CommandLine.journalOptions line)).run ⟨.default, []⟩
    let (outcome, _) ← (serve (CommandLine.run line)).run { memory with options }
    match outcome with
    | .answered answer => print answer
    | .unwritable => pure ()
    return outcome.exit

end ProcessProbe.Local

def main (args : List String) : IO UInt32 := do return (← ProcessProbe.Local.run args).toUInt32
