import ProcessProbe.Capability.Detection
import ProcessProbe.Query.Order
import ProcessProbe.Query.Subprocesses
import ProcessProbe.Query.WorkingDirectory
import ProcessProbe.Settings

/-!
# The inspector

Answers questions about processes with given settings on a host with given capabilities. It keeps nothing about any
process, so every answer is a fresh one.
-/

namespace ProcessProbe

open Journal (Stage)

structure Inspector where
  settings : Settings
  capabilities : Capabilities
  deriving Repr, DecidableEq

namespace Inspector

def detect (settings : Settings) : Inquiry Inspector := do return ⟨settings, ← Capabilities.detect⟩

/-- A process file system in another place is trusted; detection looks at the usual one only. -/
def procfsUsable (i : Inspector) : Bool := !i.settings.usesDefaultRoot || i.capabilities.procfs

/-- Lets a strategy through if its backend is usable. -/
def gate (usable : Bool) (backend : String) : Except Failure Unit :=
  if usable then .ok () else .error (.backendUnavailable backend "not available on this host")

def subprocessGate (i : Inspector) : Subprocesses.Strategy → Except Failure Unit
  | .generic => gate i.capabilities.ps.usable "ps"
  | .processGroup => gate i.capabilities.pgrep.usable "pgrep"
  | .native => gate i.capabilities.nativeApi "native"
  | .procfs => gate i.procfsUsable "procfs"

def directoryGate (i : Inspector) : WorkingDirectory.Strategy → Except Failure Unit
  | .lsof => gate i.capabilities.lsof.usable "lsof"
  | .procfs => gate i.procfsUsable "procfs"
  | .generic => .ok ()

/-- The answer of one strategy, without regard to its gate. -/
def detectChildren (i : Inspector) (h : Handle) (s : Subprocesses.Strategy) : Query Bool :=
  Subprocesses.detect i.settings.policy i.settings.procRoot i.capabilities.selectsStates h s

def resolveDirectory (i : Inspector) (h : Handle) (s : WorkingDirectory.Strategy) : Query Path :=
  WorkingDirectory.resolve i.settings.policy i.settings.procRoot h s

/-- The span of a query on a process. -/
def span (name : String) (stage : Stage) (h : Handle) (strategy : Option String) : Journal.Span :=
  ⟨.info, "pq_core::query", name,
    [("stage", .text stage.name), ("pid", .text h.message)] ++ strategy.toList.map fun s => ("strategy", .text s)⟩

def hasSubprocesses (i : Inspector) (h : Handle) : Query Bool :=
  Query.within (span "has_subprocesses" .detect h none) <|
    Query.tryOrder Subprocesses.Strategy.name h i.subprocessGate (i.detectChildren h)
      Subprocesses.Strategy.platformOrder

def hasSubprocessesVia (i : Inspector) (s : Subprocesses.Strategy) (h : Handle) : Query Bool :=
  Query.within (span "has_subprocesses_via" .detect h (some s.name)) (i.detectChildren h s)

/-- The canonical path of the working directory of a process. -/
def workingDirectory (i : Inspector) (h : Handle) : Query Path :=
  Query.within (span "working_directory" .resolve h none) <|
    Query.tryOrder WorkingDirectory.Strategy.name h i.directoryGate (i.resolveDirectory h)
      WorkingDirectory.Strategy.platformOrder

/-- The working directory by one strategy; the default one tries them in order. -/
def workingDirectoryVia (i : Inspector) (s : WorkingDirectory.Strategy) (h : Handle) : Query Path :=
  Query.within (span "working_directory_via" .resolve h (some s.name)) <|
    match s with
    | .generic => i.workingDirectory h
    | s => i.resolveDirectory h s

def relations (i : Inspector) (source : Source) : Query RelationTable :=
  RelationTable.capture i.settings.policy i.settings.procRoot source

/-- The outcome of each strategy. One with a closed gate fails without being tried. -/
def outcomes {S α : Type} (gate : S → Except Failure Unit) (attempt : S → Query α) :
    List S → Inquiry (List (S × Except Failure α))
  | [] => return []
  | s :: rest => do
    let outcome ← match gate s with
      | .error failure => pure (.error failure)
      | .ok () => (attempt s).outcome
    return (s, outcome) :: (← outcomes gate attempt rest)

def hasSubprocessesAll (i : Inspector) (h : Handle) : Inquiry (List (Subprocesses.Strategy × Except Failure Bool)) :=
  outcomes i.subprocessGate (i.detectChildren h) Subprocesses.Strategy.all

/-- The strategies that find a working directory themselves, in the order in which all of them are reported. -/
def directoryStrategies : List WorkingDirectory.Strategy := [.procfs, .lsof]

def workingDirectoryAll (i : Inspector) (h : Handle) :
    Inquiry (List (WorkingDirectory.Strategy × Except Failure Path)) :=
  outcomes i.directoryGate (i.resolveDirectory h) directoryStrategies

/-- The value of a variable of the environment, if it is a text. -/
def environmentText (name : String) : Inquiry (Option String) := do
  return ((← Inquiry.environment name).bind Utf8.decode?).map String.ofList

def environmentSettings : Inquiry (Except Settings.Invalid Settings) := do
  let timeout ← environmentText Settings.timeoutVariable
  let output ← environmentText Settings.outputVariable
  let root ← environmentText Settings.rootVariable
  return Settings.ofEnvironment fun name =>
    if name = Settings.timeoutVariable then timeout
    else if name = Settings.outputVariable then output
    else if name = Settings.rootVariable then root
    else none

/-- The inspector of the caller's environment. An environment with an invalid variable is reported and left aside. -/
def ofEnvironment : Inquiry Inspector := do
  match ← environmentSettings with
  | .ok settings => detect settings
  | .error e => do
    Inquiry.record (.event ⟨.warn, Journal.EventName.configError.text,
      some (.text "ignoring invalid environment, using defaults"), [("error", .text e.message)]⟩)
    detect .default

end Inspector

end ProcessProbe
