import ProcessProbe.CommandLine.Answer

/-!
# Running a command line

A run takes its settings from the environment and the options, inquires, reports what it does to the journal, and
answers.
-/

namespace ProcessProbe.CommandLine

open Journal (Level EventName Stage)

/-- The names of a run and of its machine, which every event of the program carries. -/
structure Run where
  run : String
  host : String
  deriving Repr, DecidableEq

namespace Run

def span (r : Run) : Journal.Span := ⟨.info, "pq_core", "pq", [("run_id", .text r.run), ("host_id", .text r.host)]⟩

def report (r : Run) (level : Level) (name : EventName) (stage : Stage) (message : String) (fields : Journal.Fields) :
    Inquiry Unit :=
  Inquiry.record (.event ⟨level, name.text, some (.text message),
    [("run_id", .text r.run), ("host_id", .text r.host), ("stage", .text stage.name)] ++ fields⟩)

end Run

/-- The settings of the environment with those of the options over them, or the message that refuses them. -/
def settings (r : Run) (o : Options) : Inquiry (Except String Settings) := do
  match ← Inspector.environmentSettings with
  | .error e => do
    r.report .error .configError .init "invalid environment" [("error", .text e.message)]
    return .error s!"{programName}: {e.message}"
  | .ok settings =>
    if o.timeoutMillis = some 0 then return .error s!"{programName}: --timeout-ms must be greater than zero"
    else do
      let settings := { settings with toolTimeout := o.timeoutMillis.elim settings.toolTimeout .ofMillis }
      r.report .debug .configLoaded .init "configuration loaded"
        [("tool_timeout_ms", .integer settings.timeoutMillis),
          ("proc_root", .text settings.procRoot.shown)]
      return .ok settings

def failed (r : Run) (o : Options) (command : Subcommand) (stage : Stage) (h : Handle) (f : Failure) :
    Inquiry Answer := do
  r.report .warn .queryFailed stage "query failed"
    [("pid", .integer h.toInt), ("kind", .text f.kind.name), ("error", .text f.message)]
  return .ofFailure o.format command (some h) (← Inquiry.timestamp) f

def children (r : Run) (o : Options) (i : Inspector) (h : Handle) (strategy : Option Subprocesses.Strategy) :
    Inquiry Answer := do
  match ← (strategy.elim (i.hasSubprocesses h) (i.hasSubprocessesVia · h)).outcome with
  | .ok answer => do
    r.report .info .queryFinished .detect "subprocess query answered"
      [("pid", .integer h.toInt), ("has_subprocesses", .bool answer)]
    return .ofChildren o.format h (strategy.elim "auto" (·.name)) (← Inquiry.timestamp) answer
  | .error f => failed r o .children .detect h f

def directory (r : Run) (o : Options) (i : Inspector) (h : Handle) (strategy : WorkingDirectory.Strategy) :
    Inquiry (Option Answer) := do
  match ← (i.workingDirectoryVia strategy h).outcome with
  | .ok path => do
    r.report .info .queryFinished .resolve "working directory resolved"
      [("pid", .integer h.toInt), ("cwd", .text path.shown)]
    let name := if strategy = .generic then "auto" else strategy.name
    return Answer.ofDirectory? o.format h name (← Inquiry.timestamp) path
  | .error f => return some (← failed r o .directory .resolve h f)

def relations (r : Run) (o : Options) (i : Inspector) (source : Source) (parent : Option Handle) : Inquiry Answer := do
  match ← (i.relations source).outcome with
  | .ok table => return .ofRelations o.format source parent (← Inquiry.timestamp) table
  | .error f => do
    r.report .warn .queryFailed .enumerate "enumeration failed"
      [("source", .text source.name), ("error", .text f.message)]
    return .ofFailure o.format .relations none (← Inquiry.timestamp) f

/-- The answer to a command; none if its payload cannot be written. -/
def answer (r : Run) (o : Options) (settings : Settings) : Command → Inquiry (Option Answer)
  | .children h .every => do
    let outcomes ← (← Inspector.detect settings).hasSubprocessesAll h
    let time ← Inquiry.timestamp
    return Answer.ofOutcomes? o.format .children h time (·.name) (· == ·) .ofBool (some <| .bool ·) outcomes
  | .children h .auto => do return some (← children r o (← Inspector.detect settings) h none)
  | .children h (.only s) => do return some (← children r o (← Inspector.detect settings) h (some s))
  | .directory h .every => do
    let outcomes ← (← Inspector.detect settings).workingDirectoryAll h
    return Answer.ofOutcomes? o.format .directory h (← Inquiry.timestamp) (·.name) Path.same (fun _ => .ok)
      Settings.pathToJson? outcomes
  | .directory h .auto => do directory r o (← Inspector.detect settings) h .generic
  | .directory h (.only s) => do directory r o (← Inspector.detect settings) h s
  | .relations source parent => do return some (← relations r o (← Inspector.detect settings) source parent)
  | .capabilities => do return Answer.ofCapabilities? o.format (← Inspector.detect settings)
  | .version => return some (.ofVersion o.format)

/-- How a run ends: with an answer, or without one because its payload cannot be written. -/
inductive Outcome where
  | answered (answer : Answer)
  | unwritable
  deriving Repr

def Outcome.exit : Outcome → Nat
  | answered answer => answer.code.code
  | unwritable => 101

def run (line : CommandLine) : Inquiry Outcome := do
  let (name, host) ← Inquiry.identity
  let r : Run := ⟨name, host⟩
  Inquiry.record (.enter r.span)
  r.report .info .runStarted .init "starting pq-core" []
  let answer? ← match ← settings r line.options with
    | .ok settings => answer r line.options settings line.command
    | .error message => pure (some ⟨.arguments, .nothing, [message]⟩)
  match answer? with
  | none => return .unwritable
  | some answer => do
    r.report .info .runFinished .init "pq-core finished" [("exit_code", .integer answer.code.code)]
    return .answered answer

def journalOptions (line : CommandLine) : Inquiry Journal.Options := do
  let level ← Inspector.environmentText Journal.Options.levelVariable
  let format ← Inspector.environmentText Journal.Options.formatVariable
  let directives ← Inspector.environmentText Journal.Options.directivesVariable
  let lookup (name : String) : Option String :=
    if name = Journal.Options.levelVariable then level
    else if name = Journal.Options.formatVariable then format
    else if name = Journal.Options.directivesVariable then directives
    else none
  return .ofEnvironment lookup (Journal.Options.ofFlags line.options.quiet line.options.verbosity) line.options.journal

end ProcessProbe.CommandLine
