import ProcessProbe.CommandLine.Basic
import ProcessProbe.ExitCode
import ProcessProbe.Json.Printer

/-!
# Answers

What the program answers to a command line: a payload for the standard output, messages for the error stream, and an
exit code. A payload is an object or a line for people.
-/

namespace ProcessProbe.CommandLine

inductive Payload where
  | nothing
  | object (fields : List (String × Json))
  | lines (lines : List String)
  deriving Repr

structure Answer where
  code : ExitCode
  payload : Payload
  messages : List String
  deriving Repr

namespace Answer

/-- A name and what is said about it, in columns. -/
def column (name text : String) : String := name ++ String.ofList (List.replicate (14 - name.length) ' ') ++ " " ++ text

def ofFailure (format : Format) (command : Subcommand) (h : Option Handle) (time : String) (f : Failure) : Answer :=
  match format with
  | .json =>
    ⟨.ofFailure f,
      .object [("command", .text command.name), ("pid", .ofOption Handle.toJson h), ("status", .text "error"),
        ("error", f.toJson), ("generated_at", .text time)], []⟩
  | .summary => ⟨.ofFailure f, .nothing, [s!"{programName} {command.name}: {f.message}"]⟩

def ofChildren (format : Format) (h : Handle) (strategy : String) (time : String) (answer : Bool) : Answer :=
  let payload := match format with
    | .json => .object [("command", .text Subcommand.children.name), ("pid", h.toJson), ("strategy", .text strategy),
        ("has_subprocesses", .bool answer), ("generated_at", .text time)]
    | .summary => .lines [h.message ++ (if answer then ": has children" else ": no children")]
  ⟨.ofBool answer, payload, []⟩

def ofDirectory? (format : Format) (h : Handle) (strategy : String) (time : String) (path : Path) : Option Answer :=
  match format with
  | .json => (Settings.pathToJson? path).map fun written =>
    ⟨.ok, .object [("command", .text Subcommand.directory.name), ("pid", h.toJson), ("strategy", .text strategy),
      ("cwd", written), ("generated_at", .text time)], []⟩
  | .summary => some ⟨.ok, .lines [path.shown], []⟩

def ofRelations (format : Format) (source : Source) (parent : Option Handle) (time : String) (t : RelationTable) :
    Answer :=
  let payload := match format, parent with
    | .json, some p => .object [("command", .text Subcommand.relations.name), ("source", .text source.name),
        ("parent", p.toJson), ("parent_found", .bool (t.contains p)),
        ("children", .ofList Handle.toJson (t.childrenOf p)), ("generated_at", .text time)]
    | .json, none => .object [("command", .text Subcommand.relations.name), ("source", .text source.name),
        ("count", .ofNat t.size), ("relations", .ofList Relation.toJson t.rows), ("generated_at", .text time)]
    | .summary, some p => .lines
        [s!"{(t.childrenOf p).length} children of {p.message} ({t.size} processes seen via {source.name})"]
    | .summary, none => .lines [s!"{t.size} processes seen via {source.name}"]
  ⟨.ok, payload, []⟩

def ofCapabilities? (format : Format) (i : Inspector) : Option Answer :=
  match format with
  | .json => i.settings.toJson?.map fun settings =>
    ⟨.ok, .object [("command", .text Subcommand.capabilities.name), ("capabilities", i.capabilities.toJson),
      ("config", settings),
      ("subprocess_order", .ofList (.text ·.name) Subprocesses.Strategy.platformOrder),
      ("cwd_order", .ofList (.text ·.name) WorkingDirectory.Strategy.platformOrder)], []⟩
  | .summary => some ⟨.ok, .lines [i.capabilities.summary], []⟩

def ofVersion (format : Format) : Answer :=
  let payload := match format with
    | .json => .object [("pq_core_version", .text programVersion), ("rust_version", .text "1.80")]
    | .summary => .lines [s!"{programName} {programVersion}"]
  ⟨.ok, payload, []⟩

variable {S α : Type}

def values (outcomes : List (S × Except Failure α)) : List α :=
  outcomes.filterMap fun (_, outcome) => outcome.toOption

/-- Whether each value is the same as the one before it. -/
def agree (same : α → α → Bool) (values : List α) : Bool := (values.zip values.tail).all fun (a, b) => same a b

/-- The exit code of outcomes that are compared. Values that disagree are an internal error; without any value the last
failure decides. -/
def compared (same : α → α → Bool) (code : α → ExitCode) (outcomes : List (S × Except Failure α)) : ExitCode :=
  match values outcomes with
  | [] =>
    match outcomes.getLast? with
    | some (_, .error f) => .ofFailure f
    | _ => .capability
  | first :: rest => if agree same (first :: rest) then code first else .internal

/-- The result of one strategy. -/
def resultToJson? (name : S → String) (write : α → Option Json) (s : S) : Except Failure α → Option Json
  | .ok a => (write a).map fun value =>
    .object [("strategy", .text (name s)), ("status", .text "ok"), ("value", value)]
  | .error f => some (.object [("strategy", .text (name s)), ("status", .text "error"), ("error", f.toJson)])

/-- The outcomes of all strategies side by side. There is no object if one of the values cannot be written. -/
def ofOutcomes? (format : Format) (command : Subcommand) (h : Handle) (time : String) (name : S → String)
    (same : α → α → Bool) (code : α → ExitCode) (write : α → Option Json) (outcomes : List (S × Except Failure α)) :
    Option Answer :=
  match format with
  | .json => (outcomes.mapM fun (s, outcome) => resultToJson? name write s outcome).map fun results =>
    ⟨compared same code outcomes,
      .object [("command", .text command.name), ("pid", h.toJson), ("results", .array results),
        ("agree", .bool (agree same (values outcomes))), ("generated_at", .text time)], []⟩
  | .summary =>
    let line (s : S) : Except Failure α → String
      | .ok a => column (name s) ((write a).elim "" Json.compact)
      | .error f => column (name s) s!"error: {f.message}"
    some ⟨compared same code outcomes, .lines (outcomes.map fun (s, outcome) => line s outcome), []⟩

end Answer

end ProcessProbe.CommandLine
