import ProcessProbe.CommandLine.Basic

/-!
# Arguments

Reading a command line. Arguments are read from the left, and the first one that cannot be accepted, or that asks for
help or for the version, ends the reading. What is missing at the end, or does not go together, is refused as well.
Options of the program may stand before and after the name of the command; after it they override.
-/

namespace ProcessProbe.CommandLine

inductive Flag where
  | format
  | verbose
  | quiet
  | timeout
  | journal
  | strategy
  | every
  | source
  | parent
  | help
  | version
  deriving Repr, DecidableEq

namespace Flag

def all : List Flag :=
  [format, verbose, quiet, timeout, journal, strategy, every, source, parent, help, version]

def long : Flag → String
  | format => "format"
  | verbose => "verbose"
  | quiet => "quiet"
  | timeout => "timeout-ms"
  | journal => "log-format"
  | strategy => "strategy"
  | every => "all"
  | source => "source"
  | parent => "parent"
  | help => "help"
  | version => "version"

def short? : Flag → Option Char
  | format => some 'f'
  | verbose => some 'v'
  | quiet => some 'q'
  | help => some 'h'
  | version => some 'V'
  | _ => none

def takesValue : Flag → Bool
  | format | timeout | journal | strategy | source | parent => true
  | verbose | quiet | every | help | version => false

/-- The flags that may stand before a command, or after the name of one. -/
def isKnown (command : Option Subcommand) : Flag → Bool
  | strategy | every => command = some .children || command = some .directory
  | source | parent => command = some .relations
  | _ => true

end Flag

/-- A word of a command line. It is `unknown` when it is no flag of the program, has a value where none belongs, or has
no value where one does. -/
inductive Item where
  | flag (f : Flag)
  | option (f : Flag) (value : String)
  | operand (s : String)
  | unknown
  deriving Repr, DecidableEq

/-- An argument: some items, and perhaps a flag that waits for its value, an operand, or `--`, after which all are
operands. -/
inductive Argument where
  | items (items : List Item) (pending : Option Flag)
  | operand
  | escape
  deriving Repr, DecidableEq

/-- Reads flags of one letter that stand together, the last of which may be followed by its value. -/
def readLetters (command : Option Subcommand) : List Char → List Item × Option Flag
  | [] => ([], none)
  | c :: cs =>
    match Flag.all.find? fun f => f.short? == some c && f.isKnown command with
    | none => ([.unknown], none)
    | some f =>
      if f.takesValue then
        match cs with
        | [] => ([], some f)
        | '=' :: value => ([.option f (String.ofList value)], none)
        | value => ([.option f (String.ofList value)], none)
      else
        let (items, pending) := readLetters command cs
        (.flag f :: items, pending)

/-- Reads a flag that is written out, perhaps with a value after `=`. -/
def readName (command : Option Subcommand) (s : List Char) : List Item × Option Flag :=
  let (name, value) := s.span (· != '=')
  match Flag.all.find? (fun f => f.long == String.ofList name && f.isKnown command), value with
  | none, _ => ([.unknown], none)
  | some f, [] => if f.takesValue then ([], some f) else ([.flag f], none)
  | some f, _ :: value => if f.takesValue then ([.option f (String.ofList value)], none) else ([.unknown], none)

def readArgument (command : Option Subcommand) (arg : String) : Argument :=
  match arg.toList with
  | ['-', '-'] => .escape
  | '-' :: '-' :: name => .items (readName command name).1 (readName command name).2
  | '-' :: c :: cs => .items (readLetters command (c :: cs)).1 (readLetters command (c :: cs)).2
  | _ => .operand

/-- Only an argument that could not be a flag is the value of the one before it. -/
def mayBeValue (arg : String) : Bool := arg == "-" || arg.toList.head? != some '-'

/-- Reads arguments, after a flag that waits for its value if `pending` is one. Before a command they are read up to
its name; the name and what follows it are left. -/
def scan (command : Option Subcommand) (pending : Option Flag) : List String → List Item × List String
  | [] => (if pending.isSome then [.unknown] else [], [])
  | arg :: rest =>
    match pending with
    | some f =>
      if mayBeValue arg then
        let (items, left) := scan command none rest
        (.option f arg :: items, left)
      else ([.unknown], [])
    | none =>
      match readArgument command arg with
      | .escape => (rest.map .operand, [])
      | .operand =>
        if command.isSome then
          let (items, left) := scan command none rest
          (.operand arg :: items, left)
        else ([], arg :: rest)
      | .items found pending =>
        let (items, left) := scan command pending rest
        (found ++ items, left)

/-- What the arguments amount to. The version is told by the program or by one of its commands. -/
inductive Reading where
  | run (line : CommandLine)
  | help
  | version (command : Option Subcommand)
  | refused
  deriving Repr, DecidableEq

/-- The values given so far. -/
structure Given where
  format : Option Format
  verbosity : Option Nat
  quiet : Bool
  timeoutMillis : Option Nat
  journal : Option Journal.Format
  process : Option Handle
  subprocesses : Option Subprocesses.Strategy
  directory : Option WorkingDirectory.Strategy
  every : Bool
  source : Option Source
  parent : Option Handle
  deriving Repr, DecidableEq

namespace Given

def nothing : Given := ⟨none, none, false, none, none, none, none, none, false, none, none⟩

/-- A value that has not been given before and can be read. -/
def once {α : Type} (old new : Option α) : Except Reading (Option α) :=
  if old.isSome || new.isNone then .error .refused else .ok new

def handle? (s : String) : Option Handle := (Handle.ofText s.toList).toOption

def maxVerbosity : Nat := 255

def add (command : Option Subcommand) (g : Given) : Item → Except Reading Given
  | .flag .help => .error .help
  | .flag .version => .error (.version command)
  | .flag .verbose => .ok { g with verbosity := some (min maxVerbosity (g.verbosity.getD 0 + 1)) }
  | .flag .quiet => if g.quiet then .error .refused else .ok { g with quiet := true }
  | .flag .every => if g.every then .error .refused else .ok { g with every := true }
  | .option .format s => do return { g with format := ← once g.format (Format.ofName? s) }
  | .option .timeout s => do
    return { g with timeoutMillis := ← once g.timeoutMillis (Text.readNat Text.maxU64 s.toList).toOption }
  | .option .journal s => do return { g with journal := ← once g.journal (Journal.Format.ofName? s) }
  | .option .strategy s =>
    match command with
    | some .children => do return { g with subprocesses := ← once g.subprocesses (Subprocesses.Strategy.ofName? s) }
    | _ => do return { g with directory := ← once g.directory (WorkingDirectory.Strategy.ofName? s) }
  | .option .source s => do return { g with source := ← once g.source (Source.ofName? s) }
  | .option .parent s => do return { g with parent := ← once g.parent (handle? s) }
  | .operand s =>
    match command with
    | some .children | some .directory => do return { g with process := ← once g.process (handle? s) }
    | _ => .error .refused
  | _ => .error .refused

/-- The choice of strategies, unless both one and every strategy were given. -/
def choice? {S : Type} (g : Given) (strategy : Option S) : Option (Choice S) :=
  match strategy, g.every with
  | none, false => some .auto
  | some s, false => some (.only s)
  | none, true => some .every
  | some _, true => none

/-- The command, if nothing is missing and all goes together. -/
def command? (g : Given) : Subcommand → Option Command
  | .children => do return .children (← g.process) (← g.choice? g.subprocesses)
  | .directory => do return .directory (← g.process) (← g.choice? g.directory)
  | .relations => some (.relations (g.source.getD .ps) g.parent)
  | .capabilities => some .capabilities
  | .version => some .version

/-- The options, from what was given before the command and after it. -/
def options (before after : Given) : Options :=
  ⟨(after.format.or before.format).getD .json, (after.verbosity.or before.verbosity).getD 0,
    before.quiet || after.quiet, after.timeoutMillis.or before.timeoutMillis, after.journal.or before.journal⟩

end Given

/-- Whether help can be had about what some arguments name. -/
def isTopic : List String → Bool
  | [] => true
  | [name] => name == "help" || (Subcommand.ofName? name).isSome
  | _ => false

def readCommand (command : Subcommand) (args : List String) : Except Reading (Given × Command) := do
  let given ← (scan (some command) none args).1.foldlM (Given.add (some command)) .nothing
  match given.command? command with
  | some c => return (given, c)
  | none => throw .refused

/-- The items before a command, without the last one if its value is an argument of its own. Such a value is looked at
only after the command was read, and then it is the second part. -/
def splitWaiting (args : List String) (items : List Item) (left : List String) : List Item × List Item :=
  let waits := (args.take (args.length - left.length)).getLast?.any mayBeValue
  if waits then (items.dropLast, items.getLast?.toList) else (items, [])

def readProgram (args : List String) : Except Reading CommandLine := do
  let (items, left) := scan none none args
  let (items, waiting) := splitWaiting args items left
  let before ← items.foldlM (Given.add none) .nothing
  match left with
  | [] => throw .refused
  | name :: rest =>
    if name = "help" then throw (if isTopic rest then .help else .refused)
    else
      match Subcommand.ofName? name with
      | some command => do
        let (after, c) ← readCommand command rest
        return ⟨(← waiting.foldlM (Given.add none) before).options after, c⟩
      | none => throw .refused

/-- The version of the program, as told by itself or by one of its commands. -/
def versionLine (command : Option Subcommand) : String :=
  programName ++ command.elim "" ("-" ++ ·.name) ++ s!" {programVersion}"

def read (args : List String) : Reading :=
  match readProgram args with
  | .ok line => .run line
  | .error reading => reading

end ProcessProbe.CommandLine
