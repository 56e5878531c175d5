import ProcessProbe.Journal.Options
import ProcessProbe.Query.Inspector

/-!
# Command lines

What the program can be asked to do, and how.
-/

namespace ProcessProbe

namespace CommandLine

inductive Format where
  | json
  | summary
  deriving Repr, DecidableEq

def Format.all : List Format := [.json, .summary]

def Format.name : Format → String
  | .json => "json"
  | .summary => "summary"

def Format.ofName? (name : String) : Option Format := Format.all.find? (·.name == name)

/-- Which strategies answer a question: the first one that can, in the order of the platform, one alone, or each one for
itself. -/
inductive Choice (S : Type) where
  | auto
  | only (strategy : S)
  | every
  deriving Repr, DecidableEq

inductive Command where
  | children (process : Handle) (choice : Choice Subprocesses.Strategy)
  | directory (process : Handle) (choice : Choice WorkingDirectory.Strategy)
  | relations (source : Source) (parent : Option Handle)
  | capabilities
  | version
  deriving Repr, DecidableEq

structure Options where
  format : Format
  verbosity : Nat
  quiet : Bool
  timeoutMillis : Option Nat
  journal : Option Journal.Format
  deriving Repr, DecidableEq

end CommandLine

structure CommandLine where
  options : CommandLine.Options
  command : CommandLine.Command
  deriving Repr, DecidableEq

namespace CommandLine

def programName : String := "pq-core"

def programVersion : String := "0.1.0"

inductive Subcommand where
  | children
  | directory
  | relations
  | capabilities
  | version
  deriving Repr, DecidableEq

def Subcommand.all : List Subcommand := [.children, .directory, .relations, .capabilities, .version]

def Subcommand.name : Subcommand → String
  | .children => "children"
  | .directory => "cwd"
  | .relations => "relations"
  | .capabilities => "capabilities"
  | .version => "version"

def Subcommand.ofName? (name : String) : Option Subcommand := Subcommand.all.find? (·.name == name)

end CommandLine

end ProcessProbe
