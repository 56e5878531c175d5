import ProcessProbe.Journal.Filter

/-!
# Options of the journal

How the journal is written, and how much of it. What the caller asks for goes before the variables of the journal's own,
and these go before the directives that all programs share.
-/

namespace ProcessProbe.Journal

inductive Format where
  | human
  | jsonl
  deriving Repr, DecidableEq

namespace Format

def all : List Format := [human, jsonl]

def name : Format → String
  | human => "human"
  | jsonl => "jsonl"

def ofName? (name : String) : Option Format := all.find? (·.name == name)

def ofText? (s : List Char) : Option Format := Text.named? all name true s

end Format

/-- How the journal is written. The directives count when no threshold was asked for. -/
structure Options where
  format : Format
  threshold : Threshold
  directives : Option String
  deriving Repr, DecidableEq

namespace Options

def default : Options := ⟨.human, .upTo .warn, none⟩

def levelVariable : String := "PQ_LOG"

def formatVariable : String := "PQ_LOG_FORMAT"

def directivesVariable : String := "RUST_LOG"

/-- The threshold that a verbosity asks for. -/
def ofVerbosity : Nat → Option Threshold
  | 0 => none
  | 1 => some (.upTo .info)
  | 2 => some (.upTo .debug)
  | _ => some (.upTo .trace)

/-- The threshold that the flags of a command line ask for; to be quiet overrides any verbosity. -/
def ofFlags (quiet : Bool) (verbosity : Nat) : Option Threshold :=
  if quiet then some (.upTo .error) else ofVerbosity verbosity

/-- The options of an environment, given what the caller asks for. A variable that cannot be read counts as not set. -/
def ofEnvironment (lookup : String → Option String) (threshold : Option Threshold) (format : Option Format) : Options :=
  let read {α : Type} (f : List Char → Option α) (name : String) : Option α :=
    (lookup name).bind fun value => f (Text.trim value.toList)
  let threshold := threshold.or (read Threshold.ofText? levelVariable)
  let directives :=
    if threshold.isSome then none
    else (lookup directivesVariable).filter fun value => !(Text.trim value.toList).isEmpty
  ⟨(format.or (read Format.ofText? formatVariable)).getD default.format, threshold.getD default.threshold, directives⟩

/-- Replaces whatever decides how much is written. -/
def withThreshold (o : Options) (t : Threshold) : Options := { o with threshold := t, directives := none }

def filter (o : Options) : Filter :=
  match o.directives with
  | some text => .ofText text.toList
  | none => .ofThreshold o.threshold

end Options

end ProcessProbe.Journal
