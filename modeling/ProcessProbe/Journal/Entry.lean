import ProcessProbe.Journal.Level
import ProcessProbe.Json.Real

/-!
# Entries of the journal

A run enters and leaves spans and reports events inside them. Spans and events carry named values.
-/

namespace ProcessProbe.Journal

inductive Value where
  | text (s : String)
  | integer (n : Int)
  | real (x : Float)
  | bool (b : Bool)
  deriving Repr

/-- The written form; a number that is not finite has none and is not recorded. -/
def Value.toJson? : Value → Option Json
  | text s => some (.text s)
  | integer n => some (.integer n)
  | real x => Json.ofFloat? x
  | bool b => some (.bool b)

abbrev Fields := List (String × Value)

structure Span where
  level : Level
  target : String
  name : String
  fields : Fields
  deriving Repr

/-- Something that happened. Its target is a name such as `query.failed`. -/
structure Event where
  level : Level
  target : String
  message : Option Value
  fields : Fields
  deriving Repr

/-- The values of an event, in the order in which they are recorded. Its message is one of them, the first. -/
def Event.values (e : Event) : Fields := e.message.toList.map ("message", ·) ++ e.fields

inductive Entry where
  | enter (span : Span)
  | leave
  | event (event : Event)
  deriving Repr

inductive Stage where
  | init
  | enumerate
  | detect
  | resolve
  deriving Repr, DecidableEq

def Stage.all : List Stage := [.init, .enumerate, .detect, .resolve]

def Stage.name : Stage → String
  | .init => "init"
  | .enumerate => "enumerate"
  | .detect => "detect"
  | .resolve => "resolve"

inductive EventName where
  | runStarted
  | runFinished
  | configLoaded
  | configError
  | strategySkipped
  | strategyFallback
  | strategyAnswered
  | strategyExhausted
  | queryFinished
  | queryFailed
  deriving Repr, DecidableEq

def EventName.all : List EventName :=
  [.runStarted, .runFinished, .configLoaded, .configError, .strategySkipped, .strategyFallback, .strategyAnswered,
    .strategyExhausted, .queryFinished, .queryFailed]

def EventName.text : EventName → String
  | .runStarted => "run.started"
  | .runFinished => "run.finished"
  | .configLoaded => "config.loaded"
  | .configError => "config.error"
  | .strategySkipped => "strategy.skipped"
  | .strategyFallback => "strategy.fallback"
  | .strategyAnswered => "strategy.answered"
  | .strategyExhausted => "strategy.exhausted"
  | .queryFinished => "query.finished"
  | .queryFailed => "query.failed"

end ProcessProbe.Journal
