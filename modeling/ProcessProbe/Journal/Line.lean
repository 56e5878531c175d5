import ProcessProbe.Journal.Filter

/-!
# Lines of the journal

One JSON object for each event. The values that tie an event to its run, its stage and its process stand at the top,
from the event itself or else from the innermost span that has them; so does the message of the event. Its other values
are below `fields`.
-/

namespace ProcessProbe.Journal

/-- The names of the values that tie events together. -/
def correlationKeys : List String := ["run_id", "host_id", "stage", "pid", "strategy"]

abbrev Recorded := List (String × Json)

def Recorded.find? (r : Recorded) (name : String) : Option Json := (List.find? (·.1 == name) r).map (·.2)

/-- Puts a value in the place of the one of the same name, or at the end. -/
def Recorded.put (r : Recorded) (name : String) (value : Json) : Recorded :=
  match r with
  | [] => [(name, value)]
  | (n, v) :: rest => if n = name then (name, value) :: rest else (n, v) :: Recorded.put rest name value

/-- The values that are recorded of some fields, each name once, its last value. -/
def Recorded.ofFields (fields : Fields) : Recorded :=
  fields.foldl (fun r (name, value) => (value.toJson?).elim r (r.put name)) []

/-- A process number that was recorded as a text becomes a number. -/
def normalize (key : String) (value : Json) : Json :=
  match value with
  | .text s =>
    if key = "pid" then
      match Text.readNat Text.maxU64 s.toList with
      | .ok n => .ofNat n
      | .error _ => value
    else value
  | _ => value

/-- The correlating values among those recorded. -/
def Recorded.correlation (r : Recorded) : Recorded :=
  correlationKeys.filterMap fun key => (r.find? key).map fun value => (key, normalize key value)

/-- The values recorded that do not correlate. -/
def Recorded.others (r : Recorded) : Recorded := r.filter fun (name, _) => !correlationKeys.contains name

def Recorded.without (r : Recorded) (name : String) : Recorded := r.filter (·.1 != name)

/-- Lays the values of an inner scope over those of an outer one. -/
def Recorded.overlay (outer inner : Recorded) : Recorded := inner.foldl (fun r (name, value) => r.put name value) outer

/-- The correlating values of nested spans, the innermost first. -/
def correlationOf (spans : List Recorded) : Recorded := spans.foldr (fun inner outer => outer.overlay inner) []

/-- The line of an event inside spans of which the correlating values are given, the innermost first. -/
def line (time : String) (spans : List Recorded) (event : Event) : Json :=
  let recorded := Recorded.ofFields event.values
  let others := recorded.others
  let fields := others.without "message"
  .object
    ([("ts", .text time), ("level", .text event.level.name), ("event", .text event.target)] ++
      (correlationOf spans).overlay recorded.correlation ++
      (others.find? "message").toList.map ("message", ·) ++
      if fields.isEmpty then [] else [("fields", .object fields)])

/-- A span that is open: its correlating values, and up to which level its content is written on its account. -/
structure Scope where
  correlation : Recorded
  threshold : Threshold

/-- The scope of a span. One that is not written has to be left all the same. -/
def Scope.enter (filter : Filter) (scopes : List Scope) (span : Span) : Scope :=
  if filter.admitsSpan (scopes.map (·.threshold)) span then
    ⟨(Recorded.ofFields span.fields).correlation, filter.within span⟩
  else ⟨[], .off⟩

/-- The open spans after an entry, the innermost first. -/
def scopesAfter (filter : Filter) (scopes : List Scope) : Entry → List Scope
  | .enter span => Scope.enter filter scopes span :: scopes
  | .leave => scopes.tail
  | .event _ => scopes

/-- The line of an entry inside open spans; only an event has one, if it is written. -/
def lineOf? (filter : Filter) (time : String) (scopes : List Scope) : Entry → Option Json
  | .event event =>
    if filter.admitsEvent (scopes.map (·.threshold)) event then
      some (line time (scopes.map (·.correlation)) event)
    else none
  | _ => none

/-- The lines of the entries of a journal, for each entry its own. -/
def linesFrom (filter : Filter) (time : String) (scopes : List Scope) : List Entry → List (Option Json)
  | [] => []
  | entry :: entries =>
    lineOf? filter time scopes entry :: linesFrom filter time (scopesAfter filter scopes entry) entries

def lines (filter : Filter) (time : String) (entries : List Entry) : List (Option Json) :=
  linesFrom filter time [] entries

end ProcessProbe.Journal
