import ProcessProbe.Journal.Directive

/-!
# Filters of the journal

Which spans and events are written. Of the directives about targets that match, the most specific one decides; those
about spans add to it what happens inside their spans.
-/

namespace ProcessProbe.Journal

/-- Which events are written: `statics` decide by target and by the names of values, `dynamics` by the spans around, and
no span of a level above the ceiling is written. -/
structure Filter where
  statics : List Directive
  dynamics : List Directive
  ceiling : Threshold
  deriving Repr

namespace Filter

/-- One threshold for everything. -/
def ofThreshold (t : Threshold) : Filter := ⟨[⟨t, none, none, none⟩], [], t⟩

def everything : Filter := ofThreshold (.upTo .trace)

/-- Of directives with the same subject the last one stands. -/
def lastOfEach (ds : List Directive) : List Directive :=
  ds.foldl (fun kept d => kept.filter (!·.sharesSubject d) ++ [d]) []

def highest (ds : List Directive) : Threshold :=
  ds.foldl (fun t d => if t.rank < d.threshold.rank then d.threshold else t) .off

/-- The filter of a comma-separated list of directives. One that cannot be read is skipped, and without any, errors
are written. The ceiling is that of all directives, those that do not stand included, and there is none where values of
spans are tested. -/
def ofText (s : List Char) : Filter :=
  let directives := ((Text.split (· == ',') s).filter (!·.isEmpty)).filterMap Directive.ofText?
  let (dynamics, others) := directives.partition (·.isDynamic)
  if directives.isEmpty then ofThreshold (.upTo .error)
  else
    ⟨lastOfEach (others ++ dynamics.filter (·.isStatic)), lastOfEach dynamics,
      if dynamics.any (!·.isNameOnly) then .upTo .trace else highest directives⟩

def mostSpecific? (ds : List Directive) : Option Directive :=
  ds.foldl (fun best d => match best with
    | none => some d
    | some b => if d.isMoreSpecific b then some d else some b) none

/-- The threshold for a target, given the directives that apply; none without any. -/
def decide? (ds : List Directive) (target : String) : Option Threshold :=
  (mostSpecific? (ds.filter (·.matchesTarget target))).map (·.threshold)

def staticallyAdmits (ds : List Directive) (target : String) (level : Level) : Bool :=
  (decide? ds target).any (·.admits level)

/-- Whether a span is written, inside spans that let their content through up to some thresholds. -/
def admitsSpan (f : Filter) (around : List Threshold) (span : Span) : Bool :=
  f.ceiling.admits span.level &&
    (f.dynamics.any (·.matchesSpan span) || around.any (·.admits span.level) ||
      staticallyAdmits f.statics span.target span.level)

/-- Whether an event is written, inside spans that let their content through up to some thresholds. -/
def admitsEvent (f : Filter) (around : List Threshold) (event : Event) : Bool :=
  let names := event.values.map (·.1)
  around.any (·.admits event.level) ||
    staticallyAdmits (f.statics.filter (·.condition.all (names.contains ·.name))) event.target event.level

/-- Up to which level the content of a span is written, whatever its targets. -/
def within (f : Filter) (span : Span) : Threshold :=
  highest (f.dynamics.filter fun d => d.matchesSpan span && d.condition.all (·.holds span.fields))

end Filter

end ProcessProbe.Journal
