import ProcessProbe.Proofs.CommandLine.Exit
import ProcessProbe.Proofs.Query.Discipline
import ProcessProbe.Proofs.Query.Events
import ProcessProbe.Proofs.Settings.Environment

/-!
# Events of a run

The course of a run as its events tell it. Reading the environment, finding out what the host has and each attempt of a
strategy are quiet, so that all events are those of the run itself and of its orders of strategies. Main statement: with
every event written, the lines of the journal are those of the course, and the last one has the exit code of the run,
unless the run finds a directory whose path its object cannot hold.
-/

namespace ProcessProbe

variable {S α σ : Type}

open Inquiry (Quiet)
open Journal (Mark)

/-! ## What is quiet -/

theorem Diagnostic.Policy.run_quiet (p : Policy) (command : String) (args : List String) (timeout : Option Duration) :
    (p.run command args timeout).Quiet := by
  have hcheck : (p.check command).Quiet := by
    rw [check]
    cases p.screen command with
    | error e => exact Quiet.pure
    | ok =>
      simp only
      split
      · exact (Quiet.send rfl).bind fun _ => Quiet.pure
      · exact Quiet.pure
  apply hcheck.bind
  intro checked
  cases checked with
  | error e => exact Quiet.pure
  | ok =>
    simp only
    split
    · exact Quiet.pure
    · exact (Quiet.send rfl).bind fun _ => Quiet.pure

namespace Capabilities

theorem firstExecutable_quiet (paths : List Path) : (firstExecutable paths).Quiet := by
  induction paths with
  | nil => exact Quiet.pure
  | cons path paths ih =>
    have hquiet : (isExecutable path).Quiet := (Quiet.send rfl).bind fun _ => Quiet.pure
    apply hquiet.bind
    intro found
    split
    · exact Quiet.pure
    · exact ih

theorem checkTool_quiet (name : String) (args : List String) (passes : Diagnostic.Output → Bool) :
    (checkTool name args passes).Quiet := by
  have hlocate : (locate name).Quiet := by
    apply (Quiet.send rfl).bind
    intro path?
    cases path? with
    | none => exact Quiet.pure
    | some path => exact firstExecutable_quiet _
  apply hlocate.bind
  intro path?
  cases path? with
  | none => exact Quiet.pure
  | some path =>
    apply (detectionPolicy.run_quiet name args Option.none).bind
    intro result
    split
    · exact Quiet.pure
    · exact Quiet.pure
    · exact Quiet.pure

theorem detect_quiet : detect.Quiet := by
  apply (Quiet.send rfl).bind
  intro platform
  apply (Quiet.send rfl).bind
  intro procfs
  apply (Quiet.send rfl).bind
  intro me
  apply (checkTool_quiet _ _ _).bind
  intro ps
  apply (checkTool_quiet _ _ _).bind
  intro pgrep
  apply (checkTool_quiet _ _ _).bind
  intro lsof
  have hend (selectsStates : Bool) : (do
      return ⟨platform, procfs, false, ps, pgrep, lsof, selectsStates, ← Inquiry.timestamp⟩ :
        Inquiry Capabilities).Quiet := (Quiet.send rfl).bind fun _ => Quiet.pure
  simp only
  split
  · apply (detectionPolicy.run_quiet _ _ _).bind
    intro result
    cases result with
    | ok o => exact hend (foundOrNot o)
    | error e => exact hend false
  · exact hend false

end Capabilities

namespace Inspector

theorem detect_quiet (settings : Settings) : (detect settings).Quiet :=
  Capabilities.detect_quiet.bind fun _ => Quiet.pure

theorem environmentText_quiet (name : String) : (environmentText name).Quiet :=
  (Quiet.send rfl).bind fun _ => Quiet.pure

theorem environmentSettings_quiet : environmentSettings.Quiet := by
  apply (environmentText_quiet _).bind
  intro timeout
  apply (environmentText_quiet _).bind
  intro output
  apply (environmentText_quiet _).bind
  intro root
  exact Quiet.pure

theorem quiet_of_rule {i : Inspector} {h : Handle} {jobs : List Discipline.Job} {past : List Exchange}
    {request : Request} (hrule : Discipline.rule i h jobs past request) : Inquiry.quiet past request := by
  cases request with
  | record entry =>
    cases entry with
    | event e => contradiction
    | _ => rfl
  | _ => rfl

variable (i : Inspector) (h : Handle)

theorem detectChildren_quiet (x : Subprocesses.Strategy) : (i.detectChildren h x).outcome.Quiet :=
  fun past => (Discipline.detectChildren_asksOnly i h x past).weaken fun _ _ => quiet_of_rule

theorem resolveDirectory_quiet (x : WorkingDirectory.Strategy) : (i.resolveDirectory h x).outcome.Quiet :=
  fun past => (Discipline.resolveDirectory_asksOnly i h x past).weaken fun _ _ => quiet_of_rule

theorem relations_quiet (source : Source) : (i.relations source).outcome.Quiet :=
  fun past => (Discipline.relations_asksOnly i nobody source past).weaken fun _ _ => quiet_of_rule

theorem outcomes_quiet {gate : S → Except Failure Unit} {attempt : S → Query α}
    (hattempt : ∀ x, (attempt x).outcome.Quiet) (xs : List S) : (outcomes gate attempt xs).Quiet :=
  fun _ => outcomes_asksOnly xs fun x _ _ past => hattempt x past

end Inspector

namespace Inspector

open Query (orderMarks turns)

variable (host : Host σ) (i : Inspector) (h : Handle) (s : σ)

/-- The turns of the strategies for a question about children. -/
def childrenTurns : List (Query.Turn Subprocesses.Strategy Bool) :=
  turns Subprocesses.Strategy.name h i.subprocessGate (i.detectChildren h) host Subprocesses.Strategy.platformOrder
    (host.inside (span "has_subprocesses" .detect h none) s)

/-- The turns of the strategies for a question about the working directory. -/
def directoryTurns : List (Query.Turn WorkingDirectory.Strategy Path) :=
  turns WorkingDirectory.Strategy.name h i.directoryGate (i.resolveDirectory h) host
    WorkingDirectory.Strategy.platformOrder (host.inside (span "working_directory" .resolve h none) s)

theorem marks_hasSubprocesses :
    (i.hasSubprocesses h).outcome.marks host s =
      (orderMarks Subprocesses.Strategy.name i.subprocessGate (i.childrenTurns host h s)).map some := by
  rw [hasSubprocesses, Query.marks_within]
  apply Query.marks_tryFrom
  · intro x failure hfailure
    exact mayFallBack_of_kind (i.subprocessGate_eq_error x hfailure)
  · intro x _
    exact detectChildren_quiet i h x

theorem marks_workingDirectory :
    (i.workingDirectory h).outcome.marks host s =
      (orderMarks WorkingDirectory.Strategy.name i.directoryGate (i.directoryTurns host h s)).map some := by
  rw [workingDirectory, Query.marks_within]
  apply Query.marks_tryFrom
  · intro x failure hfailure
    exact mayFallBack_of_kind (i.directoryGate_eq_error x hfailure)
  · intro x _
    exact resolveDirectory_quiet i h x

theorem marks_hasSubprocessesVia (x : Subprocesses.Strategy) :
    (i.hasSubprocessesVia x h).outcome.marks host s = [] := by
  rw [hasSubprocessesVia, Query.marks_within]
  exact (detectChildren_quiet i h x).marks_eq_nil host _

/-- The marks of a question about the working directory, which has an order for its default strategy only. -/
def directoryMarks : WorkingDirectory.Strategy → List Mark
  | .generic =>
    orderMarks WorkingDirectory.Strategy.name i.directoryGate
      (i.directoryTurns host h (host.inside (span "working_directory_via" .resolve h (some "generic")) s))
  | .lsof | .procfs => []

theorem marks_workingDirectoryVia (x : WorkingDirectory.Strategy) :
    (i.workingDirectoryVia x h).outcome.marks host s = (i.directoryMarks host h s x).map some := by
  have hquiet (y : WorkingDirectory.Strategy) (s : σ) : (i.resolveDirectory h y).outcome.marks host s = [] :=
    (resolveDirectory_quiet i h y).marks_eq_nil host s
  cases x with
  | generic => exact (Query.marks_within host _ (i.workingDirectory h) s).trans (marks_workingDirectory host i h _)
  | lsof => exact (Query.marks_within host _ (i.resolveDirectory h .lsof) s).trans (hquiet .lsof _)
  | procfs => exact (Query.marks_within host _ (i.resolveDirectory h .procfs) s).trans (hquiet .procfs _)

end Inspector

/-! ## The course of a run -/

namespace CommandLine

open Answer (values)
open Query (orderMarks)

/-- The mark of a query that ended. -/
def ended : Except Failure α → Mark
  | .ok _ => .queryFinished
  | .error _ => .queryFailed

/-- The marks of a command, which asks an inspector from a state of the host on. -/
def commandMarks (host : Host σ) (i : Inspector) (t : σ) : Command → List Mark
  | .children h .auto =>
    orderMarks Subprocesses.Strategy.name i.subprocessGate (i.childrenTurns host h t) ++
      [ended ((i.hasSubprocesses h).outcome.run host t).1]
  | .children h (.only x) => [ended ((i.hasSubprocessesVia x h).outcome.run host t).1]
  | .directory h .auto =>
    i.directoryMarks host h t .generic ++ [ended ((i.workingDirectoryVia .generic h).outcome.run host t).1]
  | .directory h (.only x) =>
    i.directoryMarks host h t x ++ [ended ((i.workingDirectoryVia x h).outcome.run host t).1]
  | .relations source _ =>
    match ((i.relations source).outcome.run host t).1 with
    | .ok _ => []
    | .error _ => [.queryFailed]
  | .children _ .every | .directory _ .every | .capabilities | .version => []

/-- The directories that a command finds. -/
def foundBy (host : Host σ) (i : Inspector) (t : σ) : Command → List Path
  | .directory h .auto => ((i.workingDirectoryVia .generic h).outcome.run host t).1.toOption.toList
  | .directory h (.only x) => ((i.workingDirectoryVia x h).outcome.run host t).1.toOption.toList
  | .directory h .every => values ((i.workingDirectoryAll h).run host t).1
  | _ => []

section

variable (host : Host σ) (r : Run) (o : Options) (i : Inspector) (h : Handle) (s : σ)

theorem marks_children (strategy : Option Subprocesses.Strategy) :
    (children r o i h strategy).marks host s =
      (strategy.elim (i.hasSubprocesses h) (i.hasSubprocessesVia · h)).outcome.marks host s ++
        [some (ended ((strategy.elim (i.hasSubprocesses h) (i.hasSubprocessesVia · h)).outcome.run host s).1)] := by
  rw [children, Inquiry.marks_bind]
  cases ((strategy.elim (i.hasSubprocesses h) (i.hasSubprocessesVia · h)).outcome.run host s).1 with
  | ok answer => rfl
  | error failure => rfl

theorem marks_directory (x : WorkingDirectory.Strategy) :
    (directory r o i h x).marks host s =
      (i.directoryMarks host h s x ++ [ended ((i.workingDirectoryVia x h).outcome.run host s).1]).map some := by
  rw [directory, Inquiry.marks_bind, Inspector.marks_workingDirectoryVia, List.map_append]
  cases ((i.workingDirectoryVia x h).outcome.run host s).1 with
  | ok path => rfl
  | error failure => rfl

theorem marks_relations (source : Source) (parent : Option Handle) :
    (relations r o i source parent).marks host s = (commandMarks host i s (.relations source parent)).map some := by
  rw [relations, (Inspector.relations_quiet i source).marks_bind, commandMarks]
  cases ((i.relations source).outcome.run host s).1 with
  | ok table => rfl
  | error failure => rfl

end

/-- The marks of an answer are those of its command. Finding out what the host has comes first, and is quiet. -/
theorem marks_answer (host : Host σ) (r : Run) (o : Options) (settings : Settings) (command : Command) (s : σ) :
    (answer r o settings command).marks host s =
      (commandMarks host ((Inspector.detect settings).run host s).1 ((Inspector.detect settings).run host s).2
        command).map some := by
  have hdetect (query : Inspector → Inquiry (Option Answer)) :
      (Inspector.detect settings >>= query).marks host s =
        (query ((Inspector.detect settings).run host s).1).marks host ((Inspector.detect settings).run host s).2 :=
    (Inspector.detect_quiet settings).marks_bind query host s
  have hsome (q : Inquiry Answer) (t : σ) : (q >>= fun a => pure (some a)).marks host t = q.marks host t :=
    Inquiry.marks_bind_quiet host q (fun _ => Quiet.pure) t
  cases command with
  | children h choice =>
    cases choice with
    | auto =>
      refine (hdetect _).trans ((hsome _ _).trans ?_)
      rw [marks_children, commandMarks, List.map_append]
      exact congrArg (· ++ _) (Inspector.marks_hasSubprocesses host _ h _)
    | only x =>
      refine (hdetect _).trans ((hsome _ _).trans ?_)
      rw [marks_children, commandMarks]
      exact congrArg (· ++ _) (Inspector.marks_hasSubprocessesVia host _ h _ x)
    | every =>
      refine (hdetect _).trans (Quiet.marks_eq_nil ?_ host _)
      apply (Inspector.outcomes_quiet (Inspector.detectChildren_quiet _ h) _).bind
      intro outcomes
      exact (Quiet.send rfl).bind fun _ => Quiet.pure
  | directory h choice =>
    cases choice with
    | auto => exact (hdetect _).trans (marks_directory host r o _ h _ .generic)
    | only x => exact (hdetect _).trans (marks_directory host r o _ h _ x)
    | every =>
      refine (hdetect _).trans (Quiet.marks_eq_nil ?_ host _)
      apply (Inspector.outcomes_quiet (Inspector.resolveDirectory_quiet _ h) _).bind
      intro outcomes
      exact (Quiet.send rfl).bind fun _ => Quiet.pure
  | relations source parent => exact (hdetect _).trans ((hsome _ _).trans (marks_relations host r o _ _ source parent))
  | capabilities => exact hdetect _
  | version => rfl

theorem not_writes_iff {format : Format} {path : Path} :
    ¬format.Writes path ↔ format = .json ∧ Settings.pathToJson? path = none := by
  rw [Format.Writes, Classical.not_imp, ← Option.ne_none_iff_exists', not_not]

theorem ofDirectory?_eq_none_iff (format : Format) (h : Handle) (name time : String) (path : Path) :
    Answer.ofDirectory? format h name time path = none ↔ ¬format.Writes path := by
  rw [not_writes_iff]
  cases format with
  | json => simp [Answer.ofDirectory?]
  | summary => simp [Answer.ofDirectory?]

theorem exists_written_procRoot {host : Host σ} {s : σ} {given : Settings}
    (hgiven : (Inspector.environmentSettings.run host s).1 = .ok given) :
    ∃ v, Settings.pathToJson? given.procRoot = some v := by
  obtain ⟨text, htext⟩ := (Settings.ofEnvironment_eq_ok_iff.1 hgiven).isUsable.text
  exact ⟨_, htext ▸ Settings.pathToJson?_ofString text⟩

/-- The settings of an environment with those of the options over them. -/
def Options.over (o : Options) (given : Settings) : Settings :=
  { given with toolTimeout := o.timeoutMillis.elim given.toolTimeout .ofMillis }

theorem directory_eq_none_iff (host : Host σ) (r : Run) (o : Options) (i : Inspector) (h : Handle)
    (x : WorkingDirectory.Strategy) (s : σ) :
    ((directory r o i h x).run host s).1 = none ↔
      ∃ path ∈ ((i.workingDirectoryVia x h).outcome.run host s).1.toOption.toList, ¬o.format.Writes path := by
  rw [directory, Inquiry.run_bind]
  cases ((i.workingDirectoryVia x h).outcome.run host s).1 with
  | ok path =>
    refine (ofDirectory?_eq_none_iff o.format h _ _ path).trans ?_
    simp [Except.toOption]
  | error failure => exact iff_of_false (Option.some_ne_none _) (by simp [Except.toOption])

/-- Only a directory that cannot be written leaves a command without an answer. -/
theorem answer_eq_none_iff (host : Host σ) (r : Run) (o : Options) {settings : Settings} (command : Command) (s : σ)
    (hroot : ∃ v, Settings.pathToJson? settings.procRoot = some v) :
    ((answer r o settings command).run host s).1 = none ↔
      ∃ path ∈ foundBy host ((Inspector.detect settings).run host s).1 ((Inspector.detect settings).run host s).2 command,
        ¬o.format.Writes path := by
  have hdetect (query : Inspector → Inquiry (Option Answer)) :
      ((Inspector.detect settings >>= query).run host s).1 =
        ((query ((Inspector.detect settings).run host s).1).run host ((Inspector.detect settings).run host s).2).1 := by
    rw [Inquiry.run_bind]
  have hsome (query : Inspector → Inquiry Answer) :
      ((Inspector.detect settings >>= fun i => query i >>= fun a => pure (some a)).run host s).1 ≠ none := by
    rw [hdetect, Inquiry.run_bind]
    exact Option.some_ne_none _
  cases command with
  | children h choice =>
    cases choice with
    | auto => exact iff_of_false (hsome fun i => children r o i h none) (by simp [foundBy])
    | only x => exact iff_of_false (hsome fun i => children r o i h (some x)) (by simp [foundBy])
    | every =>
      refine iff_of_false ?_ (by simp [foundBy])
      rw [answer, hdetect, Inquiry.run_bind, Inquiry.run_bind, Inquiry.run_pure, Answer.ofOutcomes?_eq_none_iff]
      simp
  | directory h choice =>
    cases choice with
    | auto =>
      rw [answer, hdetect]
      exact directory_eq_none_iff host r o _ h .generic _
    | only x =>
      rw [answer, hdetect]
      exact directory_eq_none_iff host r o _ h x _
    | every =>
      rw [answer, hdetect, Inquiry.run_bind, Inquiry.run_bind, Inquiry.run_pure, Answer.ofOutcomes?_eq_none_iff]
      simp only [foundBy, not_writes_iff]
      tauto
  | relations source parent => exact iff_of_false (hsome fun i => relations r o i source parent) (by simp [foundBy])
  | capabilities =>
    obtain ⟨v, hv⟩ := hroot
    have hsettings : ((Inspector.detect settings).run host s).1.settings = settings := by
      rw [Inspector.detect, Inquiry.run_bind]
      rfl
    refine iff_of_false ?_ (by simp [foundBy])
    rw [answer, hdetect, Inquiry.run_pure]
    cases o.format with
    | json =>
      rw [Answer.ofCapabilities?, hsettings, Settings.toJson?, hv]
      exact Option.some_ne_none _
    | summary => exact Option.some_ne_none _
  | version => exact iff_of_false (Option.some_ne_none _) (by simp [foundBy])

/-- How a run starts. -/
def opening : Inquiry Run := do
  let (name, host) ← Inquiry.identity
  let r : Run := ⟨name, host⟩
  Inquiry.record (.enter r.span)
  r.report .info .runStarted .init "starting pq-core" []
  return r

theorem marks_opening (host : Host σ) (s : σ) : opening.marks host s = [some .runStarted] := rfl

/-- What a run does with its settings. -/
def rest (r : Run) (line : CommandLine) : Except String Settings → Inquiry Outcome
  | .ok settings => answer r line.options settings line.command >>= finish r
  | .error message => finish r (some ⟨.arguments, .nothing, [message]⟩)

theorem run_eq_opening (line : CommandLine) :
    run line = opening >>= fun r => settings r line.options >>= rest r line := by
  simp only [run, opening, bind_assoc, pure_bind]
  rfl

/-- What becomes of the settings of a run: the environment is invalid, or the options are refused, or an inspector is
asked from a state of the host on. -/
inductive Preparation (σ : Type) where
  | invalid
  | refused
  | ready (i : Inspector) (t : σ)

def preparation (host : Host σ) (o : Options) (s : σ) : Preparation σ :=
  let (r, s) := opening.run host s
  match (Inspector.environmentSettings.run host s).1 with
  | .error _ => .invalid
  | .ok given =>
    if o.timeoutMillis = some 0 then .refused
    else
      let (i, t) := (Inspector.detect (o.over given)).run host ((settings r o).run host s).2
      .ready i t

/-- The marks of a run, but for the one of its end. -/
def course (host : Host σ) (line : CommandLine) (s : σ) : List Mark :=
  .runStarted :: match preparation host line.options s with
    | .invalid => [.configError]
    | .refused => []
    | .ready i t => .configLoaded :: commandMarks host i t line.command

/-- The directories that a run finds. -/
def found (host : Host σ) (line : CommandLine) (s : σ) : List Path :=
  match preparation host line.options s with
  | .ready i t => foundBy host i t line.command
  | .invalid | .refused => []

section

variable {host : Host σ} (r : Run) (o : Options) {s : σ}

theorem settings_of_invalid {e : Settings.Invalid} (hinvalid : (Inspector.environmentSettings.run host s).1 = .error e) :
    (∃ message, ((settings r o).run host s).1 = .error message) ∧
      (settings r o).marks host s = [some .configError] := by
  rw [settings, Inquiry.run_bind, Inspector.environmentSettings_quiet.marks_bind, hinvalid]
  exact ⟨⟨_, rfl⟩, rfl⟩

theorem settings_of_refused {given : Settings} (hgiven : (Inspector.environmentSettings.run host s).1 = .ok given)
    (htimeout : o.timeoutMillis = some 0) :
    (∃ message, ((settings r o).run host s).1 = .error message) ∧ (settings r o).marks host s = [] := by
  rw [settings, Inquiry.run_bind, Inspector.environmentSettings_quiet.marks_bind, hgiven]
  simp only [htimeout, if_true]
  exact ⟨⟨_, rfl⟩, rfl⟩

theorem settings_of_accepted {given : Settings} (hgiven : (Inspector.environmentSettings.run host s).1 = .ok given)
    (htimeout : o.timeoutMillis ≠ some 0) :
    ((settings r o).run host s).1 = .ok (o.over given) ∧ (settings r o).marks host s = [some .configLoaded] := by
  rw [settings, Inquiry.run_bind, Inspector.environmentSettings_quiet.marks_bind, hgiven]
  simp only [htimeout, if_false]
  exact ⟨rfl, rfl⟩

end

/-- The mark of the end of a run, which one without an answer does not get to. -/
def ending : Outcome → List Mark
  | .answered answer => [.runFinished (Outcome.answered answer).exit]
  | .unwritable => []

theorem ofAnswer?_eq_unwritable_iff {answer? : Option Answer} :
    Outcome.ofAnswer? answer? = .unwritable ↔ answer? = none := by
  cases answer? with
  | none => exact iff_of_true rfl rfl
  | some answer => exact iff_of_false Outcome.noConfusion (Option.some_ne_none _)

theorem marks_finish (host : Host σ) (r : Run) (answer? : Option Answer) (s : σ) :
    (finish r answer?).marks host s = (ending (.ofAnswer? answer?)).map some := by
  cases answer? with
  | none => rfl
  | some answer => rfl

/-- The marks of a run are those of its course and of its end, and only a directory that cannot be written keeps it from
an answer. -/
theorem marks_run (host : Host σ) (line : CommandLine) (s : σ) :
    (run line).marks host s = (course host line s ++ ending ((run line).run host s).1).map some ∧
      (((run line).run host s).1 = .unwritable ↔ ∃ path ∈ found host line s, ¬line.options.format.Writes path) := by
  obtain ⟨⟨r, t⟩, hopening⟩ : ∃ opened, opening.run host s = opened := ⟨_, rfl⟩
  have hrun : ((run line).run host s).1 = ((settings r line.options >>= rest r line).run host t).1 := by
    rw [run_eq_opening, Inquiry.run_bind, hopening]
  have hmarks : (run line).marks host s =
      some .runStarted :: (settings r line.options >>= rest r line).marks host t := by
    rw [run_eq_opening, Inquiry.marks_bind, marks_opening, hopening]
    rfl
  rw [hmarks, hrun, Inquiry.marks_bind, Inquiry.run_bind, course, found, preparation, hopening]
  simp only
  cases hsettings : (Inspector.environmentSettings.run host t).1 with
  | error e =>
    obtain ⟨⟨message, hvalue⟩, hinvalid⟩ := settings_of_invalid r line.options hsettings
    rw [hvalue, hinvalid]
    exact ⟨rfl, iff_of_false Outcome.noConfusion (by simp)⟩
  | ok given =>
    by_cases htimeout : line.options.timeoutMillis = some 0
    · obtain ⟨⟨message, hvalue⟩, hrefused⟩ := settings_of_refused r line.options hsettings htimeout
      simp only [hvalue, hrefused, htimeout, if_true]
      exact ⟨rfl, iff_of_false Outcome.noConfusion (by simp)⟩
    · obtain ⟨hvalue, haccepted⟩ := settings_of_accepted r line.options hsettings htimeout
      have hgiven := exists_written_procRoot hsettings
      have hroot : ∃ v, Settings.pathToJson? (line.options.over given).procRoot = some v := hgiven
      simp only [hvalue, haccepted, htimeout, if_false, rest]
      rw [Inquiry.marks_bind, marks_answer, marks_finish, Inquiry.run_bind, run_finish,
        ← answer_eq_none_iff host r line.options line.command _ hroot]
      exact ⟨by simp, ofAnswer?_eq_unwritable_iff⟩

/-- A journal has one line for each of the marks, in order, and no other line. -/
def Tells (filter : Journal.Filter) (time : String) (entries : List Journal.Entry) (marks : List Mark) : Prop :=
  List.Forall₂ (fun written mark => ∃ spans event, written = Journal.line time spans event ∧
    Mark.ofEvent? event = some mark) ((Journal.lines filter time entries).filterMap id) marks

theorem tells_of_admitsAll {filter : Journal.Filter} (hfilter : filter.AdmitsAll) (time : String)
    {entries : List Journal.Entry} {marks : List Mark}
    (hmarks : (entries.filterMap Journal.Entry.event?).map Mark.ofEvent? = marks.map some) :
    Tells filter time entries marks := by
  have hlines := Journal.lines_of_admitsAll hfilter time entries
  rw [Tells]
  generalize entries.filterMap Journal.Entry.event? = events at hlines hmarks
  generalize (Journal.lines filter time entries).filterMap id = written at hlines
  induction hlines generalizing marks with
  | nil =>
    obtain rfl : marks = [] := by simpa using hmarks.symm
    exact .nil
  | cons hline hrest ih =>
    cases marks with
    | nil => contradiction
    | cons mark marks =>
      obtain ⟨hmark, hmarks⟩ := List.cons.inj hmarks
      obtain ⟨spans, hwritten⟩ := hline
      exact .cons ⟨spans, _, hwritten, hmark⟩ (ih hmarks)

/-- With every event written, the journal of a run tells its course and then its end with the exit code of the run. A run
that finds a directory which its object cannot hold has no end: it exits with 101 and does not tell so. -/
theorem journal_tells_course (host : Host σ) (line : CommandLine) (s : σ) {filter : Journal.Filter}
    (hfilter : filter.AdmitsAll) (time : String) :
    ((∀ path ∈ found host line s, line.options.format.Writes path) →
      Tells filter time ((run line).journal host s)
        (course host line s ++ [.runFinished ((run line).run host s).1.exit])) ∧
    ((∃ path ∈ found host line s, ¬line.options.format.Writes path) →
      Tells filter time ((run line).journal host s) (course host line s) ∧
        ((run line).run host s).1.exit = 101) := by
  obtain ⟨hmarks, hunwritable⟩ := marks_run host line s
  have htells := tells_of_admitsAll hfilter time hmarks
  cases hout : ((run line).run host s).1 with
  | unwritable =>
    have hodd := hunwritable.1 hout
    rw [hout] at htells
    have hcourse : course host line s ++ ending .unwritable = course host line s := List.append_nil _
    rw [hcourse] at htells
    refine ⟨?_, fun _ => ⟨htells, rfl⟩⟩
    intro hwrites
    obtain ⟨path, hpath, hunwritten⟩ := hodd
    exact absurd (hwrites path hpath) hunwritten
  | answered answer =>
    rw [hout] at htells
    refine ⟨fun _ => htells, ?_⟩
    intro hodd
    have hnone := hunwritable.2 hodd
    rw [hout] at hnone
    contradiction

theorem filter_of_verbosity (host : Host σ) (line : CommandLine) (s : σ) (hquiet : line.options.quiet = false)
    (hverbosity : 3 ≤ line.options.verbosity) : ((journalOptions line).run host s).1.filter = .everything := by
  obtain ⟨n, hn⟩ : ∃ n, line.options.verbosity = n + 3 := ⟨_, (Nat.sub_add_cancel hverbosity).symm⟩
  have hflags : Journal.Options.ofFlags line.options.quiet line.options.verbosity = some (.upTo .trace) := by
    rw [hquiet, hn]
    rfl
  simp only [journalOptions, Inquiry.run_bind, Inquiry.run_pure, hflags]
  rfl

/-- A command line that asks for an object and for every event. -/
def thorough (command : Command) : CommandLine := ⟨⟨.json, 3, false, none, none⟩, command⟩

/-- Nothing is usable on the empty host, so that its strategies are skipped one after the other. -/
theorem journal_tells_course_empty :
    ((journalOptions (thorough (.children Inspector.nobody .auto))).run Inspector.emptyHost ()).1.filter = .everything ∧
      Tells .everything "" ((run (thorough (.children Inspector.nobody .auto))).journal Inspector.emptyHost ())
        [.runStarted, .configLoaded, .skipped "procfs", .skipped "generic", .skipped "process-group", .exhausted,
          .queryFailed, .runFinished 11] := by
  constructor
  · exact filter_of_verbosity Inspector.emptyHost (thorough _) () rfl (Nat.le_refl 3)
  · apply (journal_tells_course Inspector.emptyHost (thorough (.children Inspector.nobody .auto)) ()
      Journal.Filter.admitsAll_everything "").1
    intro path hpath
    exact absurd hpath List.not_mem_nil

def oddQuestion : CommandLine := thorough (.directory Inspector.nobody (.only .procfs))

/-- The link leads to a directory whose path is no text. The query finishes, and the run ends without telling so. -/
theorem journal_misses_end :
    course oddLink.toHost oddQuestion () = [.runStarted, .configLoaded, .queryFinished] ∧
      ((run oddQuestion).run oddLink.toHost ()).1.exit = 101 ∧
      ¬Tells .everything "" ((run oddQuestion).journal oddLink.toHost ())
        [.runStarted, .configLoaded, .queryFinished, .runFinished 101] := by
  obtain ⟨i, hready⟩ : ∃ i, preparation oddLink.toHost oddQuestion.options () = .ready i () := ⟨_, rfl⟩
  have hended : commandMarks oddLink.toHost i () oddQuestion.command = [.queryFinished] :=
    congrArg (fun result => [ended result]) (oddLink_found i)
  have hcourse : course oddLink.toHost oddQuestion () = [.runStarted, .configLoaded, .queryFinished] := by
    rw [course, hready]
    exact congrArg (fun marks => .runStarted :: .configLoaded :: marks) hended
  have hfound : found oddLink.toHost oddQuestion () = [⟨[47, 0xFF]⟩] := by
    rw [found, hready]
    exact congrArg (fun result => result.toOption.toList) (oddLink_found i)
  have hunwritten : Settings.pathToJson? ⟨[47, 0xFF]⟩ = none := by
    rw [Settings.pathToJson?, Utf8.decode?, pieces_odd]
    rfl
  obtain ⟨hmarks, hunwritable⟩ := marks_run oddLink.toHost oddQuestion ()
  have hout : ((run oddQuestion).run oddLink.toHost ()).1 = .unwritable := by
    apply hunwritable.2
    rw [hfound]
    exact ⟨_, List.mem_singleton_self _, not_writes_iff.2 ⟨rfl, hunwritten⟩⟩
  have htells := tells_of_admitsAll Journal.Filter.admitsAll_everything "" hmarks
  rw [hcourse, hout] at htells
  refine ⟨hcourse, congrArg Outcome.exit hout, ?_⟩
  intro hmissed
  have hlengths := (List.Forall₂.length_eq htells).symm.trans (List.Forall₂.length_eq hmissed)
  contradiction

end CommandLine

end ProcessProbe
