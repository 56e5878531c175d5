import ProcessProbe.Proofs.Host.Transcript
import ProcessProbe.Proofs.Query.Agreement
import ProcessProbe.Proofs.Query.WorkingDirectory

/-!
# Answers and the runs that they come from

An answer of `ps` or `pgrep`, and a failure that is about the process and not about the tooling, comes from a run that
is complete and exited as it should; any other run gives way to another strategy. For `lsof` that holds of the runs that
name no directory. Those that name one are believed, however they ended.
-/

namespace ProcessProbe

variable {α β : Type}

/-- The run is complete and ended by exiting with one of some statuses. -/
def Run.Proper (statuses : List Int) (run : Run) : Prop :=
  ∃ pid stdout stderr status, run = .finished pid stdout stderr false (some status) ∧ status ∈ statuses

def Run.IsFinished (run : Run) : Prop :=
  ∃ pid stdout stderr truncated exit, run = .finished pid stdout stderr truncated exit

/-- The run of `lsof` is complete and names a directory. -/
def Run.NamesDirectory (run : Run) : Prop :=
  ∃ pid stdout stderr exit named, run = .finished pid stdout stderr false exit ∧
    Report.WorkingDirectory.ofText (Utf8.decodeLossy stdout) = .ok (some named)

namespace Inquiry

/-- The inquiry never runs the command. -/
def Silent (command : String) (q : Inquiry α) : Prop :=
  ∀ (σ : Type) (host : Host σ) (s : σ), q.runsOf command host s = []

namespace Silent

variable {command : String}

theorem pure {value : α} : Silent command (Pure.pure value) := by
  intro σ host s
  rfl

theorem bind {q : Inquiry α} {f : α → Inquiry β} (hq : Silent command q) (hf : ∀ value, Silent command (f value)) :
    Silent command (q >>= f) := by
  intro σ host s
  rw [runsOf_bind, hq, hf]
  rfl

theorem send {request : Request} (h : ∀ answer, runIn command request answer = []) :
    Silent command (Inquiry.send request) := by
  intro σ host s
  simp [Inquiry.send, runsOf, h]

end Silent

end Inquiry

open Inquiry (Silent)

namespace Query

theorem silent_bind {command : String} {q : Query α} {f : α → Query β} (hq : Silent command q.outcome)
    (hf : ∀ value, Silent command (f value).outcome) : Silent command (q >>= f).outcome := by
  rw [outcome_bind]
  refine hq.bind fun outcome => ?_
  cases outcome with
  | ok value => exact hf value
  | error failure => exact .pure

theorem silent_bind_lift {command : String} {q : Inquiry α} {f : α → Query β} (hq : Silent command q)
    (hf : ∀ value, Silent command (f value).outcome) : Silent command (liftM q >>= f : Query β).outcome := by
  rw [outcome_lift_bind]
  exact hq.bind hf

theorem silent_guard {command : String} {c : Prop} [Decidable c] {failure : Failure} {next : PUnit → Query α}
    (hnext : Silent command (next ⟨⟩).outcome) :
    Silent command (if c then throwThe Failure failure >>= next else next ⟨⟩ : Query α).outcome := by
  split
  · exact silent_bind Silent.pure fun _ => hnext
  · exact hnext

theorem silent_lift {command : String} {q : Inquiry α} (hq : Silent command q) :
    Silent command (liftM q : Query α).outcome := by
  have hlift : outcome (liftM q : Query α) = q >>= fun value => pure (.ok value) := rfl
  rw [hlift]
  exact hq.bind fun _ => .pure

theorem silent_throw {command : String} {failure : Failure} :
    Silent command (throwThe Failure failure : Query α).outcome := Silent.pure

theorem silent_pure {command : String} {value : α} : Silent command (Pure.pure value : Query α).outcome := Silent.pure

theorem silent_ofExcept {command : String} {r : Except Failure α} : Silent command (ofExcept r).outcome := Silent.pure

end Query

open Query

namespace Diagnostic.Policy

theorem silent_check (p : Policy) (command other : String) : Silent command (p.check other) := by
  rw [check]
  split
  · exact .pure
  · split
    · exact Silent.bind (.send fun _ => rfl) fun _ => .pure
    · exact .pure

theorem silent_run (p : Policy) {command other : String} (hother : other ≠ command) (args : List String) :
    Silent command (p.run other args none) := by
  refine (p.silent_check command other).bind fun checked => ?_
  cases checked with
  | error e => exact .pure
  | ok =>
    simp only
    split
    · exact .pure
    · exact Silent.bind (.send fun _ => if_neg hother) fun _ => .pure

end Diagnostic.Policy

namespace Liveness

open Diagnostic (Policy)

variable {command : String} (hps : "ps" ≠ command) (p : Policy) (procRoot : Path) (h : Handle)

theorem silent_recordEvidence : Silent command (recordEvidence procRoot h) := by
  refine Silent.bind ?_ fun text => ?_
  · rw [readText_eq]
    exact Silent.bind (.send fun _ => rfl) fun _ => .pure
  · cases text with
    | ok text =>
      simp only
      split
      · exact .pure
      · exact .pure
    | error e =>
      simp only
      split
      · exact Silent.bind (.send fun _ => rfl) fun _ => .pure
      · exact .pure

include hps

theorem silent_evidence : Silent command (evidence p procRoot h) := by
  refine Silent.bind (silent_recordEvidence procRoot h) fun found => ?_
  cases found with
  | state letter => exact .pure
  | gone => exact .pure
  | undecided =>
    refine Silent.bind (p.silent_run hps _) fun result => ?_
    cases result with
    | ok o => exact .pure
    | error e => exact .pure

theorem silent_runState : Silent command (runState p procRoot h).outcome := by
  refine silent_bind_lift (silent_evidence hps p procRoot h) fun found => ?_
  cases found with
  | state letter => exact silent_pure
  | gone => exact silent_throw
  | undecided => exact silent_pure

theorem silent_ensureLive : Silent command (ensureLive p procRoot h).outcome := by
  refine silent_bind ?_ fun _ => silent_bind (silent_runState hps p procRoot h) fun state => ?_
  · rw [ensureExists_eq]
    exact silent_bind_lift (.send fun _ => rfl) fun _ => silent_ofExcept
  · split
    · exact silent_throw
    · exact silent_pure

end Liveness

/-- The outcome is an answer, or says something of the process. -/
def Query.IsDecisive : Except Failure α → Prop
  | .ok _ => True
  | .error failure => failure.category = .target

theorem Query.not_isDecisive_of_givesWay {outcome : Except Failure α} (h : givesWay outcome = true) :
    ¬IsDecisive outcome := by
  cases outcome with
  | ok answer => contradiction
  | error failure => cases failure <;> simp_all [givesWay, Failure.mayFallBack, IsDecisive, Failure.category,
      Failure.kind, Failure.Kind.category]

/-- How the outcome of a query depends on the runs of a command. -/
structure Query.Rests (accepts : Run → Prop) (runs : List Run) (outcome : Except Failure α) : Prop where
  answered : ∀ answer, outcome = .ok answer → runs ≠ []
  decisive : IsDecisive outcome → ∀ run ∈ runs, accepts run
  refused : ∀ run ∈ runs, run.IsFinished → ¬accepts run → givesWay outcome = true

/-- On every host, what the inquiry comes to rests on runs of the command that are accepted. -/
def Query.RestsOn (command : String) (accepts : Run → Prop) (q : Inquiry (Except Failure α)) : Prop :=
  ∀ (σ : Type) (host : Host σ) (s : σ), Rests accepts (q.runsOf command host s) (q.run host s).1

namespace Query.Rests

variable {accepts : Run → Prop} {runs : List Run}

theorem of_no_runs {failure : Failure} : Rests accepts [] (.error failure : Except Failure α) where
  answered := fun _ h => absurd h (by simp)
  decisive := fun _ _ h => absurd h List.not_mem_nil
  refused := fun _ h => absurd h List.not_mem_nil

theorem of_accepted {run : Run} {outcome : Except Failure α} (h : accepts run) : Rests accepts [run] outcome := by
  refine ⟨fun _ _ => List.cons_ne_nil _ _, fun _ other hmem => ?_, fun other hmem _ hrefused => ?_⟩
  · exact List.mem_singleton.1 hmem ▸ h
  · exact absurd h (List.mem_singleton.1 hmem ▸ hrefused)

theorem of_givesWay {run : Run} {outcome : Except Failure α} (h : givesWay outcome = true) :
    Rests accepts [run] outcome :=
  ⟨fun _ _ => List.cons_ne_nil _ _, fun hdecisive => absurd hdecisive (not_isDecisive_of_givesWay h),
    fun _ _ _ _ => h⟩

theorem of_unfinished {run : Run} {failure : Failure} (hrun : ¬run.IsFinished) (h : failure.category ≠ .target) :
    Rests accepts [run] (.error failure : Except Failure α) := by
  refine ⟨fun _ _ => List.cons_ne_nil _ _, fun hdecisive => absurd hdecisive h, fun other hmem hfinished => ?_⟩
  exact absurd hfinished (List.mem_singleton.1 hmem ▸ hrun)

/-- Whatever is made of an answer, it rests on the runs that led to it. -/
theorem of_ok {answer : α} {outcome : Except Failure β} (h : Rests accepts runs (.ok answer : Except Failure α)) :
    Rests accepts runs outcome := by
  have haccepted := h.decisive trivial
  refine ⟨fun _ _ => h.answered answer rfl, fun _ => haccepted, fun run hrun _ hrefused => ?_⟩
  exact absurd (haccepted run hrun) hrefused

theorem error {failure : Failure} (h : Rests accepts runs (.error failure : Except Failure α)) :
    Rests accepts runs (.error failure : Except Failure β) :=
  ⟨fun _ heq => absurd heq (by simp), h.decisive, h.refused⟩

end Query.Rests

theorem Diagnostic.Error.not_target (e : Diagnostic.Error) {backend : String} :
    (e.failure backend).category ≠ .target := by
  cases e <;> simp [Diagnostic.Error.failure, Failure.category, Failure.kind, Failure.Kind.category]

namespace Query.RestsOn

variable {command : String} {accepts : Run → Prop}

theorem after {q : Inquiry α} {f : α → Inquiry (Except Failure β)} (hq : Silent command q)
    (hf : ∀ value, RestsOn command accepts (f value)) : RestsOn command accepts (q >>= f) := by
  intro σ host s
  rw [Inquiry.runsOf_bind, Inquiry.run_bind, hq, List.nil_append]
  exact hf _ σ host _

theorem before {q : Inquiry (Except Failure α)} {f : Except Failure α → Inquiry (Except Failure β)}
    (hq : RestsOn command accepts q) (hf : ∀ outcome, Silent command (f outcome))
    (hkeep : ∀ (σ : Type) (host : Host σ) (s : σ) failure, ((f (.error failure)).run host s).1 = .error failure) :
    RestsOn command accepts (q >>= f) := by
  intro σ host s
  have hrests := hq σ host s
  rw [Inquiry.runsOf_bind, Inquiry.run_bind, hf, List.append_nil]
  cases houtcome : (q.run host s).1 with
  | ok answer =>
    rw [houtcome] at hrests
    exact hrests.of_ok
  | error failure =>
    rw [houtcome] at hrests
    rw [hkeep]
    exact hrests.error

theorem throw {failure : Failure} :
    RestsOn command accepts (throwThe Failure failure : Query α).outcome := by
  intro σ host s
  exact .of_no_runs

theorem after_query {q : Query α} {f : α → Query β} (hq : Silent command q.outcome)
    (hf : ∀ value, RestsOn command accepts (f value).outcome) : RestsOn command accepts (q >>= f).outcome := by
  rw [outcome_bind]
  refine after hq fun outcome => ?_
  cases outcome with
  | ok value => exact hf value
  | error failure => exact throw

theorem after_lift {q : Inquiry α} {f : α → Query β} (hq : Silent command q)
    (hf : ∀ value, RestsOn command accepts (f value).outcome) :
    RestsOn command accepts (liftM q >>= f : Query β).outcome := by
  rw [outcome_lift_bind]
  exact after hq hf

theorem before_query {q : Query α} {f : α → Query β} (hq : RestsOn command accepts q.outcome)
    (hf : ∀ value, Silent command (f value).outcome) : RestsOn command accepts (q >>= f).outcome := by
  rw [outcome_bind]
  refine before hq (fun outcome => ?_) fun _ _ _ _ => rfl
  cases outcome with
  | ok value => exact hf value
  | error failure => exact .pure

theorem within {q : Query α} (span : Journal.Span) (hq : RestsOn command accepts q.outcome) :
    RestsOn command accepts (Query.within span q).outcome := by
  refine after (.send fun _ => rfl) fun _ => before hq (fun outcome => ?_) fun _ _ _ _ => rfl
  exact Silent.bind (.send fun _ => rfl) fun _ => .pure

theorem start {invocation : Invocation} (hcommand : invocation.command = command)
    {f : Run → Inquiry (Except Failure α)} (hf : ∀ (run : Run) (σ : Type) (host : Host σ) (s : σ),
      Rests accepts (run :: (f run).runsOf command host s) ((f run).run host s).1) :
    RestsOn command accepts (Inquiry.start invocation >>= f) := by
  intro σ host s
  have hruns : (Inquiry.start invocation).runsOf command host s = [(host.answer (.run invocation) s).1] :=
    (List.append_nil _).trans (if_pos hcommand)
  rw [Inquiry.runsOf_bind, Inquiry.run_bind, hruns]
  exact hf _ σ host _

/-- A command is run, and what is made of its output does not run it again: either the run is accepted, or what is made
of it gives way. -/
theorem run (p : Diagnostic.Policy) {args : List String} {f : Except Diagnostic.Error Diagnostic.Output → Query α}
    (herror : ∀ e, f (.error e) = throwThe Failure (e.failure command))
    (hsilent : ∀ o, Silent command (f (.ok o)).outcome)
    (hfinished : ∀ pid stdout stderr truncated exit, accepts (.finished pid stdout stderr truncated exit) ∨
      ∀ (σ : Type) (host : Host σ) (s : σ),
        givesWay ((f (.ok ⟨command, args, pid, stdout, stderr, exit, truncated⟩)).outcome.run host s).1 = true) :
    RestsOn command accepts (liftM (p.run command args none) >>= f : Query α).outcome := by
  have hrefused (e : Diagnostic.Error) : RestsOn command accepts (f (.error e)).outcome := by
    rw [herror]
    exact throw
  have hcheck : Silent command (p.check command) := p.silent_check command command
  rw [outcome_lift_bind, Diagnostic.Policy.run, bind_assoc]
  refine after hcheck fun checked => ?_
  cases checked with
  | error e => exact hrefused e
  | ok =>
    simp only
    split
    · exact hrefused _
    · rw [bind_assoc]
      refine start rfl fun run σ host s => ?_
      rw [pure_bind]
      cases run with
      | notStarted e =>
        rw [Diagnostic.Policy.outcome, herror]
        exact .of_unfinished (by simp [Run.IsFinished]) (Diagnostic.Error.not_target _)
      | failed e =>
        rw [Diagnostic.Policy.outcome, herror]
        exact .of_unfinished (by simp [Run.IsFinished]) e.not_target
      | finished pid stdout stderr truncated exit =>
        rw [Diagnostic.Policy.outcome, hsilent]
        rcases hfinished pid stdout stderr truncated exit with haccepted | hway
        · exact .of_accepted haccepted
        · exact .of_givesWay (hway σ host _)

end Query.RestsOn

open Diagnostic (Policy)

namespace RelationTable

theorem fromPs_restsOn (p : Policy) : RestsOn "ps" (Run.Proper [0]) (fromPs p).outcome := by
  refine RestsOn.after_lift (.send fun _ => rfl) fun since => RestsOn.run p (fun _ => rfl) (fun o => ?_) ?_
  · refine silent_guard (silent_guard (silent_bind silent_ofExcept fun table => silent_lift ?_))
    exact Silent.bind (.send fun _ => rfl) fun _ => .pure
  · intro pid stdout stderr truncated exit
    by_cases hexit : exit = some 0
    · subst hexit
      cases truncated with
      | false => exact .inl ⟨pid, stdout, stderr, 0, rfl, List.mem_singleton_self 0⟩
      | true => exact .inr fun σ host s => rfl
    · refine .inr fun σ host s => ?_
      have hfailed : (⟨"ps", Diagnostic.tableArgs, pid, stdout, stderr, exit, truncated⟩ :
          Diagnostic.Output).succeeded = false := by simp [Diagnostic.Output.succeeded, hexit]
      simp only [hfailed]
      rfl

end RelationTable

namespace Subprocesses

theorem silent_anyLive {command : String} {live : Nat → Inquiry Bool} (hlive : ∀ pid, Silent command (live pid))
    (pids : List Nat) : Silent command (anyLive live pids) := by
  induction pids with
  | nil => exact .pure
  | cons pid pids ih =>
    refine Silent.bind (hlive pid) fun found => ?_
    split
    · exact .pure
    · exact ih

theorem silent_stillLive {command : String} (hps : "ps" ≠ command) (p : Policy) (procRoot : Path) (pid : Nat) :
    Silent command (stillLive p procRoot pid) := by
  rw [stillLive]
  split
  · exact .pure
  · refine Silent.bind (Liveness.silent_runState hps p procRoot _) fun state => ?_
    cases state with
    | ok state => exact .pure
    | error failure => exact .pure

theorem proper_of_listed {pid : Nat} {stdout stderr : Bytes} {truncated : Bool} {exit : Option Int} {pids : List Nat}
    {args : List String} (h : listed ⟨"pgrep", args, pid, stdout, stderr, exit, truncated⟩ = .ok pids) :
    (Run.finished pid stdout stderr truncated exit).Proper [0, 1] := by
  rw [listed] at h
  cases truncated with
  | true => contradiction
  | false =>
    simp only [Bool.false_eq_true, if_false] at h
    by_cases hzero : exit = some 0
    · exact ⟨pid, stdout, stderr, 0, by rw [hzero], by simp⟩
    · by_cases hone : exit = some 1
      · exact ⟨pid, stdout, stderr, 1, by rw [hone], by simp⟩
      · rw [if_neg hzero, if_neg hone] at h
        contradiction

theorem viaChildList_restsOn (p : Policy) (procRoot : Path) (selectLive : Bool) (h : Handle) :
    RestsOn "pgrep" (Run.Proper [0, 1]) (viaChildList p procRoot selectLive h).outcome := by
  refine RestsOn.after_query (Liveness.silent_ensureLive (by decide) p procRoot h) fun _ => ?_
  refine RestsOn.after_lift (.send fun _ => rfl) fun since => RestsOn.run p (fun _ => rfl) (fun o => ?_) ?_
  · refine silent_bind_lift (.send fun _ => rfl) fun diagnostics => silent_bind silent_ofExcept fun pids => ?_
    refine silent_lift (silent_anyLive (fun pid => ?_) pids)
    split
    · exact .pure
    · split
      · exact .pure
      · exact silent_stillLive (by decide) p procRoot pid
  · intro pid stdout stderr truncated exit
    cases hlisted : listed ⟨"pgrep", Diagnostic.childrenArgs selectLive h, pid, stdout, stderr, exit, truncated⟩ with
    | ok pids => exact .inl (proper_of_listed hlisted)
    | error failure =>
      obtain ⟨message, rfl⟩ := parse_of_listed hlisted
      refine .inr fun σ host s => ?_
      simp only [hlisted]
      rfl

end Subprocesses

namespace WorkingDirectory

theorem silent_settle {command : String} (h : Handle) (raw : Path) (text : List Char) (backend : String) :
    Silent command (settle h raw text backend).outcome := by
  refine silent_bind_lift ?_ fun gone => ?_
  · rw [deletedTarget?]
    split
    · refine Silent.bind (.send fun _ => rfl) fun present => ?_
      split
      · exact .pure
      · exact .pure
    · exact .pure
  · cases gone with
    | some text => exact silent_throw
    | none =>
      rw [canonical]
      refine silent_guard (silent_bind_lift (.send fun _ => rfl) fun answer => ?_)
      cases answer with
      | ok path => exact silent_pure
      | error e =>
        simp only
        split
        · exact silent_throw
        · split
          · exact silent_pure
          · exact silent_throw

theorem viaReport_restsOn (p : Policy) (procRoot : Path) (h : Handle) :
    RestsOn "lsof" (fun run => run.Proper [0, 1] ∨ run.NamesDirectory) (viaReport p procRoot h).outcome := by
  refine RestsOn.run p (fun _ => rfl) (fun o => silent_guard ?_) ?_
  · split
    · exact silent_throw
    · exact silent_settle h _ _ _
    · exact silent_throw
    · split
      · exact silent_bind (Liveness.silent_ensureLive (by decide) p procRoot h) fun _ => silent_throw
      · exact silent_throw
  · intro pid stdout stderr truncated exit
    cases truncated with
    | true => exact .inr fun σ host s => rfl
    | false =>
      cases hreport : Report.WorkingDirectory.ofText (Utf8.decodeLossy stdout) with
      | error defect =>
        refine .inr fun σ host s => ?_
        simp only [Diagnostic.Output.stdoutText, hreport]
        rfl
      | ok named =>
        cases named with
        -- From here on no exit status is looked at.
        | some named => exact .inl (.inr ⟨pid, stdout, stderr, exit, named, rfl, hreport⟩)
        | none =>
          by_cases hexit : exit = some 0 ∨ exit = some 1
          · refine .inl (.inl ?_)
            rcases hexit with rfl | rfl
            · exact ⟨pid, stdout, stderr, 0, rfl, by simp⟩
            · exact ⟨pid, stdout, stderr, 1, rfl, by simp⟩
          · refine .inr fun σ host s => ?_
            simp only [Diagnostic.Output.stdoutText, hreport, if_neg hexit]
            rfl

end WorkingDirectory

namespace Inspector

/-- What the strategies that run a diagnostic come to rests on complete runs that ended by exiting, with status 0 for
`ps` and with status 0 or 1 for the others, or that of `lsof` named a directory. -/
theorem answers_rest_on_proper_runs (i : Inspector) (h : Handle) :
    RestsOn "ps" (Run.Proper [0]) (i.hasSubprocessesVia .generic h).outcome ∧
      RestsOn "pgrep" (Run.Proper [0, 1]) (i.hasSubprocessesVia .processGroup h).outcome ∧
      RestsOn "lsof" (fun run => run.Proper [0, 1] ∨ run.NamesDirectory) (i.workingDirectoryVia .lsof h).outcome := by
  refine ⟨RestsOn.within _ ?_, RestsOn.within _ ?_, RestsOn.within _ ?_⟩
  · exact RestsOn.before_query (RelationTable.fromPs_restsOn i.settings.policy) fun t => silent_ofExcept
  · exact Subprocesses.viaChildList_restsOn i.settings.policy i.settings.procRoot i.capabilities.selectsStates h
  · exact WorkingDirectory.viaReport_restsOn i.settings.policy i.settings.procRoot h

/-- In the family the children of the first process are told by a run of `ps` that exited with status 0. -/
theorem answers_rest_on_proper_runs_family :
    ∃ run ∈ ((Snapshot.familyInspector true).hasSubprocessesVia .generic Snapshot.elder).outcome.runsOf "ps"
      Snapshot.familyHost (), run.Proper [0] := by
  have hrests := (answers_rest_on_proper_runs (Snapshot.familyInspector true) Snapshot.elder).1 Unit
    Snapshot.familyHost ()
  have hreported : Snapshot.family.Reported Snapshot.familyHost (fun _ => True)
      (Snapshot.familyInspector true).settings := Snapshot.family_reported
  have hanswer : (((Snapshot.familyInspector true).hasSubprocessesVia .generic Snapshot.elder).outcome.run
      Snapshot.familyHost ()).1 = .ok true :=
    Query.ComesTo.within hreported.keeps _ (hreported.detect_comesTo true Snapshot.elder (by decide)) () trivial
  obtain ⟨run, hrun⟩ := List.exists_mem_of_ne_nil _ (hrests.answered true hanswer)
  refine ⟨run, hrun, hrests.decisive ?_ run hrun⟩
  rw [hanswer]
  trivial

end Inspector

namespace WorkingDirectory

open Report.WorkingDirectory (cwdLine FirstName)

/-- A signal ends `lsof` when it has printed a name. -/
def killed : Known where
  link := .error .accessDenied
  probe := .ok ()
  stat := []
  exit := none
  lines := ["p5".toList, cwdLine, "n/".toList]

/-- The name is believed, though the run was not a proper one. -/
theorem killed_run_believed :
    told ((Inspector.equipped.workingDirectoryVia .lsof Inspector.nobody).outcome.run killed.toHost ()).1 =
        .ok ⟨Utf8.encode "/".toList⟩ ∧
      ¬RestsOn "lsof" (Run.Proper [0, 1])
        (Inspector.equipped.workingDirectoryVia .lsof Inspector.nobody).outcome := by
  have hname : FirstName killed.lines "/".toList := Report.WorkingDirectory.firstName_of_process rfl _ []
  have hreport := Known.inReport_of_named (by decide) (by decide) ⟨by decide, by decide, hname⟩ .default
    Inspector.nobody
  have htold : told ((Inspector.equipped.workingDirectoryVia .lsof Inspector.nobody).outcome.run
      killed.toHost ()).1 = .ok ⟨Utf8.encode "/".toList⟩ :=
    Query.ComesTo.within killed.files_on.keeps _ (killed.files_on.viaReport_comesTo hreport) () trivial
  refine ⟨htold, fun hrests => ?_⟩
  have hkilled := hrests Unit killed.toHost ()
  cases houtcome : ((Inspector.equipped.workingDirectoryVia .lsof Inspector.nobody).outcome.run
      killed.toHost ()).1 with
  | error failure =>
    rw [houtcome] at htold
    contradiction
  | ok path =>
    rw [houtcome] at hkilled
    obtain ⟨run, hrun⟩ := List.exists_mem_of_ne_nil _ (hkilled.answered path rfl)
    obtain ⟨pid, stdout, stderr, status, hproper, -⟩ := hkilled.decisive trivial run hrun
    obtain ⟨invocation, s, hcommand, heq⟩ := Inquiry.exists_of_mem_runsOf hrun
    have hanswer : (killed.toHost.answer (.run invocation) s).1 =
        .finished 9 (Utf8.encode (Text.unlines killed.lines)) [] false none := if_pos hcommand
    rw [heq, hanswer] at hproper
    exact absurd hproper (by simp)

end WorkingDirectory

end ProcessProbe
