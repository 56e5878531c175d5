import ProcessProbe.Proofs.Diagnostic.Policy
import ProcessProbe.Proofs.Process.Liveness
import ProcessProbe.Proofs.Query.Failures
import ProcessProbe.Proofs.Text.Words

/-!
# Evidence that a process is gone

What the stat record and the report of `ps` say of a process, with a rule for each way in which they may come to say it.
The checks follow these rules on every host, whatever it answers and however its answers change it. Main statement: a
process that a signal reaches is found to be gone on the word of one of the two sources, and never because they fail.
-/

namespace ProcessProbe.Liveness

open Diagnostic (Policy)
open Report (StatRecord)
open Text (isBlank)

variable {σ : Type} {host : Host σ} {s s' : σ} {p : Policy} {procRoot : Path} {h : Handle} {e e' : Evidence}

/-! ## The stat record -/

/-- What the stat record says of a process in the state `s`, and the state that asking for it leaves. -/
inductive Recorded (host : Host σ) (procRoot : Path) (h : Handle) (s : σ) : Evidence → σ → Prop where
  | state {text : List Char} {record : StatRecord} {s' : σ}
      (hread : host.answer (.readFile (entry procRoot h.pid "stat")) s = (.ok (Utf8.encode text), s'))
      (hrecord : StatRecord.ofText text = .ok record) : Recorded host procRoot h s (.state record.state) s'
  | missing {s' s'' : σ}
      (hread : host.answer (.readFile (entry procRoot h.pid "stat")) s = (.error .noSuchEntry, s'))
      (hself : host.answer (.isPresent (procRoot.join (.ofString "self"))) s' = (true, s'')) :
      Recorded host procRoot h s .gone s''
  | unmounted {s' s'' : σ}
      (hread : host.answer (.readFile (entry procRoot h.pid "stat")) s = (.error .noSuchEntry, s'))
      (hself : host.answer (.isPresent (procRoot.join (.ofString "self"))) s' = (false, s'')) :
      Recorded host procRoot h s .undecided s''
  | unreadable {error : SystemError} {s' : σ}
      (hread : host.answer (.readFile (entry procRoot h.pid "stat")) s = (.error error, s'))
      (herror : error ≠ .noSuchEntry) : Recorded host procRoot h s .undecided s'
  | notText {bytes : Bytes} {s' : σ}
      (hread : host.answer (.readFile (entry procRoot h.pid "stat")) s = (.ok bytes, s'))
      (hbytes : ∀ text, Utf8.encode text ≠ bytes) : Recorded host procRoot h s .undecided s'
  | malformed {text : List Char} {defect : Defect} {s' : σ}
      (hread : host.answer (.readFile (entry procRoot h.pid "stat")) s = (.ok (Utf8.encode text), s'))
      (hrecord : StatRecord.ofText text = .error defect) : Recorded host procRoot h s .undecided s'

theorem run_recordEvidence_of_text {text : List Char}
    (hread : host.answer (.readFile (entry procRoot h.pid "stat")) s = (.ok (Utf8.encode text), s')) :
    (recordEvidence procRoot h).run host s =
      (match StatRecord.ofText text with
        | .ok record => .state record.state
        | .error _ => .undecided, s') := by
  rw [recordEvidence, Inquiry.run_bind, run_readText_of_read hread, textIn_eq_ok_iff.2 rfl]
  dsimp only
  cases StatRecord.ofText text <;> rfl

/-- A missing record says something only where the file system of the processes is mounted. -/
theorem run_recordEvidence_of_missing {present : Bool} {s'' : σ}
    (hread : host.answer (.readFile (entry procRoot h.pid "stat")) s = (.error .noSuchEntry, s'))
    (hself : host.answer (.isPresent (procRoot.join (.ofString "self"))) s' = (present, s'')) :
    (recordEvidence procRoot h).run host s = (if present then .gone else .undecided, s'') := by
  rw [recordEvidence, Inquiry.run_bind, run_readText_of_read hread]
  simp [textIn, SystemError.isNotFound, Inquiry.run_map, hself]

theorem Recorded.run_eq (hrecorded : Recorded host procRoot h s e s') :
    (recordEvidence procRoot h).run host s = (e, s') := by
  cases hrecorded with
  | state hread hrecord => rw [run_recordEvidence_of_text hread, hrecord]
  | missing hread hself => exact run_recordEvidence_of_missing hread hself
  | unmounted hread hself => exact run_recordEvidence_of_missing hread hself
  | unreadable hread herror =>
    rw [recordEvidence, Inquiry.run_bind, run_readText_of_read hread]
    simp [textIn, SystemError.isNotFound, herror]
  | notText hread hbytes =>
    rw [recordEvidence, Inquiry.run_bind, run_readText_of_read hread, textIn_of_forall_ne hbytes]
    rfl
  | malformed hread hrecord => rw [run_recordEvidence_of_text hread, hrecord]

theorem exists_recorded (host : Host σ) (procRoot : Path) (h : Handle) (s : σ) :
    ∃ e s', Recorded host procRoot h s e s' := by
  cases hread : host.answer (.readFile (entry procRoot h.pid "stat")) s with
  | mk answer s' =>
    cases answer with
    | error error =>
      by_cases herror : error = .noSuchEntry
      · subst herror
        cases hself : host.answer (.isPresent (procRoot.join (.ofString "self"))) s' with
        | mk present s'' =>
          cases present with
          | true => exact ⟨_, _, .missing hread hself⟩
          | false => exact ⟨_, _, .unmounted hread hself⟩
      · exact ⟨_, _, .unreadable hread herror⟩
    | ok bytes =>
      by_cases hbytes : ∃ text, Utf8.encode text = bytes
      · obtain ⟨text, rfl⟩ := hbytes
        cases hrecord : StatRecord.ofText text with
        | ok record => exact ⟨_, _, .state hread hrecord⟩
        | error defect => exact ⟨_, _, .malformed hread hrecord⟩
      · exact ⟨_, _, .notText hread (not_exists.1 hbytes)⟩

/-! ## The report of `ps` -/

/-- The run of `ps` that is asked for the state of one process. -/
def stateRun (p : Policy) (h : Handle) : Invocation := ⟨"ps", Diagnostic.stateArgs h, p.timeout, p.maxOutputBytes⟩

/-- What `ps` says of a process in the state `s`: its state, that it is gone, or nothing that decides. The last it does
when it may not run or cannot be started, when it runs out of its time or of its room, when a signal ends it or it exits
with neither 0 nor 1, and when its status does not fit what it prints. -/
inductive Reported (host : Host σ) (p : Policy) (h : Handle) (s : σ) : Evidence → Prop where
  | state {pid : Nat} {stdout stderr : Bytes} {truncated : Bool} {before after : List Char} {letter : Char}
      (hallows : p.Allows "ps")
      (hrun : (host.answer (.run (stateRun p h)) s).1 = .finished pid stdout stderr truncated (some 0))
      (htext : Utf8.decodeLossy stdout = before ++ letter :: after) (hbefore : ∀ c ∈ before, isBlank c = true)
      (hletter : isBlank letter = false) : Reported host p h s (.state letter)
  | gone {pid : Nat} {stdout stderr : Bytes} {truncated : Bool} (hallows : p.Allows "ps")
      (hrun : (host.answer (.run (stateRun p h)) s).1 = .finished pid stdout stderr truncated (some 1))
      (hblank : ∀ c ∈ Utf8.decodeLossy stdout, isBlank c = true) : Reported host p h s .gone
  | disallowed (hallows : ¬p.Allows "ps") : Reported host p h s .undecided
  | notStarted {error : SystemError} (hallows : p.Allows "ps")
      (hrun : (host.answer (.run (stateRun p h)) s).1 = .notStarted error) : Reported host p h s .undecided
  | failed {error : Diagnostic.Error} (hallows : p.Allows "ps")
      (hrun : (host.answer (.run (stateRun p h)) s).1 = .failed error) : Reported host p h s .undecided
  | otherStatus {pid : Nat} {stdout stderr : Bytes} {truncated : Bool} {exit : Option Int} (hallows : p.Allows "ps")
      (hrun : (host.answer (.run (stateRun p h)) s).1 = .finished pid stdout stderr truncated exit)
      (hexit : exit ≠ some 0 ∧ exit ≠ some 1) : Reported host p h s .undecided
  | blankState {pid : Nat} {stdout stderr : Bytes} {truncated : Bool} (hallows : p.Allows "ps")
      (hrun : (host.answer (.run (stateRun p h)) s).1 = .finished pid stdout stderr truncated (some 0))
      (hblank : ∀ c ∈ Utf8.decodeLossy stdout, isBlank c = true) : Reported host p h s .undecided
  | stateOfGone {pid : Nat} {stdout stderr : Bytes} {truncated : Bool} {c : Char} (hallows : p.Allows "ps")
      (hrun : (host.answer (.run (stateRun p h)) s).1 = .finished pid stdout stderr truncated (some 1))
      (hc : c ∈ Utf8.decodeLossy stdout) (hletter : isBlank c = false) : Reported host p h s .undecided

/-- The evidence of `ps` alone. -/
def psEvidence (p : Policy) (h : Handle) : Inquiry Evidence := do
  match ← p.run "ps" (Diagnostic.stateArgs h) none with
  | .ok o => return reportEvidence o
  | .error _ => return .undecided

def runEvidence (h : Handle) (run : Run) : Evidence :=
  match Policy.outcome "ps" (Diagnostic.stateArgs h) run with
  | .ok o => reportEvidence o
  | .error _ => .undecided

theorem psEvidence_of_not_allows (hallows : ¬p.Allows "ps") : psEvidence p h = pure .undecided := by
  rw [psEvidence, Diagnostic.run_of_not_allows (by decide) hallows]
  rfl

theorem psEvidence_of_allows (hallows : p.Allows "ps") :
    psEvidence p h = runEvidence h <$> Inquiry.start (stateRun p h) := by
  rw [psEvidence, Diagnostic.run_of_allows (by decide) hallows (Diagnostic.holdsZeroByte_stateArgs h),
    map_eq_pure_bind, map_eq_pure_bind, bind_assoc]
  congr 1
  funext run
  rw [pure_bind, runEvidence]
  cases Policy.outcome "ps" (Diagnostic.stateArgs h) run <;> rfl

theorem run_psEvidence (hallows : p.Allows "ps") {run : Run}
    (hrun : (host.answer (.run (stateRun p h)) s).1 = run) : ((psEvidence p h).run host s).1 = runEvidence h run := by
  rw [psEvidence_of_allows hallows, Inquiry.run_map, Inquiry.run_start, hrun]

theorem runEvidence_finished (pid : Nat) (stdout stderr : Bytes) (truncated : Bool) (exit : Option Int) :
    runEvidence h (.finished pid stdout stderr truncated exit) =
      match exit, (Text.trim (Utf8.decodeLossy stdout)).head? with
      | some 0, some letter => .state letter
      | some 1, none => .gone
      | _, _ => .undecided := rfl

theorem runEvidence_of_status {pid : Nat} {stdout stderr : Bytes} {truncated : Bool} {exit : Option Int}
    (hexit : exit ≠ some 0 ∧ exit ≠ some 1) :
    runEvidence h (.finished pid stdout stderr truncated exit) = .undecided := by
  rw [runEvidence_finished]
  match exit with
  | none => rfl
  | some (.ofNat 0) => exact (hexit.1 rfl).elim
  | some (.ofNat 1) => exact (hexit.2 rfl).elim
  | some (.ofNat (n + 2)) => rfl
  | some (.negSucc n) => rfl

theorem Reported.run_eq (hreported : Reported host p h s e) : ((psEvidence p h).run host s).1 = e := by
  have hnone {text : List Char} (hblank : ∀ c ∈ text, isBlank c = true) : (Text.trim text).head? = none := by
    rw [Text.trim_eq_nil_iff.2 hblank, List.head?_nil]
  cases hreported with
  | state hallows hrun htext hbefore hletter =>
    rw [run_psEvidence hallows hrun, runEvidence_finished,
      Text.head?_trim_eq_some_iff.2 ⟨hletter, _, _, htext, hbefore⟩]
    rfl
  | gone hallows hrun hblank =>
    rw [run_psEvidence hallows hrun, runEvidence_finished, hnone hblank]
    rfl
  | disallowed hallows => rw [psEvidence_of_not_allows hallows, Inquiry.run_pure]
  | notStarted hallows hrun =>
    rw [run_psEvidence hallows hrun]
    rfl
  | failed hallows hrun =>
    rw [run_psEvidence hallows hrun]
    rfl
  | otherStatus hallows hrun hexit =>
    rw [run_psEvidence hallows hrun]
    exact runEvidence_of_status hexit
  | blankState hallows hrun hblank =>
    rw [run_psEvidence hallows hrun, runEvidence_finished, hnone hblank]
    rfl
  | stateOfGone hallows hrun hc hletter =>
    obtain ⟨letter, hhead⟩ := Option.ne_none_iff_exists'.1 fun hnil =>
      absurd (Text.trim_eq_nil_iff.1 (List.head?_eq_none_iff.1 hnil) _ hc) (by simp [hletter])
    rw [run_psEvidence hallows hrun, runEvidence_finished, hhead]
    rfl

theorem exists_reported (host : Host σ) (p : Policy) (h : Handle) (s : σ) : ∃ e, Reported host p h s e := by
  by_cases hallows : p.Allows "ps"
  · cases hrun : (host.answer (.run (stateRun p h)) s).1 with
    | notStarted error => exact ⟨_, .notStarted hallows hrun⟩
    | failed error => exact ⟨_, .failed hallows hrun⟩
    | finished pid stdout stderr truncated exit =>
      by_cases hblank : ∀ c ∈ Utf8.decodeLossy stdout, isBlank c = true
      · by_cases hzero : exit = some 0
        · subst hzero
          exact ⟨_, .blankState hallows hrun hblank⟩
        · by_cases hone : exit = some 1
          · subst hone
            exact ⟨_, .gone hallows hrun hblank⟩
          · exact ⟨_, .otherStatus hallows hrun ⟨hzero, hone⟩⟩
      · obtain ⟨letter, hletter⟩ := Option.ne_none_iff_exists'.1 fun hnone =>
          hblank (Text.trim_eq_nil_iff.1 (List.head?_eq_none_iff.1 hnone))
        obtain ⟨hvisible, before, after, htext, hbefore⟩ := Text.head?_trim_eq_some_iff.1 hletter
        by_cases hzero : exit = some 0
        · subst hzero
          exact ⟨_, .state hallows hrun htext hbefore hvisible⟩
        · by_cases hone : exit = some 1
          · subst hone
            exact ⟨_, .stateOfGone hallows hrun (by simp [htext]) hvisible⟩
          · exact ⟨_, .otherStatus hallows hrun ⟨hzero, hone⟩⟩
  · exact ⟨_, .disallowed hallows⟩

/-! ## Both together -/

/-- What is found out about a process: what its record says, or what `ps` says where the record does not decide. -/
inductive Judged (host : Host σ) (p : Policy) (procRoot : Path) (h : Handle) (s : σ) : Evidence → Prop where
  | record {e : Evidence} {s' : σ} (hrecord : Recorded host procRoot h s e s') (hdecided : e ≠ .undecided) :
      Judged host p procRoot h s e
  | report {e : Evidence} {s' : σ} (hrecord : Recorded host procRoot h s .undecided s')
      (hreport : Reported host p h s' e) : Judged host p procRoot h s e

theorem evidence_eq : evidence p procRoot h = do
    match ← recordEvidence procRoot h with
    | .undecided => psEvidence p h
    | decided => return decided := by
  rw [evidence]
  congr 1

theorem Judged.run_eq (hjudged : Judged host p procRoot h s e) : ((evidence p procRoot h).run host s).1 = e := by
  rw [evidence_eq, Inquiry.run_bind]
  cases hjudged with
  | record hrecord hdecided =>
    rw [hrecord.run_eq]
    cases e with
    | undecided => contradiction
    | gone => rfl
    | state letter => rfl
  | report hrecord hreport =>
    rw [hrecord.run_eq]
    exact hreport.run_eq

theorem exists_judged (host : Host σ) (p : Policy) (procRoot : Path) (h : Handle) (s : σ) :
    ∃ e, Judged host p procRoot h s e := by
  obtain ⟨e, s', hrecord⟩ := exists_recorded host procRoot h s
  cases e with
  | undecided =>
    obtain ⟨e, hreport⟩ := exists_reported host p h s'
    exact ⟨e, .report hrecord hreport⟩
  | gone => exact ⟨_, .record hrecord (by simp)⟩
  | state letter => exact ⟨_, .record hrecord (by simp)⟩

theorem judged_iff : Judged host p procRoot h s e ↔ ((evidence p procRoot h).run host s).1 = e := by
  constructor
  · exact Judged.run_eq
  · intro hrun
    obtain ⟨e₀, hjudged⟩ := exists_judged host p procRoot h s
    obtain rfl : e₀ = e := hjudged.run_eq.symm.trans hrun
    exact hjudged

/-! ## The checks -/

/-- What the check of the run state answers on what is found out. -/
def Evidence.verdict (h : Handle) : Evidence → Except Failure (Option Char)
  | .state letter => .ok (some letter)
  | .gone => .error (.notFound h.pid)
  | .undecided => .ok none

theorem Judged.runState_eq (hjudged : Judged host p procRoot h s e) :
    ((runState p procRoot h).outcome.run host s).1 = e.verdict h := by
  rw [runState, Query.outcome_lift_bind, Inquiry.run_bind, hjudged.run_eq]
  cases e <;> rfl

theorem runState_eq_notFound_iff :
    ((runState p procRoot h).outcome.run host s).1 = .error (.notFound h.pid) ↔ Judged host p procRoot h s .gone := by
  obtain ⟨e, hjudged⟩ := exists_judged host p procRoot h s
  rw [hjudged.runState_eq, judged_iff, hjudged.run_eq]
  cases e <;> simp [Evidence.verdict]

/-- A source says that a process is gone, or shows it as a zombie. -/
def FoundGone (host : Host σ) (p : Policy) (procRoot : Path) (h : Handle) (s : σ) : Prop :=
  Judged host p procRoot h s .gone ∨ Judged host p procRoot h s (.state zombie)

/-- A signal reaches a process, or is refused because the process is another owner's. -/
def Reaches (answer : Except SystemError Unit) : Prop := answer = .ok () ∨ answer = .error .operationNotPermitted

theorem Reaches.existence_eq {answer : Except SystemError Unit} (hreaches : Reaches answer) :
    existence h answer = .ok () := by
  cases hreaches with
  | inl hok => rw [hok, existence]
  | inr hrefused => rw [hrefused, existence, if_pos rfl]

theorem run_ensureExists : (ensureExists h).outcome.run host s =
    (existence h (host.answer (.probe h.toInt) s).1, (host.answer (.probe h.toInt) s).2) := by
  rw [ensureExists_eq, Query.outcome_lift_bind, Inquiry.run_bind]
  rfl

section Signal

variable {kill : Except SystemError Unit} (hkill : host.answer (.probe h.toInt) s = (kill, s'))

include hkill

theorem ensureLive_of_existence {failure : Failure} (hfailure : existence h kill = .error failure) :
    ((ensureLive p procRoot h).outcome.run host s).1 = .error failure := by
  rw [ensureLive, Query.outcome_bind, Inquiry.run_bind, run_ensureExists, hkill, hfailure]
  rfl

theorem Judged.ensureLive_eq (hreaches : Reaches kill) (hjudged : Judged host p procRoot h s' e) :
    ((ensureLive p procRoot h).outcome.run host s).1 =
      if e = .gone ∨ e = .state zombie then .error (.notFound h.pid) else .ok () := by
  rw [ensureLive, Query.outcome_bind, Inquiry.run_bind, run_ensureExists, hkill, hreaches.existence_eq]
  simp only [Query.outcome_bind, Inquiry.run_bind, hjudged.runState_eq]
  cases e with
  | gone => rfl
  | undecided => rfl
  | state letter =>
    by_cases hzombie : letter = zombie
    · simp [Evidence.verdict, hzombie]
      rfl
    · simp [Evidence.verdict, hzombie]
      rfl

theorem ensureLive_eq_notFound_iff (hreaches : Reaches kill) :
    ((ensureLive p procRoot h).outcome.run host s).1 = .error (.notFound h.pid) ↔ FoundGone host p procRoot h s' := by
  obtain ⟨e, hjudged⟩ := exists_judged host p procRoot h s'
  rw [hjudged.ensureLive_eq hkill hreaches, FoundGone, judged_iff, judged_iff, hjudged.run_eq]
  split <;> simp_all

/-- A process is declared gone on positive evidence only. Whatever a host answers, a process counts as live, is not
found, or cannot be told of because the signal fails for a reason of its own. It is not found just when no process has
the number, or one has it and a source says that it is gone or a zombie. Where the record does not decide, a report of
`ps` that is missing, broken, killed, late or not allowed leaves the process live. -/
theorem gone_only_on_evidence {outcome : Except Failure Unit}
    (houtcome : ((ensureLive p procRoot h).outcome.run host s).1 = outcome) :
    (outcome = .ok () ∨ outcome = .error (.notFound h.pid) ∨
      ∃ error, kill = .error error ∧ error ≠ .operationNotPermitted ∧ error ≠ .noSuchProcess ∧
        outcome = .error (.backendUnavailable "kill" s!"existence check failed: {error.message}")) ∧
      (outcome = .error (.notFound h.pid) ↔
        kill = .error .noSuchProcess ∨ Reaches kill ∧ FoundGone host p procRoot h s') ∧
      (Reaches kill → ∀ s'', Recorded host procRoot h s' .undecided s'' → Reported host p h s'' .undecided →
        outcome = .ok ()) := by
  subst houtcome
  by_cases hreaches : Reaches kill
  · have habsent : kill ≠ .error .noSuchProcess := by
      rintro rfl
      exact absurd hreaches (by simp [Reaches, SystemError.noSuchProcess, SystemError.operationNotPermitted])
    obtain ⟨e, hjudged⟩ := exists_judged host p procRoot h s'
    refine ⟨?_, ?_, ?_⟩
    · rw [hjudged.ensureLive_eq hkill hreaches]
      split <;> simp
    · rw [ensureLive_eq_notFound_iff hkill hreaches]
      simp [habsent, hreaches]
    · intro _ s'' hrecord hreport
      rw [(Judged.report hrecord hreport).ensureLive_eq hkill hreaches]
      rfl
  · obtain ⟨error, rfl⟩ : ∃ error, kill = .error error := by
      cases kill with
      | error error => exact ⟨error, rfl⟩
      | ok => exact absurd (.inl rfl) hreaches
    have hrefused : error ≠ .operationNotPermitted := by
      rintro rfl
      exact hreaches (.inr rfl)
    by_cases hnone : error = .noSuchProcess
    · subst hnone
      have hlive : ((ensureLive p procRoot h).outcome.run host s).1 = .error (.notFound h.pid) :=
        ensureLive_of_existence hkill rfl
      simp [hlive, hreaches]
    · have hother : existence h (.error error) =
          .error (.backendUnavailable "kill" s!"existence check failed: {error.message}") := by
        rw [existence, if_neg hrefused, if_neg hnone]
      have hlive : ((ensureLive p procRoot h).outcome.run host s).1 = _ := ensureLive_of_existence hkill hother
      simp [hlive, hreaches, hrefused, hnone]

end Signal

/-- A host without a process file system, on which a signal to any process is refused and every run is the same. -/
def unmountedHost (run : Run) : Host Unit where
  answer
    | .probe _, s => (.error .operationNotPermitted, s)
    | .run _, s => (run, s)
    | request, s => Inspector.emptyHost.answer request s

/-- The report of `ps` on a zombie is evidence there, and a `ps` that cannot be started is none. -/
theorem gone_only_on_evidence_unmounted :
    ((ensureLive .default Settings.defaultProcRoot Inspector.nobody).outcome.run
        (unmountedHost (.finished 9 (Utf8.encode " Z+\n".toList) [] false (some 0))) ()).1 = .error (.notFound 5) ∧
      ((ensureLive .default Settings.defaultProcRoot Inspector.nobody).outcome.run
        (unmountedHost (.notStarted .noSuchEntry)) ()).1 = .ok () := by
  have hallows : Policy.default.Allows "ps" := .inl rfl
  have hkill (run : Run) : (unmountedHost run).answer (.probe Inspector.nobody.toInt) () =
      (.error .operationNotPermitted, ()) := rfl
  have hrecord (run : Run) :
      Recorded (unmountedHost run) Settings.defaultProcRoot Inspector.nobody () .undecided () := .unmounted rfl rfl
  have hblank : ∀ c ∈ [' '], isBlank c = true := List.forall_mem_singleton.2 (by decide)
  constructor
  · obtain ⟨-, hgone, -⟩ := gone_only_on_evidence (p := .default) (hkill _) rfl
    exact hgone.2 (.inr ⟨.inr rfl, .inr (.report (hrecord _)
      (.state hallows rfl (Utf8.decodeLossy_encode _) hblank (by decide)))⟩)
  · obtain ⟨-, -, hlive⟩ := gone_only_on_evidence (p := .default) (hkill _) rfl
    exact hlive (.inr rfl) () (hrecord _) (.notStarted hallows rfl)

end ProcessProbe.Liveness
