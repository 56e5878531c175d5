import ProcessProbe.Proofs.Diagnostic.Policy
import ProcessProbe.Proofs.Host.Exchange
import ProcessProbe.Proofs.Process.Enumeration
import ProcessProbe.Proofs.Query.Failures
import ProcessProbe.Proofs.Query.Subprocesses

/-!
# The diagnostics of a question

Which diagnostics a question about a process starts, with which arguments, and what came before them. Main statement:
on every host each run is one of four, for the process asked about or for a child that `pgrep` listed for this very
question, the state of a process is looked up only when its record has just failed to tell it, and a question that
tries strategies in order or all of them starts nothing that is not usable.
-/

namespace ProcessProbe

variable {S α β : Type}

namespace Query

/-- The query asks only what the rule lets come after the exchanges in `past`. -/
def AsksOnly (rule : List Exchange → Request → Prop) (q : Query α) (past : List Exchange) : Prop :=
  q.outcome.AsksOnly rule past fun _ _ => True

namespace AsksOnly

variable {rule : List Exchange → Request → Prop} {past : List Exchange}

theorem bind {q : Query α} {f : α → Query β} (hq : AsksOnly rule q past)
    (hf : ∀ past' value, past <+: past' → AsksOnly rule (f value) past') : AsksOnly rule (q >>= f) past := by
  rw [AsksOnly, outcome_bind]
  apply Inquiry.AsksOnly.bind hq
  intro past' outcome hpast _
  cases outcome with
  | ok value => exact hf past' value hpast
  | error failure => exact Inquiry.AsksOnly.pure trivial

theorem bind_lift {q : Inquiry α} {f : α → Query β} {P : List Exchange → α → Prop} (hq : q.AsksOnly rule past P)
    (hf : ∀ past' value, past <+: past' → P past' value → AsksOnly rule (f value) past') :
    AsksOnly rule (liftM q >>= f) past := by
  rw [AsksOnly, outcome_lift_bind]
  exact hq.bind hf

theorem bind_send {request : Request} {f : request.Answer → Query β} (h : rule past request)
    (hf : ∀ past' answer, past <+: past' → AsksOnly rule (f answer) past') :
    AsksOnly rule (liftM (Inquiry.send request) >>= f) past :=
  bind_lift (.send h) fun past' answer hpast _ => hf past' answer hpast

theorem throw {failure : Failure} : AsksOnly rule (throwThe Failure failure : Query α) past :=
  Inquiry.AsksOnly.pure trivial

theorem pure {value : α} : AsksOnly rule (Pure.pure value : Query α) past := Inquiry.AsksOnly.pure trivial

theorem ofExcept {r : Except Failure α} : AsksOnly rule (Query.ofExcept r) past := Inquiry.AsksOnly.pure trivial

theorem lift {q : Inquiry α} {P : List Exchange → α → Prop} (hq : q.AsksOnly rule past P) :
    AsksOnly rule (liftM q : Query α) past := by
  apply Inquiry.AsksOnly.bind hq
  intro past' value _ _
  exact Inquiry.AsksOnly.pure trivial

theorem check {c : Prop} [Decidable c] {failure : Failure} {next : PUnit → Query α}
    (hnext : AsksOnly rule (next ⟨⟩) past) :
    AsksOnly rule (if c then throwThe Failure failure >>= next else next ⟨⟩) past := by
  split
  · exact trivial
  · exact hnext

section Reports

variable (hrecord : ∀ past entry, rule past (.record entry))

include hrecord

theorem within {q : Query α} (span : Journal.Span) (hq : ∀ past', AsksOnly rule q past') :
    AsksOnly rule (Query.within span q) past := by
  apply Inquiry.AsksOnly.bind (.send (hrecord past _))
  intro past' _ _ _
  apply Inquiry.AsksOnly.bind (hq past')
  intro past'' outcome _ _
  apply Inquiry.AsksOnly.bind (.send (hrecord past'' _))
  intro _ _ _ _
  exact Inquiry.AsksOnly.pure trivial

private theorem report (level : Journal.Level) (event : Journal.EventName) (message : String) (h : Handle)
    (fields : Journal.Fields) : (Query.report level event message h fields).AsksOnly rule past fun _ _ => True :=
  (Inquiry.AsksOnly.send (hrecord past _)).mono fun _ _ _ => trivial

variable (hclock : ∀ past, rule past .clock) {name : S → String} {h : Handle} {gate : S → Except Failure Unit}
  {attempt : S → Query α}

include hclock

private theorem tryFrom (order : List S)
    (hattempt : ∀ x ∈ order, gate x = .ok () → ∀ past', AsksOnly rule (attempt x) past') (last : Option Failure) :
    (Query.tryFrom name h gate attempt last order).AsksOnly rule past fun _ _ => True := by
  induction order generalizing past last with
  | nil => exact (report hrecord ..).bind fun _ _ _ _ => Inquiry.AsksOnly.pure trivial
  | cons x rest ih =>
    have hrest (past' : List Exchange) (last : Option Failure) :
        (Query.tryFrom name h gate attempt last rest).AsksOnly rule past' fun _ _ => True :=
      ih (fun y hy => hattempt y (List.mem_cons_of_mem x hy)) last
    rw [Query.tryFrom]
    cases hgate : gate x with
    | error failure => exact (report hrecord ..).bind fun past' _ _ _ => hrest past' (some failure)
    | ok =>
      have hx := hattempt x List.mem_cons_self hgate
      apply Inquiry.AsksOnly.bind (.send (hclock past))
      intro past' started _ _
      apply Inquiry.AsksOnly.bind (hx past')
      intro past'' outcome _ _
      cases outcome with
      | ok answer =>
        apply Inquiry.AsksOnly.bind (.send (hclock past''))
        intro _ ended _ _
        exact (report hrecord ..).bind fun _ _ _ _ => Inquiry.AsksOnly.pure trivial
      | error failure =>
        simp only
        split
        · exact (report hrecord ..).bind fun past' _ _ _ => hrest past' (some failure)
        · exact Inquiry.AsksOnly.pure trivial

/-- An order asks what its strategies ask, except for those with a closed gate. -/
theorem tryOrder {order : List S}
    (hattempt : ∀ x ∈ order, gate x = .ok () → ∀ past', AsksOnly rule (attempt x) past') :
    AsksOnly rule (Query.tryOrder name h gate attempt order) past := tryFrom hrecord hclock order hattempt none

end Reports

end AsksOnly

end Query

open Query (AsksOnly)

theorem Inspector.outcomes_asksOnly {rule : List Exchange → Request → Prop} {past : List Exchange}
    {gate : S → Except Failure Unit} {attempt : S → Query α} (xs : List S)
    (hattempt : ∀ x ∈ xs, gate x = .ok () → ∀ past', AsksOnly rule (attempt x) past') :
    (outcomes gate attempt xs).AsksOnly rule past fun _ _ => True := by
  induction xs generalizing past with
  | nil => exact Inquiry.AsksOnly.pure trivial
  | cons x xs ih =>
    have hfirst : (reported gate attempt x).AsksOnly rule past fun _ _ => True := by
      rw [reported]
      cases hgate : gate x with
      | error failure => exact Inquiry.AsksOnly.pure trivial
      | ok => exact hattempt x List.mem_cons_self hgate past
    rw [outcomes_cons]
    apply hfirst.bind
    intro past' outcome _ _
    apply (ih fun y hy => hattempt y (List.mem_cons_of_mem x hy)).bind
    intro _ rest _ _
    exact Inquiry.AsksOnly.pure trivial

/-! ## The runs of a question -/

namespace Discipline

open Diagnostic (Policy)

inductive Job where
  | table
  | state
  | children
  | directory
  deriving Repr, DecidableEq

/-- A question about a process, put to one strategy, to the strategies in order, or to all of them. -/
inductive Question where
  | children
  | childrenVia (x : Subprocesses.Strategy)
  | childrenAll
  | directory
  | directoryVia (x : WorkingDirectory.Strategy)
  | directoryAll

namespace Question

/-- What comes of a question. -/
def Result : Question → Type
  | children | childrenVia _ => Except Failure Bool
  | childrenAll => List (Subprocesses.Strategy × Except Failure Bool)
  | directory | directoryVia _ => Except Failure Path
  | directoryAll => List (WorkingDirectory.Strategy × Except Failure Path)

def inquiry (i : Inspector) (h : Handle) : (q : Question) → Inquiry q.Result
  | children => (i.hasSubprocesses h).outcome
  | childrenVia x => (i.hasSubprocessesVia x h).outcome
  | childrenAll => i.hasSubprocessesAll h
  | directory => (i.workingDirectory h).outcome
  | directoryVia x => (i.workingDirectoryVia x h).outcome
  | directoryAll => i.workingDirectoryAll h

/-- The jobs for which a question may start diagnostics. A chosen strategy is not asked whether it is usable. -/
def jobs (i : Inspector) : Question → List Job
  | children | childrenAll =>
    (if i.capabilities.ps.usable then [.table] else []) ++ if i.capabilities.pgrep.usable then [.children, .state] else []
  | childrenVia .generic => [.table]
  | childrenVia .processGroup => [.children, .state]
  | childrenVia .native | childrenVia .procfs => []
  | directory | directoryAll | directoryVia .generic =>
    if i.capabilities.lsof.usable then [.directory, .state] else []
  | directoryVia .lsof => [.directory, .state]
  | directoryVia .procfs => []

end Question

/-- A run of `pgrep` among the exchanges listed the process. -/
def Listed (past : List Exchange) (pid : Nat) : Prop :=
  ∃ args timeout limit run o pids, ⟨.run ⟨"pgrep", args, timeout, limit⟩, run⟩ ∈ past ∧
    Policy.outcome "pgrep" args run = .ok o ∧ Subprocesses.listed o = .ok pids ∧ pid ∈ pids

theorem Listed.of_prefix {past past' : List Exchange} {pid : Nat} (h : Listed past pid) (hpast : past <+: past') :
    Listed past' pid := by
  obtain ⟨args, timeout, limit, run, o, pids, hmem, hlisted⟩ := h
  exact ⟨args, timeout, limit, run, o, pids, hpast.subset hmem, hlisted⟩

/-- The exchanges end in a look at the record of a process that does not decide its state: the record is no text of the
right form, cannot be read, or is missing together with the caller's own entry. -/
inductive Undecided (procRoot : Path) (pid : Nat) : List Exchange → Prop where
  | malformed {past : List Exchange} {answer : Except SystemError Bytes} {text : List Char} {defect : Defect}
      (htext : Liveness.textIn answer = .ok text) (hrecord : Report.StatRecord.ofText text = .error defect) :
      Undecided procRoot pid (past ++ [⟨.readFile (Liveness.entry procRoot pid "stat"), answer⟩])
  | unreadable {past : List Exchange} {answer : Except SystemError Bytes} {e : SystemError}
      (htext : Liveness.textIn answer = .error e) (hfound : e.isNotFound = false) :
      Undecided procRoot pid (past ++ [⟨.readFile (Liveness.entry procRoot pid "stat"), answer⟩])
  | missing {past : List Exchange} {answer : Except SystemError Bytes} {e : SystemError}
      (htext : Liveness.textIn answer = .error e) (hmissing : e.isNotFound = true) :
      Undecided procRoot pid (past ++ [⟨.readFile (Liveness.entry procRoot pid "stat"), answer⟩] ++
        [⟨.isPresent (procRoot.join (.ofString "self")), false⟩])

variable (i : Inspector) (h : Handle)

/-- The run that does a job for a question about `h`, after some exchanges. -/
inductive IsRun (past : List Exchange) : Job → Invocation → Prop where
  | table : IsRun past .table
      ⟨"ps", ["-A", "-o", "pid=", "-o", "ppid=", "-o", "stat="], i.settings.toolTimeout, i.settings.maxOutputBytes⟩
  | state {pid : Nat} (hpid : pid = h.pid ∨ Listed past pid) (hrecord : Undecided i.settings.procRoot pid past) :
      IsRun past .state
        ⟨"ps", ["-o", "stat=", "-p", toString pid], i.settings.toolTimeout, i.settings.maxOutputBytes⟩
  | children : IsRun past .children
      ⟨"pgrep", (if i.capabilities.selectsStates then ["-r", "D,R,S,T,t,W,X,P,I"] else []) ++ ["-P", toString h.pid],
        i.settings.toolTimeout, i.settings.maxOutputBytes⟩
  | directory : IsRun past .directory
      ⟨"lsof", ["-a", "-p", toString h.pid, "-d", "cwd", "-Ffn"], i.settings.toolTimeout, i.settings.maxOutputBytes⟩

/-- What a strategy may ask: to run what does some of the jobs, to probe the process asked about, and not to report an
event. -/
def rule (jobs : List Job) (past : List Exchange) : Request → Prop
  | .run invocation => ∃ job ∈ jobs, IsRun i h past job invocation
  | .probe number => number = h.toInt
  | .record (.event _) => False
  | _ => True

/-- What a question may ask, which also reports what its strategies do. -/
def questionRule (jobs : List Job) (past : List Exchange) (request : Request) : Prop :=
  rule i h jobs past request ∨ ∃ event, request = .record (.event event)

theorem questionRule_record (jobs : List Job) (past : List Exchange) (entry : Journal.Entry) :
    questionRule i h jobs past (.record entry) := by
  cases entry with
  | enter span => exact .inl trivial
  | leave => exact .inl trivial
  | event event => exact .inr ⟨event, rfl⟩

end Discipline

open Discipline

theorem Query.AsksOnly.more {i : Inspector} {h : Handle} {jobs jobs' : List Job} {q : Query α}
    {past : List Exchange} (hq : AsksOnly (rule i h jobs) q past) (hsub : jobs ⊆ jobs') :
    AsksOnly (questionRule i h jobs') q past := by
  apply Inquiry.AsksOnly.weaken hq
  intro past' request hrule
  left
  cases request with
  | run invocation =>
    obtain ⟨job, hjob, hrun⟩ := hrule
    exact ⟨job, hsub hjob, hrun⟩
  | record entry => cases entry <;> exact hrule
  | _ => exact hrule

variable {i : Inspector} {h : Handle} {jobs : List Job} {past : List Exchange}

theorem Diagnostic.run_asksOnly {command : String} {args : List String} (htool : command ∈ tools)
    (hargs : Policy.holdsZeroByte command args = false)
    (hrule : rule i h jobs past (.run ⟨command, args, i.settings.toolTimeout, i.settings.maxOutputBytes⟩)) :
    (i.settings.policy.run command args none).AsksOnly (rule i h jobs) past fun past' result =>
      ∃ run, past' = past ++ [⟨.run ⟨command, args, i.settings.toolTimeout, i.settings.maxOutputBytes⟩, run⟩] ∧
        result = Policy.outcome command args run := by
  rw [run_policy i.settings htool hargs]
  apply Inquiry.AsksOnly.map
  exact (Inquiry.AsksOnly.send hrule).mono fun past' run hpast => ⟨run, hpast, rfl⟩

namespace Liveness

theorem readText_asksOnly (path : Path) :
    (readText path).AsksOnly (rule i h jobs) past fun past' text =>
      ∃ answer, past' = past ++ [⟨.readFile path, answer⟩] ∧ text = textIn answer := by
  rw [readText_eq]
  apply Inquiry.AsksOnly.map
  exact (Inquiry.AsksOnly.send trivial).mono fun past' answer hpast => ⟨answer, hpast, rfl⟩

/-- When the record does not decide the state, the exchanges say so. -/
theorem recordEvidence_asksOnly (procRoot : Path) (k : Handle) :
    (recordEvidence procRoot k).AsksOnly (rule i h jobs) past fun past' evidence =>
      evidence = .undecided → Undecided procRoot k.pid past' := by
  apply (readText_asksOnly (entry procRoot k.pid "stat")).bind
  intro past' text _ ⟨answer, hpast, htext⟩
  subst hpast
  cases text with
  | ok text =>
    cases hrecord : Report.StatRecord.ofText text with
    | ok record =>
      simp only [hrecord]
      exact Inquiry.AsksOnly.pure fun hundecided => absurd hundecided (by simp)
    | error defect =>
      simp only [hrecord]
      exact Inquiry.AsksOnly.pure fun _ => .malformed htext.symm hrecord
  | error e =>
    simp only
    by_cases hmissing : e.isNotFound = true
    · rw [if_pos hmissing]
      apply Inquiry.AsksOnly.bind (.send trivial)
      intro past' present _ hpresent
      subst hpresent
      cases present with
      | true => exact Inquiry.AsksOnly.pure fun hundecided => absurd hundecided (by simp)
      | false => exact Inquiry.AsksOnly.pure fun _ => .missing htext.symm hmissing
    · rw [if_neg hmissing]
      exact Inquiry.AsksOnly.pure fun _ => .unreadable htext.symm (by simpa using hmissing)

section

variable (hstate : Job.state ∈ jobs) {k : Handle} (hk : k.pid = h.pid ∨ Listed past k.pid)

include hstate hk

theorem evidence_asksOnly :
    (evidence i.settings.policy i.settings.procRoot k).AsksOnly (rule i h jobs) past fun _ _ => True := by
  apply (recordEvidence_asksOnly i.settings.procRoot k).bind
  intro past' recorded hpast hundecided
  cases recorded with
  | state letter => exact Inquiry.AsksOnly.pure trivial
  | gone => exact Inquiry.AsksOnly.pure trivial
  | undecided =>
    have hlisted : k.pid = h.pid ∨ Listed past' k.pid := hk.imp_right fun hlisted => hlisted.of_prefix hpast
    have hrule : rule i h jobs past'
        (.run ⟨"ps", Diagnostic.stateArgs k, i.settings.toolTimeout, i.settings.maxOutputBytes⟩) :=
      ⟨.state, hstate, .state hlisted (hundecided rfl)⟩
    apply (Diagnostic.run_asksOnly (by decide) (Diagnostic.holdsZeroByte_stateArgs k) hrule).bind
    intro past'' result _ _
    cases result with
    | ok o => exact Inquiry.AsksOnly.pure trivial
    | error e => exact Inquiry.AsksOnly.pure trivial

theorem runState_asksOnly :
    AsksOnly (rule i h jobs) (runState i.settings.policy i.settings.procRoot k) past := by
  apply AsksOnly.bind_lift (evidence_asksOnly hstate hk)
  intro past' found _ _
  cases found with
  | state letter => exact AsksOnly.pure
  | gone => exact AsksOnly.throw
  | undecided => exact AsksOnly.pure

end

theorem ensureLive_asksOnly (hstate : Job.state ∈ jobs) :
    AsksOnly (rule i h jobs) (ensureLive i.settings.policy i.settings.procRoot h) past := by
  have hexists : AsksOnly (rule i h jobs) (ensureExists h) past := by
    rw [ensureExists_eq]
    exact AsksOnly.bind_send rfl fun _ _ _ => AsksOnly.ofExcept
  apply hexists.bind
  intro past' _ _
  apply (runState_asksOnly hstate (.inl rfl)).bind
  intro past'' state _
  split
  · exact AsksOnly.throw
  · exact AsksOnly.pure

end Liveness

namespace RelationTable

theorem withoutDiagnostics_asksOnly (t : RelationTable) (since : Diagnostic.Instant) (also : Option Nat) :
    (t.withoutDiagnostics since also).AsksOnly (rule i h jobs) past fun _ _ => True := by
  apply Inquiry.AsksOnly.bind (.send trivial)
  intro _ pids _ _
  exact Inquiry.AsksOnly.pure trivial

theorem fromPs_asksOnly (htable : Job.table ∈ jobs) :
    AsksOnly (rule i h jobs) (fromPs i.settings.policy) past := by
  apply AsksOnly.bind_send trivial
  intro past' since _
  have hrule : rule i h jobs past'
      (.run ⟨"ps", Diagnostic.tableArgs, i.settings.toolTimeout, i.settings.maxOutputBytes⟩) :=
    ⟨.table, htable, .table⟩
  apply AsksOnly.bind_lift (Diagnostic.run_asksOnly (by decide) Diagnostic.holdsZeroByte_tableArgs hrule)
  intro past'' result _ _
  cases result with
  | error e => exact AsksOnly.throw
  | ok o =>
    apply AsksOnly.check
    apply AsksOnly.check
    apply AsksOnly.ofExcept.bind
    intro _ table _
    exact AsksOnly.lift (withoutDiagnostics_asksOnly table since (some o.pid))

theorem relationsOf_asksOnly (procRoot : Path) (pids : List Nat) :
    (relationsOf procRoot pids).AsksOnly (rule i h jobs) past fun _ _ => True := by
  induction pids generalizing past with
  | nil => exact Inquiry.AsksOnly.pure trivial
  | cons pid pids ih =>
    have hfirst : (relationOf? procRoot pid).AsksOnly (rule i h jobs) past fun _ _ => True := by
      rw [relationOf?_eq]
      exact Inquiry.AsksOnly.map ((Inquiry.AsksOnly.send trivial).mono fun _ _ _ => trivial)
    apply hfirst.bind
    intro _ relation _ _
    apply ih.bind
    intro _ relations _ _
    exact Inquiry.AsksOnly.pure trivial

theorem fromProcfs_asksOnly (procRoot : Path) : AsksOnly (rule i h jobs) (fromProcfs procRoot) past := by
  apply AsksOnly.bind_send trivial
  intro _ since _
  apply AsksOnly.bind_send trivial
  intro _ answer _
  cases answer with
  | error e => exact AsksOnly.throw
  | ok names =>
    apply AsksOnly.bind_lift (relationsOf_asksOnly procRoot _)
    intro _ relations _ _
    exact AsksOnly.check (AsksOnly.lift (withoutDiagnostics_asksOnly _ since none))

end RelationTable

namespace Subprocesses

theorem stillLive_asksOnly (hstate : Job.state ∈ jobs) {pid : Nat} (hlisted : Listed past pid) :
    (stillLive i.settings.policy i.settings.procRoot pid).AsksOnly (rule i h jobs) past fun _ _ => True := by
  rw [stillLive]
  cases hchild : Handle.ofNat? pid with
  | none => exact Inquiry.AsksOnly.pure trivial
  | some child =>
    have hpid : child.pid = pid := Handle.ofNat?_eq_some_iff.1 hchild
    apply Inquiry.AsksOnly.bind (Liveness.runState_asksOnly hstate (.inr (hpid ▸ hlisted)))
    intro _ state _ _
    cases state with
    | ok letter => exact Inquiry.AsksOnly.pure trivial
    | error failure => exact Inquiry.AsksOnly.pure trivial

theorem anyLive_asksOnly {rule : List Exchange → Request → Prop} {live : Nat → Inquiry Bool} {pids : List Nat}
    (hlive : ∀ pid ∈ pids, ∀ past', past <+: past' → (live pid).AsksOnly rule past' fun _ _ => True) :
    (anyLive live pids).AsksOnly rule past fun _ _ => True := by
  induction pids generalizing past with
  | nil => exact Inquiry.AsksOnly.pure trivial
  | cons pid pids ih =>
    apply (hlive pid List.mem_cons_self past (List.prefix_refl past)).bind
    intro past' found hpast _
    split
    · exact Inquiry.AsksOnly.pure trivial
    · apply ih
      intro p hp past'' hpast'
      exact hlive p (List.mem_cons_of_mem pid hp) past'' (hpast.trans hpast')

theorem viaChildList_asksOnly (hstate : Job.state ∈ jobs) (hchildren : Job.children ∈ jobs) :
    AsksOnly (rule i h jobs)
      (viaChildList i.settings.policy i.settings.procRoot i.capabilities.selectsStates h) past := by
  apply (Liveness.ensureLive_asksOnly hstate).bind
  intro _ _ _
  apply AsksOnly.bind_send trivial
  intro past' since _
  have hrule : rule i h jobs past' (.run ⟨"pgrep", Diagnostic.childrenArgs i.capabilities.selectsStates h,
      i.settings.toolTimeout, i.settings.maxOutputBytes⟩) := ⟨.children, hchildren, .children⟩
  apply AsksOnly.bind_lift (Diagnostic.run_asksOnly (by decide) (Diagnostic.holdsZeroByte_childrenArgs _ h) hrule)
  intro ran result _ ⟨run, hran, hresult⟩
  cases result with
  | error e => exact AsksOnly.throw
  | ok o =>
    apply AsksOnly.bind_send trivial
    intro past'' diagnostics hpast
    cases hpids : listed o with
    | error failure => exact AsksOnly.throw
    | ok pids =>
      -- From here on the run of `pgrep` is among the exchanges, so that the children it listed may be looked at.
      apply AsksOnly.lift
      apply anyLive_asksOnly
      intro pid hpid last hlast
      have hmem := hran ▸ List.mem_append_right past' (List.mem_singleton_self _)
      have hlisted : Listed ran pid := ⟨_, _, _, run, o, pids, hmem, hresult.symm, hpids, hpid⟩
      split
      · exact Inquiry.AsksOnly.pure trivial
      · split
        · exact Inquiry.AsksOnly.pure trivial
        · exact stillLive_asksOnly hstate (hlisted.of_prefix (hpast.trans hlast))

end Subprocesses

namespace WorkingDirectory

theorem canonical_asksOnly (raw : Path) (backend : String) :
    AsksOnly (rule i h jobs) (canonical h raw backend) past := by
  rw [canonical]
  apply AsksOnly.check
  apply AsksOnly.bind_send trivial
  intro _ answer _
  cases answer with
  | ok path => exact AsksOnly.pure
  | error e =>
    simp only
    split
    · exact AsksOnly.throw
    · split
      · exact AsksOnly.pure
      · exact AsksOnly.throw

theorem settle_asksOnly (raw : Path) (text : List Char) (backend : String) :
    AsksOnly (rule i h jobs) (settle h raw text backend) past := by
  have hgone : (deletedTarget? text).AsksOnly (rule i h jobs) past fun _ _ => True := by
    rw [deletedTarget?]
    split
    · apply Inquiry.AsksOnly.bind (.send trivial)
      intro _ present _ _
      split
      · exact Inquiry.AsksOnly.pure trivial
      · exact Inquiry.AsksOnly.pure trivial
    · exact Inquiry.AsksOnly.pure trivial
  apply AsksOnly.bind_lift hgone
  intro _ gone _ _
  cases gone with
  | some text => exact AsksOnly.throw
  | none => exact canonical_asksOnly raw backend

theorem viaLink_asksOnly (procRoot : Path) : AsksOnly (rule i h jobs) (viaLink procRoot h) past := by
  apply AsksOnly.bind_send trivial
  intro _ mounted _
  apply AsksOnly.check
  apply AsksOnly.bind_send trivial
  intro _ answer _
  cases answer with
  | error e => exact AsksOnly.throw
  | ok target => exact settle_asksOnly target _ "procfs"

theorem viaReport_asksOnly (hstate : Job.state ∈ jobs) (hdirectory : Job.directory ∈ jobs) :
    AsksOnly (rule i h jobs) (viaReport i.settings.policy i.settings.procRoot h) past := by
  have hrule : rule i h jobs past
      (.run ⟨"lsof", Diagnostic.directoryArgs h, i.settings.toolTimeout, i.settings.maxOutputBytes⟩) :=
    ⟨.directory, hdirectory, .directory⟩
  apply AsksOnly.bind_lift (Diagnostic.run_asksOnly (by decide) (Diagnostic.holdsZeroByte_directoryArgs h) hrule)
  intro _ result _ _
  cases result with
  | error e => exact AsksOnly.throw
  | ok o =>
    apply AsksOnly.check
    split
    · exact AsksOnly.throw
    · exact settle_asksOnly _ _ "lsof"
    · exact AsksOnly.throw
    · split
      · exact (Liveness.ensureLive_asksOnly hstate).bind fun _ _ _ => AsksOnly.throw
      · exact AsksOnly.throw

end WorkingDirectory

namespace Discipline

theorem IsRun.of_stateArgs {i : Inspector} {h : Handle} {past : List Exchange} {job : Job} {invocation : Invocation}
    (hrun : IsRun i h past job invocation) {pid : Nat} (hargs : invocation.args = ["-o", "stat=", "-p", toString pid]) :
    (pid = h.pid ∨ Listed past pid) ∧ Undecided i.settings.procRoot pid past := by
  cases hrun with
  | table => simp at hargs
  | children =>
    split at hargs
    · simp at hargs
    · simp at hargs
  | directory => simp at hargs
  | @state looked hpid hrecord =>
    have hnumber : toString looked = toString pid := by simpa using hargs
    have hdigits := congrArg String.toList hnumber
    rw [Text.toList_toString, Text.toList_toString] at hdigits
    exact Text.decimal_injective hdigits ▸ ⟨hpid, hrecord⟩

variable (i h)

/-- Each strategy starts what it is for, and reports no event. -/
theorem detectChildren_asksOnly (x : Subprocesses.Strategy) (past : List Exchange) :
    AsksOnly (rule i h ((Question.childrenVia x).jobs i)) (i.detectChildren h x) past := by
  cases x with
  | generic =>
    have htable : Job.table ∈ (Question.childrenVia .generic).jobs i := List.mem_singleton_self _
    exact (RelationTable.fromPs_asksOnly htable).bind fun _ _ _ => AsksOnly.ofExcept
  | processGroup =>
    exact Subprocesses.viaChildList_asksOnly (by simp [Question.jobs]) (by simp [Question.jobs])
  | native => exact AsksOnly.throw.bind fun _ _ _ => AsksOnly.ofExcept
  | procfs => exact (RelationTable.fromProcfs_asksOnly i.settings.procRoot).bind fun _ _ _ => AsksOnly.ofExcept

theorem resolveDirectory_asksOnly (x : WorkingDirectory.Strategy) (past : List Exchange) :
    AsksOnly (rule i h ((Question.directoryVia x).jobs i)) (i.resolveDirectory h x) past := by
  cases x with
  | generic => exact AsksOnly.throw
  | lsof => exact WorkingDirectory.viaReport_asksOnly (by simp [Question.jobs]) (by simp [Question.jobs])
  | procfs => exact WorkingDirectory.viaLink_asksOnly i.settings.procRoot

theorem relations_asksOnly (source : Source) (past : List Exchange) :
    AsksOnly (rule i h [.table]) (i.relations source) past := by
  cases source with
  | ps => exact RelationTable.fromPs_asksOnly (List.mem_singleton_self _)
  | native => exact AsksOnly.throw
  | procfs => exact RelationTable.fromProcfs_asksOnly i.settings.procRoot

theorem jobs_childrenVia_subset {x : Subprocesses.Strategy} (hgate : i.subprocessGate x = .ok ()) :
    (Question.childrenVia x).jobs i ⊆ Question.children.jobs i := by
  cases x with
  | generic =>
    have husable : i.capabilities.ps.usable = true := Inspector.gate_eq_ok_iff.1 hgate
    simp [Question.jobs, husable]
  | processGroup =>
    have husable : i.capabilities.pgrep.usable = true := Inspector.gate_eq_ok_iff.1 hgate
    simp [Question.jobs, husable]
  | native => exact List.nil_subset _
  | procfs => exact List.nil_subset _

theorem jobs_directoryVia_subset {x : WorkingDirectory.Strategy} (hgate : i.directoryGate x = .ok ()) :
    (Question.directoryVia x).jobs i ⊆ Question.directory.jobs i := by
  cases x with
  | generic => exact List.Subset.refl _
  | lsof =>
    have husable : i.capabilities.lsof.usable = true := Inspector.gate_eq_ok_iff.1 hgate
    simp [Question.jobs, husable]
  | procfs => exact List.nil_subset _

theorem workingDirectory_asksOnly (past : List Exchange) :
    AsksOnly (questionRule i h (Question.directory.jobs i)) (i.workingDirectory h) past := by
  apply AsksOnly.within (questionRule_record i h _)
  intro past'
  apply AsksOnly.tryOrder (questionRule_record i h _) fun _ => .inl trivial
  intro x _ hgate past''
  exact (resolveDirectory_asksOnly i h x past'').more (jobs_directoryVia_subset i hgate)

theorem inquiry_asksOnly (q : Question) (past : List Exchange) :
    (q.inquiry i h).AsksOnly (questionRule i h (q.jobs i)) past fun _ _ => True := by
  cases q with
  | children =>
    apply AsksOnly.within (questionRule_record i h _)
    intro past'
    apply AsksOnly.tryOrder (questionRule_record i h _) fun _ => .inl trivial
    intro x _ hgate past''
    exact (detectChildren_asksOnly i h x past'').more (jobs_childrenVia_subset i hgate)
  | childrenVia x =>
    apply AsksOnly.within (questionRule_record i h _)
    intro past'
    exact (detectChildren_asksOnly i h x past').more (List.Subset.refl _)
  | childrenAll =>
    apply Inspector.outcomes_asksOnly
    intro x _ hgate past'
    exact (detectChildren_asksOnly i h x past').more (jobs_childrenVia_subset i hgate)
  | directory => exact workingDirectory_asksOnly i h past
  | directoryVia x =>
    apply AsksOnly.within (questionRule_record i h _)
    intro past'
    cases x with
    | generic => exact workingDirectory_asksOnly i h past'
    | lsof => exact (resolveDirectory_asksOnly i h .lsof past').more (List.Subset.refl _)
    | procfs => exact (resolveDirectory_asksOnly i h .procfs past').more (List.Subset.refl _)
  | directoryAll =>
    apply Inspector.outcomes_asksOnly
    intro x _ hgate past'
    exact (resolveDirectory_asksOnly i h x past').more (jobs_directoryVia_subset i hgate)

/-- Each run that a question starts does one of the jobs of that question, for the process asked about or for a child
that was listed before, and after a look at its record where that is called for. -/
theorem question_starts_its_jobs {σ : Type} (host : Host σ) (s : σ) (q : Question) {before after : List Exchange}
    {invocation : Invocation} {run : Run}
    (hstarted : (q.inquiry i h).transcript host s = before ++ ⟨.run invocation, run⟩ :: after) :
    ∃ job ∈ q.jobs i, IsRun i h before job invocation := by
  rcases (inquiry_asksOnly i h q []).rule_of_mem hstarted with hrule | ⟨event, hreport⟩
  · exact hrule
  · contradiction

open Inspector (emptyReply equipped nobody)

/-- What is answered where no record can be read and there is no `ps`, and `pgrep` lists the child 7. -/
def hiddenReply : (request : Request) → request.Answer
  | .probe _ => .ok ()
  | .readFile _ => .error .accessDenied
  | .run invocation =>
    if invocation.command = "pgrep" then .finished 9 (Utf8.encode (Report.ChildList.text [7])) [] false (some 0)
    else .notStarted .noSuchEntry
  | request => emptyReply request

def hiddenHost : Host Unit := ⟨fun request s => (hiddenReply request, s)⟩

def lookUp : Invocation := ⟨"ps", ["-o", "stat=", "-p", "7"], .ofMillis 5000, 10485760⟩

private theorem lookUp_mem :
    (⟨.run lookUp, .notStarted .noSuchEntry⟩ : Exchange) ∈
      ((Question.childrenVia .processGroup).inquiry equipped nobody).transcript hiddenHost () := by
  let p := equipped.settings.policy
  let o : Diagnostic.Output := ⟨"pgrep", ["-P", "5"], 9, Utf8.encode (Report.ChildList.text [7]), [], some 0, false⟩
  have hlive : (Liveness.ensureLive p equipped.settings.procRoot nobody).outcome.run hiddenHost () = (.ok (), ()) := rfl
  have hclock : Inquiry.clock.run hiddenHost () = ((0 : Nat), ()) := rfl
  have hran : (p.run "pgrep" (Diagnostic.childrenArgs false nobody) none).run hiddenHost () = (.ok o, ()) := rfl
  have hlisted : Subprocesses.listed o = .ok [7] := Subprocesses.listed_found (by decide) (by decide)
  have hchild : (⟨.run lookUp, .notStarted .noSuchEntry⟩ : Exchange) ∈
      (Subprocesses.stillLive p equipped.settings.procRoot 7).transcript hiddenHost () :=
    List.mem_cons_of_mem _ List.mem_cons_self
  have hvia : (⟨.run lookUp, .notStarted .noSuchEntry⟩ : Exchange) ∈
      (Subprocesses.viaChildList p equipped.settings.procRoot false nobody).outcome.transcript hiddenHost () := by
    rw [Subprocesses.viaChildList, Query.outcome_bind, Inquiry.transcript_bind, hlive]
    simp only
    rw [Query.outcome_lift_bind, Inquiry.transcript_bind, hclock, Query.outcome_lift_bind, Inquiry.transcript_bind, hran]
    simp only [hlisted]
    exact List.mem_append_right _ (List.mem_append_right _ (List.mem_append_right _ (List.mem_cons_of_mem _ hchild)))
  change _ ∈ (Inquiry.record _ >>= fun _ => (Subprocesses.viaChildList p equipped.settings.procRoot false
    nobody).outcome >>= fun outcome => Inquiry.record .leave >>= fun _ => pure outcome).transcript hiddenHost ()
  rw [Inquiry.transcript_bind, Inquiry.transcript_bind]
  exact List.mem_append_right _ (List.mem_append_left _ hvia)

/-- The state of the child 7 of the process 5 is looked up, since `pgrep` listed it and its record just failed. -/
theorem question_starts_its_jobs_hidden :
    ∃ before after, ((Question.childrenVia .processGroup).inquiry equipped nobody).transcript hiddenHost () =
      before ++ ⟨.run lookUp, .notStarted .noSuchEntry⟩ :: after ∧ Listed before 7 ∧
        Undecided equipped.settings.procRoot 7 before := by
  obtain ⟨before, after, hstarted⟩ := List.append_of_mem lookUp_mem
  obtain ⟨job, -, hrun⟩ := question_starts_its_jobs equipped nobody hiddenHost () (.childrenVia .processGroup) hstarted
  have hseven : toString 7 = "7" := by decide
  obtain ⟨hpid, hrecord⟩ := hrun.of_stateArgs (by rw [hseven]; rfl)
  exact ⟨before, after, hstarted, hpid.resolve_left (by decide), hrecord⟩

end Discipline

end ProcessProbe
