import ProcessProbe.Proofs.Query.Inspector

/-!
# Failures of queries

What a query fails with, on whatever host and from whatever state it is asked. Main statement: each question has its
own kinds of failures, and a failure that names a process names the one asked about, though others were looked at on
the way.
-/

namespace ProcessProbe

variable {S α β : Type}

namespace Failure

/-- The process that a failure names. -/
def pid? : Failure → Option Nat
  | notFound pid | permissionDenied pid _ | unavailable pid _ => some pid
  | backendUnavailable .. | parse .. | timeout .. | invalidHandle _ => none

/-- A failure of one of some kinds that names no other process than `h`. -/
structure Within (kinds : List Kind) (h : Handle) (f : Failure) : Prop where
  kind_mem : f.kind ∈ kinds
  pid_eq : ∀ pid ∈ f.pid?, pid = h.pid

/-- The failures of the tooling, which are all that an enumeration has. -/
def toolingKinds : List Kind := [.backendUnavailable, .parseError, .timeout]

def childrenKinds : List Kind := .notFound :: toolingKinds

/-- The failures of a question about the working directory: all but the refusal of a handle. -/
def directoryKinds : List Kind := .permissionDenied :: .unavailable :: childrenKinds

variable {kinds kinds' : List Kind} {h : Handle} {f : Failure}

theorem Within.mono (hf : f.Within kinds h) (hsub : kinds ⊆ kinds') : f.Within kinds' h :=
  ⟨hsub hf.kind_mem, hf.pid_eq⟩

theorem Within.directory (hf : f.Within childrenKinds h) : f.Within directoryKinds h :=
  hf.mono fun _ hkind => List.mem_cons_of_mem _ (List.mem_cons_of_mem _ hkind)

theorem Within.tooling (hkind : f.kind ∈ toolingKinds) : f.Within childrenKinds h := by
  refine ⟨List.mem_cons_of_mem _ hkind, fun pid hpid => ?_⟩
  cases f with
  | notFound | permissionDenied | unavailable => simp [toolingKinds, kind] at hkind
  | backendUnavailable | parse | timeout | invalidHandle => contradiction

theorem Within.named (hkind : f.kind ∈ kinds) (hpid : f.pid? = some h.pid) : f.Within kinds h :=
  ⟨hkind, fun _ hf => Option.some.inj (hf.symm.trans hpid)⟩

theorem within_notFound : (notFound h.pid).Within childrenKinds h :=
  .named (show Kind.notFound ∈ childrenKinds by decide) rfl

theorem within_permissionDenied {detail : String} : (permissionDenied h.pid detail).Within directoryKinds h :=
  .named (show Kind.permissionDenied ∈ directoryKinds by decide) rfl

theorem within_unavailable {reason : String} : (unavailable h.pid reason).Within directoryKinds h :=
  .named (show Kind.unavailable ∈ directoryKinds by decide) rfl

variable {backend text : String}

theorem backendUnavailable_tooling : (backendUnavailable backend text).kind ∈ toolingKinds :=
  show Kind.backendUnavailable ∈ toolingKinds by decide

theorem parse_tooling : (parse backend text).kind ∈ toolingKinds := show Kind.parseError ∈ toolingKinds by decide

theorem timeout_tooling {after : Duration} : (timeout backend after).kind ∈ toolingKinds :=
  show Kind.timeout ∈ toolingKinds by decide

end Failure

theorem Diagnostic.Error.failure_tooling (e : Diagnostic.Error) {backend : String} :
    (e.failure backend).kind ∈ Failure.toolingKinds := by
  cases e with
  | timeout after => exact Failure.timeout_tooling
  | commandNotFound | spawnFailed | io | invalidPath | notAllowed => exact Failure.backendUnavailable_tooling

namespace Query

/-- On every host and from every state, the query fails only with failures of which `P` holds. -/
def FailsOnly (q : Query α) (P : Failure → Prop) : Prop :=
  ∀ (σ : Type) (host : Host σ),
    ComesTo host (fun _ => True) q fun outcome => ∀ failure, outcome = .error failure → P failure

namespace FailsOnly

variable {P P' : Failure → Prop}

theorem mono {q : Query α} (hq : FailsOnly q P) (h : ∀ failure, P failure → P' failure) : FailsOnly q P' := by
  intro σ host
  refine (hq σ host).mono ?_
  intro outcome houtcome failure hfailure
  exact h failure (houtcome failure hfailure)

theorem bind {q : Query α} {f : α → Query β} (hq : FailsOnly q P) (hf : ∀ value, FailsOnly (f value) P) :
    FailsOnly (q >>= f) P := by
  intro σ host
  refine ComesTo.bind host.keeps_any (hq σ host) ?_ ?_
  · intro value _
    exact hf value σ host
  · intro failure hfailure failure' heq
    exact hfailure failure' (congrArg Except.error (Except.error.inj heq))

theorem bind_lift {q : Inquiry α} {f : α → Query β} (hf : ∀ value, FailsOnly (f value) P) :
    FailsOnly (liftM q >>= f) P := by
  intro σ host
  refine ComesTo.bind_lift_any host.keeps_any ?_
  intro value
  exact hf value σ host

theorem ofExcept {r : Except Failure α} (h : ∀ failure, r = .error failure → P failure) :
    FailsOnly (Query.ofExcept r) P := fun _ _ => ComesTo.ofExcept h

theorem throw {failure : Failure} (h : P failure) : FailsOnly (throwThe Failure failure : Query α) P := by
  intro σ host
  refine ComesTo.throw ?_
  rintro _ ⟨⟩
  exact h

theorem pure {value : α} : FailsOnly (Pure.pure value : Query α) P := by
  intro σ host
  refine ComesTo.pure ?_
  rintro _ ⟨⟩

theorem lift {q : Inquiry α} : FailsOnly (liftM q : Query α) P := by
  intro σ host
  refine ComesTo.lift ?_
  rintro s _ _ ⟨⟩

theorem check {c : Prop} [Decidable c] {failure : Failure} {next : PUnit → Query α} (h : P failure)
    (hnext : FailsOnly (next ⟨⟩) P) : FailsOnly (if c then throwThe Failure failure >>= next else next ⟨⟩) P := by
  split
  · intro σ host
    refine ComesTo.throw_bind ?_
    rintro _ ⟨⟩
    exact h
  · exact hnext

theorem within {q : Query α} (span : Journal.Span) (hq : FailsOnly q P) : FailsOnly (Query.within span q) P := by
  intro σ host
  exact ComesTo.within host.keeps_any span (hq σ host)

section Order

variable {name : S → String} {h : Handle} {gate : S → Except Failure Unit} {attempt : S → Query α}
  (hgate : ∀ x failure, gate x = .error failure → P failure) (hattempt : ∀ x, FailsOnly (attempt x) P)
  (hnone : P noStrategy)

include hgate hattempt hnone

private theorem tryFrom (order : List S) (last : Option Failure) (hlast : ∀ failure ∈ last, P failure) :
    FailsOnly (ExceptT.mk (Query.tryFrom name h gate attempt last order)) P := by
  intro σ host
  change Inquiry.ComesTo host _ (Query.tryFrom name h gate attempt last order) _
  have hstep {outcome : Except Failure α} (houtcome : ∀ failure, outcome = .error failure → P failure) :
      Inquiry.ComesTo host (fun _ => True) (Pure.pure outcome)
        fun outcome => ∀ failure, outcome = .error failure → P failure := Inquiry.ComesTo.pure houtcome
  -- Each failure that the order goes on from is that of a gate or of an attempt, so the next one may start from it.
  induction order generalizing last with
  | nil =>
    refine Inquiry.ComesTo.bind_any host.keeps_any fun _ => hstep ?_
    rintro _ ⟨⟩
    cases last with
    | none => exact hnone
    | some failure => exact hlast failure rfl
  | cons x rest ih =>
    rw [Query.tryFrom]
    cases hx : gate x with
    | error failure =>
      refine Inquiry.ComesTo.bind_any host.keeps_any fun _ => ih (some failure) ?_
      rintro _ ⟨⟩
      exact hgate x failure hx
    | ok =>
      refine Inquiry.ComesTo.bind_any host.keeps_any fun _ => ?_
      refine Inquiry.ComesTo.bind host.keeps_any (hattempt x σ host) fun outcome houtcome => ?_
      cases outcome with
      | ok answer =>
        refine Inquiry.ComesTo.bind_any host.keeps_any fun _ => Inquiry.ComesTo.bind_any host.keeps_any fun _ => ?_
        exact hstep houtcome
      | error failure =>
        simp only
        split
        · refine Inquiry.ComesTo.bind_any host.keeps_any fun _ => ih (some failure) ?_
          rintro _ ⟨⟩
          exact houtcome failure rfl
        · exact hstep houtcome

/-- An order fails with the failure of a gate or of an attempt, or for want of strategies. -/
theorem tryOrder (order : List S) : FailsOnly (Query.tryOrder name h gate attempt order) P :=
  tryFrom hgate hattempt hnone order none fun _ hnone' => absurd hnone' (Option.not_mem_none _)

end Order

end FailsOnly

end Query

open Query (FailsOnly)
open Failure

namespace Liveness

open Diagnostic (Policy)

theorem within_existence (h : Handle) {answer : Except SystemError Unit} {failure : Failure}
    (hfailure : existence h answer = .error failure) : failure.Within childrenKinds h := by
  cases answer with
  | ok => contradiction
  | error e =>
    rw [existence] at hfailure
    split at hfailure
    · contradiction
    · split at hfailure
      · exact Except.error.inj hfailure ▸ within_notFound
      · exact Except.error.inj hfailure ▸ .tooling backendUnavailable_tooling

theorem ensureExists_failsOnly (h : Handle) : FailsOnly (ensureExists h) (Failure.Within childrenKinds h) := by
  rw [ensureExists_eq]
  exact FailsOnly.bind_lift fun answer => FailsOnly.ofExcept fun _ => within_existence h

theorem runState_failsOnly (p : Policy) (procRoot : Path) (h : Handle) :
    FailsOnly (runState p procRoot h) (Failure.Within childrenKinds h) := by
  refine FailsOnly.bind_lift fun evidence => ?_
  cases evidence with
  | state letter => exact FailsOnly.pure
  | gone => exact FailsOnly.throw within_notFound
  | undecided => exact FailsOnly.pure

theorem ensureLive_failsOnly (p : Policy) (procRoot : Path) (h : Handle) :
    FailsOnly (ensureLive p procRoot h) (Failure.Within childrenKinds h) := by
  refine FailsOnly.bind (ensureExists_failsOnly h) fun _ => ?_
  refine FailsOnly.bind (runState_failsOnly p procRoot h) fun state => ?_
  split
  · exact FailsOnly.throw within_notFound
  · exact FailsOnly.pure

end Liveness

namespace RelationTable

open Diagnostic (Policy)

theorem tooling_of_ofReport {text : List Char} {failure : Failure} (h : ofReport text = .error failure) :
    failure.kind ∈ toolingKinds := by
  rw [ofReport] at h
  cases hreport : Report.ProcessTable.ofText text with
  | ok table => simp [hreport] at h
  | error defect =>
    simp only [hreport, Except.error.injEq] at h
    exact h ▸ parse_tooling

theorem fromPs_failsOnly (p : Policy) : FailsOnly (fromPs p) (·.kind ∈ toolingKinds) := by
  refine FailsOnly.bind_lift fun since => FailsOnly.bind_lift fun result => ?_
  cases result with
  | error e => exact FailsOnly.throw e.failure_tooling
  | ok o =>
    refine FailsOnly.check backendUnavailable_tooling (FailsOnly.check parse_tooling ?_)
    exact FailsOnly.bind (FailsOnly.ofExcept fun _ => tooling_of_ofReport) fun table => FailsOnly.lift

theorem fromProcfs_failsOnly (procRoot : Path) : FailsOnly (fromProcfs procRoot) (·.kind ∈ toolingKinds) := by
  refine FailsOnly.bind_lift fun since => FailsOnly.bind_lift fun answer => ?_
  cases answer with
  | error e => exact FailsOnly.throw backendUnavailable_tooling
  | ok names =>
    exact FailsOnly.bind_lift fun relations => FailsOnly.check backendUnavailable_tooling FailsOnly.lift

theorem fromNative_failsOnly : FailsOnly fromNative (·.kind ∈ toolingKinds) :=
  FailsOnly.throw backendUnavailable_tooling

theorem capture_failsOnly (p : Policy) (procRoot : Path) (source : Source) :
    FailsOnly (capture p procRoot source) (·.kind ∈ toolingKinds) := by
  cases source with
  | ps => exact fromPs_failsOnly p
  | native => exact fromNative_failsOnly
  | procfs => exact fromProcfs_failsOnly procRoot

end RelationTable

namespace Subprocesses

open Diagnostic (Policy)

theorem parse_of_listed {o : Diagnostic.Output} {failure : Failure} (h : listed o = .error failure) :
    ∃ message, failure = .parse "pgrep" message := by
  have hparse {message : String}
      (heq : (.error (.parse "pgrep" message) : Except Failure (List Nat)) = .error failure) :
      ∃ message, failure = .parse "pgrep" message := ⟨message, (Except.error.inj heq).symm⟩
  rw [listed] at h
  split at h
  · exact hparse h
  · split at h
    · split at h
      · exact hparse h
      · exact hparse h
      · contradiction
    · split at h
      · split at h
        · contradiction
        · exact hparse h
      · exact hparse h

theorem ofTable_failsOnly {capture : Query RelationTable} (h : Handle)
    (hcapture : FailsOnly capture (·.kind ∈ toolingKinds)) :
    FailsOnly (do Query.ofExcept (ofTable (← capture) h)) (Failure.Within childrenKinds h) := by
  refine FailsOnly.bind (hcapture.mono fun _ => .tooling) fun t => ?_
  refine FailsOnly.ofExcept fun failure hfailure => ?_
  rw [ofTable] at hfailure
  split at hfailure
  · contradiction
  · exact Except.error.inj hfailure ▸ within_notFound

theorem viaChildList_failsOnly (p : Policy) (procRoot : Path) (selectLive : Bool) (h : Handle) :
    FailsOnly (viaChildList p procRoot selectLive h) (Failure.Within childrenKinds h) := by
  refine FailsOnly.bind (Liveness.ensureLive_failsOnly p procRoot h) fun _ => ?_
  refine FailsOnly.bind_lift fun since => FailsOnly.bind_lift fun result => ?_
  cases result with
  | error e => exact FailsOnly.throw (.tooling e.failure_tooling)
  | ok o =>
    refine FailsOnly.bind_lift fun diagnostics => ?_
    refine FailsOnly.bind (FailsOnly.ofExcept fun failure hfailure => ?_) fun pids => FailsOnly.lift
    obtain ⟨message, rfl⟩ := parse_of_listed hfailure
    exact .tooling parse_tooling

/-- What the state of a child cannot be told by is no failure of the question about its parent. -/
theorem detect_failsOnly (p : Policy) (procRoot : Path) (selectLive : Bool) (h : Handle) (x : Strategy) :
    FailsOnly (detect p procRoot selectLive h x) (Failure.Within childrenKinds h) := by
  cases x with
  | generic => exact ofTable_failsOnly h (RelationTable.fromPs_failsOnly p)
  | processGroup => exact viaChildList_failsOnly p procRoot selectLive h
  | native => exact ofTable_failsOnly h RelationTable.fromNative_failsOnly
  | procfs => exact ofTable_failsOnly h (RelationTable.fromProcfs_failsOnly procRoot)

end Subprocesses

namespace WorkingDirectory

open Diagnostic (Policy)

theorem canonical_failsOnly (h : Handle) (raw : Path) (backend : String) :
    FailsOnly (canonical h raw backend) (Failure.Within directoryKinds h) := by
  rw [canonical]
  refine FailsOnly.check (Within.tooling parse_tooling).directory ?_
  refine FailsOnly.bind_lift fun answer => ?_
  cases answer with
  | ok path => exact FailsOnly.pure
  | error e =>
    simp only
    split
    · exact FailsOnly.throw within_unavailable
    · split
      · exact FailsOnly.pure
      · exact FailsOnly.throw (Within.tooling backendUnavailable_tooling).directory

theorem settle_failsOnly (h : Handle) (raw : Path) (text : List Char) (backend : String) :
    FailsOnly (settle h raw text backend) (Failure.Within directoryKinds h) := by
  refine FailsOnly.bind_lift fun deleted => ?_
  cases deleted with
  | some gone => exact FailsOnly.throw within_unavailable
  | none => exact canonical_failsOnly h raw backend

theorem within_linkFailure (h : Handle) (e : SystemError) : (linkFailure h e).Within directoryKinds h := by
  rw [linkFailure]
  repeat' split
  · exact within_notFound.directory
  · exact within_permissionDenied
  · exact within_notFound.directory
  · exact (Within.tooling parse_tooling).directory
  · exact (Within.tooling backendUnavailable_tooling).directory

theorem viaLink_failsOnly (procRoot : Path) (h : Handle) :
    FailsOnly (viaLink procRoot h) (Failure.Within directoryKinds h) := by
  refine FailsOnly.bind_lift fun mounted => ?_
  refine FailsOnly.check (Within.tooling backendUnavailable_tooling).directory ?_
  refine FailsOnly.bind_lift fun answer => ?_
  cases answer with
  | error e => exact FailsOnly.throw (within_linkFailure h e)
  | ok target => exact settle_failsOnly h target _ "procfs"

theorem viaReport_failsOnly (p : Policy) (procRoot : Path) (h : Handle) :
    FailsOnly (viaReport p procRoot h) (Failure.Within directoryKinds h) := by
  refine FailsOnly.bind_lift fun result => ?_
  cases result with
  | error e => exact FailsOnly.throw (Within.tooling e.failure_tooling).directory
  | ok o =>
    refine FailsOnly.check (Within.tooling parse_tooling).directory ?_
    split
    · exact FailsOnly.throw (Within.tooling parse_tooling).directory
    · exact settle_failsOnly h _ _ "lsof"
    · exact FailsOnly.throw within_permissionDenied
    · split
      · refine FailsOnly.bind ((Liveness.ensureLive_failsOnly p procRoot h).mono fun _ => Within.directory) fun _ => ?_
        exact FailsOnly.throw within_permissionDenied
      · exact FailsOnly.throw (Within.tooling parse_tooling).directory

theorem resolve_failsOnly (p : Policy) (procRoot : Path) (h : Handle) (x : Strategy) :
    FailsOnly (resolve p procRoot h x) (Failure.Within directoryKinds h) := by
  cases x with
  | generic => exact FailsOnly.throw (Within.tooling backendUnavailable_tooling).directory
  | lsof => exact viaReport_failsOnly p procRoot h
  | procfs => exact viaLink_failsOnly procRoot h

end WorkingDirectory

namespace Inspector

theorem outcomes_failsOnly {gate : S → Except Failure Unit} {attempt : S → Query α} {P : Failure → Prop}
    (hgate : ∀ x failure, gate x = .error failure → P failure) (hattempt : ∀ x, FailsOnly (attempt x) P)
    {σ : Type} (host : Host σ) (xs : List S) (s : σ) :
    ∀ entry ∈ ((outcomes gate attempt xs).run host s).1, ∀ failure, entry.2 = .error failure → P failure := by
  have hreported (x : S) : Inquiry.ComesTo host (fun _ => True) (reported gate attempt x)
      fun outcome => ∀ failure, outcome = .error failure → P failure := by
    refine reported_comesTo (fun failure hfailure other heq => ?_) fun _ => hattempt x σ host
    exact Except.error.inj heq ▸ hgate x failure hfailure
  exact outcomes_forall host.keeps_any hreported xs s trivial

variable (i : Inspector) (h : Handle)

private theorem subprocessGate_within (x : Subprocesses.Strategy) (failure : Failure)
    (hgate : i.subprocessGate x = .error failure) : failure.Within childrenKinds h :=
  .tooling (by rw [i.subprocessGate_eq_error x hgate]; decide)

private theorem directoryGate_within (x : WorkingDirectory.Strategy) (failure : Failure)
    (hgate : i.directoryGate x = .error failure) : failure.Within directoryKinds h :=
  (Within.tooling (by rw [i.directoryGate_eq_error x hgate]; decide)).directory

theorem hasSubprocesses_failsOnly : FailsOnly (i.hasSubprocesses h) (Failure.Within childrenKinds h) :=
  FailsOnly.within _ (FailsOnly.tryOrder (i.subprocessGate_within h)
    (Subprocesses.detect_failsOnly _ _ _ h) (.tooling backendUnavailable_tooling) _)

theorem workingDirectory_failsOnly : FailsOnly (i.workingDirectory h) (Failure.Within directoryKinds h) :=
  FailsOnly.within _ (FailsOnly.tryOrder (i.directoryGate_within h)
    (WorkingDirectory.resolve_failsOnly _ _ h) (Within.tooling backendUnavailable_tooling).directory _)

theorem workingDirectoryVia_failsOnly (x : WorkingDirectory.Strategy) :
    FailsOnly (i.workingDirectoryVia x h) (Failure.Within directoryKinds h) := by
  refine FailsOnly.within _ ?_
  cases x with
  | generic => exact i.workingDirectory_failsOnly h
  | lsof => exact WorkingDirectory.resolve_failsOnly _ _ h .lsof
  | procfs => exact WorkingDirectory.resolve_failsOnly _ _ h .procfs

/-- On every host, a question about children fails only for want of the process or of tooling, one about the working
directory never with the refusal of a handle, and an enumeration only for want of tooling. A failure that names a
process names the one that the question was about. -/
theorem failures_stay_in_class {σ : Type} (host : Host σ) (s : σ) :
    (∀ failure, ((i.hasSubprocesses h).outcome.run host s).1 = .error failure →
        failure.Within [.notFound, .backendUnavailable, .parseError, .timeout] h) ∧
      (∀ x failure, ((i.hasSubprocessesVia x h).outcome.run host s).1 = .error failure →
        failure.Within [.notFound, .backendUnavailable, .parseError, .timeout] h) ∧
      (∀ entry ∈ ((i.hasSubprocessesAll h).run host s).1, ∀ failure, entry.2 = .error failure →
        failure.Within [.notFound, .backendUnavailable, .parseError, .timeout] h) ∧
      (∀ failure, ((i.workingDirectory h).outcome.run host s).1 = .error failure →
        failure.kind ≠ .invalidHandle ∧ ∀ pid ∈ failure.pid?, pid = h.pid) ∧
      (∀ x failure, ((i.workingDirectoryVia x h).outcome.run host s).1 = .error failure →
        failure.kind ≠ .invalidHandle ∧ ∀ pid ∈ failure.pid?, pid = h.pid) ∧
      (∀ entry ∈ ((i.workingDirectoryAll h).run host s).1, ∀ failure, entry.2 = .error failure →
        failure.kind ≠ .invalidHandle ∧ ∀ pid ∈ failure.pid?, pid = h.pid) ∧
      ∀ source failure, ((i.relations source).outcome.run host s).1 = .error failure →
        failure.kind ∈ [.backendUnavailable, .parseError, .timeout] := by
  have hdirectory {failure : Failure} (hf : failure.Within directoryKinds h) :
      failure.kind ≠ .invalidHandle ∧ ∀ pid ∈ failure.pid?, pid = h.pid :=
    ⟨fun hkind => absurd (hkind ▸ hf.kind_mem) (by decide), hf.pid_eq⟩
  refine ⟨?_, fun x => ?_, ?_, fun failure hfailure => ?_, fun x failure hfailure => ?_, ?_, fun source => ?_⟩
  · exact i.hasSubprocesses_failsOnly h σ host s trivial
  · exact FailsOnly.within _ (Subprocesses.detect_failsOnly _ _ _ h x) σ host s trivial
  · exact outcomes_failsOnly (i.subprocessGate_within h) (Subprocesses.detect_failsOnly _ _ _ h) host _ s
  · exact hdirectory (i.workingDirectory_failsOnly h σ host s trivial failure hfailure)
  · exact hdirectory (i.workingDirectoryVia_failsOnly h x σ host s trivial failure hfailure)
  · intro entry hentry failure hfailure
    exact hdirectory (outcomes_failsOnly (i.directoryGate_within h) (WorkingDirectory.resolve_failsOnly _ _ h) host _ s
      entry hentry failure hfailure)
  · exact RelationTable.capture_failsOnly _ _ source σ host s trivial

/-! ## A host on which everything fails -/

/-- What is answered where there are no processes, files and diagnostics, and no directory can be listed. -/
def emptyReply : (request : Request) → request.Answer
  | .probe _ => .error .noSuchProcess
  | .readFile _ => .error .noSuchEntry
  | .readLink _ => .error .noSuchEntry
  | .resolve _ => .error .noSuchEntry
  | .list _ => .error .accessDenied
  | .isPresent _ => false
  | .isDirectory _ => true
  | .metadata _ => .error .noSuchEntry
  | .run _ => .notStarted .noSuchEntry
  | .diagnosticsSince _ => []
  | .clock => (0 : Nat)
  | .record _ => ()
  | .environment _ => none
  | .ownPid => (1 : Nat)
  | .platform => ⟨"linux", none, "x86_64"⟩
  | .timestamp => ""
  | .identity => ("", "")

def emptyHost : Host Unit := ⟨fun request s => (emptyReply request, s)⟩

/-- An inspector that has every backend but the interface of the platform. -/
def equipped : Inspector :=
  ⟨.default, { Capabilities.none ⟨"linux", none, "x86_64"⟩ "" with
    procfs := true, ps := .working "/bin/ps", pgrep := .working "/bin/pgrep", lsof := .working "/bin/lsof" }⟩

def nobody : Handle := ⟨5, Nat.succ_pos 4, (by decide : 5 ≤ 2147483647)⟩

/-- No process is found, by whatever strategy gets as far as to tell, and the others fail for want of tooling. -/
theorem failures_stay_in_class_empty :
    (Failure.notFound 5).Within [.notFound, .backendUnavailable, .parseError, .timeout] nobody ∧
      (Failure.backendUnavailable "ps" "not installed or not on PATH").Within
        [.notFound, .backendUnavailable, .parseError, .timeout] nobody ∧
      (Failure.backendUnavailable "native" "not available on this host").Within
        [.notFound, .backendUnavailable, .parseError, .timeout] nobody ∧
      (∀ pid ∈ (Failure.notFound 5).pid?, pid = nobody.pid) ∧
      (Failure.backendUnavailable "lsof" "not installed or not on PATH").kind ≠ .invalidHandle ∧
      (Failure.notFound 5).kind ≠ .invalidHandle ∧
      (Failure.backendUnavailable "ps" "not installed or not on PATH").kind ∈
        [.backendUnavailable, .parseError, .timeout] := by
  obtain ⟨hordered, hvia, hall, hdirectory, hdirectoryVia, hdirectoryAll, hrelations⟩ :=
    failures_stay_in_class equipped nobody emptyHost ()
  refine ⟨hordered _ rfl, hvia .generic _ rfl, hall (.native, _) (by decide) _ rfl, (hdirectory _ rfl).2,
    (hdirectoryVia .lsof _ rfl).1, ?_, hrelations .ps _ rfl⟩
  exact (hdirectoryAll (.procfs, .error (.notFound 5)) (by decide) _ rfl).1

end Inspector

end ProcessProbe
