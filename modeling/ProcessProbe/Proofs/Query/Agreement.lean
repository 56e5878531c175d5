import ProcessProbe.Proofs.Diagnostic.Policy
import ProcessProbe.Proofs.Query.Order
import ProcessProbe.Proofs.Query.Reported
import ProcessProbe.Proofs.Query.Subprocesses
import ProcessProbe.Query.Inspector

/-!
# Agreement of the strategies for children

On a host that reports a snapshot faithfully, the process file system, the process table and the list of children all
lead to the answer of the snapshot, whatever the order in which each of them names the processes.
-/

namespace ProcessProbe.Snapshot

open Diagnostic (Policy)
open Report (StatRecord TableRow)

theorem Process.fits_row (p : Process) : p.row.Fits := ⟨p.pid_le, p.ppid_le.trans (by decide), p.ppid_ne.symm⟩

theorem mem_relations_rows {order : List Process} {skipped : Nat}
    (hdistinct : ∀ p ∈ order, ∀ q ∈ order, p.handle = q.handle → p = q) {r : Relation} :
    r ∈ (Report.ProcessTable.relations ⟨order.map Process.row, skipped⟩).rows ↔
      ∃ p ∈ order, p.isLive = true ∧ p.relation = r := by
  have hlive (p : Process) : (!p.row.isZombie) = p.isLive := rfl
  have hrelations : ((order.map Process.row).filter (!·.isZombie)).filterMap
      (fun row => Relation.ofPids? row.pid row.ppid) = (order.filter (·.isLive)).map Process.relation := by
    rw [List.filter_map, List.filterMap_map, ← List.filterMap_eq_map]
    refine List.filterMap_congr fun p _ => ?_
    exact p.ofPids?_eq
  rw [Report.ProcessTable.relations, hrelations, RelationTable.mem_ofList_of_functional]
  · simp [and_assoc]
  · intro r hr q hq hprocess
    obtain ⟨p, hp, rfl⟩ := List.mem_map.1 hr
    obtain ⟨p', hp', rfl⟩ := List.mem_map.1 hq
    rw [hdistinct p' (List.mem_filter.1 hp').1 p (List.mem_filter.1 hp).1 hprocess]

theorem ofReport_unlines {order : List Process} {ls : List (List Char)} (hne : order ≠ [])
    (hdistinct : ∀ p ∈ order, ∀ q ∈ order, p.handle = q.handle → p = q)
    (hrows : List.Forall₂ TableRow.Written (order.map Process.row) ls) (hone : ∀ l ∈ ls, '\n' ∉ l) :
    ∃ t, RelationTable.ofReport (Text.unlines ls) = .ok t ∧
      ∀ r, r ∈ t.rows ↔ ∃ p ∈ order, p.isLive = true ∧ p.relation = r := by
  have hfits : ∀ r ∈ order.map Process.row, r.Fits := by
    intro r hr
    obtain ⟨p, -, rfl⟩ := List.mem_map.1 hr
    exact p.fits_row
  rw [RelationTable.ofReport, Report.ProcessTable.ofText_unlines (by simpa using hne) hrows hfits hone]
  exact ⟨_, rfl, fun r => mem_relations_rows hdistinct⟩

theorem ChildrenRun.listed_eq {snapshot : Snapshot} {selectLive : Bool} {h : Handle} {run : Run}
    (hrun : snapshot.ChildrenRun selectLive h run) (command : String) (args : List String) :
    ∃ (o : Diagnostic.Output) (order : List Process), order.Perm (snapshot.children selectLive h.pid) ∧
      Policy.outcome command args run = .ok o ∧ Subprocesses.listed o = .ok (order.map (·.handle.pid)) := by
  cases hrun with
  | found pid order stderr hne horder =>
    have hpids : ∀ n ∈ order.map (·.handle.pid), 0 < n ∧ n ≤ Text.maxU32 := by
      intro n hn
      obtain ⟨p, -, rfl⟩ := List.mem_map.1 hn
      exact ⟨p.handle.pid_pos, p.pid_le⟩
    exact ⟨_, order, horder, rfl, Subprocesses.listed_found (by simpa using hne) hpids⟩
  | none pid stderr hnone =>
    exact ⟨_, [], by rw [hnone], rfl, Subprocesses.listed_none⟩

variable {σ : Type}

namespace Reported

variable {host : Host σ} {steady : σ → Prop} {snapshot : Snapshot} {settings : Settings}
  (h : snapshot.Reported host steady settings)

include h

theorem fromProcfs_comesTo :
    Query.ComesTo host steady (RelationTable.fromProcfs settings.procRoot) fun outcome =>
      ∃ t, outcome = .ok t ∧ ∀ r, r ∈ t.rows ↔ ∃ p ∈ snapshot.processes, p.isLive = true ∧ p.relation = r := by
  intro s hs
  obtain ⟨t, houtcome, ht⟩ := h.toInProcfs.fromProcfs_comesTo s hs
  refine ⟨t, houtcome, fun r => ?_⟩
  rw [ht]
  constructor
  · rintro ⟨p, hp, hlive, -, hrelation⟩
    exact ⟨p, hp, hlive, hrelation⟩
  · rintro ⟨p, hp, hlive, hrelation⟩
    exact ⟨p, hp, hlive, h.text_name p hp, hrelation⟩

private theorem run_tableArgs_comesTo :
    Inquiry.ComesTo host steady (settings.policy.run "ps" Diagnostic.tableArgs none) fun result =>
      ∃ run, snapshot.TableRun run ∧ result = Policy.outcome "ps" Diagnostic.tableArgs run :=
  Diagnostic.run_policy_comesTo (by decide) Diagnostic.holdsZeroByte_tableArgs
    fun s hs => ⟨_, h.table s hs, rfl⟩

theorem fromPs_comesTo :
    Query.ComesTo host steady (RelationTable.fromPs settings.policy) fun outcome =>
      ∃ t, outcome = .ok t ∧ ∀ r, r ∈ t.rows ↔ ∃ p ∈ snapshot.processes, p.isLive = true ∧ p.relation = r := by
  refine Query.ComesTo.bind_lift_any h.keeps fun since => ?_
  refine Query.ComesTo.bind_lift h.keeps h.run_tableArgs_comesTo fun result hresult => ?_
  obtain ⟨_, ⟨pid, own, order, ls, stderr, hpid, hown, horder, hrows, hone⟩, rfl⟩ := hresult
  have hmem (p : Process) : p ∈ order ↔ p ∈ own ∨ p ∈ snapshot.processes := by simp [horder.mem_iff]
  have hne : order ≠ [] := by
    obtain ⟨p, hp⟩ := List.exists_mem_of_ne_nil _ snapshot.nonempty
    exact List.ne_nil_of_mem ((hmem p).2 (.inr hp))
  have hdistinct : ∀ p ∈ order, ∀ q ∈ order, p.handle = q.handle → p = q := by
    intro p hp q hq heq
    have hpids : p.handle.pid = q.handle.pid := congrArg Handle.pid heq
    -- The row of `ps` itself has a number that no process of the snapshot has.
    rcases (hmem p).1 hp with hp | hp <;> rcases (hmem q).1 hq with hq | hq
    · exact Option.mem_unique hp hq
    · exact absurd (by simp [← hpids, hown p hp]) (hpid q hq)
    · exact absurd (by simp [hpids, hown q hq]) (hpid p hp)
    · exact snapshot.eq_of_handle_eq hp hq heq
  obtain ⟨t, hreport, ht⟩ := ofReport_unlines hne hdistinct hrows hone
  have htext : (⟨"ps", Diagnostic.tableArgs, pid, Utf8.encode (Text.unlines ls), stderr, some 0, false⟩ :
      Diagnostic.Output).stdoutText = Text.unlines ls := Utf8.decodeLossy_encode _
  simp only [Policy.outcome, Diagnostic.Output.succeeded, htext, hreport]
  change Query.ComesTo host steady (liftM (t.withoutDiagnostics since (some pid)) : Query RelationTable) _
  refine Query.ComesTo.lift ?_
  refine (RelationTable.withoutDiagnostics_comesTo h.keeps (h.spared since)).mono fun table htable => ?_
  obtain ⟨diagnostics, hspared, rfl⟩ := htable
  refine ⟨_, rfl, fun r => ?_⟩
  rw [RelationTable.mem_withoutPids, ht]
  constructor
  · rintro ⟨⟨p, hp, hlive, rfl⟩, hother, -⟩
    rcases (hmem p).1 hp with hp | hp
    · exact absurd (congrArg some (hown p hp).symm) hother
    · exact ⟨p, hp, hlive, rfl⟩
  · rintro ⟨p, hp, hlive, rfl⟩
    refine ⟨⟨p, (hmem p).2 (.inr hp), hlive, rfl⟩, fun heq => ?_, hspared p hp⟩
    exact hpid p hp (by simpa [Process.relation, eq_comm] using heq)

theorem recordEvidence_comesTo {p : Process} (hp : p ∈ snapshot.processes) :
    Inquiry.ComesTo host steady (Liveness.recordEvidence settings.procRoot p.handle) (· = .state p.state) := by
  obtain ⟨name, hname⟩ := Option.isSome_iff_exists.1 (h.text_name p hp)
  refine Inquiry.ComesTo.bind h.keeps (P := fun text => ∃ tail, StatRecord.IsTail tail ∧
    text = .ok (StatRecord.text ⟨p.handle.pid, name, p.state, p.ppid⟩ tail)) ?_ fun text htext => ?_
  · rw [Liveness.readText_eq]
    refine Inquiry.ComesTo.map_send fun s hs => ?_
    obtain ⟨tail, htail, hread⟩ := h.stat p hp s hs
    refine ⟨tail, htail, ?_⟩
    rw [hread, Liveness.textIn, p.decode?_statBytes, hname]
    rfl
  · obtain ⟨tail, htail, rfl⟩ := htext
    simp only [p.ofText_text name htail]
    exact Inquiry.ComesTo.pure rfl

theorem runState_comesTo {p : Process} (hp : p ∈ snapshot.processes) :
    Query.ComesTo host steady (Liveness.runState settings.policy settings.procRoot p.handle)
      (· = .ok (some p.state)) := by
  have hevidence : Inquiry.ComesTo host steady (Liveness.evidence settings.policy settings.procRoot p.handle)
      (· = .state p.state) := by
    refine Inquiry.ComesTo.bind h.keeps (h.recordEvidence_comesTo hp) fun evidence hevidence => ?_
    rw [hevidence]
    exact Inquiry.ComesTo.pure rfl
  refine Query.ComesTo.bind_lift h.keeps hevidence fun evidence hdecided => ?_
  rw [hdecided]
  exact Query.ComesTo.pure rfl

theorem ensureExists_comesTo (k : Handle) :
    Query.ComesTo host steady (Liveness.ensureExists k) fun outcome =>
      outcome = if k ∈ snapshot.processes.map (·.handle) then .ok () else .error (.notFound k.pid) := by
  have hpos : ¬k.toInt ≤ 0 := by
    have := k.pid_pos
    simp only [Handle.toInt]
    omega
  rw [Liveness.ensureExists, if_neg hpos]
  refine Query.ComesTo.bind_lift h.keeps (Inquiry.ComesTo.send (h.probed k)) fun answer hanswer => ?_
  rw [Probed] at hanswer
  by_cases hk : k ∈ snapshot.processes.map (·.handle)
  · rw [if_pos hk] at hanswer ⊢
    rcases hanswer with rfl | rfl
    · exact Query.ComesTo.pure rfl
    · exact Query.ComesTo.pure rfl
  · rw [if_neg hk] at hanswer ⊢
    rw [hanswer]
    exact Query.ComesTo.throw rfl

theorem ensureLive_comesTo (k : Handle) :
    Query.ComesTo host steady (Liveness.ensureLive settings.policy settings.procRoot k) fun outcome =>
      outcome = if snapshot.hasLive k then .ok () else .error (.notFound k.pid) := by
  by_cases hk : k ∈ snapshot.processes.map (·.handle)
  · obtain ⟨p, hp, rfl⟩ := List.mem_map.1 hk
    have hlive : snapshot.hasLive p.handle = p.isLive := by
      rw [Bool.eq_iff_iff, hasLive_iff]
      constructor
      · rintro ⟨q, hq, hlive, heq⟩
        rwa [← snapshot.eq_of_handle_eq hq hp heq]
      · exact fun hlive => ⟨p, hp, hlive, rfl⟩
    refine Query.ComesTo.bind h.keeps (P := (· = .ok ())) ?_ (fun _ _ => ?_) (by simp)
    · exact (h.ensureExists_comesTo p.handle).mono fun outcome houtcome => houtcome.trans (if_pos hk)
    · refine Query.ComesTo.bind h.keeps (h.runState_comesTo hp) (fun state hstate => ?_) (by simp)
      cases hstate
      by_cases hzombie : p.state = zombie
      · rw [if_pos (congrArg some hzombie), hlive, Process.isLive, hzombie]
        exact Query.ComesTo.throw rfl
      · rw [if_neg (by simpa using hzombie), hlive, Process.isLive, bne_iff_ne.2 hzombie]
        exact Query.ComesTo.pure rfl
  · have hlive : snapshot.hasLive k = false := by
      rw [Bool.eq_false_iff, Ne, hasLive_iff]
      rintro ⟨p, hp, -, rfl⟩
      exact hk (List.mem_map_of_mem hp)
    refine Query.ComesTo.bind h.keeps (P := (· = .error (.notFound k.pid))) ?_ (by simp) fun failure hfailure => ?_
    · exact (h.ensureExists_comesTo k).mono fun outcome houtcome => houtcome.trans (if_neg hk)
    · rw [hlive]
      exact hfailure

theorem stillLive_comesTo {p : Process} (hp : p ∈ snapshot.processes) :
    Inquiry.ComesTo host steady
      (Subprocesses.stillLive settings.policy settings.procRoot p.handle.pid) (· = p.isLive) := by
  simp only [Subprocesses.stillLive, Handle.ofNat?_pid]
  refine Inquiry.ComesTo.bind h.keeps (h.runState_comesTo hp) fun outcome houtcome => ?_
  rw [houtcome]
  refine Inquiry.ComesTo.pure ?_
  simp [Process.isLive, bne]

private theorem anyLive_children_comesTo {selectLive : Bool} {k : Handle} {diagnostics : List Nat}
    (hspared : snapshot.Spares diagnostics) {order : List Process}
    (horder : order.Perm (snapshot.children selectLive k.pid)) :
    Inquiry.ComesTo host steady
      (Subprocesses.anyLive (fun pid =>
        if diagnostics.contains pid then return false
        else if selectLive then return true
        else Subprocesses.stillLive settings.policy settings.procRoot pid) (order.map (·.handle.pid)))
      (· = snapshot.hasLiveChild k) := by
  let isLive pid := (snapshot.process? pid).any (·.isLive)
  have hchild (p : Process) : p ∈ order ↔ p ∈ snapshot.processes ∧ p.ppid = k.pid ∧ (selectLive → p.isLive = true) := by
    rw [horder.mem_iff, Snapshot.children, List.mem_filter]
    cases selectLive <;> simp
  have hisLive : ∀ p ∈ snapshot.processes, isLive p.handle.pid = p.isLive := by
    intro p hp
    simp [isLive, snapshot.process?_eq_some_iff.2 ⟨hp, rfl⟩]
  have hany : (order.map (·.handle.pid)).any isLive = snapshot.hasLiveChild k := by
    rw [Bool.eq_iff_iff, hasLiveChild_iff, List.any_map, List.any_eq_true]
    constructor
    · rintro ⟨p, hp, hlive⟩
      obtain ⟨hmem, hppid, -⟩ := (hchild p).1 hp
      exact ⟨p, hmem, (hisLive p hmem).symm.trans hlive, hppid⟩
    · rintro ⟨p, hp, hlive, hppid⟩
      exact ⟨p, (hchild p).2 ⟨hp, hppid, fun _ => hlive⟩, (hisLive p hp).trans hlive⟩
  rw [← hany]
  refine Subprocesses.anyLive_comesTo h.keeps _ fun pid hpid => ?_
  obtain ⟨p, hp, rfl⟩ := List.mem_map.1 hpid
  obtain ⟨hmem, -, hselect⟩ := (hchild p).1 hp
  rw [if_neg (by simpa using hspared p hmem), hisLive p hmem]
  cases selectLive with
  | true => exact Inquiry.ComesTo.pure (hselect rfl).symm
  | false => exact h.stillLive_comesTo hmem

/-- The list of children leads to the answer of the snapshot, whether or not `pgrep` selects the live ones. -/
theorem viaChildList_comesTo (selectLive : Bool) (k : Handle) :
    Query.ComesTo host steady (Subprocesses.viaChildList settings.policy settings.procRoot selectLive k)
      (· = snapshot.answer k) := by
  cases hlive : snapshot.hasLive k with
  | false =>
    have hanswer : snapshot.answer k = .error (.notFound k.pid) := by rw [answer, hlive]; rfl
    have hensure := h.ensureLive_comesTo k
    simp only [hlive] at hensure
    rw [hanswer]
    refine Query.ComesTo.bind h.keeps hensure (fun _ hok => by simp at hok) fun failure hfailure => ?_
    simpa using hfailure
  | true =>
    have hanswer : snapshot.answer k = .ok (snapshot.hasLiveChild k) := by rw [answer, hlive]; rfl
    have hensure := h.ensureLive_comesTo k
    simp only [hlive, if_true] at hensure
    rw [hanswer]
    refine Query.ComesTo.bind h.keeps hensure (fun _ _ => ?_) (by simp)
    refine Query.ComesTo.bind_lift_any h.keeps fun since => ?_
    refine Query.ComesTo.bind_lift h.keeps (P := fun result => ∃ run, snapshot.ChildrenRun selectLive k run ∧
      result = Policy.outcome "pgrep" (Diagnostic.childrenArgs selectLive k) run) ?_ fun result hresult => ?_
    · exact Diagnostic.run_policy_comesTo (by decide) (Diagnostic.holdsZeroByte_childrenArgs selectLive k)
        fun s hs => ⟨_, h.children selectLive k s hs, rfl⟩
    · obtain ⟨run, hrun, rfl⟩ := hresult
      obtain ⟨o, order, horder, houtcome, hlisted⟩ := hrun.listed_eq "pgrep" (Diagnostic.childrenArgs selectLive k)
      rw [houtcome]
      refine Query.ComesTo.bind_lift h.keeps (Inquiry.ComesTo.send (h.spared since)) fun diagnostics hspared => ?_
      refine Query.ComesTo.bind h.keeps (P := (· = .ok (order.map (·.handle.pid))))
        (Query.ComesTo.ofExcept hlisted) (fun pids hpids => ?_) (by simp)
      cases hpids
      exact Query.ComesTo.lift ((h.anyLive_children_comesTo hspared horder).mono fun _ hany => congrArg _ hany)

/-- Each strategy with a backend comes to the answer of the snapshot. -/
theorem detect_comesTo (selectLive : Bool) (k : Handle) {strategy : Subprocesses.Strategy}
    (hstrategy : strategy ∈ Subprocesses.Strategy.platformOrder) :
    Query.ComesTo host steady
      (Subprocesses.detect settings.policy settings.procRoot selectLive k strategy) (· = snapshot.answer k) := by
  have htable {capture : Query RelationTable}
      (hcapture : Query.ComesTo host steady capture fun outcome => ∃ t, outcome = .ok t ∧
        ∀ r, r ∈ t.rows ↔ ∃ p ∈ snapshot.processes, p.isLive = true ∧ p.relation = r) :
      Query.ComesTo host steady (do Query.ofExcept (Subprocesses.ofTable (← capture) k)) (· = snapshot.answer k) := by
    refine Query.ComesTo.bind h.keeps hcapture (fun t ht => ?_) (by simp)
    obtain ⟨_, heq, hrows⟩ := ht
    cases heq
    exact Query.ComesTo.ofExcept (snapshot.ofTable_eq_answer hrows k)
  cases strategy with
  | generic => exact htable h.fromPs_comesTo
  | processGroup => exact h.viaChildList_comesTo selectLive k
  | native => exact absurd hstrategy (by decide)
  | procfs => exact htable h.fromProcfs_comesTo

end Reported

/-- On a host that reports the snapshot, the process file system, the process table and the list of children all give
the answer of the snapshot for each process, whether or not `pgrep` selects states. -/
theorem hasSubprocessesVia_eq_answer {σ : Type} {host : Host σ} {steady : σ → Prop} {snapshot : Snapshot}
    (i : Inspector) (h : snapshot.Reported host steady i.settings) (k : Handle) {strategy : Subprocesses.Strategy}
    (hstrategy : strategy ∈ [.procfs, .generic, .processGroup]) {s : σ} (hs : steady s) :
    ((i.hasSubprocessesVia strategy k).outcome.run host s).1 = snapshot.answer k :=
  Query.ComesTo.within h.keeps _ (h.detect_comesTo i.capabilities.selectsStates k hstrategy) s hs

/-- An inspector for the family, on a host whose `pgrep` may be able to select states. -/
def familyInspector (selectsStates : Bool) : Inspector :=
  ⟨.default, { Capabilities.none ⟨"linux", none, "x86_64"⟩ "" with selectsStates := selectsStates }⟩

/-- In the family the first process has a live child, the child of the second one is a zombie, and that zombie is not
found. -/
theorem hasSubprocessesVia_family :
    ((familyInspector true).hasSubprocessesVia .procfs elder).outcome.run familyHost () = (.ok true, ()) ∧
      ((familyInspector false).hasSubprocessesVia .processGroup parent).outcome.run familyHost () = (.ok false, ()) ∧
      ((familyInspector true).hasSubprocessesVia .generic child).outcome.run familyHost () =
        (.error (.notFound 6), ()) := by
  have hreported (selectsStates : Bool) : family.Reported familyHost (fun _ => True)
      (familyInspector selectsStates).settings := family_reported
  refine ⟨Prod.ext ?_ rfl, Prod.ext ?_ rfl, Prod.ext ?_ rfl⟩
  · exact hasSubprocessesVia_eq_answer _ (hreported true) _ (by decide) trivial
  · exact hasSubprocessesVia_eq_answer _ (hreported false) _ (by decide) trivial
  · exact hasSubprocessesVia_eq_answer _ (hreported true) _ (by decide) trivial

end ProcessProbe.Snapshot
