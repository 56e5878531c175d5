import Mathlib.Data.List.Nodup
import ProcessProbe.Process.Enumeration
import ProcessProbe.Proofs.Process.RelationTable
import ProcessProbe.Proofs.Query.Answers

/-!
# Parents and children

The children of a process are found by their parent, and the parent of a process by the first row of that process. Main
statement: in every table that is captured, reported or made from relations these two are inverse to each other, and
they stay so when processes are left out, since no process has two rows.
-/

namespace ProcessProbe

open Diagnostic (Policy)

/-- A relation that two process numbers have. -/
def Relation.Accepted (r : Relation) : Prop := ∃ pid ppid, Relation.ofPids? pid ppid = some r

theorem Relation.Accepted.parent_ne {r : Relation} (h : r.Accepted) : r.parent ≠ some r.process := by
  obtain ⟨pid, ppid, hpids⟩ := h
  rw [ofPids?] at hpids
  by_cases heq : pid = ppid
  · rw [if_pos heq] at hpids
    contradiction
  · rw [if_neg heq, Option.map_eq_some_iff] at hpids
    obtain ⟨process, hprocess, rfl⟩ := hpids
    intro hown
    apply heq
    rw [← Handle.ofNat?_eq_some_iff.1 hprocess, Handle.ofNat?_eq_some_iff.1 hown]

namespace RelationTable

variable {t : RelationTable} {rows : List Relation} {c h p : Handle}

/-! ## The two directions -/

theorem Distinct.relation?_eq_some_iff (hdistinct : t.Distinct) {r : Relation} :
    t.relation? h = some r ↔ r ∈ t.rows ∧ r.process = h := by
  constructor
  · intro hfind
    exact ⟨List.mem_of_find?_eq_some hfind, by simpa using List.find?_some hfind⟩
  · rintro ⟨hr, rfl⟩
    cases hfind : t.relation? r.process with
    | none => exact absurd (List.find?_eq_none.1 hfind r hr) (by simp)
    | some q =>
      have hq : q.process = r.process := by simpa using List.find?_some hfind
      exact congrArg some (List.inj_on_of_nodup_map hdistinct (List.mem_of_find?_eq_some hfind) hr hq)

theorem Distinct.parentOf?_eq_some_iff (hdistinct : t.Distinct) :
    t.parentOf? c = some p ↔ ∃ r ∈ t.rows, r.parent = some p ∧ r.process = c := by
  rw [parentOf?, Option.bind_eq_some_iff]
  constructor
  · intro ⟨r, hrelation, hparent⟩
    obtain ⟨hr, hprocess⟩ := hdistinct.relation?_eq_some_iff.1 hrelation
    exact ⟨r, hr, hparent, hprocess⟩
  · intro ⟨r, hr, hparent, hprocess⟩
    exact ⟨r, hdistinct.relation?_eq_some_iff.2 ⟨hr, hprocess⟩, hparent⟩

theorem hasChildren_iff : t.hasChildren p = true ↔ t.childrenOf p ≠ [] := by
  rw [hasChildren, List.any_eq_true, childrenOf, Ne, List.map_eq_nil_iff, List.filter_eq_nil_iff]
  simp

/-- A table is a function from processes to parents, and the children are the other direction of it. -/
structure Coherent (t : RelationTable) : Prop where
  distinct : t.Distinct
  parent_ne : ∀ r ∈ t.rows, r.parent ≠ some r.process
  process_range : ∀ r ∈ t.rows, 1 ≤ r.process.pid ∧ r.process.pid ≤ 2147483647
  parent_range : ∀ r ∈ t.rows, ∀ h ∈ r.parent, 1 ≤ h.pid ∧ h.pid ≤ 2147483647
  mem_childrenOf_iff : ∀ c p, c ∈ t.childrenOf p ↔ t.parentOf? c = some p
  nodup_childrenOf : ∀ p, (t.childrenOf p).Nodup
  hasChildren_iff : ∀ p, t.hasChildren p = true ↔ t.childrenOf p ≠ []

theorem Distinct.coherent (hdistinct : t.Distinct) (hparent : ∀ r ∈ t.rows, r.parent ≠ some r.process) :
    t.Coherent where
  distinct := hdistinct
  parent_ne := hparent
  process_range := fun r _ => ⟨r.process.pid_pos, r.process.pid_le⟩
  parent_range := fun _ _ h _ => ⟨h.pid_pos, h.pid_le⟩
  mem_childrenOf_iff := fun _ _ => mem_childrenOf.trans hdistinct.parentOf?_eq_some_iff.symm
  nodup_childrenOf := fun _ => hdistinct.sublist (List.filter_sublist.map _)
  hasChildren_iff := fun _ => RelationTable.hasChildren_iff

/-! ## Leaving processes out -/

theorem Distinct.without (hdistinct : t.Distinct) (skip : Handle → Bool) : (t.without skip).Distinct :=
  hdistinct.sublist (List.filter_sublist.map _)

theorem Coherent.without (ht : t.Coherent) (skip : Handle → Bool) : (t.without skip).Coherent := by
  apply (ht.distinct.without skip).coherent
  intro r hr
  exact ht.parent_ne r (mem_without.1 hr).1

/-- `left` has the rows of `t` whose process is not to be skipped, in their order and with their parents. -/
structure IsWithout (t : RelationTable) (skip : Handle → Bool) (left : RelationTable) : Prop where
  mem_iff : ∀ r, r ∈ left.rows ↔ r ∈ t.rows ∧ skip r.process = false
  sublist : left.rows.Sublist t.rows
  parentOf?_eq : ∀ h, left.parentOf? h = if skip h then none else t.parentOf? h

theorem relation?_without (skip : Handle → Bool) (h : Handle) :
    (t.without skip).relation? h = if skip h then none else t.relation? h := by
  rw [relation?, RelationTable.without, List.find?_filter]
  by_cases hskip : skip h = true
  · rw [if_pos hskip, List.find?_eq_none]
    intro r _
    by_cases hr : r.process = h
    · simp [hr, hskip]
    · simp [hr]
  · rw [if_neg hskip]
    apply congrArg (fun select => t.rows.find? select)
    funext r
    by_cases hr : r.process = h
    · simp [hr, hskip]
    · simp [hr]

theorem isWithout_without (t : RelationTable) (skip : Handle → Bool) : t.IsWithout skip (t.without skip) where
  mem_iff := fun _ => mem_without
  sublist := List.filter_sublist
  parentOf?_eq := by
    intro h
    rw [parentOf?, relation?_without]
    split
    · rfl
    · rfl

section Asking

variable {τ : Type} (skip : τ → Handle → Bool × τ)

/-- The rows that are left when `skip`, which may remember what it was asked before, is asked for each in turn. -/
def leaveOut : τ → List Relation → List Relation
  | _, [] => []
  | state, r :: rows =>
    let (skipped, state) := skip state r.process
    if skipped then leaveOut state rows else r :: leaveOut state rows

/-- The processes that it said are to be skipped. -/
def skippedBy : τ → List Relation → List Handle
  | _, [] => []
  | state, r :: rows =>
    let (skipped, state) := skip state r.process
    if skipped then r.process :: skippedBy state rows else skippedBy state rows

theorem mem_of_mem_skippedBy {state : τ} (hh : h ∈ skippedBy skip state rows) : h ∈ rows.map (·.process) := by
  induction rows generalizing state with
  | nil => contradiction
  | cons r rows ih =>
    rw [skippedBy] at hh
    simp only at hh
    split at hh
    · rcases List.mem_cons.1 hh with rfl | hrest
      · exact List.mem_cons_self
      · exact List.mem_cons_of_mem _ (ih hrest)
    · exact List.mem_cons_of_mem _ (ih hh)

/-- Each process is asked for once, so what was said of it is all that matters. -/
theorem Distinct.leaveOut_eq (hdistinct : t.Distinct) (state : τ) :
    ⟨leaveOut skip state t.rows⟩ = t.without fun h => (skippedBy skip state t.rows).contains h := by
  obtain ⟨rows⟩ := t
  change (rows.map (·.process)).Nodup at hdistinct
  apply congrArg RelationTable.mk
  change leaveOut skip state rows = rows.filter _
  induction rows generalizing state with
  | nil => rfl
  | cons r rows ih =>
    obtain ⟨hfresh, hrest⟩ := List.nodup_cons.1 hdistinct
    have hnever (state : τ) : r.process ∉ skippedBy skip state rows :=
      fun hmem => hfresh (mem_of_mem_skippedBy skip hmem)
    rw [leaveOut, skippedBy]
    simp only
    cases hskip : (skip state r.process).1 with
    | false =>
      rw [List.filter_cons_of_pos (by simpa using hnever _), ih _ hrest]
      rfl
    | true =>
      rw [List.filter_cons_of_neg (by simp), ih _ hrest]
      apply List.filter_congr
      intro q hq
      have hne : q.process ≠ r.process := fun heq => hfresh (List.mem_map.2 ⟨q, hq, heq⟩)
      simp [hne]

end Asking

/-! ## Where tables come from -/

/-- The tables that are read from a report, captured on a host or made from accepted relations, and what is left of a
table when processes are left out. -/
inductive Obtained : RelationTable → Prop where
  | reported {text : List Char} {t : RelationTable} (h : ofReport text = .ok t) : Obtained t
  | captured {σ : Type} {host : Host σ} {s : σ} {p : Policy} {procRoot : Path} {source : Source} {t : RelationTable}
      (h : ((capture p procRoot source).outcome.run host s).1 = .ok t) : Obtained t
  | made {rows : List Relation} (h : ∀ r ∈ rows, r.Accepted) : Obtained (ofList rows)
  | without {t : RelationTable} (skip : Handle → Bool) (h : Obtained t) : Obtained (t.without skip)

theorem coherent_ofList (haccepted : ∀ r ∈ rows, r.Accepted) : (ofList rows).Coherent := by
  apply (distinct_ofList rows).coherent
  intro r hr
  exact (haccepted r (List.mem_of_find?_eq_some (mem_ofList.1 hr))).parent_ne

theorem coherent_ofReport {text : List Char} (hreport : ofReport text = .ok t) : t.Coherent := by
  rw [ofReport] at hreport
  cases htable : Report.ProcessTable.ofText text with
  | error defect => simp [htable] at hreport
  | ok table =>
    simp only [htable, Except.ok.injEq] at hreport
    subst hreport
    apply coherent_ofList
    intro r hr
    obtain ⟨row, _, hrow⟩ := List.mem_filterMap.1 hr
    exact ⟨row.pid, row.ppid, hrow⟩

section Capture

variable {σ : Type} {host : Host σ}

theorem withoutDiagnostics_coherent (ht : t.Coherent) (since : Diagnostic.Instant) (also : Option Nat) :
    Inquiry.ComesTo host (fun _ => True) (t.withoutDiagnostics since also) Coherent :=
  Inquiry.ComesTo.bind_any host.keeps_any fun _ => Inquiry.ComesTo.pure (ht.without _)

theorem relationOf?_accepted (procRoot : Path) (pid : Nat) :
    Inquiry.ComesTo host (fun _ => True) (relationOf? procRoot pid) fun relation => ∀ r ∈ relation, r.Accepted := by
  have hnone : ∀ r ∈ (none : Option Relation), r.Accepted := fun _ hr => absurd hr (Option.not_mem_none _)
  refine Inquiry.ComesTo.bind_any host.keeps_any fun text => ?_
  cases text with
  | error e => exact Inquiry.ComesTo.pure hnone
  | ok text =>
    cases hrecord : Report.StatRecord.ofText text with
    | error defect =>
      simp only [hrecord]
      exact Inquiry.ComesTo.pure hnone
    | ok record =>
      simp only [hrecord]
      apply Inquiry.ComesTo.pure
      split
      · exact hnone
      · exact fun r hr => ⟨record.pid, record.ppid, hr⟩

theorem relationsOf_accepted (procRoot : Path) (pids : List Nat) :
    Inquiry.ComesTo host (fun _ => True) (relationsOf procRoot pids) fun relations => ∀ r ∈ relations, r.Accepted := by
  induction pids with
  | nil => exact Inquiry.ComesTo.pure fun _ hr => absurd hr List.not_mem_nil
  | cons pid pids ih =>
    refine Inquiry.ComesTo.bind host.keeps_any (relationOf?_accepted procRoot pid) fun first hfirst => ?_
    refine Inquiry.ComesTo.bind host.keeps_any ih fun rest hrest => Inquiry.ComesTo.pure fun r hr => ?_
    rcases List.mem_append.1 hr with hr | hr
    · exact hfirst r (Option.mem_toList.1 hr)
    · exact hrest r hr

theorem capture_coherent (p : Policy) (procRoot : Path) (source : Source) :
    Query.AnswersOnly host (capture p procRoot source) Coherent := by
  cases source with
  | native => exact Query.AnswersOnly.throw
  | ps =>
    refine Query.AnswersOnly.bind_lift_any fun since => Query.AnswersOnly.bind_lift_any fun result => ?_
    cases result with
    | error e => exact Query.AnswersOnly.throw
    | ok o =>
      refine Query.AnswersOnly.check fun _ => Query.AnswersOnly.check fun _ => ?_
      have htable : Query.AnswersOnly host (Query.ofExcept (ofReport o.stdoutText)) Coherent :=
        Query.AnswersOnly.ofExcept fun _ => coherent_ofReport
      exact htable.bind fun table hcoherent =>
        Query.AnswersOnly.lift (withoutDiagnostics_coherent hcoherent since (some o.pid))
  | procfs =>
    refine Query.AnswersOnly.bind_lift_any fun since => Query.AnswersOnly.bind_lift_any fun answer => ?_
    cases answer with
    | error e => exact Query.AnswersOnly.throw
    | ok names =>
      refine Query.AnswersOnly.bind_lift (relationsOf_accepted procRoot _) fun relations haccepted => ?_
      exact Query.AnswersOnly.check fun _ =>
        Query.AnswersOnly.lift (withoutDiagnostics_coherent (coherent_ofList haccepted) since none)

end Capture

theorem Obtained.coherent (ht : t.Obtained) : t.Coherent := by
  induction ht with
  | reported h => exact coherent_ofReport h
  | captured h => exact capture_coherent _ _ _ _ trivial _ h
  | made h => exact coherent_ofList h
  | without skip _ ih => exact ih.without skip

/-! ## The law of tables -/

/-- `t` has the first of the relations of each process, and these in the order of `rows`. -/
structure KeepsFirst (rows : List Relation) (t : RelationTable) : Prop where
  mem_iff : ∀ r, r ∈ t.rows ↔ rows.find? (·.process == r.process) = some r
  in_order : t.rows.Pairwise fun r q => firstIndex rows r.process < firstIndex rows q.process

/-- Every table is a function from processes to parents, with the children as its other direction. Leaving processes
out takes away their rows and nothing else, also when it is decided row by row. Making a table keeps the first row of
each process, changes no table, and may come before or after leaving processes out. -/
theorem tables_are_functions :
    (∀ t : RelationTable, t.Obtained → t.Coherent ∧ (∀ skip, t.IsWithout skip (t.without skip)) ∧
      ∀ (τ : Type) (skip : τ → Handle → Bool × τ) (state : τ),
        ⟨leaveOut skip state t.rows⟩ = t.without fun h => (skippedBy skip state t.rows).contains h) ∧
      ∀ rows : List Relation, KeepsFirst rows (ofList rows) ∧ ofList (ofList rows).rows = ofList rows ∧
        ∀ skip : Handle → Bool, ofList (rows.filter (!skip ·.process)) = (ofList rows).without skip := by
  constructor
  · intro t ht
    exact ⟨ht.coherent, t.isWithout_without, fun _ skip state => ht.coherent.distinct.leaveOut_eq skip state⟩
  · intro rows
    have hfirst : KeepsFirst rows (ofList rows) := ⟨fun _ => mem_ofList, pairwise_firstIndex_ofList rows⟩
    exact ⟨hfirst, ofList_rows_ofList rows, ofList_filter rows⟩

/-- The process 5 twice, as a child of 1 and as a child of its own child 7. -/
def twice : List Relation := [(5, 1), (7, 5), (5, 7)].filterMap fun (pid, ppid) => Relation.ofPids? pid ppid

theorem accepted_twice : ∀ r ∈ twice, r.Accepted := by
  intro r hr
  obtain ⟨⟨pid, ppid⟩, -, hpids⟩ := List.mem_filterMap.1 hr
  exact ⟨pid, ppid, hpids⟩

/-- The second parent of 5 is left aside, and 7 keeps its parent when 5 is left out. -/
theorem tables_are_functions_twice :
    (ofList twice).Obtained ∧ (ofList twice).Coherent ∧ (ofList twice).size = 2 ∧
      ((ofList twice).without (·.pid == 5)).parentOf? ⟨7, by decide, by decide⟩ =
        some ⟨5, by decide, by decide⟩ := by
  have hobtained : (ofList twice).Obtained := .made accepted_twice
  obtain ⟨hcoherent, hwithout, -⟩ := tables_are_functions.1 (ofList twice) hobtained
  refine ⟨hobtained, hcoherent, by decide, ?_⟩
  rw [(hwithout (·.pid == 5)).parentOf?_eq]
  decide

end RelationTable

end ProcessProbe
