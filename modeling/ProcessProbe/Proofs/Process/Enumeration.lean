import ProcessProbe.Process.Enumeration
import ProcessProbe.Proofs.Process.Liveness
import ProcessProbe.Proofs.Process.RelationTable

/-!
# What a capture comes to

The walk through the process file system comes to the relations in the stat records of the numbers it lists, and the
report of `ps` to those in its rows. Diagnostics are taken out of both.
-/

namespace ProcessProbe.RelationTable

variable {σ : Type} {host : Host σ} {steady : σ → Prop}

def relationIn? (answer : Except SystemError Bytes) : Option Relation :=
  match Liveness.textIn answer with
  | .error _ => none
  | .ok text =>
    match Report.StatRecord.ofText text with
    | .error _ => none
    | .ok record => if record.isZombie then none else Relation.ofPids? record.pid record.ppid

theorem relationOf?_eq (procRoot : Path) (pid : Nat) :
    relationOf? procRoot pid = relationIn? <$> Inquiry.readFile (Liveness.entry procRoot pid "stat") := by
  rw [relationOf?, Liveness.readText_eq, map_eq_pure_bind, map_eq_pure_bind, bind_assoc]
  congr 1
  funext answer
  rw [pure_bind, relationIn?]
  cases Liveness.textIn answer with
  | error e => rfl
  | ok text =>
    simp only
    cases Report.StatRecord.ofText text <;> rfl

theorem relationsOf_comesTo (hkeeps : host.Keeps steady) {procRoot : Path} {relation : Nat → Option Relation}
    (pids : List Nat)
    (h : ∀ pid ∈ pids, Inquiry.ComesTo host steady (relationOf? procRoot pid) (· = relation pid)) :
    Inquiry.ComesTo host steady (relationsOf procRoot pids) (· = pids.filterMap relation) := by
  induction pids with
  | nil => exact Inquiry.ComesTo.pure rfl
  | cons pid pids ih =>
    refine Inquiry.ComesTo.bind hkeeps (h pid List.mem_cons_self) fun first hfirst => ?_
    refine Inquiry.ComesTo.bind hkeeps (ih fun p hp => h p (List.mem_cons_of_mem pid hp)) fun rest hrest => ?_
    refine Inquiry.ComesTo.pure ?_
    subst hfirst hrest
    cases hrelation : relation pid <;> simp [hrelation]

/-- The table without the processes with given numbers, and without one more. -/
def withoutPids (t : RelationTable) (also : Option Nat) (pids : List Nat) : RelationTable :=
  t.without fun h => also == some h.pid || pids.contains h.pid

theorem mem_withoutPids {t : RelationTable} {also : Option Nat} {pids : List Nat} {r : Relation} :
    r ∈ (t.withoutPids also pids).rows ↔ r ∈ t.rows ∧ also ≠ some r.process.pid ∧ r.process.pid ∉ pids := by
  rw [withoutPids, mem_without]
  simp

section Capture

variable (hkeeps : host.Keeps steady)

include hkeeps

theorem withoutDiagnostics_comesTo {t : RelationTable} {since : Diagnostic.Instant} {also : Option Nat}
    {Q : List Nat → Prop} (h : ∀ s, steady s → Q (host.answer (.diagnosticsSince since) s).1) :
    Inquiry.ComesTo host steady (t.withoutDiagnostics since also)
      fun table => ∃ pids, Q pids ∧ table = t.withoutPids also pids :=
  Inquiry.ComesTo.bind hkeeps (Inquiry.ComesTo.send h) fun pids hpids => Inquiry.ComesTo.pure ⟨pids, hpids, rfl⟩

theorem fromProcfs_comesTo {procRoot : Path} {relation : Nat → Option Relation} {P : List Bytes → Prop}
    {Q : List Nat → Prop}
    (hlist : ∀ s, steady s → ∃ names, (host.answer (.list procRoot) s).1 = .ok names ∧ P names)
    (hstat : ∀ pid s, steady s →
      relationIn? (host.answer (.readFile (Liveness.entry procRoot pid "stat")) s).1 = relation pid)
    (hspared : ∀ since s, steady s → Q (host.answer (.diagnosticsSince since) s).1) :
    Query.ComesTo host steady (fromProcfs procRoot) fun outcome =>
      ∃ names, P names ∧
        if (names.filterMap pidOfName?).isEmpty then
          outcome = .error (.backendUnavailable "procfs" s!"no process entries under {procRoot.shown}")
        else ∃ diagnostics, Q diagnostics ∧
          outcome = .ok ((ofList ((names.filterMap pidOfName?).filterMap relation)).withoutPids none diagnostics) := by
  refine Query.ComesTo.bind_lift_any hkeeps fun since => ?_
  refine Query.ComesTo.bind_lift hkeeps
    (P := fun answer : Except SystemError (List Bytes) => ∃ names, answer = .ok names ∧ P names) hlist
    fun answer hanswer => ?_
  obtain ⟨names, rfl, hnames⟩ := hanswer
  have hread : ∀ pid, Inquiry.ComesTo host steady (relationOf? procRoot pid) (· = relation pid) := by
    intro pid
    rw [relationOf?_eq]
    exact Inquiry.ComesTo.map_send (hstat pid)
  refine Query.ComesTo.bind_lift hkeeps (relationsOf_comesTo hkeeps _ fun pid _ => hread pid) fun relations h => ?_
  subst h
  by_cases hempty : (names.filterMap pidOfName?).isEmpty = true
  · simp only [hempty, if_true]
    refine Query.ComesTo.throw_bind ⟨names, hnames, ?_⟩
    rw [if_pos hempty]
  · simp only [hempty]
    refine Query.ComesTo.lift ((withoutDiagnostics_comesTo hkeeps (hspared since)).mono fun table htable => ?_)
    obtain ⟨pids, hpids, rfl⟩ := htable
    refine ⟨names, hnames, ?_⟩
    rw [if_neg hempty]
    exact ⟨pids, hpids, rfl⟩

end Capture

end ProcessProbe.RelationTable
