import Mathlib.Data.List.Nodup
import ProcessProbe.Proofs.Process.Enumeration
import ProcessProbe.Proofs.Report.StatRecord
import ProcessProbe.Proofs.Text.Utf8
import ProcessProbe.Query.Subprocesses

/-!
# Snapshots of the processes of a host

The processes that there are, each with its parent, its run state and its name, and the answer that they give to a
question about children. Main statement: a process file system that shows a snapshot yields exactly its live processes
whose names are UTF-8.
-/

namespace ProcessProbe

/-- A process at one moment. Its name is any sequence of bytes. -/
structure Snapshot.Process where
  handle : Handle
  ppid : Nat
  state : Char
  name : Bytes
  ppid_le : ppid ≤ Handle.max
  ppid_ne : ppid ≠ handle.pid
  state_isAlpha : state.isAlpha = true

structure Snapshot where
  processes : List Snapshot.Process
  nonempty : processes ≠ []
  distinct : (processes.map (·.handle)).Nodup

namespace Snapshot

open Report (StatRecord)
open Text (decimal maxU32)

namespace Process

def isLive (p : Process) : Bool := p.state != zombie

def hasTextName (p : Process) : Bool := (Utf8.decode? p.name).isSome

def relation (p : Process) : Relation := ⟨p.handle, Handle.ofNat? p.ppid⟩

def directory (p : Process) : Bytes := Bytes.ofString (toString p.handle.pid)

/-- The bytes of the stat record, with `tail` for the fields after the parent's number. -/
def statBytes (p : Process) (tail : List Char) : Bytes :=
  Utf8.encode (decimal p.handle.pid ++ " (".toList) ++ p.name ++
    Utf8.encode (')' :: ' ' :: p.state :: ' ' :: (decimal p.ppid ++ tail))

theorem pid_le (p : Process) : p.handle.pid ≤ maxU32 := p.handle.pid_le.trans (by decide)

theorem ofPids?_eq (p : Process) : Relation.ofPids? p.handle.pid p.ppid = some p.relation := by
  rw [Relation.ofPids?, if_neg p.ppid_ne.symm, Handle.ofNat?_pid]
  rfl

theorem parent_eq_some_iff (p : Process) (h : Handle) : p.relation.parent = some h ↔ p.ppid = h.pid := by
  rw [relation, Handle.ofNat?_eq_some_iff, eq_comm]

private theorem state_range (p : Process) : 65 ≤ p.state.toNat ∧ p.state.toNat ≤ 122 := by
  have h : (decide ('A'.val ≤ p.state.val ∧ p.state.val ≤ 'Z'.val) ||
      (decide ('a'.val ≤ p.state.val) && decide (p.state.val ≤ 'z'.val))) = true := p.state_isAlpha
  simp only [Bool.or_eq_true, Bool.and_eq_true, decide_eq_true_eq, UInt32.le_iff_toNat_le] at h
  change (65 ≤ p.state.toNat ∧ p.state.toNat ≤ 90) ∨ (97 ≤ p.state.toNat ∧ p.state.toNat ≤ 122) at h
  omega

theorem state_not_blank (p : Process) : Text.isBlank p.state = false := by
  have h := p.state_range
  simp only [Text.isBlank, Bool.or_eq_false_iff, Bool.and_eq_false_iff, decide_eq_false_iff_not,
    beq_eq_false_iff_ne]
  omega

theorem state_ne_close (p : Process) : p.state ≠ ')' := by
  intro h
  have hrange := p.state_range
  rw [h] at hrange
  exact absurd hrange.1 (by decide)

theorem decode?_statBytes (p : Process) (tail : List Char) :
    Utf8.decode? (p.statBytes tail) =
      (Utf8.decode? p.name).map fun name => StatRecord.text ⟨p.handle.pid, name, p.state, p.ppid⟩ tail := by
  have hclose : Utf8.encode (')' :: ' ' :: p.state :: ' ' :: (decimal p.ppid ++ tail)) =
      41 :: Utf8.encode (' ' :: p.state :: ' ' :: (decimal p.ppid ++ tail)) := rfl
  have hrest := Utf8.decode?_encode (')' :: ' ' :: p.state :: ' ' :: (decimal p.ppid ++ tail))
  rw [hclose] at hrest
  rw [statBytes, hclose, List.append_assoc, Utf8.decode?_encode_append, Utf8.decode?_append_ascii (by decide), hrest]
  cases Utf8.decode? p.name with
  | none => rfl
  | some name => simp [StatRecord.text]

theorem ofText_text (p : Process) (name : List Char) {tail : List Char} (htail : StatRecord.IsTail tail) :
    StatRecord.ofText (StatRecord.text ⟨p.handle.pid, name, p.state, p.ppid⟩ tail) =
      .ok ⟨p.handle.pid, name, p.state, p.ppid⟩ :=
  StatRecord.ofText_text p.pid_le (p.ppid_le.trans (by decide)) p.state_not_blank p.state_ne_close htail

/-- What the walk makes of the stat record. A name that is no text takes the process with it. -/
theorem relationIn?_statBytes (p : Process) {tail : List Char} (htail : StatRecord.IsTail tail) :
    RelationTable.relationIn? (.ok (p.statBytes tail)) =
      if p.isLive && p.hasTextName then some p.relation else none := by
  cases hname : Utf8.decode? p.name with
  | none => simp [RelationTable.relationIn?, Liveness.textIn, decode?_statBytes, hname, hasTextName]
  | some name =>
    have hread := p.ofText_text name htail
    have hzombie : (StatRecord.isZombie ⟨p.handle.pid, name, p.state, p.ppid⟩) = !p.isLive := by
      simp [StatRecord.isZombie, isLive, bne]
    simp only [RelationTable.relationIn?, Liveness.textIn, decode?_statBytes, hname, Option.map_some, hread, hzombie,
      hasTextName, ofPids?_eq]
    cases p.isLive <;> rfl

theorem pidOfName?_directory (p : Process) : RelationTable.pidOfName? p.directory = some p.handle.pid := by
  rw [RelationTable.pidOfName?, directory, Bytes.ofString, Utf8.decode?_encode, Text.toList_toString]
  exact Text.readU32?_decimal p.pid_le

end Process

variable {σ : Type} {host : Host σ} {steady : σ → Prop} {procRoot : Path}

theorem eq_of_handle_eq (snapshot : Snapshot) {p q : Process} (hp : p ∈ snapshot.processes)
    (hq : q ∈ snapshot.processes) (h : p.handle = q.handle) : p = q :=
  List.inj_on_of_nodup_map snapshot.distinct hp hq h

def process? (snapshot : Snapshot) (pid : Nat) : Option Process :=
  snapshot.processes.find? (·.handle.pid == pid)

theorem process?_eq_some_iff (snapshot : Snapshot) {pid : Nat} {p : Process} :
    snapshot.process? pid = some p ↔ p ∈ snapshot.processes ∧ p.handle.pid = pid := by
  constructor
  · intro h
    exact ⟨List.mem_of_find?_eq_some h, by simpa using List.find?_some h⟩
  · rintro ⟨hp, rfl⟩
    cases hfind : snapshot.process? p.handle.pid with
    | none => exact absurd (List.find?_eq_none.1 hfind p hp) (by simp)
    | some q =>
      have hpid : q.handle.pid = p.handle.pid := by simpa using List.find?_some hfind
      rw [snapshot.eq_of_handle_eq (List.mem_of_find?_eq_some hfind) hp (Handle.eq_of_pid_eq hpid)]

def hasLive (snapshot : Snapshot) (h : Handle) : Bool := snapshot.processes.any fun p => p.handle == h && p.isLive

theorem hasLive_iff (snapshot : Snapshot) {h : Handle} :
    snapshot.hasLive h = true ↔ ∃ p ∈ snapshot.processes, p.isLive = true ∧ p.handle = h := by
  simp [hasLive, and_comm]

def hasLiveChild (snapshot : Snapshot) (h : Handle) : Bool :=
  snapshot.processes.any fun p => p.ppid == h.pid && p.isLive

theorem hasLiveChild_iff (snapshot : Snapshot) {h : Handle} :
    snapshot.hasLiveChild h = true ↔ ∃ p ∈ snapshot.processes, p.isLive = true ∧ p.ppid = h.pid := by
  simp [hasLiveChild, and_comm]

/-- Whether a process has a live child, as far as there is such a process and it is live. -/
def answer (snapshot : Snapshot) (h : Handle) : Except Failure Bool :=
  if snapshot.hasLive h then .ok (snapshot.hasLiveChild h) else .error (.notFound h.pid)

theorem ofTable_eq_answer (snapshot : Snapshot) {t : RelationTable}
    (ht : ∀ r, r ∈ t.rows ↔ ∃ p ∈ snapshot.processes, p.isLive = true ∧ p.relation = r) (h : Handle) :
    Subprocesses.ofTable t h = snapshot.answer h := by
  have hcontains : t.contains h = snapshot.hasLive h := by
    rw [Bool.eq_iff_iff, RelationTable.contains_iff, hasLive_iff]
    constructor
    · rintro ⟨r, hr, rfl⟩
      obtain ⟨p, hp, hlive, rfl⟩ := (ht r).1 hr
      exact ⟨p, hp, hlive, rfl⟩
    · rintro ⟨p, hp, hlive, rfl⟩
      exact ⟨p.relation, (ht _).2 ⟨p, hp, hlive, rfl⟩, rfl⟩
  have hchildren : (!(t.childrenOf h).isEmpty) = snapshot.hasLiveChild h := by
    rw [Bool.eq_iff_iff, Bool.not_eq_true', List.isEmpty_eq_false_iff_exists_mem, hasLiveChild_iff]
    constructor
    · rintro ⟨c, hc⟩
      obtain ⟨r, hr, hparent, -⟩ := RelationTable.mem_childrenOf.1 hc
      obtain ⟨p, hp, hlive, rfl⟩ := (ht r).1 hr
      exact ⟨p, hp, hlive, (p.parent_eq_some_iff h).1 hparent⟩
    · rintro ⟨p, hp, hlive, hppid⟩
      have hparent := (p.parent_eq_some_iff h).2 hppid
      exact ⟨p.handle, RelationTable.mem_childrenOf.2 ⟨p.relation, (ht _).2 ⟨p, hp, hlive, rfl⟩, hparent, rfl⟩⟩
  rw [Subprocesses.ofTable, answer, hcontains, hchildren]

def Spares (snapshot : Snapshot) (pids : List Nat) : Prop := ∀ p ∈ snapshot.processes, p.handle.pid ∉ pids

/-- A host whose process file system shows the snapshot: it lists a directory for each process, whatever else it
lists, has stat records of these processes only, and counts none of them as a diagnostic. -/
structure InProcfs (snapshot : Snapshot) (host : Host σ) (steady : σ → Prop) (procRoot : Path) : Prop where
  keeps : host.Keeps steady
  listed : ∀ s, steady s → ∃ names, (host.answer (.list procRoot) s).1 = .ok names ∧
    ∀ p ∈ snapshot.processes, p.directory ∈ names
  stat : ∀ p ∈ snapshot.processes, ∀ s, steady s → ∃ tail, StatRecord.IsTail tail ∧
    (host.answer (.readFile (Liveness.entry procRoot p.handle.pid "stat")) s).1 = .ok (p.statBytes tail)
  absent : ∀ pid, (∀ p ∈ snapshot.processes, p.handle.pid ≠ pid) → ∀ s, steady s →
    ∃ e, (host.answer (.readFile (Liveness.entry procRoot pid "stat")) s).1 = .error e
  spared : ∀ since s, steady s → snapshot.Spares (host.answer (.diagnosticsSince since) s).1

/-- The relation that the walk finds under a number. -/
def shown? (snapshot : Snapshot) (pid : Nat) : Option Relation :=
  (snapshot.process? pid).bind fun p => if p.isLive && p.hasTextName then some p.relation else none

theorem shown?_eq_some_iff (snapshot : Snapshot) {pid : Nat} {r : Relation} :
    snapshot.shown? pid = some r ↔
      ∃ p ∈ snapshot.processes, p.isLive = true ∧ p.hasTextName = true ∧ p.handle.pid = pid ∧ p.relation = r := by
  rw [shown?, Option.bind_eq_some_iff]
  constructor
  · rintro ⟨p, hp, hr⟩
    obtain ⟨hmem, hpid⟩ := snapshot.process?_eq_some_iff.1 hp
    obtain ⟨hand, hrelation⟩ := Option.ite_none_right_eq_some.1 hr
    obtain ⟨hlive, htext⟩ := Bool.and_eq_true_iff.1 hand
    exact ⟨p, hmem, hlive, htext, hpid, Option.some.inj hrelation⟩
  · rintro ⟨p, hmem, hlive, htext, hpid, hrelation⟩
    refine ⟨p, snapshot.process?_eq_some_iff.2 ⟨hmem, hpid⟩, ?_⟩
    rw [hlive, htext, hrelation]
    rfl

namespace InProcfs

variable {snapshot : Snapshot} (h : snapshot.InProcfs host steady procRoot)

include h

theorem relationIn?_eq (pid : Nat) (s : σ) (hs : steady s) :
    RelationTable.relationIn? (host.answer (.readFile (Liveness.entry procRoot pid "stat")) s).1 =
      snapshot.shown? pid := by
  cases hprocess : snapshot.process? pid with
  | some p =>
    obtain ⟨hp, rfl⟩ := snapshot.process?_eq_some_iff.1 hprocess
    obtain ⟨tail, htail, hread⟩ := h.stat p hp s hs
    rw [hread, p.relationIn?_statBytes htail, shown?, hprocess]
    rfl
  | none =>
    have hnone : ∀ p ∈ snapshot.processes, p.handle.pid ≠ pid := by
      intro p hp hpid
      rw [snapshot.process?_eq_some_iff.2 ⟨hp, hpid⟩] at hprocess
      contradiction
    obtain ⟨e, hread⟩ := h.absent pid hnone s hs
    rw [hread, shown?, hprocess]
    rfl

/-- The walk through the process file system yields the live processes whose names are texts. -/
theorem fromProcfs_comesTo :
    Query.ComesTo host steady (RelationTable.fromProcfs procRoot) fun outcome =>
      ∃ t, outcome = .ok t ∧ ∀ r, r ∈ t.rows ↔
        ∃ p ∈ snapshot.processes, p.isLive = true ∧ p.hasTextName = true ∧ p.relation = r := by
  have hwalk := RelationTable.fromProcfs_comesTo h.keeps h.listed h.relationIn?_eq h.spared
  intro s hs
  obtain ⟨names, hnames, hresult⟩ := hwalk s hs
  let pids := names.filterMap RelationTable.pidOfName?
  have hpids : ∀ p ∈ snapshot.processes, p.handle.pid ∈ pids := fun p hp =>
    List.mem_filterMap.2 ⟨p.directory, hnames p hp, p.pidOfName?_directory⟩
  have hsome : ¬pids.isEmpty = true := by
    obtain ⟨p, hp⟩ := List.exists_mem_of_ne_nil _ snapshot.nonempty
    simpa using List.ne_nil_of_mem (hpids p hp)
  rw [if_neg hsome] at hresult
  obtain ⟨diagnostics, hspared, houtcome⟩ := hresult
  have hfunctional : ∀ r ∈ pids.filterMap snapshot.shown?, ∀ q ∈ pids.filterMap snapshot.shown?,
      q.process = r.process → q = r := by
    intro r hr q hq hprocess
    obtain ⟨_, -, hshown⟩ := List.mem_filterMap.1 hr
    obtain ⟨_, -, hshown'⟩ := List.mem_filterMap.1 hq
    obtain ⟨p, hp, -, -, -, rfl⟩ := snapshot.shown?_eq_some_iff.1 hshown
    obtain ⟨p', hp', -, -, -, rfl⟩ := snapshot.shown?_eq_some_iff.1 hshown'
    rw [snapshot.eq_of_handle_eq hp' hp hprocess]
  refine ⟨_, houtcome, fun r => ?_⟩
  rw [RelationTable.mem_withoutPids, RelationTable.mem_ofList_of_functional hfunctional]
  constructor
  · rintro ⟨hr, -, -⟩
    obtain ⟨_, -, hshown⟩ := List.mem_filterMap.1 hr
    obtain ⟨p, hp, hlive, htext, -, hrelation⟩ := snapshot.shown?_eq_some_iff.1 hshown
    exact ⟨p, hp, hlive, htext, hrelation⟩
  · rintro ⟨p, hp, hlive, htext, rfl⟩
    refine ⟨List.mem_filterMap.2 ⟨p.handle.pid, hpids p hp, ?_⟩, by simp, hspared p hp⟩
    exact snapshot.shown?_eq_some_iff.2 ⟨p, hp, hlive, htext, rfl, rfl⟩

end InProcfs

end Snapshot

end ProcessProbe
