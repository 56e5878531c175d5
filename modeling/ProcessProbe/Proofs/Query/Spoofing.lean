import ProcessProbe.Proofs.Query.Reported

/-!
# Names that look like fields

A process picks its own name. Main statement: whatever the name is, the fields after it are read as they were written,
so neither the state of the process nor its place in the walk depends on the name.
-/

namespace ProcessProbe.Liveness

open Diagnostic (Policy)
open Report (StatRecord)
open Text (isBlank maxU32)

variable {σ : Type} {host : Host σ} {s : σ} {p : Policy} {procRoot : Path} {h : Handle}

theorem run_readText {path : Path} {text : List Char}
    (hfile : (host.answer (.readFile path) s).1 = .ok (Utf8.encode text)) :
    (readText path).run host s = (.ok text, (host.answer (.readFile path) s).2) := by
  have hread : host.answer (.readFile path) s = (.ok (Utf8.encode text), (host.answer (.readFile path) s).2) :=
    Prod.ext hfile rfl
  rw [run_readText_of_read hread, textIn_eq_ok_iff.2 rfl]

theorem run_runState {text : List Char} {r : StatRecord} (hread : StatRecord.ofText text = .ok r)
    (hfile : (host.answer (.readFile (entry procRoot h.pid "stat")) s).1 = .ok (Utf8.encode text)) :
    (runState p procRoot h).outcome.run host s =
      (.ok (some r.state), (host.answer (.readFile (entry procRoot h.pid "stat")) s).2) := by
  let s' := (host.answer (.readFile (entry procRoot h.pid "stat")) s).2
  have hrecord : (recordEvidence procRoot h).run host s = (.state r.state, s') := by
    rw [recordEvidence, Inquiry.run_bind, run_readText hfile]
    simp only [hread]
    rfl
  have hevidence : (evidence p procRoot h).run host s = (.state r.state, s') := by
    rw [evidence, Inquiry.run_bind, hrecord]
    rfl
  rw [runState, Query.outcome_lift_bind, Inquiry.run_bind, hevidence]
  rfl

/-- Whatever the name of a process is, its record is read as it was written. So the state, whether it is that of a
zombie, and what the walk makes of the record are the same for every name. -/
theorem name_spoofs_nothing {pid ppid : Nat} (hpid : pid ≤ maxU32) (hppid : ppid ≤ maxU32) {state : Char}
    (hblank : isBlank state = false) (hclose : state ≠ ')') {tail : List Char} (htail : StatRecord.IsTail tail)
    (name : List Char) :
    StatRecord.ofText (StatRecord.text ⟨pid, name, state, ppid⟩ tail) = .ok ⟨pid, name, state, ppid⟩ ∧
    (StatRecord.ofText (StatRecord.text ⟨pid, name, state, ppid⟩ tail)).map (·.isZombie) = .ok (state == zombie) ∧
    RelationTable.relationIn? (.ok (Utf8.encode (StatRecord.text ⟨pid, name, state, ppid⟩ tail))) =
      (if state = zombie then none else Relation.ofPids? pid ppid) ∧
    ∀ {σ : Type} (host : Host σ) (s : σ) (p : Policy) (procRoot : Path) (h : Handle),
      (host.answer (.readFile (entry procRoot h.pid "stat")) s).1 =
        .ok (Utf8.encode (StatRecord.text ⟨pid, name, state, ppid⟩ tail)) →
      (runState p procRoot h).outcome.run host s =
        (.ok (some state), (host.answer (.readFile (entry procRoot h.pid "stat")) s).2) := by
  have hread : StatRecord.ofText (StatRecord.text ⟨pid, name, state, ppid⟩ tail) = .ok ⟨pid, name, state, ppid⟩ :=
    StatRecord.ofText_text hpid hppid hblank hclose htail
  have hwalk : RelationTable.relationIn? (.ok (Utf8.encode (StatRecord.text ⟨pid, name, state, ppid⟩ tail))) =
      if state = zombie then none else Relation.ofPids? pid ppid := by
    simp [RelationTable.relationIn?, textIn, Utf8.decode?_encode, hread, StatRecord.isZombie]
  refine ⟨hread, ?_, hwalk, ?_⟩
  · rw [hread]
    rfl
  · intro σ host s p procRoot h hfile
    exact run_runState hread hfile

/-- A record whose name holds the fields of a zombie and a line break. -/
def zombieNamed : List Char := StatRecord.text ⟨41, ") Z 1 (\n".toList, 'S', 7⟩ " 41 41".toList

/-- The host of the family, with that record for every process. -/
def zombieNamedHost : Host Unit where
  answer
    | .readFile _, s => (.ok (Utf8.encode zombieNamed), s)
    | request, s => Snapshot.familyHost.answer request s

theorem name_spoofs_nothing_zombieNamed :
    StatRecord.ofText zombieNamed = .ok ⟨41, ") Z 1 (\n".toList, 'S', 7⟩ ∧
    (StatRecord.ofText zombieNamed).map (·.isZombie) = .ok false ∧
    RelationTable.relationIn? (.ok (Utf8.encode zombieNamed)) = Relation.ofPids? 41 7 ∧
    (runState .default Settings.defaultProcRoot Snapshot.parent).outcome.run zombieNamedHost () =
      (.ok (some 'S'), ()) := by
  have hpid : 41 ≤ maxU32 := by decide
  have hppid : 7 ≤ maxU32 := by decide
  have hblank : isBlank 'S' = false := by decide
  have hclose : 'S' ≠ ')' := by decide
  have hspace : ∀ c ∈ " 41 41".toList.head?, isBlank c = true := by
    intro c hc
    obtain rfl : ' ' = c := by simpa using hc
    decide
  have htail : StatRecord.IsTail " 41 41".toList := ⟨hspace, by simp⟩
  obtain ⟨hread, hzombie, hwalk, hstate⟩ := name_spoofs_nothing hpid hppid hblank hclose htail ") Z 1 (\n".toList
  exact ⟨hread, hzombie, hwalk, hstate zombieNamedHost () .default Settings.defaultProcRoot Snapshot.parent rfl⟩

end ProcessProbe.Liveness
