import ProcessProbe.Machine.Basic
import ProcessProbe.Proofs.Diagnostic.Schedule
import ProcessProbe.Proofs.Process.RelationTable
import ProcessProbe.Proofs.Query.Subprocesses

/-!
# Diagnostics as children of the caller

A capture reads the clock, takes a snapshot of the children, and then asks the registry which of them are diagnostics.
Other threads take their steps in between. Main statement: no diagnostic is left in exactly when each one that the
snapshot shows has a record by then, which was not marked before the capture began.
-/

namespace ProcessProbe.Subprocesses

open Diagnostic (Registry World)
open Diagnostic.World (Reachable Sound Step Steps)

variable {σ : Type}

/-- The numbers of the children that a snapshot shows, which are all diagnostics. -/
def ShowsDiagnostics (w : World) (pids : List Nat) : Prop := ∀ n, n ∈ pids ↔ ∃ i, (w.phase i).IsRunning ∧ w.pid i = n

/-- At the time of `w`, a process number is told to be that of a diagnostic that ran from `since` on. -/
def IsTold (w : World) (since : Diagnostic.Instant) (n : Nat) : Prop :=
  ∃ i, (w.phase i).IsRecorded ∧ w.pid i = n ∧ ∀ t ∈ w.mark i, since ≤ t

def ofCapture (t : RelationTable) (since : Diagnostic.Instant) (also : Option Nat) (own : Handle) : Query Bool := do
  Query.ofExcept (ofTable (← t.withoutDiagnostics since also) own)

theorem run_ofCapture (host : Host σ) (t : RelationTable) (since : Diagnostic.Instant) (also : Option Nat)
    (own : Handle) (s : σ) :
    ((ofCapture t since also own).outcome.run host s).1 =
      ofTable (t.without fun h => also == some h.pid ||
        (host.answer (.diagnosticsSince since) s).1.contains h.pid) own := rfl

theorem ofTable_without_eq_false_iff {t : RelationTable} {skip : Handle → Bool} {own : Handle}
    (hown : t.contains own = true) (hkept : skip own = false) :
    ofTable (t.without skip) own = .ok false ↔ ∀ c ∈ t.childrenOf own, skip c = true := by
  have hcontains : (t.without skip).contains own = true := by
    obtain ⟨r, hr, rfl⟩ := RelationTable.contains_iff.1 hown
    exact RelationTable.contains_iff.2 ⟨r, RelationTable.mem_without.2 ⟨hr, hkept⟩, rfl⟩
  have hchild (c : Handle) : c ∈ (t.without skip).childrenOf own ↔ c ∈ t.childrenOf own ∧ skip c = false := by
    simp only [RelationTable.mem_childrenOf, RelationTable.mem_without]
    constructor
    · rintro ⟨r, ⟨hr, hskip⟩, hparent, rfl⟩
      exact ⟨⟨r, hr, hparent, rfl⟩, hskip⟩
    · rintro ⟨⟨r, hr, hparent, rfl⟩, hskip⟩
      exact ⟨r, ⟨hr, hskip⟩, hparent, rfl⟩
  rw [ofTable, if_pos hcontains, Except.ok.injEq, Bool.not_eq_false', List.isEmpty_iff, List.eq_nil_iff_forall_not_mem]
  refine forall_congr' fun c => ?_
  rw [hchild, not_and, Bool.not_eq_false]

theorem interpret_eq_false_iff {o : Diagnostic.Output} {pids : List Nat} (hlisted : listed o = .ok pids)
    (ignore : Nat → Bool) : interpret o ignore = .ok false ↔ ∀ n ∈ pids, ignore n = true := by
  rw [interpret, hlisted, Except.map, Except.ok.injEq, List.any_eq_false]
  simp

theorem ShowsDiagnostics.forall_iff {w : World} {pids : List Nat} (h : ShowsDiagnostics w pids) (P : Nat → Prop) :
    (∀ n ∈ pids, P n) ↔ ∀ i, (w.phase i).IsRunning → P (w.pid i) := by
  constructor
  · exact fun hall i hi => hall _ ((h _).2 ⟨i, hi, rfl⟩)
  · intro hall n hn
    obtain ⟨i, hi, rfl⟩ := (h n).1 hn
    exact hall i hi

/-- The answer for a process of its own counts no diagnostic exactly when each one that runs at the time of the
snapshot is told of at the time of the reading, or is the one that took the snapshot. -/
theorem own_diagnostics_left_out_iff {w₀ w₁ w₂ : World} (h₀ : Reachable w₀) (h₁ : Steps w₀ w₁) (h₂ : Steps w₁ w₂)
    (hrecent : w₂.now < w₀.now + Registry.memory) (host : Host σ) (s : σ)
    (htold : (host.answer (.diagnosticsSince w₀.now) s).1 = w₂.registry.since w₀.now)
    (own : Handle) (hown : ∀ i, (w₂.phase i).IsRecorded → w₂.pid i ≠ own.pid) :
    (∀ (t : RelationTable) (also : Option Nat), t.contains own = true → also ≠ some own.pid →
      ShowsDiagnostics w₁ ((t.childrenOf own).map (·.pid)) →
      (((ofCapture t w₀.now also own).outcome.run host s).1 = .ok false ↔
        ∀ i, (w₁.phase i).IsRunning → also = some (w₁.pid i) ∨ IsTold w₂ w₀.now (w₁.pid i))) ∧
    ∀ o pids, listed o = .ok pids → ShowsDiagnostics w₁ pids →
      (interpret o (host.answer (.diagnosticsSince w₀.now) s).1.contains = .ok false ↔
        ∀ i, (w₁.phase i).IsRunning → IsTold w₂ w₀.now (w₁.pid i)) := by
  have hsound : Sound w₂ := Reachable.sound ((h₀.trans h₁).trans h₂)
  have hmem (n : Nat) : (w₂.registry.since w₀.now).contains n = true ↔ IsTold w₂ w₀.now n := by
    rw [List.contains_iff_mem, hsound.mem_since_iff hrecent, IsTold]
  have hkept : own.pid ∉ w₂.registry.since w₀.now := by
    rw [hsound.mem_since_iff hrecent]
    rintro ⟨i, hi, heq, -⟩
    exact hown i hi heq
  constructor
  · intro t also hcontains halso hshows
    rw [run_ofCapture, htold, ofTable_without_eq_false_iff hcontains (by simp [halso, hkept]),
      ← hshows.forall_iff fun n => also = some n ∨ IsTold w₂ w₀.now n, List.forall_mem_map]
    refine forall₂_congr fun c _ => ?_
    rw [Bool.or_eq_true, beq_iff_eq, hmem]
  · intro o pids hlisted hshows
    rw [htold, interpret_eq_false_iff hlisted, ← hshows.forall_iff]
    exact forall₂_congr fun n _ => hmem n

/-! ## A diagnostic before and after its registration -/

def caller : Handle := ⟨40, by decide, by decide⟩

def tool : Handle := ⟨41, by decide, by decide⟩

/-- The caller and a diagnostic of it. -/
def callerTable : RelationTable := ⟨[⟨caller, none⟩, ⟨tool, some caller⟩]⟩

def callerChildren : Diagnostic.Output :=
  ⟨"pgrep", [], 42, Utf8.encode (Report.ChildList.text [tool.pid]), [], some 0, false⟩

def spawned : World := { World.initial.setPhase 0 .spawned with pid := Function.update World.initial.pid 0 tool.pid }

def registered : World := { spawned.setPhase 0 .registered with registry := spawned.registry.register 0 tool.pid }

def machineOf (w : World) : Machine :=
  { Machine.empty ⟨[]⟩ ⟨"linux", none, "x86_64"⟩ caller.pid "" ("", "") with registry := w.registry }

theorem step_spawned : Step .initial spawned := by
  refine .spawn .initial 0 tool.pid rfl fun j hj => ?_
  simp [World.initial, Diagnostic.Phase.IsRunning] at hj

theorem step_registered : Step spawned registered := .register spawned 0 rfl

theorem showsDiagnostics_spawned : ShowsDiagnostics spawned [tool.pid] := by
  intro n
  rw [List.mem_singleton]
  constructor
  · rintro rfl
    exact ⟨0, by decide, rfl⟩
  · rintro ⟨i, hi, rfl⟩
    by_cases hzero : i = 0
    · subst hzero
      rfl
    · simp [spawned, World.setPhase_phase, hzero, World.initial, Diagnostic.Phase.IsRunning] at hi

theorem listed_callerChildren : listed callerChildren = .ok [tool.pid] := listed_found (by simp) (by decide)

/-- A diagnostic that is registered between the snapshot and the reading is left out. -/
theorem own_diagnostics_left_out_registered :
    ((ofCapture callerTable 0 none caller).outcome.run Machine.host (machineOf registered)).1 = .ok false ∧
      interpret callerChildren (registered.registry.since 0).contains = .ok false := by
  have hrecorded {i : Nat} (hi : (registered.phase i).IsRecorded) : i = 0 := by
    by_contra hzero
    simp [registered, spawned, World.setPhase_phase, hzero, World.initial, Diagnostic.Phase.IsRecorded] at hi
  have htold : ∀ i, (spawned.phase i).IsRunning → IsTold registered 0 (spawned.pid i) := by
    rw [← showsDiagnostics_spawned.forall_iff, List.forall_mem_singleton]
    exact ⟨0, by decide, rfl, by simp [registered, spawned, World.initial]⟩
  obtain ⟨htable, hchildren⟩ := own_diagnostics_left_out_iff .refl (.single step_spawned) (.single step_registered)
    (by decide) Machine.host (machineOf registered) rfl caller (fun i hi => by rw [hrecorded hi]; decide)
  refine ⟨(htable callerTable none (by decide) (by simp) showsDiagnostics_spawned).2 fun i hi => .inr (htold i hi), ?_⟩
  exact (hchildren callerChildren _ listed_callerChildren showsDiagnostics_spawned).2 htold

/-- A diagnostic that is spawned, and read of before it is registered, counts as a child. -/
theorem own_diagnostic_counted_spawned :
    Reachable spawned ∧ ShowsDiagnostics spawned ((callerTable.childrenOf caller).map (·.pid)) ∧
      ((ofCapture callerTable 0 none caller).outcome.run Machine.host (machineOf spawned)).1 = .ok true ∧
      interpret callerChildren (spawned.registry.since 0).contains = .ok true := by
  refine ⟨.single step_spawned, showsDiagnostics_spawned, rfl, ?_⟩
  rw [interpret, listed_callerChildren]
  rfl

end ProcessProbe.Subprocesses
