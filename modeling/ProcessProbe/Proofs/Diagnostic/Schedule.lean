import Mathlib.Logic.Function.Basic
import Mathlib.Logic.Relation
import ProcessProbe.Diagnostic.Registry

/-!
# Schedules of diagnostics

Any number of diagnostics run at once, on any threads. Each is spawned, enters the registry, is reaped, and then marks
its record; between these steps others take theirs, and the system may give the number of a reaped diagnostic to a new
one before the record of the former is marked. Main statement: what the registry tells about a recent time are the
numbers of the records that were not marked before it.
-/

namespace ProcessProbe.Diagnostic

inductive Phase where
  | unborn
  | spawned
  | registered
  | reaped (time : Instant)
  | dropped
  deriving DecidableEq

namespace Phase

/-- The diagnostic is a child of the caller. Whether it has exited already makes no difference to the registry. -/
def IsRunning (p : Phase) : Prop := p = spawned ∨ p = registered

def IsRecorded (p : Phase) : Prop := p ≠ unborn ∧ p ≠ spawned

instance (p : Phase) : Decidable p.IsRunning := inferInstanceAs (Decidable (_ ∨ _))

instance (p : Phase) : Decidable p.IsRecorded := inferInstanceAs (Decidable (_ ∧ _))

end Phase

/-- The clock, the registry, and every diagnostic that ever is: its process number, its phase, and when its record was
marked. -/
structure World where
  now : Instant
  registry : Registry
  pid : Nat → Nat
  phase : Nat → Phase
  mark : Nat → Option Instant

theorem Registry.long_of_not_isFresh {now : Instant} {n : Nat} {mark : Option Instant}
    (h : ¬Item.isFresh now ⟨n, mark⟩ = true) : ∃ t ∈ mark, t + memory ≤ now := by
  cases mark with
  | none => exact absurd rfl h
  | some t =>
    have hlong : memory ≤ now - t := by simpa [Item.isFresh] using h
    have hpast : t ≤ now := Nat.le_of_lt (Nat.lt_of_sub_pos (Nat.lt_of_lt_of_le (by decide) hlong))
    exact ⟨t, rfl, Nat.add_sub_of_le hpast ▸ Nat.add_le_add_left hlong t⟩

theorem Registry.mem_since_iff {r : Registry} {since : Instant} {n : Nat} :
    n ∈ r.since since ↔ ∃ item ∈ r.items, item.pid = n ∧ ∀ t ∈ item.reapedAt, since ≤ t := by
  have hall (mark : Option Instant) : mark.all (since ≤ ·) = true ↔ ∀ t ∈ mark, since ≤ t := by
    cases mark <;> simp
  simp only [Registry.since, List.mem_map, List.mem_filter, hall]
  constructor
  · rintro ⟨item, ⟨hitem, hlate⟩, hpid⟩
    exact ⟨item, hitem, hpid, hlate⟩
  · rintro ⟨item, hitem, hpid, hlate⟩
    exact ⟨item, ⟨hitem, hlate⟩, hpid⟩

namespace World

def initial : World := ⟨0, .empty, fun _ => 0, fun _ => .unborn, fun _ => none⟩

def setPhase (w : World) (i : Nat) (p : Phase) : World := { w with phase := Function.update w.phase i p }

@[simp] theorem setPhase_now (w : World) (i : Nat) (p : Phase) : (w.setPhase i p).now = w.now := rfl

@[simp] theorem setPhase_registry (w : World) (i : Nat) (p : Phase) : (w.setPhase i p).registry = w.registry := rfl

@[simp] theorem setPhase_pid (w : World) (i : Nat) (p : Phase) : (w.setPhase i p).pid = w.pid := rfl

@[simp] theorem setPhase_mark (w : World) (i : Nat) (p : Phase) : (w.setPhase i p).mark = w.mark := rfl

theorem setPhase_phase (w : World) (i : Nat) (p : Phase) (j : Nat) :
    (w.setPhase i p).phase j = if j = i then p else w.phase j := Function.update_apply ..

/-- When a record is marked after a diagnostic has dropped its own at a time: every unmarked record of the same number
is marked then. -/
def markAfter (w : World) (i : Nat) (t : Instant) (j : Nat) : Option Instant :=
  if w.pid j = w.pid i ∧ (w.phase j).IsRecorded ∧ w.mark j = none then some t else w.mark j

/-- One step of one thread. The clock is read before a record is marked, and other steps may come between. -/
inductive Step : World → World → Prop where
  | tick (w : World) (d : Nat) : Step w { w with now := w.now + d }
  -- A number is free as soon as no diagnostic runs under it, whether or not the former record is marked.
  | spawn (w : World) (i n : Nat) (hunborn : w.phase i = .unborn)
      (hfree : ∀ j, (w.phase j).IsRunning → w.pid j ≠ n) :
      Step w { w.setPhase i .spawned with pid := Function.update w.pid i n }
  | register (w : World) (i : Nat) (hspawned : w.phase i = .spawned) :
      Step w { w.setPhase i .registered with registry := w.registry.register w.now (w.pid i) }
  | reap (w : World) (i : Nat) (hregistered : w.phase i = .registered) : Step w (w.setPhase i (.reaped w.now))
  | drop (w : World) (i : Nat) (time t : Instant) (hreaped : w.phase i = .reaped time) (hafter : time ≤ t)
      (hpast : t ≤ w.now) :
      Step w { w.setPhase i .dropped with registry := w.registry.markReaped t (w.pid i), mark := w.markAfter i t }

def Steps : World → World → Prop := Relation.ReflTransGen Step

def Reachable : World → Prop := Steps initial

/-- The registry holds what became of the records: each one as it is marked, unless it was marked long ago. -/
structure Sound (w : World) : Prop where
  recorded : ∀ item ∈ w.registry.items, ∃ i, (w.phase i).IsRecorded ∧ item = ⟨w.pid i, w.mark i⟩
  kept : ∀ i, (w.phase i).IsRecorded →
    ⟨w.pid i, w.mark i⟩ ∈ w.registry.items ∨ ∃ t ∈ w.mark i, t + Registry.memory ≤ w.now
  unmarked : ∀ i, ¬(w.phase i).IsRecorded → w.mark i = none

theorem sound_initial : Sound initial where
  recorded := fun _ hitem => absurd hitem List.not_mem_nil
  kept := fun _ hi => absurd rfl hi.1
  unmarked := fun _ _ => rfl

theorem Sound.tick {w : World} (h : Sound w) (d : Nat) : Sound { w with now := w.now + d } where
  recorded := h.recorded
  kept := by
    intro i hi
    refine (h.kept i hi).imp_right ?_
    rintro ⟨t, ht, hlong⟩
    exact ⟨t, ht, Nat.le_trans hlong (Nat.le_add_right _ _)⟩
  unmarked := h.unmarked

theorem Sound.spawn {w : World} (h : Sound w) {i : Nat} (n : Nat) (hunborn : w.phase i = .unborn) :
    Sound { w.setPhase i .spawned with pid := Function.update w.pid i n } := by
  have hrecorded (j : Nat) : ((w.setPhase i .spawned).phase j).IsRecorded ↔ (w.phase j).IsRecorded ∧ j ≠ i := by
    rw [setPhase_phase]
    by_cases hj : j = i
    · simp [hj, Phase.IsRecorded]
    · simp [hj]
  have hne (j : Nat) (hj : (w.phase j).IsRecorded) : j ≠ i := by
    rintro rfl
    exact hj.1 hunborn
  refine ⟨fun item hitem => ?_, fun j hj => ?_, fun j hj => ?_⟩
  · obtain ⟨j, hj, heq⟩ := h.recorded item hitem
    refine ⟨j, (hrecorded j).2 ⟨hj, hne j hj⟩, ?_⟩
    simpa [Function.update_of_ne (hne j hj)] using heq
  · obtain ⟨hold, hji⟩ := (hrecorded j).1 hj
    simpa [Function.update_of_ne hji] using h.kept j hold
  · by_cases hold : (w.phase j).IsRecorded
    · exact absurd ((hrecorded j).2 ⟨hold, hne j hold⟩) hj
    · exact h.unmarked j hold

theorem Sound.register {w : World} (h : Sound w) {i : Nat} (hspawned : w.phase i = .spawned) :
    Sound { w.setPhase i .registered with registry := w.registry.register w.now (w.pid i) } := by
  have hmark : w.mark i = none := h.unmarked i (by simp [hspawned, Phase.IsRecorded])
  have hrecorded (j : Nat) : ((w.setPhase i .registered).phase j).IsRecorded ↔ (w.phase j).IsRecorded ∨ j = i := by
    rw [setPhase_phase]
    by_cases hj : j = i
    · simp [hj, Phase.IsRecorded]
    · simp [hj]
  refine ⟨fun item hitem => ?_, fun j hj => ?_, fun j hj => ?_⟩
  · rcases List.mem_append.1 hitem with hitem | hitem
    · obtain ⟨j, hj, heq⟩ := h.recorded item (List.mem_filter.1 hitem).1
      exact ⟨j, (hrecorded j).2 (.inl hj), heq⟩
    · refine ⟨i, (hrecorded i).2 (.inr rfl), ?_⟩
      rw [List.mem_singleton.1 hitem]
      simp [hmark]
  · rcases (hrecorded j).1 hj with hold | rfl
    · -- What registering forgets is no longer fresh.
      refine (h.kept j hold).elim (fun hitem => ?_) .inr
      by_cases hfresh : Registry.Item.isFresh w.now ⟨w.pid j, w.mark j⟩ = true
      · exact .inl (List.mem_append_left _ (List.mem_filter.2 ⟨hitem, hfresh⟩))
      · exact .inr (Registry.long_of_not_isFresh hfresh)
    · refine .inl (List.mem_append_right _ ?_)
      simp [hmark]
  · exact h.unmarked j fun hold => hj ((hrecorded j).2 (.inl hold))

theorem Sound.drop {w : World} (h : Sound w) {i : Nat} {time : Instant} (t : Instant)
    (hreaped : w.phase i = .reaped time) :
    Sound { w.setPhase i .dropped with registry := w.registry.markReaped t (w.pid i), mark := w.markAfter i t } := by
  have hrecorded (j : Nat) : ((w.setPhase i .dropped).phase j).IsRecorded ↔ (w.phase j).IsRecorded := by
    rw [setPhase_phase]
    by_cases hj : j = i
    · simp [hj, hreaped, Phase.IsRecorded]
    · simp [hj]
  have hitem (j : Nat) (hj : (w.phase j).IsRecorded) :
      (if w.pid j = w.pid i ∧ w.mark j = none then ({ pid := w.pid j, reapedAt := some t } : Registry.Item)
        else ⟨w.pid j, w.mark j⟩) = ⟨w.pid j, w.markAfter i t j⟩ := by
    rw [markAfter]
    split <;> simp_all
  refine ⟨fun item hmem => ?_, fun j hj => ?_, fun j hj => ?_⟩
  · obtain ⟨old, hold, rfl⟩ := List.mem_map.1 hmem
    obtain ⟨j, hj, rfl⟩ := h.recorded old hold
    exact ⟨j, (hrecorded j).2 hj, hitem j hj⟩
  · have hold := (hrecorded j).1 hj
    rcases h.kept j hold with hmem | ⟨t', ht', hlong⟩
    · exact .inl (List.mem_map.2 ⟨_, hmem, hitem j hold⟩)
    · refine .inr ⟨t', ?_, hlong⟩
      rw [Option.mem_def] at ht' ⊢
      simp [markAfter, ht']
  · have hold := mt (hrecorded j).2 hj
    simp [markAfter, hold, h.unmarked j hold]

theorem Sound.reap {w : World} (h : Sound w) {i : Nat} (hregistered : w.phase i = .registered) (time : Instant) :
    Sound (w.setPhase i (.reaped time)) := by
  have hrecorded (j : Nat) : ((w.setPhase i (.reaped time)).phase j).IsRecorded ↔ (w.phase j).IsRecorded := by
    rw [setPhase_phase]
    by_cases hj : j = i
    · simp [hj, hregistered, Phase.IsRecorded]
    · simp [hj]
  refine ⟨fun item hitem => ?_, fun j hj => h.kept j ((hrecorded j).1 hj),
    fun j hj => h.unmarked j (mt (hrecorded j).2 hj)⟩
  obtain ⟨j, hj, heq⟩ := h.recorded item hitem
  exact ⟨j, (hrecorded j).2 hj, heq⟩

theorem Sound.step {w w' : World} (h : Sound w) (hstep : Step w w') : Sound w' := by
  cases hstep with
  | tick d => exact h.tick d
  | spawn i n hunborn hfree => exact h.spawn n hunborn
  | register i hspawned => exact h.register hspawned
  | reap i hregistered => exact h.reap hregistered w.now
  | drop i time t hreaped hafter hpast => exact h.drop t hreaped

theorem Reachable.sound {w : World} (h : Reachable w) : Sound w := by
  induction h with
  | refl => exact sound_initial
  | tail _ hstep ih => exact ih.step hstep

/-- What the registry tells about a recent time: the numbers of the records that were not marked before it. -/
theorem Sound.mem_since_iff {w : World} (h : Sound w) {since : Instant} (hrecent : w.now < since + Registry.memory)
    {n : Nat} :
    n ∈ w.registry.since since ↔
      ∃ i, (w.phase i).IsRecorded ∧ w.pid i = n ∧ ∀ t ∈ w.mark i, since ≤ t := by
  rw [Registry.mem_since_iff]
  constructor
  · rintro ⟨item, hitem, rfl, hlate⟩
    obtain ⟨i, hi, rfl⟩ := h.recorded item hitem
    exact ⟨i, hi, rfl, hlate⟩
  · rintro ⟨i, hi, rfl, hlate⟩
    rcases h.kept i hi with hmem | ⟨t, ht, hlong⟩
    · exact ⟨_, hmem, rfl, hlate⟩
    · have hsince := Nat.add_le_add_right (hlate t ht) Registry.memory
      exact absurd (Nat.le_trans hsince hlong) (Nat.not_le.2 hrecent)

end World

end ProcessProbe.Diagnostic
