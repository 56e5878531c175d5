import ProcessProbe.Proofs.Diagnostic.Schedule

/-!
# Running diagnostics in the registry

A diagnostic is registered when it runs, and drops its record when it has been reaped. Dropping tells records by their
number alone, so it marks those of all diagnostics of that number. Main statement: the registry tells of a number for
all times exactly when a diagnostic of that number has been registered and no record of the number was dropped since.
-/

namespace ProcessProbe.Diagnostic.World

def Registers (w w' : World) (i : Nat) : Prop := w.phase i = .spawned ∧ w'.phase i = .registered

def Drops (w w' : World) (i : Nat) : Prop := w.phase i ≠ .dropped ∧ w'.phase i = .dropped

def IsUnmarked (w : World) (i : Nat) : Prop := (w.phase i).IsRecorded ∧ w.mark i = none

/-- What is unmarked after a step is what it registers, and what was unmarked before if no record of that number is
dropped. -/
def LeavesUnmarked (w w' : World) (i : Nat) : Prop :=
  w'.IsUnmarked i ↔ Registers w w' i ∨ w.IsUnmarked i ∧ ∀ k, Drops w w' k → w.pid k ≠ w.pid i

section Moves

variable {w w' : World} {j : Nat} {p : Phase} (hphase : w'.phase = (w.setPhase j p).phase)

include hphase

theorem registers_iff_of_move (i : Nat) : Registers w w' i ↔ i = j ∧ w.phase j = .spawned ∧ p = .registered := by
  rw [Registers, hphase, setPhase_phase]
  by_cases hij : i = j
  · simp [hij]
  · simp only [hij, if_false, false_and, iff_false, not_and]
    intro hspawned
    simp [hspawned]

theorem drops_iff_of_move (k : Nat) : Drops w w' k ↔ k = j ∧ w.phase j ≠ .dropped ∧ p = .dropped := by
  rw [Drops, hphase, setPhase_phase]
  by_cases hkj : k = j <;> simp [hkj]

theorem isUnmarked_iff_of_move (i : Nat) :
    w'.IsUnmarked i ↔ (i = j ∧ p.IsRecorded ∨ i ≠ j ∧ (w.phase i).IsRecorded) ∧ w'.mark i = none := by
  rw [IsUnmarked, hphase, setPhase_phase]
  by_cases hij : i = j <;> simp [hij]

theorem leavesUnmarked_of_quiet (hfrom : w.phase j ≠ .spawned) (hto : p ≠ .dropped)
    (hrecorded : p.IsRecorded ↔ (w.phase j).IsRecorded) (hmark : w'.mark = w.mark) (i : Nat) :
    LeavesUnmarked w w' i := by
  rw [LeavesUnmarked, isUnmarked_iff_of_move hphase, registers_iff_of_move hphase, hmark]
  simp only [drops_iff_of_move hphase]
  by_cases hij : i = j <;> simp [IsUnmarked, hij, hfrom, hto, hrecorded]

theorem leavesUnmarked_of_registers (hfrom : w.phase j = .spawned) (hto : p = .registered) (hnone : w.mark j = none)
    (hmark : w'.mark = w.mark) (i : Nat) : LeavesUnmarked w w' i := by
  rw [LeavesUnmarked, isUnmarked_iff_of_move hphase, registers_iff_of_move hphase, hmark]
  simp only [drops_iff_of_move hphase]
  by_cases hij : i = j <;> simp [IsUnmarked, Phase.IsRecorded, hij, hfrom, hto, hnone]

theorem leavesUnmarked_of_drops {time t : Instant} (hfrom : w.phase j = .reaped time) (hto : p = .dropped)
    (hmark : w'.mark = w.markAfter j t) (i : Nat) : LeavesUnmarked w w' i := by
  have hrecorded : (w.phase j).IsRecorded := by simp [hfrom, Phase.IsRecorded]
  have hnone (hi : (w.phase i).IsRecorded) : w.markAfter j t i = none ↔ w.mark i = none ∧ w.pid j ≠ w.pid i := by
    rw [markAfter]
    split
    next hmarked => simp [hmarked.1]
    next hkept => exact ⟨fun hnone => ⟨hnone, fun hpid => hkept ⟨hpid.symm, hi, hnone⟩⟩, And.left⟩
  have hdrops (k : Nat) : Drops w w' k ↔ k = j := by
    simp [drops_iff_of_move hphase, hfrom, hto]
  have hregisters : ¬Registers w w' i := by
    simp [registers_iff_of_move hphase, hfrom]
  rw [LeavesUnmarked, isUnmarked_iff_of_move hphase, hmark]
  simp only [IsUnmarked, hdrops, hregisters, false_or, forall_eq, and_assoc]
  by_cases hij : i = j
  · subst hij
    simp [hto, Phase.IsRecorded, hnone hrecorded]
  · simp only [hij, false_and, ne_eq, not_false_eq_true, true_and, false_or]
    exact and_congr_right hnone

end Moves

theorem Step.leavesUnmarked {w w' : World} (h : Step w w') (hsound : Sound w) (i : Nat) : LeavesUnmarked w w' i := by
  cases h with
  | tick d =>
    have hregisters : ¬Registers w { w with now := w.now + d } i := by
      rintro ⟨hspawned, hregistered⟩
      exact Phase.noConfusion (hspawned.symm.trans hregistered)
    have hdrops (k : Nat) : ¬Drops w { w with now := w.now + d } k := fun h => h.1 h.2
    simp [LeavesUnmarked, IsUnmarked, hregisters, hdrops]
  | spawn j n hunborn hfree =>
    refine leavesUnmarked_of_quiet rfl ?_ ?_ ?_ rfl i <;> simp [hunborn, Phase.IsRecorded]
  | register j hspawned =>
    exact leavesUnmarked_of_registers rfl hspawned rfl (hsound.unmarked j (by simp [hspawned, Phase.IsRecorded])) rfl i
  | reap j hregistered =>
    refine leavesUnmarked_of_quiet rfl ?_ ?_ ?_ rfl i <;> simp [hregistered, Phase.IsRecorded]
  | drop j time t hreaped hafter hpast =>
    refine leavesUnmarked_of_drops (t := t) ?_ hreaped rfl ?_ i <;> rfl

/-! ## Schedules -/

/-- Worlds of which each comes from the one before by a step. -/
structure Schedule where
  world : Nat → World
  starts : world 0 = .initial
  moves : ∀ n, Step (world n) (world (n + 1))

namespace Schedule

variable (s : Schedule)

theorem reachable (n : Nat) : Reachable (s.world n) := by
  induction n with
  | zero => exact s.starts ▸ .refl
  | succ n ih => exact ih.tail (s.moves n)

/-- A diagnostic is registered in the step after `m`, and no record of its number is dropped between that step and
`n`. -/
def EnteredSince (m n i : Nat) : Prop :=
  m < n ∧ Registers (s.world m) (s.world (m + 1)) i ∧
    ∀ l, m < l → l < n → ∀ k, Drops (s.world l) (s.world (l + 1)) k → (s.world l).pid k ≠ (s.world l).pid i

theorem enteredSince_succ_iff (m n i : Nat) :
    s.EnteredSince m (n + 1) i ↔
      m = n ∧ Registers (s.world n) (s.world (n + 1)) i ∨
        s.EnteredSince m n i ∧ ∀ k, Drops (s.world n) (s.world (n + 1)) k → (s.world n).pid k ≠ (s.world n).pid i := by
  constructor
  · rintro ⟨hm, hregisters, hkept⟩
    rcases Nat.lt_succ_iff_lt_or_eq.1 hm with hlt | rfl
    · have hbefore : s.EnteredSince m n i := ⟨hlt, hregisters, fun l hl hln => hkept l hl (Nat.lt_succ_of_lt hln)⟩
      exact .inr ⟨hbefore, hkept n hlt (Nat.lt_succ_self n)⟩
    · exact .inl ⟨rfl, hregisters⟩
  · rintro (⟨rfl, hregisters⟩ | ⟨⟨hlt, hregisters, hkept⟩, hlast⟩)
    · exact ⟨Nat.lt_succ_self m, hregisters, fun l hl hln => absurd hl (Nat.not_lt_of_le (Nat.le_of_lt_succ hln))⟩
    · refine ⟨Nat.lt_succ_of_lt hlt, hregisters, fun l hl hln => ?_⟩
      rcases Nat.lt_succ_iff_lt_or_eq.1 hln with hlt' | rfl
      · exact hkept l hl hlt'
      · exact hlast

theorem isUnmarked_iff (n i : Nat) : (s.world n).IsUnmarked i ↔ ∃ m, s.EnteredSince m n i := by
  induction n with
  | zero =>
    have hnone : ¬(s.world 0).IsUnmarked i := by
      rw [s.starts]
      exact fun h => h.1.1 rfl
    simp [hnone, EnteredSince]
  | succ n ih =>
    have hleaves := (s.moves n).leavesUnmarked (s.reachable n).sound i
    rw [LeavesUnmarked] at hleaves
    rw [hleaves, ih]
    simp only [enteredSince_succ_iff, exists_or, exists_eq_left, exists_and_right]

end Schedule

theorem Reachable.mark_le {w : World} (h : Reachable w) {i : Nat} {t : Instant} (ht : t ∈ w.mark i) : t ≤ w.now := by
  induction h generalizing i t with
  | refl => simp [initial] at ht
  | tail _ hstep ih =>
    cases hstep with
    | tick d => exact Nat.le_trans (ih ht) (Nat.le_add_right _ _)
    | spawn _ _ _ _ => exact ih ht
    | register _ _ => exact ih ht
    | reap _ _ => exact ih ht
    | drop j time t' _ _ hpast =>
      simp only [markAfter] at ht
      split at ht
      · obtain rfl := Option.some.inj ht
        exact hpast
      · exact ih ht

/-- The registry tells of a number for all times exactly when it has an unmarked record of it. -/
theorem Reachable.told_iff {w : World} (h : Reachable w) (n : Nat) :
    (∀ since, n ∈ w.registry.since since) ↔ ∃ i, w.IsUnmarked i ∧ w.pid i = n := by
  constructor
  · intro htold
    obtain ⟨item, hitem, hpid, hlate⟩ := Registry.mem_since_iff.1 (htold (w.now + 1))
    obtain ⟨i, hi, rfl⟩ := h.sound.recorded item hitem
    refine ⟨i, ⟨hi, Option.eq_none_iff_forall_not_mem.2 fun t ht => ?_⟩, hpid⟩
    exact absurd (hlate t ht) (Nat.not_le.2 (Nat.lt_succ_of_le (h.mark_le ht)))
  · rintro ⟨i, ⟨hi, hnone⟩, rfl⟩ since
    rcases h.sound.kept i hi with hmem | ⟨t, ht, -⟩
    · exact Registry.mem_since_iff.2 ⟨_, hmem, rfl, by simp [hnone]⟩
    · simp [hnone] at ht

/-- At any point of a schedule the registry tells of a diagnostic for all times exactly when it, or another one of its
number, has been registered and no record of that number was dropped since. So it does from its registration on until
it drops its record, unless another one drops a record of the same number in between. -/
theorem told_iff_entered_since_drops (s : Schedule) (n i : Nat) :
    (∀ since, (s.world n).pid i ∈ (s.world n).registry.since since) ↔
      ∃ j m, s.EnteredSince m n j ∧ (s.world n).pid j = (s.world n).pid i := by
  rw [(s.reachable n).told_iff]
  simp only [s.isUnmarked_iff, exists_and_right]

/-! ## A late drop -/

def spawnAs (w : World) (i n : Nat) : World := { w.setPhase i .spawned with pid := Function.update w.pid i n }

def enter (w : World) (i : Nat) : World :=
  { w.setPhase i .registered with registry := w.registry.register w.now (w.pid i) }

def leave (w : World) (i : Nat) (t : Instant) : World :=
  { w.setPhase i .dropped with registry := w.registry.markReaped t (w.pid i), mark := w.markAfter i t }

/-- The first diagnostic is reaped, and a second one gets its number and is registered before the first one drops its
record. -/
def lateDropMoves : List (World → World) :=
  [(·.spawnAs 0 41), (·.enter 0), (·.setPhase 0 (.reaped 0)), (·.spawnAs 1 41), (·.enter 1), (·.leave 0 0),
    fun w => { w with now := w.now + 10 }]

theorem take_lateDropMoves (n : Nat) : lateDropMoves.take (n + 7) = lateDropMoves :=
  List.take_of_length_le (Nat.le_add_left 7 n)

def lateDrop : Schedule where
  world n := (lateDropMoves.take n).foldl (fun w move => move w) .initial
  starts := rfl
  moves
    | 0 => .spawn _ 0 41 rfl fun j hj => by simp [lateDropMoves, initial, Phase.IsRunning] at hj
    | 1 => .register _ 0 rfl
    | 2 => .reap _ 0 rfl
    | 3 => .spawn _ 1 41 rfl fun j hj => by
      by_cases hzero : j = 0 <;>
        simp [lateDropMoves, spawnAs, enter, setPhase_phase, initial, Phase.IsRunning, hzero] at hj
    | 4 => .register _ 1 rfl
    | 5 => .drop _ 0 0 0 rfl (Nat.le_refl 0) (Nat.le_refl 0)
    | 6 => .tick _ 10
    | n + 7 => by
      rw [take_lateDropMoves, Nat.add_right_comm, take_lateDropMoves]
      exact .tick _ 0

/-- A diagnostic that is registered, and does not drop its record, is not told of. -/
theorem registered_diagnostic_untold :
    Registers (lateDrop.world 4) (lateDrop.world 5) 1 ∧ (∀ n, 5 ≤ n → (lateDrop.world n).phase 1 = .registered) ∧
      (lateDrop.world 7).now = 10 ∧ (lateDrop.world 7).pid 1 ∉ (lateDrop.world 7).registry.since 5 := by
  refine ⟨⟨by decide, by decide⟩, fun n hn => ?_, rfl, by decide⟩
  match n, hn with
  | 5, _ => rfl
  | 6, _ => rfl
  | n + 7, _ =>
    change (((lateDropMoves.take (n + 7)).foldl (fun w move => move w) initial).phase 1) = .registered
    rw [take_lateDropMoves]
    rfl

end ProcessProbe.Diagnostic.World
