import ProcessProbe.Proofs.Diagnostic.Reaping

/-!
# Reading without an end

A reading goes on for as long as there is data, and the clock is compared with the deadline only between readings. Main
statement: a run of a diagnostic that never exits times out just when each reading until its deadline meets a read
without data. One that writes as fast as it is read is never left.
-/

namespace ProcessProbe.Diagnostic

/-- The reading ends there: the stream has ended, or has no data now, or cannot be read. -/
def ReadResult.IsLast (r : ReadResult) : Prop := r = endOfStream ∨ r = stopped

/-- The first ones of results that have no end. -/
def firstReads (results : Nat → ReadResult) (n : Nat) : List ReadResult := (List.range n).map results

theorem endsReading_firstReads {results : Nat → ReadResult} {n : Nat} :
    EndsReading (firstReads results n) ↔ ∃ i < n, (results i).IsLast := by
  simp only [EndsReading, firstReads, List.mem_map, List.mem_range, ReadResult.IsLast, ← exists_or, ← and_or_left]

theorem Stream.exists_drain_iff {limit : Nat} {s : Stream} {got : Bool} {results : Nat → ReadResult} :
    (∃ n, (s.drain limit got (firstReads results n)).isSome = true) ↔ ∃ i, (results i).IsLast := by
  simp only [isSome_drain_iff, endsReading_firstReads]
  constructor
  · rintro ⟨n, i, -, hi⟩
    exact ⟨i, hi⟩
  · rintro ⟨i, hi⟩
    exact ⟨i + 1, i, Nat.lt_succ_self i, hi⟩

/-! ## Diagnostics that never exit -/

/-- What every reading of the two streams meets, as far as it goes on, and the time after it. -/
structure Endless where
  stdout : Nat → Nat → ReadResult
  stderr : Nat → Nat → ReadResult
  now : Nat → Instant

namespace Endless

/-- All but the first reading. -/
def later (u : Endless) : Endless :=
  ⟨fun k => u.stdout (k + 1), fun k => u.stderr (k + 1), fun k => u.now (k + 1)⟩

def round (u : Endless) (reads : Nat → Nat) (k : Nat) : Round :=
  ⟨firstReads (u.stdout k) (reads k), firstReads (u.stderr k) (reads k), .running, u.now k, [], []⟩

/-- Some rounds, and of each reading in them as many results as `reads` says. -/
def rounds (u : Endless) (reads : Nat → Nat) (n : Nat) : List Round := (List.range n).map (u.round reads)

def EndsWithin (u : Endless) (k n : Nat) : Prop := (∃ i < n, (u.stdout k i).IsLast) ∧ ∃ i < n, (u.stderr k i).IsLast

def Ends (u : Endless) (k : Nat) : Prop := (∃ i, (u.stdout k i).IsLast) ∧ ∃ i, (u.stderr k i).IsLast

variable {u : Endless} {reads : Nat → Nat} {n k last : Nat} {c : Capture} {timeout : Duration} {limit : Nat}
  {start deadline : Instant} {final : Instant × List (Instant × Poll)} {supervised : Supervised}

theorem rounds_succ : u.rounds reads (n + 1) = u.round reads 0 :: u.later.rounds (fun k => reads (k + 1)) n := by
  rw [rounds, List.range_succ_eq_map, List.map_cons, List.map_map]
  rfl

theorem ends_iff : u.Ends k ↔ ∃ n, u.EndsWithin k n := by
  constructor
  · rintro ⟨⟨i, hi⟩, j, hj⟩
    exact ⟨max i j + 1, ⟨i, by omega, hi⟩, j, by omega, hj⟩
  · rintro ⟨n, ⟨i, -, hi⟩, j, -, hj⟩
    exact ⟨⟨i, hi⟩, j, hj⟩

theorem exists_reads_iff :
    (∃ (reads : Nat → Nat) (n : Nat), last < n ∧ ∀ k ≤ last, u.EndsWithin k (reads k)) ↔ ∀ k ≤ last, u.Ends k := by
  constructor
  · rintro ⟨reads, n, -, hends⟩ k hk
    exact ends_iff.2 ⟨reads k, hends k hk⟩
  · intro hends
    have hwithin : ∀ k, ∃ m, k ≤ last → u.EndsWithin k m := by
      intro k
      by_cases hk : k ≤ last
      · obtain ⟨m, hm⟩ := ends_iff.1 (hends k hk)
        exact ⟨m, fun _ => hm⟩
      · exact ⟨0, fun hle => absurd hle hk⟩
    obtain ⟨reads, hreads⟩ := Classical.axiomOfChoice hwithin
    exact ⟨reads, last + 1, Nat.lt_succ_self last, hreads⟩

theorem exists_pump_round_iff :
    (∃ next, c.pump (u.round reads k).stdout (u.round reads k).stderr = some next) ↔ u.EndsWithin k (reads k) := by
  rw [Capture.exists_pump_iff, round, endsReading_firstReads, endsReading_firstReads, EndsWithin]

/-- The run ends in the round in which the deadline comes, if it gets there. -/
theorem exists_watch_iff (hlate : deadline ≤ u.now last) (hearly : ∀ k < last, u.now k < deadline) :
    (∃ s, Supervision.watch timeout deadline final c (u.rounds reads n) = some s) ↔
      last < n ∧ ∀ k ≤ last, u.EndsWithin k (reads k) := by
  induction last generalizing u c reads n with
  | zero =>
    cases n with
    | zero => simp [rounds, Supervision.watch]
    | succ n =>
      rw [rounds_succ, Supervision.exists_watch_running_iff rfl]
      constructor
      · rintro ⟨next, hpump, -⟩
        refine ⟨Nat.succ_pos n, fun k hk => ?_⟩
        obtain rfl := Nat.le_zero.1 hk
        exact exists_pump_round_iff.1 ⟨next, hpump⟩
      · rintro ⟨-, hends⟩
        obtain ⟨next, hpump⟩ := exists_pump_round_iff.2 (hends 0 (Nat.le_refl 0))
        exact ⟨next, hpump, .inl hlate⟩
  | succ last ih =>
    cases n with
    | zero => simp [rounds, Supervision.watch]
    | succ n =>
      have hlater (next : Capture) :
          (∃ s, Supervision.watch timeout deadline final next (u.later.rounds (fun k => reads (k + 1)) n) = some s) ↔
            last < n ∧ ∀ k ≤ last, u.later.EndsWithin k (reads (k + 1)) :=
        ih hlate fun k hk => hearly (k + 1) (Nat.succ_lt_succ hk)
      rw [rounds_succ, Supervision.exists_watch_running_iff rfl]
      constructor
      · rintro ⟨next, hpump, hrest⟩
        have hwatch := hrest.resolve_left (Nat.not_le.2 (hearly 0 (Nat.succ_pos last)))
        obtain ⟨hlast, hends⟩ := (hlater next.1).1 hwatch
        refine ⟨Nat.succ_lt_succ hlast, fun k hk => ?_⟩
        cases k with
        | zero => exact exists_pump_round_iff.1 ⟨next, hpump⟩
        | succ k => exact hends k (Nat.le_of_succ_le_succ hk)
      · rintro ⟨hlast, hends⟩
        obtain ⟨next, hpump⟩ := exists_pump_round_iff.2 (hends 0 (Nat.zero_le _))
        have hrest : ∀ k ≤ last, u.later.EndsWithin k (reads (k + 1)) :=
          fun k hk => hends (k + 1) (Nat.succ_le_succ hk)
        exact ⟨next, hpump, .inr ((hlater next.1).2 ⟨Nat.lt_of_succ_lt_succ hlast, hrest⟩)⟩

theorem exists_run_iff (hdeadline : Supervision.deadline? start timeout = some deadline) (hlate : deadline ≤ u.now last)
    (hearly : ∀ k < last, u.now k < deadline) :
    (∃ s, Supervision.run timeout limit start (.ok ()) (u.rounds reads n) final = some s) ↔
      last < n ∧ ∀ k ≤ last, u.EndsWithin k (reads k) := by
  rw [Supervision.run, hdeadline]
  exact exists_watch_iff hlate hearly

theorem ending_of_run (hdeadline : Supervision.deadline? start timeout = some deadline)
    (h : Supervision.run timeout limit start (.ok ()) (u.rounds reads n) final = some supervised) :
    supervised.ending = .failed (.timeout timeout) := by
  rw [Supervision.run, hdeadline] at h
  obtain ⟨watched, round, rest, actions, hrounds, -, -, hconcludes⟩ := Supervision.exists_of_watch h
  have hrunning : round.poll = .running := by
    have hmem : round ∈ u.rounds reads n := hrounds ▸ List.mem_append_right watched List.mem_cons_self
    obtain ⟨k, -, rfl⟩ := List.mem_map.1 hmem
    rfl
  generalize supervised.ending = ending at hconcludes
  cases hconcludes with
  | ended exit capture hpoll => simp [hrunning] at hpoll
  | failed error hpoll => simp [hrunning] at hpoll
  | overdue _ _ => rfl

end Endless

/-- A reading comes to an end just when it meets a read without data. For a diagnostic that never exits, and whose
deadline has come in some round and not before, the run ends just when each reading until then does, and it ends with a
timeout. -/
theorem overstaying_run_ends_iff {timeout : Duration} {start deadline : Instant} {u : Endless} {last : Nat}
    (hdeadline : Supervision.deadline? start timeout = some deadline) (hlate : deadline ≤ u.now last)
    (hearly : ∀ k < last, u.now k < deadline) :
    (∀ limit (s : Stream) got (results : Nat → ReadResult),
      (∃ n, (s.drain limit got (firstReads results n)).isSome = true) ↔ ∃ i, (results i).IsLast) ∧
    ∀ limit final,
      ((∃ reads n s, Supervision.run timeout limit start (.ok ()) (u.rounds reads n) final = some s) ↔
        ∀ k ≤ last, u.Ends k) ∧
      ∀ reads n s, Supervision.run timeout limit start (.ok ()) (u.rounds reads n) final = some s →
        s.ending = .failed (.timeout timeout) := by
  refine ⟨fun _ _ _ _ => Stream.exists_drain_iff, fun limit final => ⟨?_, fun _ _ _ => Endless.ending_of_run hdeadline⟩⟩
  simp only [Endless.exists_run_iff hdeadline hlate hearly]
  exact Endless.exists_reads_iff

/-- Each reading meets some data and then none, and the deadline comes in the third round. -/
def talkative : Endless :=
  ⟨fun _ i => if i = 0 then .data [121, 10] else .stopped, fun _ _ => .stopped, fun k => (k + 1) * 400000000⟩

theorem overstaying_run_ends_iff_talkative :
    Supervision.deadline? 0 ⟨1000000000⟩ = some 1000000000 ∧ 1000000000 ≤ talkative.now 2 ∧
      (∀ k < 2, talkative.now k < 1000000000) ∧ (∀ k ≤ 2, talkative.Ends k) ∧
      ∃ reads n s, Supervision.run ⟨1000000000⟩ 3 0 (.ok ()) (talkative.rounds reads n) (1000000000, []) = some s ∧
        s.ending = .failed (.timeout ⟨1000000000⟩) := by
  have hdeadline : Supervision.deadline? 0 ⟨1000000000⟩ = some 1000000000 := by decide
  have hlate : 1000000000 ≤ talkative.now 2 := by decide
  have hearly : ∀ k < 2, talkative.now k < 1000000000 := by decide
  have hends : ∀ k ≤ 2, talkative.Ends k := fun _ _ => ⟨⟨1, .inr rfl⟩, 0, .inr rfl⟩
  obtain ⟨hiff, htimeout⟩ := (overstaying_run_ends_iff hdeadline hlate hearly).2 3 (1000000000, [])
  obtain ⟨reads, n, s, hs⟩ := hiff.2 hends
  exact ⟨hdeadline, hlate, hearly, hends, reads, n, s, hs, htimeout reads n s hs⟩

/-- The output is ready at every read. -/
def ceaseless : Endless := ⟨fun _ _ => .data [121, 10], fun _ _ => .stopped, fun k => (k + 1) * 1000000000⟩

/-- The first reading never returns, so the run does not end although its deadline comes in the first round. -/
theorem ceaseless_output_read_forever :
    (∀ n, Stream.empty.drain 3 false (firstReads (ceaseless.stdout 0) n) = none) ∧
      Supervision.deadline? 0 ⟨1000000000⟩ = some 1000000000 ∧ 1000000000 ≤ ceaseless.now 0 ∧
      ∀ reads n final,
        Supervision.run ⟨1000000000⟩ 3 0 (.ok ()) (ceaseless.rounds reads n) final = none := by
  have hdata (i : Nat) : ¬(ceaseless.stdout 0 i).IsLast := by simp [ceaseless, ReadResult.IsLast]
  have hdeadline : Supervision.deadline? 0 ⟨1000000000⟩ = some 1000000000 := by decide
  have hlate : 1000000000 ≤ ceaseless.now 0 := by decide
  refine ⟨fun n => ?_, hdeadline, hlate, fun reads n final => ?_⟩
  · rw [← Option.not_isSome_iff_eq_none, Stream.isSome_drain_iff, endsReading_firstReads]
    rintro ⟨i, -, hi⟩
    exact hdata i hi
  · rw [← Option.not_isSome_iff_eq_none, Option.isSome_iff_exists,
      Endless.exists_run_iff hdeadline hlate fun k hk => absurd hk (Nat.not_lt_zero k)]
    rintro ⟨-, hends⟩
    obtain ⟨⟨i, -, hi⟩, -⟩ := hends 0 (Nat.le_refl 0)
    exact hdata i hi

end ProcessProbe.Diagnostic
