import ProcessProbe.Proofs.Diagnostic.Policy
import ProcessProbe.Proofs.Diagnostic.Reaping
import ProcessProbe.Proofs.Settings.Document

/-!
# Deadlines that the clock cannot show

The deadline of a diagnostic is computed after the diagnostic is started. Main statement: a diagnostic with its pipes
ready is abandoned just when the clock cannot show its deadline. With a timeout from an environment, a command line or a
document it can, unless it is within 2⁶⁴ milliseconds of its end. With the longest timeout of a caller it never can.
-/

namespace ProcessProbe

/-- The longest time that a caller can give, in seconds of 64 bits and a part of a second. -/
def Duration.longest : Duration := ⟨Text.maxU64 * 1000000000 + 999999999⟩

namespace Settings

variable {s : Settings}

/-- Settings that come from outside of the program. -/
inductive Supplied (s : Settings) : Prop
  | entered (h : s.Entered)
  | read {text : String} (h : ofText? text = some s)

theorem Supplied.exists_millis (h : s.Supplied) : ∃ ms ≤ Text.maxU64, s.toolTimeout = .ofMillis ms := by
  cases h with
  | entered h =>
    obtain ⟨ms, -, hms, htimeout⟩ := h.isUsable.timeout
    exact ⟨ms, hms, htimeout⟩
  | read h => exact exists_of_ofText? h

theorem Supplied.nanoseconds_le (h : s.Supplied) : s.toolTimeout.nanoseconds ≤ Text.maxU64 * 1000000 := by
  obtain ⟨ms, hms, htimeout⟩ := h.exists_millis
  rw [htimeout]
  exact Nat.mul_le_mul_right _ hms

end Settings

namespace Diagnostic

/-- The child is left to itself: it gets no signal, and nothing waits for it. Its record is marked as if it was reaped.
-/
structure Supervised.Abandons (s : Supervised) : Prop where
  ending : s.ending = .noDeadline
  untouched : s.actions = []
  unreaped : ∀ child, Child.Undergoes .running s.actions child → ¬child.IsReaped
  deeds : s.deeds = [.register, .mark]

theorem Supervised.abandons_of_noDeadline : Supervised.Abandons ⟨[], .noDeadline⟩ where
  ending := rfl
  untouched := rfl
  unreaped child hchild := hchild.not_isReaped Child.not_isReaped_running (by simp)
  deeds := rfl

namespace Supervision

variable {timeout : Duration} {limit : Nat} {now : Instant} {pipes : Except SystemError Unit} {rounds : List Round}
  {final : Instant × List (Instant × Poll)} {supervised : Supervised}

theorem deadline?_eq_none_iff : deadline? now timeout = none ↔ lastInstant < now + timeout.nanoseconds := by
  simp [deadline?]

/-- The longest timeout is past the end of the clock, whenever it starts. -/
theorem deadline?_longest (now : Instant) : deadline? now .longest = none := by
  rw [deadline?_eq_none_iff]
  exact Nat.lt_of_lt_of_le (by decide : lastInstant < Duration.longest.nanoseconds) (Nat.le_add_left _ now)

theorem run_of_no_deadline (h : deadline? now timeout = none) :
    run timeout limit now (.ok ()) rounds final = some ⟨[], .noDeadline⟩ := by
  rw [run, h]

theorem leavesReaped_of_deadline (hdeadline : now + timeout.nanoseconds ≤ lastInstant)
    (h : run timeout limit now pipes rounds final = some supervised) : supervised.LeavesReaped := by
  have hsome : deadline? now timeout = some (now + timeout.nanoseconds) := by simp [deadline?, hdeadline]
  exact Supervised.leavesReaped (reapsLast_of_run hsome h)

theorem leavesReaped_of_error {error : SystemError}
    (h : run timeout limit now (.error error) rounds final = some supervised) :
    supervised.LeavesReaped ∧ supervised.ending = .failed (.io error) := by
  obtain rfl := Option.some.inj h
  exact ⟨Supervised.leavesReaped (endActions_reapsLast _ _), rfl⟩

theorem abandons_or_leavesReaped (h : run timeout limit now pipes rounds final = some supervised) :
    supervised.Abandons ∨ supervised.LeavesReaped := by
  cases hdeadline : deadline? now timeout with
  | some deadline => exact .inr (Supervised.leavesReaped (reapsLast_of_run hdeadline h))
  | none =>
    cases pipes with
    | error error => exact .inr (leavesReaped_of_error h).1
    | ok _ =>
      rw [run_of_no_deadline hdeadline] at h
      exact .inl (Option.some.inj h ▸ Supervised.abandons_of_noDeadline)

theorem exists_abandons_iff : (∃ r, run timeout limit now pipes rounds final = some r ∧ r.Abandons) ↔
    pipes = .ok () ∧ lastInstant < now + timeout.nanoseconds := by
  rw [← deadline?_eq_none_iff]
  constructor
  · intro h
    obtain ⟨r, hr, habandons⟩ := h
    cases pipes with
    | error error =>
      have hending := (leavesReaped_of_error hr).2
      simp [habandons.ending] at hending
    | ok _ =>
      cases hdeadline : deadline? now timeout with
      | none => simp
      | some deadline =>
        have hending := ending_of_run hdeadline hr
        simp [habandons.ending] at hending
  · intro h
    obtain ⟨rfl, hdeadline⟩ := h
    exact ⟨_, run_of_no_deadline hdeadline, Supervised.abandons_of_noDeadline⟩

end Supervision

/-- A diagnostic is run with the timeout of the settings. It is abandoned just when its pipes are ready and the clock
cannot show its deadline, and it is reaped otherwise. It is reaped with settings from outside of the program, unless the
clock is near its end. -/
theorem started_diagnostic_abandoned_iff (s : Settings) (now : Instant) (pipes : Except SystemError Unit)
    (rounds : List Round) (final : Instant × List (Instant × Poll)) :
    (∀ tool ∈ tools, ∀ args, Policy.holdsZeroByte tool args = false →
      s.policy.run tool args none =
        Policy.outcome tool args <$> Inquiry.start ⟨tool, args, s.toolTimeout, s.maxOutputBytes⟩) ∧
    (∀ r, Supervision.run s.toolTimeout s.maxOutputBytes now pipes rounds final = some r →
      r.Abandons ∨ r.LeavesReaped) ∧
    ((∃ r, Supervision.run s.toolTimeout s.maxOutputBytes now pipes rounds final = some r ∧ r.Abandons) ↔
      pipes = .ok () ∧ Supervision.lastInstant < now + s.toolTimeout.nanoseconds) ∧
    (s.Supplied → now + Text.maxU64 * 1000000 ≤ Supervision.lastInstant →
      ∀ r, Supervision.run s.toolTimeout s.maxOutputBytes now pipes rounds final = some r → r.LeavesReaped) := by
  refine ⟨?_, ?_, Supervision.exists_abandons_iff, ?_⟩
  · intro tool htool args hargs
    exact run_policy s htool hargs
  · intro r hr
    exact Supervision.abandons_or_leavesReaped hr
  · intro hs hnow r hr
    have hdeadline : now + s.toolTimeout.nanoseconds ≤ Supervision.lastInstant := by
      calc now + s.toolTimeout.nanoseconds ≤ now + Text.maxU64 * 1000000 := Nat.add_le_add_left hs.nanoseconds_le now
        _ ≤ Supervision.lastInstant := hnow
    exact Supervision.leavesReaped_of_deadline hdeadline hr

/-- The child has printed nothing, and has exited when it is first asked. -/
def prompt : List Round := [⟨[.stopped], [.stopped], .ended (some 0), 1000, [.endOfStream], [.endOfStream]⟩]

theorem started_diagnostic_abandoned_iff_longest :
    ∃ s, Settings.ofEnvironment Settings.longestLookup = .ok s ∧
      ∃ r, Supervision.run s.toolTimeout s.maxOutputBytes 0 (.ok ()) prompt (0, []) = some r ∧ r.LeavesReaped := by
  have hgiven : Settings.ofEnvironment Settings.longestLookup =
      .ok ⟨.ofMillis Text.maxU64, 10 * 1024 * 1024, Settings.defaultProcRoot⟩ := by
    decide
  obtain ⟨-, -, -, hsupplied⟩ := started_diagnostic_abandoned_iff _ 0 (.ok ()) prompt (0, [])
  exact ⟨_, hgiven, _, rfl, hsupplied (.entered (.environment hgiven)) (by decide) _ rfl⟩

/-- With the longest timeout that a caller can give, the clock cannot show a deadline even at its start. A child that
exits at once is abandoned too. -/
theorem longest_timeout_abandons :
    Supervision.deadline? 0 Duration.longest = none ∧
      ∃ r, Supervision.run { Settings.default with toolTimeout := .longest }.policy.timeout 4096 0 (.ok ()) prompt
        (0, []) = some r ∧ r.Abandons := by
  have hdeadline := Supervision.deadline?_longest 0
  exact ⟨hdeadline, _, Supervision.run_of_no_deadline hdeadline, Supervised.abandons_of_noDeadline⟩

end Diagnostic

end ProcessProbe
