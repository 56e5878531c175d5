import ProcessProbe.Proofs.Diagnostic.Capture

/-!
# Reaping of diagnostics

A supervised diagnostic is a child that exits when it likes, or never unless it is killed. Polls and waits reap it when
it has exited. Main statement: however the child behaves and whatever its supervision meets, it is reaped once when the
supervision returns, it gets no signal after that, and its record is marked only then.
-/

namespace ProcessProbe.Diagnostic

inductive Child where
  | running
  | exited (status : Option Int)
  | reaped (status : Option Int)
  deriving Repr, DecidableEq

namespace Action

/-- The action finds that the child has exited, and takes its status. -/
def Reaps : Action → Prop
  | poll (.ended _) | wait => True
  | poll .running | poll (.failed _) | terminate | kill => False

end Action

namespace Child

def IsReaped (c : Child) : Prop := ∃ status, c = reaped status

theorem not_isReaped_running : ¬running.IsReaped := by simp [IsReaped]

theorem not_isReaped_exited (status : Option Int) : ¬(exited status).IsReaped := by simp [IsReaped]

/-- What an action finds and what it leaves. A signal does nothing by itself: a child that does not ignore it exits. The
status of a child that was reaped is known from then on. -/
inductive Meets : Child → Action → Child → Prop
  | running : Meets .running (.poll .running) .running
  | ended (status : Option Int) : Meets (.exited status) (.poll (.ended status)) (.reaped status)
  | known (status : Option Int) : Meets (.reaped status) (.poll (.ended status)) (.reaped status)
  | failed (c : Child) (error : SystemError) : Meets c (.poll (.failed error)) c
  | terminate (c : Child) : Meets c .terminate c
  | kill (c : Child) : Meets c .kill c
  | waited (status : Option Int) : Meets (.exited status) .wait (.reaped status)
  | waitedBefore (status : Option Int) : Meets (.reaped status) .wait (.reaped status)

/-- What actions find and leave, one after the other. The child may exit before any of them, or after the last one. -/
inductive Undergoes : Child → List Action → Child → Prop
  | nil (c : Child) : Undergoes c [] c
  | exit {actions : List Action} {c : Child} (status : Option Int) (h : Undergoes (.exited status) actions c) :
    Undergoes .running actions c
  | cons {a : Action} {actions : List Action} {c c' c'' : Child} (hmeets : Meets c a c')
      (h : Undergoes c' actions c'') :
    Undergoes c (a :: actions) c''

variable {a : Action} {actions before after : List Action} {c c' c'' : Child} {status : Option Int}

theorem Meets.eq_of_not_reaps (h : Meets c a c') (ha : ¬a.Reaps) : c' = c := by
  cases h with
  | running | failed _ _ | terminate _ | kill _ => rfl
  | ended _ | known _ | waited _ | waitedBefore _ => exact absurd trivial ha

theorem Meets.isReaped (h : Meets c a c') (ha : a.Reaps) : c'.IsReaped := by
  cases h with
  | running | failed _ _ | terminate _ | kill _ => exact ha.elim
  | ended status | known status | waited status | waitedBefore status => exact ⟨status, rfl⟩

theorem Meets.eq_of_ended (h : Meets c (.poll (.ended status)) c') : c' = .reaped status := by
  cases h with
  | ended _ | known _ => rfl

theorem Meets.eq_of_reaped (h : Meets (.reaped status) a c') : c' = .reaped status := by
  cases h with
  | known _ | failed _ _ | terminate _ | kill _ | waitedBefore _ => rfl

theorem Undergoes.append_iff :
    Undergoes c (before ++ after) c'' ↔ ∃ c', Undergoes c before c' ∧ Undergoes c' after c'' := by
  constructor
  · intro h
    generalize hactions : before ++ after = actions at h
    induction h generalizing before with
    | nil c =>
      obtain ⟨rfl, rfl⟩ := List.append_eq_nil_iff.1 hactions
      exact ⟨c, .nil c, .nil c⟩
    | exit status _ ih =>
      obtain ⟨c', hbefore, hafter⟩ := ih hactions
      exact ⟨c', .exit status hbefore, hafter⟩
    | @cons a actions c c₁ c'' hmeets hrest ih =>
      cases before with
      | nil =>
        obtain rfl : after = a :: actions := hactions
        exact ⟨c, .nil c, .cons hmeets hrest⟩
      | cons b before =>
        obtain ⟨rfl, htail⟩ := List.cons_eq_cons.1 hactions
        obtain ⟨c', hbefore, hafter⟩ := ih htail
        exact ⟨c', .cons hmeets hbefore, hafter⟩
  · rintro ⟨c', hbefore, hafter⟩
    induction hbefore with
    | nil c => exact hafter
    | exit status _ ih => exact .exit status (ih hafter)
    | cons hmeets _ ih => exact .cons hmeets (ih hafter)

theorem Undergoes.eq_of_reaped (h : Undergoes c actions c') (hc : c = .reaped status) : c' = .reaped status := by
  induction h with
  | nil _ => exact hc
  | exit _ _ _ => contradiction
  | cons hmeets _ ih =>
    subst hc
    exact ih hmeets.eq_of_reaped

theorem Undergoes.not_isReaped (h : Undergoes c actions c') (hc : ¬c.IsReaped) (hactions : ∀ a ∈ actions, ¬a.Reaps) :
    ¬c'.IsReaped := by
  induction h with
  | nil _ => exact hc
  | exit status _ ih => exact ih (not_isReaped_exited status) hactions
  | cons hmeets _ ih =>
    obtain rfl := hmeets.eq_of_not_reaps (hactions _ List.mem_cons_self)
    exact ih hc fun a ha => hactions a (List.mem_cons_of_mem _ ha)

/-- The last action meets the child as it is after its exit, if it exits before that. -/
theorem Undergoes.exists_meets (h : Undergoes c [a] c'') : ∃ c₁ c₂, Meets c₁ a c₂ ∧ Undergoes c₂ [] c'' := by
  generalize hactions : [a] = actions at h
  induction h with
  | nil _ => contradiction
  | exit _ _ ih => exact ih hactions
  | cons hmeets hrest _ =>
    obtain ⟨rfl, rfl⟩ := List.cons_eq_cons.1 hactions
    exact ⟨_, _, hmeets, hrest⟩

theorem Undergoes.isReaped (h : Undergoes c [a] c') (ha : a.Reaps) : c'.IsReaped := by
  obtain ⟨c₁, c₂, hmeets, hrest⟩ := h.exists_meets
  obtain ⟨status, rfl⟩ := hmeets.isReaped ha
  exact ⟨status, hrest.eq_of_reaped rfl⟩

theorem Undergoes.eq_of_ended (h : Undergoes c [.poll (.ended status)] c') : c' = .reaped status := by
  obtain ⟨c₁, c₂, hmeets, hrest⟩ := h.exists_meets
  exact hrest.eq_of_reaped hmeets.eq_of_ended

theorem exists_undergoes (hbefore : ∀ a ∈ before, ¬a.Reaps) (ha : a.Reaps) :
    ∃ c, Undergoes .running (before ++ [a]) c := by
  induction before with
  | nil =>
    cases a with
    | poll answer =>
      cases answer with
      | running | failed _ => exact ha.elim
      | ended status => exact ⟨.reaped status, .exit status (.cons (.ended status) (.nil _))⟩
    | terminate | kill => exact ha.elim
    | wait => exact ⟨.reaped none, .exit none (.cons (.waited none) (.nil _))⟩
  | cons b before ih =>
    obtain ⟨c, hc⟩ := ih fun b hb => hbefore b (List.mem_cons_of_mem _ hb)
    have hmeets : Meets .running b .running := by
      have hb := hbefore b List.mem_cons_self
      cases b with
      | poll answer =>
        cases answer with
        | running => exact .running
        | ended _ => exact absurd trivial hb
        | failed error => exact .failed _ error
      | terminate => exact .terminate _
      | kill => exact .kill _
      | wait => exact absurd trivial hb
    exact ⟨c, .cons hmeets hc⟩

end Child

/-! ## Supervised runs -/

/-- The last action reaps, and no other one does. If it waits for the child, that was killed before. -/
def ReapsLast (actions : List Action) : Prop :=
  ∃ before last, actions = before ++ [last] ∧ (∀ a ∈ before, ¬a.Reaps) ∧ last.Reaps ∧ (last = .wait → .kill ∈ before)

theorem ReapsLast.ended (exit : Option Int) : ReapsLast [.poll (.ended exit)] :=
  ⟨[], .poll (.ended exit), rfl, fun _ hmem => absurd hmem List.not_mem_nil, trivial, fun heq => Action.noConfusion heq⟩

theorem ReapsLast.killed : ReapsLast [.kill, .wait] :=
  ⟨[.kill], .wait, rfl, by simp [Action.Reaps], trivial, fun _ => List.mem_cons_self⟩

theorem ReapsLast.cons {a : Action} {actions : List Action} (ha : ¬a.Reaps) (h : ReapsLast actions) :
    ReapsLast (a :: actions) := by
  obtain ⟨before, last, rfl, hbefore, hlast, hkilled⟩ := h
  exact ⟨a :: before, last, rfl, List.forall_mem_cons.2 ⟨ha, hbefore⟩, hlast,
    fun hwait => List.mem_cons_of_mem a (hkilled hwait)⟩

theorem ReapsLast.append {first actions : List Action} (hfirst : ∀ a ∈ first, ¬a.Reaps) (h : ReapsLast actions) :
    ReapsLast (first ++ actions) := by
  induction first with
  | nil => exact h
  | cons a first ih =>
    obtain ⟨ha, hfirst⟩ := List.forall_mem_cons.1 hfirst
    exact (ih hfirst).cons ha

theorem ReapsLast.not_reaps {before after : List Action} {a : Action} (h : ReapsLast (before ++ a :: after)) :
    ∀ b ∈ before, ¬b.Reaps := by
  obtain ⟨front, last, hactions, hfront, -⟩ := h
  have hdrop := congrArg List.dropLast hactions
  rw [List.dropLast_append_cons, List.dropLast_concat] at hdrop
  exact fun b hb => hfront b (hdrop ▸ List.mem_append_left _ hb)

namespace Supervision

theorem graceActions_reapsLast (giveUp : Instant) (polls : List (Instant × Poll)) :
    ReapsLast (graceActions giveUp polls) := by
  fun_induction graceActions giveUp polls with
  | case1 | case2 => exact .killed
  | case3 now polls hearly ih => exact ih.cons (a := .poll .running) id
  | case4 now polls hearly exit => exact .ended exit
  | case5 now polls hearly error => exact ReapsLast.killed.cons (a := .poll (.failed error)) id

theorem endActions_reapsLast (now : Instant) (polls : List (Instant × Poll)) : ReapsLast (endActions now polls) :=
  (graceActions_reapsLast _ polls).cons id

variable {timeout : Duration} {limit : Nat} {deadline start : Instant} {final : Instant × List (Instant × Poll)}
  {round : Round} {rounds : List Round} {capture : Capture} {supervised : Supervised}
  {pipes : Except SystemError Unit}

/-- How a run ends in its last round. -/
inductive Concludes (timeout : Duration) (deadline : Instant) (final : Instant × List (Instant × Poll))
    (round : Round) : List Action → Ending → Prop
  | ended (exit : Option Int) (capture : Capture) (hpoll : round.poll = .ended exit) :
    Concludes timeout deadline final round [] (.completed capture exit)
  | failed (error : SystemError) (hpoll : round.poll = .failed error) :
    Concludes timeout deadline final round (endActions final.1 final.2) (.failed (.io error))
  | overdue (hpoll : round.poll = .running) (hlate : deadline ≤ round.now) :
    Concludes timeout deadline final round (endActions final.1 final.2) (.failed (.timeout timeout))

/-- A run watches the child while it is running and the deadline has not come, and then concludes. -/
theorem exists_of_watch (h : watch timeout deadline final capture rounds = some supervised) :
    ∃ watched round rest actions, rounds = watched ++ round :: rest ∧
      (∀ r ∈ watched, r.poll = .running ∧ r.now < deadline) ∧
      supervised.actions = watched.map (fun r => .poll r.poll) ++ .poll round.poll :: actions ∧
      Concludes timeout deadline final round actions supervised.ending := by
  induction rounds generalizing capture supervised with
  | nil => contradiction
  | cons round rounds ih =>
    rw [watch] at h
    obtain ⟨⟨next, got⟩, hpump, h⟩ := Option.bind_eq_some_iff.1 h
    have hnone : ∀ r ∈ ([] : List Round), r.poll = .running ∧ r.now < deadline := by simp
    cases hpoll : round.poll with
    | ended exit =>
      rw [hpoll] at h
      obtain ⟨⟨last, got'⟩, hlast, h⟩ := Option.bind_eq_some_iff.1 h
      obtain rfl := Option.some.inj h
      exact ⟨[], round, rounds, [], rfl, hnone, by simp [hpoll], .ended exit last hpoll⟩
    | failed error =>
      rw [hpoll] at h
      obtain rfl := Option.some.inj h
      exact ⟨[], round, rounds, _, rfl, hnone, by simp [hpoll], .failed error hpoll⟩
    | running =>
      rw [hpoll] at h
      simp only at h
      split at h
      next hlate =>
        obtain rfl := Option.some.inj h
        exact ⟨[], round, rounds, _, rfl, hnone, by simp [hpoll], .overdue hpoll hlate⟩
      next hearly =>
        obtain ⟨later, hwatch, h⟩ := Option.bind_eq_some_iff.1 h
        obtain rfl := Option.some.inj h
        obtain ⟨watched, last, rest, actions, rfl, hwatched, hactions, hconcludes⟩ := ih hwatch
        refine ⟨round :: watched, last, rest, actions, rfl, ?_, ?_, hconcludes⟩
        · exact List.forall_mem_cons.2 ⟨⟨hpoll, Nat.lt_of_not_le hearly⟩, hwatched⟩
        · simp [hpoll, hactions]

theorem reapsLast_of_watch (h : watch timeout deadline final capture rounds = some supervised) :
    ReapsLast supervised.actions := by
  obtain ⟨watched, round, rest, actions, -, hwatched, hactions, hconcludes⟩ := exists_of_watch h
  rw [hactions]
  generalize supervised.ending = ending at hconcludes
  refine .append (fun a ha => ?_) ?_
  · obtain ⟨r, hr, rfl⟩ := List.mem_map.1 ha
    simp [(hwatched r hr).1, Action.Reaps]
  · cases hconcludes with
    | ended exit _ hpoll => exact hpoll ▸ .ended exit
    | failed error hpoll => exact (endActions_reapsLast _ _).cons (by simp [hpoll, Action.Reaps])
    | overdue hpoll _ => exact (endActions_reapsLast _ _).cons (by simp [hpoll, Action.Reaps])

/-- Either the pipes cannot be prepared, and the child is ended at once, or it is watched. -/
theorem cases_of_run (hdeadline : deadline? start timeout = some deadline)
    (h : run timeout limit start pipes rounds final = some supervised) :
    (∃ error, supervised = ⟨endActions final.1 final.2, .failed (.io error)⟩) ∨
      watch timeout deadline final (Capture.empty limit) rounds = some supervised := by
  cases pipes with
  | error error => exact .inl ⟨error, (Option.some.inj h).symm⟩
  | ok _ =>
    rw [run, hdeadline] at h
    exact .inr h

theorem reapsLast_of_run (hdeadline : deadline? start timeout = some deadline)
    (h : run timeout limit start pipes rounds final = some supervised) : ReapsLast supervised.actions := by
  obtain ⟨error, rfl⟩ | hwatch := cases_of_run hdeadline h
  · exact endActions_reapsLast _ _
  · exact reapsLast_of_watch hwatch

theorem ending_of_run (hdeadline : deadline? start timeout = some deadline)
    (h : run timeout limit start pipes rounds final = some supervised) :
    (∃ capture exit, supervised.ending = .completed capture exit) ∨
      supervised.ending = .failed (.timeout timeout) ∨ ∃ error, supervised.ending = .failed (.io error) := by
  obtain ⟨error, rfl⟩ | hwatch := cases_of_run hdeadline h
  · exact .inr (.inr ⟨error, rfl⟩)
  · obtain ⟨watched, round, rest, actions, -, -, -, hconcludes⟩ := exists_of_watch hwatch
    generalize supervised.ending = ending at hconcludes ⊢
    cases hconcludes with
    | ended exit capture _ => exact .inl ⟨capture, exit, rfl⟩
    | failed error _ => exact .inr (.inr ⟨error, rfl⟩)
    | overdue _ _ => exact .inr (.inl rfl)

theorem overdue_of_run (hdeadline : deadline? start timeout = some deadline)
    (h : run timeout limit start pipes rounds final = some supervised)
    (hending : supervised.ending = .failed (.timeout timeout)) :
    ∃ watched round rest, rounds = watched ++ round :: rest ∧ (∀ r ∈ watched ++ [round], r.poll = .running) ∧
      deadline ≤ round.now ∧ (watched ++ [round]).map (fun r => .poll r.poll) <+: supervised.actions := by
  obtain ⟨error, rfl⟩ | hwatch := cases_of_run hdeadline h
  · simp at hending
  · obtain ⟨watched, round, rest, actions, hrounds, hwatched, hactions, hconcludes⟩ := exists_of_watch hwatch
    rw [hending] at hconcludes
    cases hconcludes with
    | overdue hpoll hlate =>
      refine ⟨watched, round, rest, hrounds, ?_, hlate, endActions final.1 final.2, ?_⟩
      · exact List.forall_mem_append.2 ⟨fun r hr => (hwatched r hr).1, List.forall_mem_singleton.2 hpoll⟩
      · simp [hactions]

theorem eq_of_completed (hdeadline : deadline? start timeout = some deadline) {exit : Option Int} {child : Child}
    (h : run timeout limit start pipes rounds final = some supervised)
    (hending : supervised.ending = .completed capture exit)
    (hchild : Child.Undergoes .running supervised.actions child) : child = .reaped exit := by
  obtain ⟨error, rfl⟩ | hwatch := cases_of_run hdeadline h
  · simp at hending
  · obtain ⟨watched, round, rest, actions, -, -, hactions, hconcludes⟩ := exists_of_watch hwatch
    rw [hending] at hconcludes
    cases hconcludes with
    | ended _ _ hpoll =>
      rw [hactions, hpoll] at hchild
      obtain ⟨c, -, hc⟩ := Child.Undergoes.append_iff.1 hchild
      exact hc.eq_of_ended

theorem exists_watch_running_iff (hpoll : round.poll = .running) :
    (∃ s, watch timeout deadline final capture (round :: rounds) = some s) ↔
      ∃ next, capture.pump round.stdout round.stderr = some next ∧
        (deadline ≤ round.now ∨ ∃ s, watch timeout deadline final next.1 rounds = some s) := by
  rw [watch, hpoll]
  cases hpump : capture.pump round.stdout round.stderr with
  | none => simp
  | some next =>
    by_cases hlate : deadline ≤ round.now
    · simp [hlate]
    · cases hwatch : watch timeout deadline final next.1 rounds <;> simp [hlate, hwatch]

/-- Watching comes to an end if all readings do and there is a round that is the last one. -/
theorem exists_watch_eq (hends : ∀ x ∈ pumpings rounds, x.Ends)
    (hlast : ∃ round ∈ rounds, round.poll ≠ .running ∨ deadline ≤ round.now) :
    ∃ s, watch timeout deadline final capture rounds = some s := by
  induction rounds generalizing capture with
  | nil =>
    obtain ⟨round, hround, -⟩ := hlast
    exact absurd hround List.not_mem_nil
  | cons round rounds ih =>
    rw [pumpings, List.forall_mem_cons] at hends
    obtain ⟨next, hpump⟩ : ∃ next, capture.pump round.stdout round.stderr = some next :=
      Capture.exists_pump_iff.2 hends.1
    cases hpoll : round.poll with
    | ended exit =>
      rw [hpoll] at hends
      obtain ⟨last, hpump'⟩ : ∃ last, next.1.pump round.lastStdout round.lastStderr = some last :=
        Capture.exists_pump_iff.2 (hends.2 _ List.mem_cons_self)
      simp [watch, hpump, hpoll, hpump']
    | failed error => simp [watch, hpump, hpoll]
    | running =>
      rw [hpoll] at hends
      refine (exists_watch_running_iff hpoll).2 ⟨next, hpump, ?_⟩
      by_cases hlate : deadline ≤ round.now
      · exact .inl hlate
      · have hrest : ∃ r ∈ rounds, r.poll ≠ .running ∨ deadline ≤ r.now := by
          simpa [hpoll, hlate] using hlast
        exact .inr (ih hends.2 hrest)

end Supervision

/-! ## What becomes of the child -/

def Deed.action? : Deed → Option Action
  | act action => some action
  | register | mark => none

namespace Supervised

/-- There is a child that behaves as it was found to do, and however it did, it was reaped once, by a poll or by waiting
for it when it was killed. Nothing, not even a signal, was done to it after that, and its record was marked last. -/
structure LeavesReaped (s : Supervised) : Prop where
  possible : ∃ child, Child.Undergoes .running s.actions child
  reaped : ∀ child, Child.Undergoes .running s.actions child → child.IsReaped
  once : ReapsLast s.actions
  unreaped : ∀ before a after, s.actions = before ++ a :: after →
    ∀ child, Child.Undergoes .running before child → ¬child.IsReaped
  marked : ∀ before after, s.deeds = before ++ .mark :: after →
    ∀ child, Child.Undergoes .running (before.filterMap Deed.action?) child → child.IsReaped

theorem filterMap_of_deeds_eq {s : Supervised} {before after : List Deed} (h : s.deeds = before ++ .mark :: after) :
    before.filterMap Deed.action? = s.actions := by
  have hfront : .register :: s.actions.map .act = before ++ (.mark :: after).dropLast := by
    have hlast := congrArg List.dropLast h
    rwa [deeds, ← List.cons_append, List.dropLast_concat, List.dropLast_append_cons] at hlast
  cases after with
  | nil =>
    obtain rfl : .register :: s.actions.map .act = before := by simpa using hfront
    simp [List.filterMap_cons, Deed.action?, Function.comp_def]
  | cons d after =>
    have hmark : Deed.mark ∈ .register :: s.actions.map .act := by simp [hfront]
    simp at hmark

theorem leavesReaped {s : Supervised} (h : ReapsLast s.actions) : s.LeavesReaped := by
  have hreaped : ∀ child, Child.Undergoes .running s.actions child → child.IsReaped := by
    obtain ⟨before, last, hactions, -, hlast, -⟩ := h
    intro child hchild
    rw [hactions] at hchild
    obtain ⟨c, -, hc⟩ := Child.Undergoes.append_iff.1 hchild
    exact hc.isReaped hlast
  refine ⟨?_, hreaped, h, fun before a after hsplit child hchild => ?_, fun before after hsplit child hchild => ?_⟩
  · obtain ⟨before, last, hactions, hbefore, hlast, -⟩ := h
    rw [hactions]
    exact Child.exists_undergoes hbefore hlast
  · rw [hsplit] at h
    exact hchild.not_isReaped Child.not_isReaped_running h.not_reaps
  · rw [filterMap_of_deeds_eq hsplit] at hchild
    exact hreaped child hchild

end Supervised

/-- If the clock can show the deadline, no run leaves an unreaped child. When all reading ends, and some round finds
that the child has ended or cannot be asked, or comes at the deadline, the run returns. Whenever it returns, in
whichever way, the child is reaped and its record is not marked before that; it times out only if the deadline came
while the child was found running, and completes only with the status that the child exited with. -/
theorem child_reaped_on_return {timeout : Duration} {limit : Nat} {start deadline : Instant}
    {pipes : Except SystemError Unit} {rounds : List Round} {final : Instant × List (Instant × Poll)}
    (hdeadline : Supervision.deadline? start timeout = some deadline) :
    ((∀ x ∈ Supervision.pumpings rounds, x.Ends) →
      (∃ round ∈ rounds, round.poll ≠ .running ∨ deadline ≤ round.now) →
      ∃ s, Supervision.run timeout limit start pipes rounds final = some s) ∧
    ∀ s, Supervision.run timeout limit start pipes rounds final = some s →
      s.LeavesReaped ∧
      ((∃ capture exit, s.ending = .completed capture exit) ∨ s.ending = .failed (.timeout timeout) ∨
        ∃ error, s.ending = .failed (.io error)) ∧
      (s.ending = .failed (.timeout timeout) →
        ∃ watched round rest, rounds = watched ++ round :: rest ∧ (∀ r ∈ watched ++ [round], r.poll = .running) ∧
          deadline ≤ round.now ∧ (watched ++ [round]).map (fun r => .poll r.poll) <+: s.actions) ∧
      ∀ capture exit, s.ending = .completed capture exit →
        ∀ child, Child.Undergoes .running s.actions child → child = .reaped exit := by
  refine ⟨fun hends hlast => ?_, fun s hs => ⟨?_, ?_, ?_, fun capture exit hending child hchild => ?_⟩⟩
  · cases pipes with
    | error error => exact ⟨_, rfl⟩
    | ok _ =>
      rw [Supervision.run, hdeadline]
      exact Supervision.exists_watch_eq hends hlast
  · exact Supervised.leavesReaped (Supervision.reapsLast_of_run hdeadline hs)
  · exact Supervision.ending_of_run hdeadline hs
  · exact Supervision.overdue_of_run hdeadline hs
  · exact Supervision.eq_of_completed hdeadline hs hending hchild

/-- The child prints, is found running at the deadline, and does not end when it is asked to. -/
def overstayed : List Round :=
  [⟨[.data [97, 98], .stopped], [.stopped], .running, 600000000, [], []⟩,
    ⟨[.stopped], [.interrupted, .data [99], .stopped], .running, 1000000000, [], []⟩]

theorem child_reaped_on_return_overstayed :
    Supervision.deadline? 0 ⟨1000000000⟩ = some 1000000000 ∧ (∀ x ∈ Supervision.pumpings overstayed, x.Ends) ∧
      (∃ round ∈ overstayed, round.poll ≠ .running ∨ 1000000000 ≤ round.now) ∧
      ∃ s, Supervision.run ⟨1000000000⟩ 3 0 (.ok ()) overstayed (1000000000, [(1400000000, .running)]) = some s ∧
        s.actions = [.poll .running, .poll .running, .terminate, .poll .running, .kill, .wait] ∧
        s.ending = .failed (.timeout ⟨1000000000⟩) ∧ s.LeavesReaped ∧
        ∃ watched round rest, overstayed = watched ++ round :: rest ∧ (∀ r ∈ watched ++ [round], r.poll = .running) ∧
          1000000000 ≤ round.now ∧ (watched ++ [round]).map (fun r => .poll r.poll) <+: s.actions := by
  have hdeadline : Supervision.deadline? 0 ⟨1000000000⟩ = some 1000000000 := by decide
  have hends : ∀ x ∈ Supervision.pumpings overstayed, x.Ends := by decide
  have hlast : ∃ round ∈ overstayed, round.poll ≠ .running ∨ 1000000000 ≤ round.now := by decide
  obtain ⟨hreturns, hreturned⟩ :=
    @child_reaped_on_return _ 3 _ _ (.ok ()) _ (1000000000, [(1400000000, .running)]) hdeadline
  obtain ⟨s, hs⟩ := hreturns hends hlast
  obtain ⟨hleaves, -, hoverdue, -⟩ := hreturned s hs
  obtain rfl := Option.some.inj hs
  exact ⟨hdeadline, hends, hlast, _, hs, rfl, rfl, hleaves, hoverdue rfl⟩

end ProcessProbe.Diagnostic
