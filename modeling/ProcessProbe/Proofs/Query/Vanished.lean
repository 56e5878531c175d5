import ProcessProbe.Proofs.Query.ChildReport

/-!
# Processes that vanish while they are looked at

The stat record of a process that ends may be missing, or reading it may fail because there is no such process. The walk
through the process file system takes both for a process that has vanished. Main statement: the other checks take a
missing record for that, but leave the other failure to `ps`, so that such a process counts as live where `ps` is not at
hand.
-/

namespace ProcessProbe.Subprocesses

open Diagnostic (Policy Output)
open Liveness (Evidence Recorded Reported Judged Reaches entry runState ensureLive)

variable {σ : Type} {host : Host σ} {s s' : σ} {p : Policy} {procRoot : Path} {h : Handle} {error : SystemError}
  {diagnostics pids before : List Nat} {selectLive : Bool} {o : Output} {pid : Nat}

/-- What is made of a process whose record was read with an error: a missing record shows that it is gone, and `ps` may
say that it is gone or a zombie. -/
def GivenUp (host : Host σ) (p : Policy) (h : Handle) (error : SystemError) (s : σ) : Prop :=
  error = .noSuchEntry ∨ Reported host p h s .gone ∨ Reported host p h s (.state zombie)

/-! ## One list of children -/

theorem findsLive_append (hbefore : AllPassedOver host p procRoot selectLive diagnostics s before s') :
    FindsLive host p procRoot selectLive diagnostics s (before ++ pids) ↔
      FindsLive host p procRoot selectLive diagnostics s' pids := by
  induction hbefore with
  | nil => rfl
  | cons first _ ih => rw [List.cons_append, findsLive_cons_of_passedOver first, ih]

theorem findsLive_singleton_iff : FindsLive host p procRoot selectLive diagnostics s [pid] ↔
    Counts host p procRoot selectLive diagnostics s pid := by
  constructor
  · intro hfinds
    cases counts_or_passedOver host p procRoot selectLive diagnostics s pid with
    | inl hcounts => exact hcounts
    | inr hpassed =>
      obtain ⟨s', hpassed⟩ := hpassed
      rw [findsLive_cons_of_passedOver hpassed] at hfinds
      simp [FindsLive] at hfinds
  · exact Counts.findsLive

theorem Reached.eq_ok_iff_of_last {parent : Handle} {s₁ s₂ : σ} {live : Bool}
    (hreached : Reached host p procRoot selectLive parent s o diagnostics s₁) (hlisted : Lists o (before ++ [pid]))
    (hbefore : AllPassedOver host p procRoot selectLive diagnostics s₁ before s₂) :
    ((viaChildList p procRoot selectLive parent).outcome.run host s).1 = .ok live ↔
      (live = true ↔ Counts host p procRoot selectLive diagnostics s₂ pid) := by
  rw [hreached.eq_ok_iff, ← findsLive_singleton_iff, ← findsLive_append hbefore]
  constructor
  · intro hok
    obtain ⟨pids, hlisted', hlive⟩ := hok
    obtain rfl := Except.ok.inj ((listed_eq_ok_iff.2 hlisted').symm.trans (listed_eq_ok_iff.2 hlisted))
    exact hlive
  · intro hlive
    exact ⟨_, hlisted, hlive⟩

/-! ## The record that vanishes -/

section Vanished

variable (hread : host.answer (.readFile (entry procRoot h.pid "stat")) s = (.error error, s'))
  (hself : (host.answer (.isPresent (procRoot.join (.ofString "self"))) s').1 = true)
  (hvanished : error = .noSuchEntry ∨ error = .noSuchProcess)

include hread hself hvanished

theorem judged_of_vanished {e : Evidence} : Judged host p procRoot h s e ↔
    error = .noSuchEntry ∧ e = .gone ∨ error = .noSuchProcess ∧ Reported host p h s' e := by
  cases hvanished with
  | inl hmissing =>
    subst hmissing
    have hgone : Judged host p procRoot h s .gone := .record (.missing hread (Prod.ext hself rfl)) (by simp)
    rw [Liveness.judged_iff, hgone.run_eq]
    simp [SystemError.noSuchEntry, SystemError.noSuchProcess, eq_comm]
  | inr hnone =>
    subst hnone
    have hrecord : Recorded host procRoot h s .undecided s' := .unreadable hread (by decide)
    have hother : SystemError.noSuchProcess ≠ .noSuchEntry := by decide
    simp only [hother, false_and, true_and, false_or]
    constructor
    · intro hjudged
      obtain ⟨e₀, hreport⟩ := Liveness.exists_reported host p h s'
      have hsame : e = e₀ := hjudged.run_eq.symm.trans (Judged.report hrecord hreport).run_eq
      exact hsame ▸ hreport
    · exact Judged.report hrecord

theorem foundGone_of_vanished : Liveness.FoundGone host p procRoot h s ↔ GivenUp host p h error s' := by
  rw [Liveness.FoundGone, judged_of_vanished hread hself hvanished, judged_of_vanished hread hself hvanished, GivenUp]
  cases hvanished with
  | inl hmissing => simp [hmissing, SystemError.noSuchEntry, SystemError.noSuchProcess]
  | inr hnone => simp [hnone, SystemError.noSuchEntry, SystemError.noSuchProcess]

/-- When a process that has vanished is given up. It is just when its record was missing, or `ps` has the same to say:
for any other record, what is answered rests on `ps`, and without it the process is live and counts as a child. -/
theorem vanished_given_up_iff :
    (((runState p procRoot h).outcome.run host s).1 = .error (.notFound h.pid) ↔
        error = .noSuchEntry ∨ Reported host p h s' .gone) ∧
      (∀ s₀ kill, host.answer (.probe h.toInt) s₀ = (kill, s) → Reaches kill →
        (((ensureLive p procRoot h).outcome.run host s₀).1 = .error (.notFound h.pid) ↔
          GivenUp host p h error s')) ∧
      (∀ diagnostics, h.pid ∉ diagnostics →
        (Counts host p procRoot false diagnostics s h.pid ↔ ¬GivenUp host p h error s')) ∧
      ∀ parent s₀ o diagnostics s₁ before, Reached host p procRoot false parent s₀ o diagnostics s₁ →
        Lists o (before ++ [h.pid]) → AllPassedOver host p procRoot false diagnostics s₁ before s →
        h.pid ∉ diagnostics → ∀ live, ((viaChildList p procRoot false parent).outcome.run host s₀).1 = .ok live ↔
          (live = true ↔ ¬GivenUp host p h error s') := by
  have hfound : Liveness.FoundGone host p procRoot h s ↔ GivenUp host p h error s' :=
    foundGone_of_vanished hread hself hvanished
  have hcounts {diagnostics : List Nat} (hmem : h.pid ∉ diagnostics) :
      Counts host p procRoot false diagnostics s h.pid ↔ ¬GivenUp host p h error s' := by
    rw [counts_iff_not_foundGone hmem, hfound]
  refine ⟨?_, ?_, fun _ => hcounts, ?_⟩
  · rw [Liveness.runState_eq_notFound_iff, judged_of_vanished hread hself hvanished]
    cases hvanished with
    | inl hmissing => simp [hmissing]
    | inr hnone => simp [hnone, SystemError.noSuchEntry, SystemError.noSuchProcess]
  · intro s₀ kill hkill hreaches
    rw [Liveness.ensureLive_eq_notFound_iff hkill hreaches, hfound]
  · intro parent s₀ o diagnostics s₁ before hreached hlisted hbefore hmem live
    rw [hreached.eq_ok_iff_of_last hlisted hbefore, hcounts hmem]

end Vanished

/-- A host on which 5 has a record and a child 6, and reading any other record fails because there is no such process.
There is no `ps`. -/
def vanishingHost : Host Unit where
  answer
    | .probe _, s => (.ok (), s)
    | .readFile path, s =>
      if path = entry Settings.defaultProcRoot Snapshot.parent.pid "stat" then (.ok (Utf8.encode "5 (sh) S 1".toList), s)
      else (.error .noSuchProcess, s)
    | .isPresent _, s => (true, s)
    | .run invocation, s =>
      if invocation.command = "pgrep" then (.finished 9 (Utf8.encode "6\n".toList) [] false (some 0), s)
      else (.notStarted .noSuchEntry, s)
    | request, s => Inspector.emptyHost.answer request s

theorem answer_readFile_vanishingHost (path : Path) : vanishingHost.answer (.readFile path) () =
    if path = entry Settings.defaultProcRoot Snapshot.parent.pid "stat" then (.ok (Utf8.encode "5 (sh) S 1".toList), ())
    else (.error .noSuchProcess, ()) := rfl

theorem read_child_vanishingHost :
    vanishingHost.answer (.readFile (entry Settings.defaultProcRoot Snapshot.child.pid "stat")) () =
      (.error .noSuchProcess, ()) := by
  rw [answer_readFile_vanishingHost, if_neg]
  intro hsame
  exact absurd (Liveness.entry_injective (by decide) hsame) (by decide)

theorem judged_parent_vanishingHost :
    Judged vanishingHost .default Settings.defaultProcRoot Snapshot.parent () (.state 'S') := by
  have hread : vanishingHost.answer (.readFile (entry Settings.defaultProcRoot Snapshot.parent.pid "stat")) () =
      (.ok (Utf8.encode "5 (sh) S 1".toList), ()) := by
    rw [answer_readFile_vanishingHost, if_pos rfl]
  have hrecord : Report.StatRecord.ofText "5 (sh) S 1".toList = .ok ⟨5, "sh".toList, 'S', 1⟩ := by decide
  exact .record (.state hread hrecord) (by simp)

theorem reached_vanishingHost :
    Reached vanishingHost .default Settings.defaultProcRoot false Snapshot.parent () (listing "6\n".toList) [] () := by
  have hkill : vanishingHost.answer (.probe Snapshot.parent.toInt) () = (.ok (), ()) := rfl
  have hlive := judged_parent_vanishingHost.ensureLive_eq hkill (.inl rfl)
  rw [if_neg (by decide)] at hlive
  have hrun : (Policy.default.run "pgrep" (Diagnostic.childrenArgs false Snapshot.parent) none).run vanishingHost () =
      (.ok (listing "6\n".toList), ()) := by
    rw [Diagnostic.run_of_allows (by decide) (.inl rfl) (Diagnostic.holdsZeroByte_childrenArgs _ _), Inquiry.run_map]
    rfl
  exact ⟨Prod.ext hlive rfl, rfl, hrun, rfl⟩

theorem listed_vanishingHost : Lists (listing "6\n".toList) [Snapshot.child.pid] := by
  have hfilled : Text.filled (Text.lines "6\n".toList) = ["6".toList] := by decide
  refine .found rfl rfl (by simp) ?_
  rw [stdoutText_listing, hfilled]
  exact .cons (Report.ChildList.pid?_eq_some_iff.1 (by decide)) .nil

theorem not_reported_vanishingHost {e : Evidence} (he : e ≠ .undecided) :
    ¬Reported vanishingHost .default Snapshot.child () e := by
  intro hreported
  have hmissing : Reported vanishingHost .default Snapshot.child () .undecided := .notStarted (.inl rfl) rfl
  exact he (hreported.run_eq.symm.trans hmissing.run_eq)

/-- 6 vanishes and is given up by neither check, and it still counts as a child of 5. -/
theorem vanished_given_up_vanishing :
    ((runState .default Settings.defaultProcRoot Snapshot.child).outcome.run vanishingHost ()).1 ≠
        .error (.notFound 6) ∧
      ((ensureLive .default Settings.defaultProcRoot Snapshot.child).outcome.run vanishingHost ()).1 ≠
        .error (.notFound 6) ∧
      ((viaChildList .default Settings.defaultProcRoot false Snapshot.parent).outcome.run vanishingHost ()).1 =
        .ok true := by
  have hgone : ¬Reported vanishingHost .default Snapshot.child () .gone := not_reported_vanishingHost (by decide)
  have hzombie : ¬Reported vanishingHost .default Snapshot.child () (.state zombie) :=
    not_reported_vanishingHost (by decide)
  have hother : SystemError.noSuchProcess ≠ .noSuchEntry := by decide
  have hkept : ¬GivenUp vanishingHost .default Snapshot.child .noSuchProcess () := by
    simp [GivenUp, hgone, hzombie, hother]
  obtain ⟨hstate, hlive, -, hchild⟩ := vanished_given_up_iff (p := .default) read_child_vanishingHost rfl (.inr rfl)
  refine ⟨fun hnone => ?_, fun hnone => ?_, ?_⟩
  · exact absurd (hstate.1 hnone) (by simp [hgone, hother])
  · exact hkept ((hlive () (.ok ()) rfl (.inl rfl)).1 hnone)
  · refine (hchild Snapshot.parent () _ [] () [] reached_vanishingHost listed_vanishingHost .nil (by decide) true).2 ?_
    simp [hkept]

/-- Vanishing is no evidence there: the run state is unknown, the process is live, and it is a live child. -/
theorem vanished_counted_as_live :
    vanishingHost.answer (.readFile (entry Settings.defaultProcRoot Snapshot.child.pid "stat")) () =
        (.error .noSuchProcess, ()) ∧
      (vanishingHost.answer (.isPresent (Settings.defaultProcRoot.join (.ofString "self"))) ()).1 = true ∧
      ((runState .default Settings.defaultProcRoot Snapshot.child).outcome.run vanishingHost ()).1 = .ok none ∧
      ((ensureLive .default Settings.defaultProcRoot Snapshot.child).outcome.run vanishingHost ()).1 = .ok () ∧
      ((viaChildList .default Settings.defaultProcRoot false Snapshot.parent).outcome.run vanishingHost ()).1 =
        .ok true := by
  have hother : SystemError.noSuchProcess ≠ .noSuchEntry := by decide
  have hjudged : Judged vanishingHost .default Settings.defaultProcRoot Snapshot.child () .undecided :=
    .report (.unreadable read_child_vanishingHost hother) (.notStarted (.inl rfl) rfl)
  have hkill : vanishingHost.answer (.probe Snapshot.child.toInt) () = (.ok (), ()) := rfl
  have hcounts : Counts vanishingHost .default Settings.defaultProcRoot false [] () Snapshot.child.pid := by
    rw [counts_iff_not_foundGone (by decide), ← ended_iff_foundGone, hjudged.runState_eq]
    simp [Evidence.verdict, Ended]
  refine ⟨read_child_vanishingHost, rfl, hjudged.runState_eq, hjudged.ensureLive_eq hkill (.inl rfl), ?_⟩
  exact (reached_vanishingHost.eq_ok_iff_of_last listed_vanishingHost .nil).2 (by simp [hcounts])

end ProcessProbe.Subprocesses
