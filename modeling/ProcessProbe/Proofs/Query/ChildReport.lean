import ProcessProbe.Proofs.Process.Evidence
import ProcessProbe.Proofs.Query.Subprocesses
import ProcessProbe.Proofs.Text.Lines

/-!
# What a list of children means

A question that gets as far as a report of `pgrep` is answered by the numbers on its lines: by whether one of them
counts as a live child when it is looked at. Main statement: this is so on every host, whatever looking at a number
changes, and every other report is a failure to parse it. Where it is a fact which numbers are passed over, the order of
the lines, repetitions and blanks do not matter, and passing over more numbers never finds a child.
-/

namespace ProcessProbe.Subprocesses

open Diagnostic (Policy Output)
open Report.ChildList (Names)
open Text (isBlank IsTextOf Rearranged)

variable {σ : Type} {host : Host σ} {s s' s'' : σ} {p : Policy} {procRoot : Path} {selectLive : Bool} {h : Handle}
  {o : Output} {diagnostics pids : List Nat} {pid : Nat}

/-! ## The report -/

/-- The numbers that a report lists: one on each line that is not blank, or none at all with status 1. -/
inductive Lists (o : Output) : List Nat → Prop where
  | found {pids : List Nat} (hwhole : o.truncated = false) (hexit : o.exit = some 0) (hne : pids ≠ [])
      (hlines : List.Forall₂ Names (Text.filled (Text.lines o.stdoutText)) pids) : Lists o pids
  | none (hwhole : o.truncated = false) (hexit : o.exit = some 1) (hblank : ∀ c ∈ o.stdoutText, isBlank c = true) :
      Lists o []

theorem listed_eq_ok_iff : listed o = .ok pids ↔ Lists o pids := by
  constructor
  · intro hlisted
    rw [listed] at hlisted
    split at hlisted
    · contradiction
    · rename_i hwhole
      split at hlisted
      · rename_i hexit
        split at hlisted
        · contradiction
        · contradiction
        · rename_i read hne hread
          obtain rfl := Except.ok.inj hlisted
          exact .found (by simpa using hwhole) hexit hne (Report.ChildList.ofText_eq_ok_iff.1 hread)
      · split at hlisted
        · rename_i hexit
          split at hlisted
          · rename_i hempty
            obtain rfl := Except.ok.inj hlisted
            exact .none (by simpa using hwhole) hexit (Text.trim_eq_nil_iff.1 (List.isEmpty_iff.1 hempty))
          · contradiction
        · contradiction
  · intro hlisted
    cases hlisted with
    | found hwhole hexit hne hlines =>
      have hread := Report.ChildList.ofText_eq_ok_iff.2 hlines
      cases pids with
      | nil => contradiction
      | cons pid pids => simp [listed, hwhole, hexit, hread]
    | none hwhole hexit hblank => simp [listed, hwhole, hexit, Text.trim_eq_nil_iff.2 hblank]

/-! ## The numbers on it -/

/-- The run state of a process that has ended: a zombie, or one that is gone. -/
def Ended (outcome : Except Failure (Option Char)) : Prop :=
  outcome = .ok (some zombie) ∨ ∃ pid, outcome = .error (.notFound pid)

/-- A number that is passed over in the state `s`, and the state that looking at it leaves: a diagnostic of the caller,
or a process that has ended, unless only live ones are listed. -/
inductive PassedOver (host : Host σ) (p : Policy) (procRoot : Path) (selectLive : Bool) (diagnostics : List Nat)
    (s : σ) (pid : Nat) : σ → Prop where
  | diagnostic (hmem : pid ∈ diagnostics) : PassedOver host p procRoot selectLive diagnostics s pid s
  | ended {child : Handle} {outcome : Except Failure (Option Char)} {s' : σ} (hmem : pid ∉ diagnostics)
      (hselect : selectLive = false) (hchild : child.pid = pid)
      (hrun : (Liveness.runState p procRoot child).outcome.run host s = (outcome, s')) (hended : Ended outcome) :
      PassedOver host p procRoot selectLive diagnostics s pid s'

/-- A number that counts as a live child in the state `s`. -/
structure Counts (host : Host σ) (p : Policy) (procRoot : Path) (selectLive : Bool) (diagnostics : List Nat) (s : σ)
    (pid : Nat) : Prop where
  spared : pid ∉ diagnostics
  live : selectLive = false → ∀ child : Handle, child.pid = pid →
    ¬Ended ((Liveness.runState p procRoot child).outcome.run host s).1

/-- The numbers are passed over one after the other. -/
inductive AllPassedOver (host : Host σ) (p : Policy) (procRoot : Path) (selectLive : Bool) (diagnostics : List Nat) :
    σ → List Nat → σ → Prop where
  | nil {s : σ} : AllPassedOver host p procRoot selectLive diagnostics s [] s
  | cons {s s' s'' : σ} {pid : Nat} {pids : List Nat}
      (first : PassedOver host p procRoot selectLive diagnostics s pid s')
      (rest : AllPassedOver host p procRoot selectLive diagnostics s' pids s'') :
      AllPassedOver host p procRoot selectLive diagnostics s (pid :: pids) s''

/-- One of the numbers counts as a live child when it is reached. -/
def FindsLive (host : Host σ) (p : Policy) (procRoot : Path) (selectLive : Bool) (diagnostics : List Nat) (s : σ)
    (pids : List Nat) : Prop :=
  ∃ before pid after s', pids = before ++ pid :: after ∧
    AllPassedOver host p procRoot selectLive diagnostics s before s' ∧
    Counts host p procRoot selectLive diagnostics s' pid

/-- What is asked about one listed number. -/
def lookAt (p : Policy) (procRoot : Path) (selectLive : Bool) (diagnostics : List Nat) (pid : Nat) : Inquiry Bool :=
  if diagnostics.contains pid then return false
  else if selectLive then return true
  else stillLive p procRoot pid

theorem run_stillLive_of_handle {child : Handle} {outcome : Except Failure (Option Char)}
    (hrun : (Liveness.runState p procRoot child).outcome.run host s = (outcome, s')) :
    ∃ live, (stillLive p procRoot child.pid).run host s = (live, s') ∧ (live = false ↔ Ended outcome) := by
  rw [stillLive, Handle.ofNat?_pid]
  simp only
  rw [Inquiry.run_bind, hrun]
  cases outcome with
  | ok state => exact ⟨_, rfl, by simp [Ended]⟩
  | error failure =>
    refine ⟨_, rfl, ?_⟩
    cases failure <;> simp [Ended, Failure.kind]

theorem PassedOver.run_eq (hpassed : PassedOver host p procRoot selectLive diagnostics s pid s') :
    (lookAt p procRoot selectLive diagnostics pid).run host s = (false, s') := by
  cases hpassed with
  | diagnostic hmem =>
    rw [lookAt, if_pos (List.contains_iff_mem.2 hmem)]
    rfl
  | ended hmem hselect hchild hrun hended =>
    subst hchild
    obtain ⟨live, hlive, hiff⟩ := run_stillLive_of_handle hrun
    rw [lookAt, if_neg (by simpa using hmem), hselect, if_neg (by simp), hlive, hiff.2 hended]

theorem Counts.run_eq (hcounts : Counts host p procRoot selectLive diagnostics s pid) :
    ((lookAt p procRoot selectLive diagnostics pid).run host s).1 = true := by
  rw [lookAt, if_neg (by simpa using hcounts.spared)]
  cases selectLive with
  | true => rfl
  | false =>
    rw [if_neg (by simp)]
    cases hchild : Handle.ofNat? pid with
    | none =>
      rw [stillLive, hchild]
      rfl
    | some child =>
      have hpid := Handle.ofNat?_eq_some_iff.1 hchild
      have hrun : (Liveness.runState p procRoot child).outcome.run host s = (_, _) := rfl
      obtain ⟨live, hlive, hiff⟩ := run_stillLive_of_handle hrun
      rw [← hpid, hlive]
      simpa using mt hiff.1 (hcounts.live rfl child hpid)

theorem counts_or_passedOver (host : Host σ) (p : Policy) (procRoot : Path) (selectLive : Bool)
    (diagnostics : List Nat) (s : σ) (pid : Nat) : Counts host p procRoot selectLive diagnostics s pid ∨
      ∃ s', PassedOver host p procRoot selectLive diagnostics s pid s' := by
  by_cases hmem : pid ∈ diagnostics
  · exact .inr ⟨s, .diagnostic hmem⟩
  · by_cases hended : selectLive = false ∧ ∃ child : Handle, child.pid = pid ∧
        Ended ((Liveness.runState p procRoot child).outcome.run host s).1
    · obtain ⟨hselect, child, hchild, hended⟩ := hended
      exact .inr ⟨_, .ended hmem hselect hchild rfl hended⟩
    · exact .inl ⟨hmem, fun hselect child hchild h => hended ⟨hselect, child, hchild, h⟩⟩

/-- A number that no handle has counts, since it has no run state. -/
theorem counts_of_max_lt (hmem : pid ∉ diagnostics) (hmax : Handle.max < pid) :
    Counts host p procRoot selectLive diagnostics s pid := by
  refine ⟨hmem, fun _ child hchild => ?_⟩
  have hle := child.pid_le
  omega

theorem ended_iff_foundGone : Ended ((Liveness.runState p procRoot h).outcome.run host s).1 ↔
    Liveness.FoundGone host p procRoot h s := by
  obtain ⟨e, hjudged⟩ := Liveness.exists_judged host p procRoot h s
  rw [hjudged.runState_eq, Liveness.FoundGone, Liveness.judged_iff, Liveness.judged_iff, hjudged.run_eq]
  cases e <;> simp [Liveness.Evidence.verdict, Ended]

theorem counts_iff_not_foundGone (hmem : h.pid ∉ diagnostics) :
    Counts host p procRoot false diagnostics s h.pid ↔ ¬Liveness.FoundGone host p procRoot h s := by
  rw [← ended_iff_foundGone]
  constructor
  · intro hcounts
    exact hcounts.live rfl h rfl
  · intro hlive
    refine ⟨hmem, fun _ child hchild => ?_⟩
    rwa [Handle.eq_of_pid_eq hchild]

theorem PassedOver.not_counts (hpassed : PassedOver host p procRoot selectLive diagnostics s pid s') :
    ¬Counts host p procRoot selectLive diagnostics s pid := by
  intro hcounts
  have hlive := hcounts.run_eq
  rw [hpassed.run_eq] at hlive
  contradiction

theorem Counts.findsLive (hcounts : Counts host p procRoot selectLive diagnostics s pid) :
    FindsLive host p procRoot selectLive diagnostics s (pid :: pids) :=
  ⟨[], pid, pids, s, rfl, .nil, hcounts⟩

theorem findsLive_cons_of_passedOver (hpassed : PassedOver host p procRoot selectLive diagnostics s pid s') :
    FindsLive host p procRoot selectLive diagnostics s (pid :: pids) ↔
      FindsLive host p procRoot selectLive diagnostics s' pids := by
  constructor
  · intro hfinds
    obtain ⟨before, found, after, t, hsplit, hbefore, hcounts⟩ := hfinds
    cases hbefore with
    | nil =>
      obtain ⟨rfl, -⟩ := List.cons.inj hsplit
      exact absurd hcounts hpassed.not_counts
    | cons first rest =>
      obtain ⟨rfl, hpids⟩ := List.cons.inj hsplit
      obtain ⟨-, rfl⟩ := Prod.mk.inj (hpassed.run_eq.symm.trans first.run_eq)
      exact ⟨_, found, after, t, hpids, rest, hcounts⟩
  · intro hfinds
    obtain ⟨before, found, after, t, rfl, hbefore, hcounts⟩ := hfinds
    exact ⟨pid :: before, found, after, t, rfl, .cons hpassed hbefore, hcounts⟩

theorem run_anyLive_iff : ((anyLive (lookAt p procRoot selectLive diagnostics) pids).run host s).1 = true ↔
    FindsLive host p procRoot selectLive diagnostics s pids := by
  induction pids generalizing s with
  | nil => simp [anyLive, FindsLive]
  | cons pid pids ih =>
    rw [anyLive, Inquiry.run_bind]
    cases counts_or_passedOver host p procRoot selectLive diagnostics s pid with
    | inl hcounts =>
      simp [hcounts.run_eq, hcounts.findsLive]
    | inr hpassed =>
      obtain ⟨s', hpassed⟩ := hpassed
      rw [hpassed.run_eq, findsLive_cons_of_passedOver hpassed, ← ih]
      rfl

/-! ## The answer -/

/-- A question that gets as far as a report: the process is live, and the run of `pgrep` gives an output. It goes on in
the state `s'`, with the diagnostics of the caller that have run by then. -/
inductive Reached (host : Host σ) (p : Policy) (procRoot : Path) (selectLive : Bool) (h : Handle) (s : σ) (o : Output)
    (diagnostics : List Nat) (s' : σ) : Prop where
  | intro {s₁ s₂ s₃ : σ} {since : Diagnostic.Instant}
      (hlive : (Liveness.ensureLive p procRoot h).outcome.run host s = (.ok (), s₁))
      (hclock : host.answer .clock s₁ = (since, s₂))
      (hrun : (p.run "pgrep" (Diagnostic.childrenArgs selectLive h) none).run host s₂ = (.ok o, s₃))
      (hspared : host.answer (.diagnosticsSince since) s₃ = (diagnostics, s'))

theorem Reached.run_eq (hreached : Reached host p procRoot selectLive h s o diagnostics s') :
    ((viaChildList p procRoot selectLive h).outcome.run host s).1 =
      (listed o).map fun pids => ((anyLive (lookAt p procRoot selectLive diagnostics) pids).run host s').1 := by
  obtain ⟨hlive, hclock, hrun, hspared⟩ := hreached
  rw [viaChildList, Query.outcome_bind, Inquiry.run_bind, hlive]
  simp only [Query.outcome_lift_bind, Inquiry.run_bind, Inquiry.run_clock, hclock, hrun,
    Inquiry.run_diagnosticsSince, hspared]
  cases listed o with
  | error failure => rfl
  | ok pids =>
    change ((anyLive (lookAt p procRoot selectLive diagnostics) pids >>=
      fun live => pure (Except.ok live)).run host s').1 = _
    rw [Inquiry.run_bind]
    rfl

theorem Reached.eq_ok_iff (hreached : Reached host p procRoot selectLive h s o diagnostics s') (live : Bool) :
    ((viaChildList p procRoot selectLive h).outcome.run host s).1 = .ok live ↔
      ∃ pids, Lists o pids ∧ (live = true ↔ FindsLive host p procRoot selectLive diagnostics s' pids) := by
  rw [hreached.run_eq]
  constructor
  · intro hok
    cases hlisted : listed o with
    | error failure => simp [hlisted, Except.map] at hok
    | ok pids =>
      rw [hlisted] at hok
      refine ⟨pids, listed_eq_ok_iff.1 hlisted, ?_⟩
      rw [← Except.ok.inj hok]
      exact run_anyLive_iff
  · intro hok
    obtain ⟨pids, hlisted, hlive⟩ := hok
    rw [listed_eq_ok_iff.2 hlisted, Except.map, Except.ok.injEq, Bool.eq_iff_iff, run_anyLive_iff, hlive]

theorem Reached.eq_parse (hreached : Reached host p procRoot selectLive h s o diagnostics s')
    (hnone : ∀ pids, ¬Lists o pids) :
    ∃ message, ((viaChildList p procRoot selectLive h).outcome.run host s).1 = .error (.parse "pgrep" message) := by
  rw [hreached.run_eq]
  cases hlisted : listed o with
  | error failure =>
    obtain ⟨message, rfl⟩ := parse_of_listed hlisted
    exact ⟨message, rfl⟩
  | ok pids => exact absurd (listed_eq_ok_iff.1 hlisted) (hnone pids)

/-! ## Where looking at a number changes nothing -/

/-- On the steady states of a host, it is a fact which numbers are passed over. -/
structure Facts (host : Host σ) (p : Policy) (procRoot : Path) (selectLive : Bool) (diagnostics : List Nat)
    (steady : σ → Prop) (passed : Nat → Prop) : Prop where
  keeps : host.Keeps steady
  passed_iff : ∀ s, steady s → ∀ pid,
    (∃ s', PassedOver host p procRoot selectLive diagnostics s pid s') ↔ passed pid

theorem Facts.findsLive_iff {steady : σ → Prop} {passed : Nat → Prop}
    (hfacts : Facts host p procRoot selectLive diagnostics steady passed) (hs : steady s) :
    FindsLive host p procRoot selectLive diagnostics s pids ↔ ∃ pid ∈ pids, ¬passed pid := by
  induction pids generalizing s with
  | nil => simp [FindsLive]
  | cons pid pids ih =>
    rw [List.exists_mem_cons_iff]
    cases counts_or_passedOver host p procRoot selectLive diagnostics s pid with
    | inl hcounts =>
      have hspared : ¬passed pid := by
        intro hpassed
        obtain ⟨s', hpassed⟩ := (hfacts.passed_iff s hs pid).2 hpassed
        exact hpassed.not_counts hcounts
      simp [hcounts.findsLive, hspared]
    | inr hpassed =>
      have hignored : passed pid := (hfacts.passed_iff s hs pid).1 hpassed
      obtain ⟨s', hpassed⟩ := hpassed
      have hs' : steady s' := by
        have hkept := Inquiry.run_keeps hfacts.keeps (lookAt p procRoot selectLive diagnostics pid) hs
        rwa [hpassed.run_eq] at hkept
      rw [findsLive_cons_of_passedOver hpassed, ih hs']
      simp [hignored]

/-- An answer to a question that got as far as the report `o`, on a host where the numbers that satisfy `passed` are
passed over. -/
inductive Told (o : Output) (passed : Nat → Prop) : Except Failure Bool → Prop where
  | intro {σ : Type} {host : Host σ} {p : Policy} {procRoot : Path} {selectLive : Bool} {h : Handle} {s s' : σ}
      {diagnostics : List Nat} {steady : σ → Prop}
      (hreached : Reached host p procRoot selectLive h s o diagnostics s')
      (hfacts : Facts host p procRoot selectLive diagnostics steady passed) (hs' : steady s') :
      Told o passed ((viaChildList p procRoot selectLive h).outcome.run host s).1

variable {passed passed' : Nat → Prop} {outcome outcome' : Except Failure Bool} {o' : Output}

open Classical in
theorem Told.eq_ok (htold : Told o passed outcome) (hlisted : Lists o pids) :
    outcome = .ok (decide (∃ pid ∈ pids, ¬passed pid)) := by
  obtain ⟨hreached, hfacts, hs'⟩ := htold
  refine (hreached.eq_ok_iff _).2 ⟨pids, hlisted, ?_⟩
  rw [hfacts.findsLive_iff hs', decide_eq_true_eq]

theorem Told.eq_parse (htold : Told o passed outcome) (hnone : ∀ pids, ¬Lists o pids) :
    ∃ message, outcome = .error (.parse "pgrep" message) := by
  obtain ⟨hreached, -, -⟩ := htold
  exact hreached.eq_parse hnone

/-- Two reports of the same status that differ in the order of their lines, in repetitions and in blanks. -/
structure SameReport (o o' : Output) : Prop where
  truncated_eq : o.truncated = o'.truncated
  exit_eq : o.exit = o'.exit
  lines : ∃ ls ls', IsTextOf ls o.stdoutText ∧ IsTextOf ls' o'.stdoutText ∧ Rearranged ls ls'

theorem SameReport.symm (hsame : SameReport o o') : SameReport o' o := by
  obtain ⟨ls, ls', htext, htext', hlines⟩ := hsame.lines
  exact ⟨hsame.truncated_eq.symm, hsame.exit_eq.symm, ls', ls, htext', htext, hlines.symm⟩

theorem SameReport.mem_filled_iff (hsame : SameReport o o') (line : List Char) :
    line ∈ Text.filled (Text.lines o.stdoutText) ↔ line ∈ Text.filled (Text.lines o'.stdoutText) := by
  obtain ⟨ls, ls', htext, htext', hlines⟩ := hsame.lines
  rw [htext.filled_lines, htext'.filled_lines]
  exact hlines.mem_filled_iff line

theorem SameReport.listed (hsame : SameReport o o') (hlisted : Lists o pids) :
    ∃ pids', Lists o' pids' ∧ ∀ pid, pid ∈ pids' ↔ pid ∈ pids := by
  cases hlisted with
  | found hwhole hexit hne hlines =>
    have hnames : ∀ line ∈ Text.filled (Text.lines o'.stdoutText), ∃ pid, Names line pid := by
      intro line hline
      exact Report.ChildList.exists_names_iff.1 ⟨pids, hlines⟩ line ((hsame.mem_filled_iff line).2 hline)
    obtain ⟨pids', hlines'⟩ := Report.ChildList.exists_names_iff.2 hnames
    have hmem (pid : Nat) : pid ∈ pids' ↔ pid ∈ pids := by
      rw [Report.ChildList.mem_iff_of_names hlines', Report.ChildList.mem_iff_of_names hlines]
      simp only [hsame.mem_filled_iff]
    have hne' : pids' ≠ [] := by
      obtain ⟨pid, hpid⟩ := List.exists_mem_of_ne_nil pids hne
      exact List.ne_nil_of_mem ((hmem pid).2 hpid)
    exact ⟨pids', .found (hsame.truncated_eq ▸ hwhole) (hsame.exit_eq ▸ hexit) hne' hlines', hmem⟩
  | none hwhole hexit hblank =>
    have hnil : Text.filled (Text.lines o'.stdoutText) = [] := by
      apply List.eq_nil_iff_forall_not_mem.2
      intro line hline
      rw [← hsame.mem_filled_iff, Text.filled_lines_eq_nil_iff.2 hblank] at hline
      contradiction
    have hblank' := Text.filled_lines_eq_nil_iff.1 hnil
    exact ⟨[], .none (hsame.truncated_eq ▸ hwhole) (hsame.exit_eq ▸ hexit) hblank', fun _ => Iff.rfl⟩

/-- Moving the lines about changes no answer, and passing over more numbers never finds a child. -/
theorem Told.mono (htold : Told o passed outcome) (htold' : Told o' passed' outcome') (hsame : SameReport o o')
    (hmore : ∀ pid, passed pid → passed' pid) :
    (∃ message message', outcome = .error (.parse "pgrep" message) ∧ outcome' = .error (.parse "pgrep" message')) ∨
      ∃ live live', outcome = .ok live ∧ outcome' = .ok live' ∧ (live' = true → live = true) ∧
        ((∀ pid, passed' pid → passed pid) → live = live') := by
  classical
  by_cases hlists : ∃ pids, Lists o pids
  · obtain ⟨pids, hlisted⟩ := hlists
    obtain ⟨pids', hlisted', hmem⟩ := hsame.listed hlisted
    refine .inr ⟨_, _, htold.eq_ok hlisted, htold'.eq_ok hlisted', ?_, ?_⟩
    · simp only [decide_eq_true_eq, hmem]
      intro hfinds
      obtain ⟨pid, hpid, hspared⟩ := hfinds
      exact ⟨pid, hpid, mt (hmore pid) hspared⟩
    · intro hless
      have hsame (pid : Nat) : passed pid ↔ passed' pid := ⟨hmore pid, hless pid⟩
      simp only [hmem, hsame]
  · have hnone : ∀ pids, ¬Lists o pids := not_exists.1 hlists
    have hnone' : ∀ pids, ¬Lists o' pids := by
      intro pids hlisted'
      obtain ⟨pids, hlisted, -⟩ := hsame.symm.listed hlisted'
      exact hnone pids hlisted
    obtain ⟨message, herror⟩ := htold.eq_parse hnone
    obtain ⟨message', herror'⟩ := htold'.eq_parse hnone'
    exact .inl ⟨message, message', herror, herror'⟩

/-- What a report of `pgrep` means. A truncated one is refused, status 1 without output is a confident no, and with
status 0 each line that is not blank has to be a positive number of 32 bits, of which there is at least one; the answer
is whether one of them counts as a live child when it is reached, as a number too large for a handle does. All else is a
failure to parse the report. So where it is a fact which numbers are passed over, lines may be put in another order,
repeated and padded, and blank ones put in; and passing over more numbers can only turn a yes into a no. -/
theorem child_report_means (hreached : Reached host p procRoot selectLive h s o diagnostics s')
    {outcome : Except Failure Bool} (houtcome : ((viaChildList p procRoot selectLive h).outcome.run host s).1 = outcome) :
    (o.truncated = true → outcome = .error (.parse "pgrep" "output truncated")) ∧
      (o.truncated = false → o.exit = some 1 → (∀ c ∈ o.stdoutText, isBlank c = true) → outcome = .ok false) ∧
      (o.truncated = false → o.exit = some 0 → ∀ live, outcome = .ok live ↔
        ∃ pids, pids ≠ [] ∧ List.Forall₂ Names (Text.filled (Text.lines o.stdoutText)) pids ∧
          (live = true ↔ FindsLive host p procRoot selectLive diagnostics s' pids)) ∧
      ((∀ pids, ¬Lists o pids) → ∃ message, outcome = .error (.parse "pgrep" message)) ∧
      (∀ t pid, pid ∉ diagnostics → Handle.max < pid → Counts host p procRoot selectLive diagnostics t pid) ∧
      ∀ o₁ o₂ passed₁ passed₂ outcome₁ outcome₂, Told o₁ passed₁ outcome₁ → Told o₂ passed₂ outcome₂ →
        SameReport o₁ o₂ → (∀ pid, passed₁ pid → passed₂ pid) →
        (∃ message₁ message₂, outcome₁ = .error (.parse "pgrep" message₁) ∧
          outcome₂ = .error (.parse "pgrep" message₂)) ∨
        ∃ live₁ live₂, outcome₁ = .ok live₁ ∧ outcome₂ = .ok live₂ ∧ (live₂ = true → live₁ = true) ∧
          ((∀ pid, passed₂ pid → passed₁ pid) → live₁ = live₂) := by
  subst houtcome
  refine ⟨?_, ?_, ?_, hreached.eq_parse, fun _ _ => counts_of_max_lt, ?_⟩
  · intro htruncated
    rw [hreached.run_eq, listed, if_pos htruncated]
    rfl
  · intro hwhole hexit hblank
    refine (hreached.eq_ok_iff false).2 ⟨[], .none hwhole hexit hblank, ?_⟩
    simp [FindsLive]
  · intro hwhole hexit live
    rw [hreached.eq_ok_iff]
    constructor
    · intro hok
      obtain ⟨pids, hlisted, hlive⟩ := hok
      cases hlisted with
      | found _ _ hne hlines => exact ⟨pids, hne, hlines, hlive⟩
      | none _ hexit' _ => simp [hexit] at hexit'
    · intro hok
      obtain ⟨pids, hne, hlines, hlive⟩ := hok
      exact ⟨pids, .found hwhole hexit hne hlines, hlive⟩
  · intro o₁ o₂ passed₁ passed₂ outcome₁ outcome₂ htold₁ htold₂ hsame hmore
    exact htold₁.mono htold₂ hsame hmore

/-- A host without a process file system, on which `pgrep` prints a text and 6 is a diagnostic of the caller. -/
def listingHost (text : List Char) : Host Unit where
  answer
    | .probe _, s => (.ok (), s)
    | .run invocation, s =>
      if invocation.command = "pgrep" then (.finished 9 (Utf8.encode text) [] false (some 0), s)
      else (.notStarted .noSuchEntry, s)
    | .diagnosticsSince _, s => ([(6 : Nat)], s)
    | request, s => Inspector.emptyHost.answer request s

def listing (text : List Char) : Output :=
  ⟨"pgrep", Diagnostic.childrenArgs false Snapshot.parent, 9, Utf8.encode text, [], some 0, false⟩

theorem stdoutText_listing (text : List Char) : (listing text).stdoutText = text := Utf8.decodeLossy_encode text

theorem judged_listingHost (text : List Char) (child : Handle) :
    Liveness.Judged (listingHost text) .default Settings.defaultProcRoot child () .undecided :=
  .report (.unmounted rfl rfl) (.notStarted (.inl rfl) rfl)

theorem reached_listingHost (text : List Char) :
    Reached (listingHost text) .default Settings.defaultProcRoot false Snapshot.parent () (listing text) [6] () := by
  have hkill : (listingHost text).answer (.probe Snapshot.parent.toInt) () = (.ok (), ()) := rfl
  have hlive := (judged_listingHost text Snapshot.parent).ensureLive_eq hkill (.inl rfl)
  have hrun : (Policy.default.run "pgrep" (listing text).args none).run (listingHost text) () =
      (.ok (listing text), ()) := by
    rw [listing, Diagnostic.run_of_allows (by decide) (.inl rfl) (Diagnostic.holdsZeroByte_childrenArgs _ _),
      Inquiry.run_map]
    rfl
  exact ⟨Prod.ext hlive rfl, rfl, hrun, rfl⟩

theorem counts_listingHost (text : List Char) {pid : Nat} (hpid : pid ≠ 6) :
    Counts (listingHost text) .default Settings.defaultProcRoot false [6] () pid := by
  refine ⟨by simpa using hpid, fun _ child _ => ?_⟩
  rw [(judged_listingHost text child).runState_eq]
  simp [Liveness.Evidence.verdict, Ended]

theorem facts_listingHost (text : List Char) :
    Facts (listingHost text) .default Settings.defaultProcRoot false [6] (fun _ => True) (· = 6) := by
  refine ⟨Host.keeps_any _, fun s _ pid => ?_⟩
  constructor
  · intro hpassed
    obtain ⟨s', hpassed⟩ := hpassed
    by_contra hpid
    exact hpassed.not_counts (counts_listingHost text hpid)
  · intro hpid
    exact ⟨(), .diagnostic (by simpa using hpid)⟩

theorem told_listingHost (text : List Char) : Told (listing text) (· = 6)
    ((viaChildList .default Settings.defaultProcRoot false Snapshot.parent).outcome.run (listingHost text) ()).1 :=
  .intro (reached_listingHost text) (facts_listingHost text) trivial

theorem rearranged_listing : SameReport (listing "+6\n7\n".toList) (listing "7 \n+6\n\n".toList) := by
  have hspace : ∀ c ∈ [' '], isBlank c = true := List.forall_mem_singleton.2 (by decide)
  have hswapped : Rearranged ["+6".toList, "7".toList] ["7".toList, "+6".toList] := .order (.swap _ _ _)
  have hpadded : Rearranged ["7".toList, "+6".toList] ["7 ".toList, "+6".toList] :=
    .pad "7".toList ["+6".toList] (List.forall_mem_nil _) hspace
  have hblank : Rearranged ["7 ".toList, "+6".toList] [[], "7 ".toList, "+6".toList] :=
    .blank _ (List.forall_mem_nil _)
  have hlast : Rearranged [[], "7 ".toList, "+6".toList] ["7 ".toList, "+6".toList, []] := .order (by decide)
  refine ⟨rfl, rfl, _, _, ?_, ?_, ((hswapped.trans hpadded).trans hblank).trans hlast⟩
  · rw [stdoutText_listing]
    exact ⟨by decide, .inl rfl⟩
  · rw [stdoutText_listing]
    exact ⟨by decide, .inl rfl⟩

/-- 7 counts beside the diagnostic 6, also when the lines change places, with a blank one at the end. -/
theorem child_report_means_listing :
    ((viaChildList .default Settings.defaultProcRoot false Snapshot.parent).outcome.run
        (listingHost "+6\n7\n".toList) ()).1 = .ok true ∧
      ((viaChildList .default Settings.defaultProcRoot false Snapshot.parent).outcome.run
        (listingHost "7 \n+6\n\n".toList) ()).1 = .ok true := by
  obtain ⟨-, -, hfound, -, -, hmoved⟩ := child_report_means (reached_listingHost "+6\n7\n".toList) rfl
  have hlines : List.Forall₂ Names (Text.filled (Text.lines (listing "+6\n7\n".toList).stdoutText)) [6, 7] := by
    have hfilled : Text.filled (Text.lines "+6\n7\n".toList) = ["+6".toList, "7".toList] := by decide
    rw [stdoutText_listing, hfilled]
    exact .cons (Report.ChildList.pid?_eq_some_iff.1 (by decide))
      (.cons (Report.ChildList.pid?_eq_some_iff.1 (by decide)) .nil)
  have hfinds : FindsLive (listingHost "+6\n7\n".toList) .default Settings.defaultProcRoot false [6] () [6, 7] :=
    ⟨[6], 7, [], (), rfl, .cons (.diagnostic (by decide)) .nil, counts_listingHost _ (by decide)⟩
  have htrue := (hfound rfl rfl true).2 ⟨[6, 7], by simp, hlines, fun _ => hfinds, fun _ => rfl⟩
  refine ⟨htrue, ?_⟩
  cases hmoved _ _ _ _ _ _ (told_listingHost _) (told_listingHost _) rearranged_listing fun _ h => h with
  | inl herror =>
    obtain ⟨message, -, herror, -⟩ := herror
    rw [htrue] at herror
    contradiction
  | inr hok =>
    obtain ⟨live, live', hlive, hlive', -, heq⟩ := hok
    rw [hlive', ← heq fun _ h => h, ← hlive, htrue]

end ProcessProbe.Subprocesses
