import Mathlib.Data.List.Basic
import Mathlib.Data.List.Forall2
import ProcessProbe.Proofs.Query.Order
import ProcessProbe.Proofs.Query.Reported
import ProcessProbe.Query.Inspector

/-!
# The inspector's orders

The inspector tries its strategies in the order of the platform, and it can report the outcome of each of them. On a
host that does not change the two belong together.
-/

namespace ProcessProbe

variable {S α σ : Type}

namespace Query

/-- The outcome is the entry of the first strategy of the order that has one which does not give way, or else the
entry of the last strategy. -/
def DecidedBy [BEq S] (order : List S) (entries : List (S × Except Failure α)) (outcome : Except Failure α) : Prop :=
  ∃ before x after, order = before ++ x :: after ∧ entries.lookup x = some outcome ∧
    (∀ y ∈ before, ∃ earlier, entries.lookup y = some earlier ∧ givesWay earlier = true) ∧
    (givesWay outcome = true → after = [])

variable {host : Host σ} {steady : σ → Prop} {name : S → String} {h : Handle} {gate : S → Except Failure Unit}
  {attempt : S → Query α} {behind : S → Except Failure α}

theorem tryOrder_decidedBy [BEq S] [LawfulBEq S] (hkeeps : host.Keeps steady)
    (hattempt : ∀ x, ComesTo host steady (attempt x) (· = behind x))
    (hgate : ∀ x failure, gate x = .error failure → failure.mayFallBack = true) {order all : List S}
    (hne : order ≠ []) (hall : ∀ x ∈ order, x ∈ all) :
    ComesTo host steady (tryOrder name h gate attempt order)
      (DecidedBy order (all.map fun x => (x, entryOf gate behind x))) := by
  intro s hs
  have hlaw := runsInOrder name h gate attempt hne hgate host s
  have hentry (t : Turn S α) (ht : t ∈ turns name h gate attempt host order s) :
      (all.map fun x => (x, entryOf gate behind x)).lookup t.strategy = some t.outcome := by
    have hmem : t.strategy ∈ order := by
      rw [← hlaw.strategies]
      exact List.mem_map_of_mem ht
    rw [List.lookup_graph _ (hall _ hmem), outcome_of_mem_turns hkeeps hattempt order hs t ht]
  have hsplit {before after : List (Turn S α)} {t : Turn S α}
      (hturns : turns name h gate attempt host order s = before ++ t :: after) :
      order = before.map (·.strategy) ++ t.strategy :: after.map (·.strategy) := by
    rw [← hlaw.strategies, hturns, List.map_append, List.map_cons]
  cases hfirst : (turns name h gate attempt host order s).find? (!givesWay ·.outcome) with
  | none =>
    have hway : ∀ t ∈ turns name h gate attempt host order s, givesWay t.outcome = true := by
      simpa using List.find?_eq_none.1 hfirst
    obtain ⟨before, t, failure, entry, hturns, houtcome, -, hresult, -⟩ := hlaw.exhausted hway
    rw [hresult, ← houtcome]
    refine ⟨_, t.strategy, [], hsplit hturns, hentry t (by simp [hturns]), fun y hy => ?_, fun _ => rfl⟩
    obtain ⟨u, hu, rfl⟩ := List.mem_map.1 hy
    have hmem : u ∈ turns name h gate attempt host order s := by simp [hturns, hu]
    exact ⟨u.outcome, hentry u hmem, hway u hmem⟩
  | some t =>
    obtain ⟨hsettled, before, after, hturns, hbefore⟩ := List.find?_eq_some_iff_append.1 hfirst
    have hway : ∀ u ∈ before, givesWay u.outcome = true := by simpa using hbefore
    have hfinal : givesWay t.outcome = false := by simpa using hsettled
    rw [(hlaw.settled before t after hturns hway hfinal).1]
    refine ⟨_, t.strategy, _, hsplit hturns, hentry t (by simp [hturns]), fun y hy => ?_, by simp [hfinal]⟩
    obtain ⟨u, hu, rfl⟩ := List.mem_map.1 hy
    exact ⟨u.outcome, hentry u (by simp [hturns, hu]), hway u hu⟩

end Query

namespace Inspector

open Query (DecidedBy entryOf)

variable {host : Host σ} {steady : σ → Prop}

/-- The outcome of a strategy in a report of all of them. -/
def reported (gate : S → Except Failure Unit) (attempt : S → Query α) (x : S) : Inquiry (Except Failure α) :=
  match gate x with
  | .error failure => pure (.error failure)
  | .ok () => (attempt x).outcome

theorem outcomes_cons (gate : S → Except Failure Unit) (attempt : S → Query α) (x : S) (xs : List S) :
    outcomes gate attempt (x :: xs) = do
      let outcome ← reported gate attempt x
      return (x, outcome) :: (← outcomes gate attempt xs) := by
  rw [outcomes, reported]
  cases gate x with
  | error failure => rfl
  | ok => rfl

theorem reported_comesTo {gate : S → Except Failure Unit} {attempt : S → Query α} {x : S}
    {P : Except Failure α → Prop} (hgate : ∀ failure, gate x = .error failure → P (.error failure))
    (hattempt : gate x = .ok () → Query.ComesTo host steady (attempt x) P) :
    Inquiry.ComesTo host steady (reported gate attempt x) P := by
  rw [reported]
  cases hx : gate x with
  | error failure => exact Inquiry.ComesTo.pure (hgate failure hx)
  | ok => exact hattempt hx

/-- There is an entry for each strategy, in order, with the outcome that is reported of it. -/
theorem outcomes_forall₂ (hkeeps : host.Keeps steady) {gate : S → Except Failure Unit} {attempt : S → Query α}
    {P : S → Except Failure α → Prop} (hreported : ∀ x, Inquiry.ComesTo host steady (reported gate attempt x) (P x))
    (xs : List S) :
    Inquiry.ComesTo host steady (outcomes gate attempt xs)
      (List.Forall₂ (fun x entry => entry.1 = x ∧ P x entry.2) xs) := by
  induction xs with
  | nil => exact Inquiry.ComesTo.pure .nil
  | cons x xs ih =>
    rw [outcomes_cons]
    refine Inquiry.ComesTo.bind hkeeps (hreported x) fun outcome houtcome => ?_
    refine Inquiry.ComesTo.bind hkeeps ih fun entries hentries => ?_
    exact Inquiry.ComesTo.pure (.cons ⟨rfl, houtcome⟩ hentries)

theorem outcomes_forall (hkeeps : host.Keeps steady) {gate : S → Except Failure Unit} {attempt : S → Query α}
    {P : Except Failure α → Prop} (hreported : ∀ x, Inquiry.ComesTo host steady (reported gate attempt x) P)
    (xs : List S) :
    Inquiry.ComesTo host steady (outcomes gate attempt xs) fun entries => ∀ entry ∈ entries, P entry.2 := by
  refine (outcomes_forall₂ hkeeps (fun x => hreported x) xs).mono fun entries hentries => ?_
  induction hentries with
  | nil => exact fun _ hentry => absurd hentry List.not_mem_nil
  | cons hentry _ ih => exact List.forall_mem_cons.2 ⟨hentry.2, ih⟩

theorem outcomes_comesTo (hkeeps : host.Keeps steady) {gate : S → Except Failure Unit} {attempt : S → Query α}
    {behind : S → Except Failure α} (hattempt : ∀ x, Query.ComesTo host steady (attempt x) (· = behind x))
    (xs : List S) :
    Inquiry.ComesTo host steady (outcomes gate attempt xs) (· = xs.map fun x => (x, entryOf gate behind x)) := by
  have hreported (x : S) : Inquiry.ComesTo host steady (reported gate attempt x) (· = entryOf gate behind x) := by
    refine reported_comesTo (fun failure hfailure => ?_) fun hopen => ?_
    · rw [entryOf, hfailure]
      rfl
    · rw [entryOf, hopen]
      exact hattempt x
  refine (outcomes_forall₂ hkeeps hreported xs).mono fun entries hentries => ?_
  induction hentries with
  | nil => rfl
  | cons hentry _ ih =>
    rw [List.map_cons, ← ih]
    exact congrArg (· :: _) (Prod.ext hentry.1 hentry.2)

theorem strategies_outcomes (host : Host σ) (gate : S → Except Failure Unit) (attempt : S → Query α) (xs : List S)
    (s : σ) : ((outcomes gate attempt xs).run host s).1.map (·.1) = xs := by
  have hreported (x : S) : Inquiry.ComesTo host (fun _ => True) (reported gate attempt x) fun _ => True :=
    fun _ _ => trivial
  have hentries := outcomes_forall₂ host.keeps_any hreported xs s trivial
  generalize ((outcomes gate attempt xs).run host s).1 = entries at hentries
  induction hentries with
  | nil => rfl
  | cons hentry _ ih => rw [List.map_cons, hentry.1, ih]

theorem outcomes_ne_nil (host : Host σ) (gate : S → Except Failure Unit) (attempt : S → Query α) {xs : List S}
    (hne : xs ≠ []) (s : σ) : ((outcomes gate attempt xs).run host s).1 ≠ [] := by
  intro hnil
  have hxs := strategies_outcomes host gate attempt xs s
  rw [hnil] at hxs
  exact hne hxs.symm

theorem gate_eq_ok_iff {usable : Bool} {backend : String} : gate usable backend = .ok () ↔ usable = true := by
  cases usable <;> simp [gate]

theorem gate_eq_error {usable : Bool} {backend : String} {failure : Failure}
    (h : gate usable backend = .error failure) : failure.kind = .backendUnavailable := by
  cases usable with
  | true => contradiction
  | false =>
    cases h
    rfl

theorem subprocessGate_eq_error (i : Inspector) (x : Subprocesses.Strategy) {failure : Failure}
    (h : i.subprocessGate x = .error failure) : failure.kind = .backendUnavailable := by
  cases x <;> exact gate_eq_error h

theorem directoryGate_eq_error (i : Inspector) (x : WorkingDirectory.Strategy) {failure : Failure}
    (h : i.directoryGate x = .error failure) : failure.kind = .backendUnavailable := by
  cases x with
  | generic => contradiction
  | lsof => exact gate_eq_error h
  | procfs => exact gate_eq_error h

theorem mayFallBack_of_kind {failure : Failure} (h : failure.kind = .backendUnavailable) :
    failure.mayFallBack = true := by
  simp [Failure.mayFallBack, h]

/-- What an order of strategies comes to is decided by the outcomes of all of them, as far as each of them has one. -/
theorem tryOrder_decidedBy_outcomes [BEq S] [LawfulBEq S] (hkeeps : host.Keeps steady) {s s' : σ} (hs : steady s)
    (hs' : steady s') (span : Journal.Span) (name : S → String) (h : Handle) {gate : S → Except Failure Unit}
    {attempt : S → Query α} (hgate : ∀ x failure, gate x = .error failure → failure.kind = .backendUnavailable)
    (hstable : ∀ x, ∃ outcome, Query.ComesTo host steady (attempt x) (· = outcome)) {order all : List S}
    (hne : order ≠ []) (hall : ∀ x ∈ order, x ∈ all) :
    DecidedBy order ((outcomes gate attempt all).run host s').1
      ((Query.within span (Query.tryOrder name h gate attempt order)).outcome.run host s).1 := by
  choose behind hbehind using hstable
  have hway : ∀ x failure, gate x = .error failure → failure.mayFallBack = true :=
    fun x failure hfailure => mayFallBack_of_kind (hgate x failure hfailure)
  have hentries : ((outcomes gate attempt all).run host s').1 = _ := outcomes_comesTo hkeeps hbehind all s' hs'
  rw [hentries]
  exact Query.ComesTo.within hkeeps _ (Query.tryOrder_decidedBy hkeeps hbehind hway hne hall) s hs

/-- Strategies are tried in order: the result is the outcome of the first one whose turn does not give way to the next,
the failure of the last one if there is none, and exactly the strategies with an open gate are attempted up to then,
once each. On a host on which every attempt has one outcome, what the inspector finds is therefore decided by what it
reports of each strategy. -/
theorem strategies_tried_in_order :
    (∀ (S α σ : Type) (name : S → String) (h : Handle) (gate : S → Except Failure Unit) (attempt : S → Query α)
      (host : Host σ) (order : List S) (s : σ), order ≠ [] →
      (∀ x failure, gate x = .error failure → failure.kind = .backendUnavailable) →
      Query.RunsInOrder name h gate attempt host order s) ∧
    (∀ (i : Inspector) (failure : Failure),
      (∀ x, i.subprocessGate x = .error failure → failure.kind = .backendUnavailable) ∧
        ∀ x, i.directoryGate x = .error failure → failure.kind = .backendUnavailable) ∧
    ∀ (σ : Type) (host : Host σ) (steady : σ → Prop) (i : Inspector) (h : Handle) (s s' : σ), host.Keeps steady →
      steady s → steady s' →
      ((∀ x, ∃ outcome, Query.ComesTo host steady (i.detectChildren h x) (· = outcome)) →
        DecidedBy Subprocesses.Strategy.platformOrder ((i.hasSubprocessesAll h).run host s').1
          ((i.hasSubprocesses h).outcome.run host s).1) ∧
      ((∀ x, ∃ outcome, Query.ComesTo host steady (i.resolveDirectory h x) (· = outcome)) →
        DecidedBy WorkingDirectory.Strategy.platformOrder ((i.workingDirectoryAll h).run host s').1
          ((i.workingDirectory h).outcome.run host s).1) := by
  refine ⟨?_, ?_, ?_⟩
  · intro S α σ name h gate attempt host order s hne hgate
    exact Query.runsInOrder name h gate attempt hne (fun x f hf => mayFallBack_of_kind (hgate x f hf)) host s
  · exact fun i failure => ⟨fun x => i.subprocessGate_eq_error x, fun x => i.directoryGate_eq_error x⟩
  · intro σ host steady i h s s' hkeeps hs hs'
    constructor
    · intro hstable
      have hgate := fun x failure => @subprocessGate_eq_error i x failure
      exact tryOrder_decidedBy_outcomes hkeeps hs hs' _ _ h hgate hstable (by decide) (by decide)
    · intro hstable
      have hgate := fun x failure => @directoryGate_eq_error i x failure
      exact tryOrder_decidedBy_outcomes hkeeps hs hs' _ _ h hgate hstable (by decide) (by decide)

/-- An inspector whose `ps` works and whose `pgrep` is missing. -/
def withTable : Inspector :=
  ⟨.default, { Capabilities.none ⟨"linux", none, "x86_64"⟩ "" with ps := .working "/bin/ps" }⟩

/-- On the host of the family the gate of `ps` is the only open one of `ps` and `pgrep`. -/
theorem strategies_tried_in_order_family :
    Query.RunsInOrder Subprocesses.Strategy.name Snapshot.parent withTable.subprocessGate
        (withTable.detectChildren Snapshot.parent) Snapshot.familyHost Subprocesses.Strategy.platformOrder () ∧
      DecidedBy Subprocesses.Strategy.platformOrder
        ((withTable.hasSubprocessesAll Snapshot.parent).run Snapshot.familyHost ()).1
        ((withTable.hasSubprocesses Snapshot.parent).outcome.run Snapshot.familyHost ()).1 := by
  have hstable : ∀ x, ∃ outcome, Query.ComesTo Snapshot.familyHost (fun _ => True)
      (withTable.detectChildren Snapshot.parent x) (· = outcome) :=
    fun x => ⟨((withTable.detectChildren Snapshot.parent x).outcome.run Snapshot.familyHost ()).1, fun _ _ => rfl⟩
  obtain ⟨horder, hgates, hdecided⟩ := strategies_tried_in_order
  constructor
  · exact horder _ _ _ _ _ _ _ _ _ _ (by decide) fun x failure => (hgates withTable failure).1 x
  · exact (hdecided Unit _ _ withTable _ () () (fun _ _ _ => trivial) trivial trivial).1 hstable

end Inspector

end ProcessProbe
