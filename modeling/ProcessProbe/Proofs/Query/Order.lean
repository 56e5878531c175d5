import ProcessProbe.Proofs.Host.Steady
import ProcessProbe.Proofs.Host.Transcript
import ProcessProbe.Query.Order

/-!
# Turns of strategies

An order of strategies is tried turn by turn, each turn from the state in which the one before it leaves the host.
Main statement: the result is the outcome of the first turn that does not give way to the next, and nothing is asked
after that turn; when all of them give way the result is the failure of the last one.
-/

namespace ProcessProbe.Query

variable {S α σ : Type}

theorem ComesTo.within {host : Host σ} {steady : σ → Prop} (hkeeps : host.Keeps steady) {q : Query α}
    {Q : Except Failure α → Prop} (span : Journal.Span) (hq : ComesTo host steady q Q) :
    ComesTo host steady (Query.within span q) Q := by
  refine Inquiry.ComesTo.bind_any hkeeps fun _ => ?_
  refine Inquiry.ComesTo.bind hkeeps hq fun outcome houtcome => ?_
  exact Inquiry.ComesTo.bind_any hkeeps fun _ => Inquiry.ComesTo.pure houtcome

def givesWay : Except Failure α → Bool
  | .ok _ => false
  | .error failure => failure.mayFallBack

variable (name : S → String) (h : Handle) (gate : S → Except Failure Unit) (attempt : S → Query α)

/-- The report on an attempt that started at a given time. -/
def conclude (x : S) (started : Diagnostic.Instant) : Except Failure α → Inquiry Unit
  | .ok _ => do
    let ended ← Inquiry.clock
    report .debug .strategyAnswered "strategy answered" h
      [("strategy", .text (name x)), ("elapsed_ms", .integer ((ended - started : Nat) / 1000000))]
  | .error failure =>
    if failure.mayFallBack then
      report .warn .strategyFallback "strategy failed, trying next" h
        [("strategy", .text (name x)), ("kind", .text failure.kind.name), ("error", .text failure.message)]
    else pure ()

def openTurn (x : S) : Inquiry (Except Failure α) := do
  let started ← Inquiry.clock
  let outcome ← (attempt x).outcome
  conclude name h x started outcome
  return outcome

/-- The turn of a strategy: one with a closed gate is skipped. -/
def turn (x : S) : Inquiry (Except Failure α) :=
  match gate x with
  | .error failure => do
    report .debug .strategySkipped "strategy skipped" h
      [("strategy", .text (name x)), ("reason", .text failure.message)]
    return .error failure
  | .ok () => openTurn name h attempt x

/-- An order is tried by the turn of its first strategy, and by the rest of it if that gives way. -/
theorem tryFrom_cons {x : S} (hgate : ∀ failure, gate x = .error failure → failure.mayFallBack = true)
    (last : Option Failure) (rest : List S) :
    tryFrom name h gate attempt last (x :: rest) = do
      match ← turn name h gate attempt x with
      | .ok answer => return .ok answer
      | .error failure =>
        if failure.mayFallBack then tryFrom name h gate attempt (some failure) rest else return .error failure := by
  rw [tryFrom, turn]
  cases hx : gate x with
  | error failure => simp [hgate failure hx]
  | ok =>
    simp only [openTurn, bind_assoc, pure_bind]
    refine congrArg (Inquiry.clock >>= ·) (funext fun started => ?_)
    refine congrArg ((attempt x).outcome >>= ·) (funext fun outcome => ?_)
    cases outcome with
    | ok answer => simp [conclude]
    | error failure => cases hfailure : failure.mayFallBack <;> simp [conclude, hfailure]

theorem tryFrom_nil (host : Host σ) (failure : Failure) (s : σ) :
    ∃ entry, ((tryFrom name h gate attempt (some failure) []).run host s).1 = .error failure ∧
      (tryFrom name h gate attempt (some failure) []).requests host s = [.record entry] := ⟨_, rfl, rfl⟩

/-- A strategy in its turn: what came of it, and what was asked. -/
structure Turn (S α : Type) where
  strategy : S
  outcome : Except Failure α
  requests : List Request

/-- What happens in a turn on a host: a strategy with a closed gate is only reported, and one with an open gate is
attempted once, between a look at the clock and a report. -/
inductive IsTurn (host : Host σ) : Turn S α → Prop where
  | skipped (x : S) (failure : Failure) (entry : Journal.Entry) (hgate : gate x = .error failure) :
      IsTurn host ⟨x, .error failure, [.record entry]⟩
  | attempted (x : S) (s : σ) (report : List Request) (hgate : gate x = .ok ())
      (hreport : ∀ request ∈ report, request = .clock ∨ ∃ entry, request = .record entry) :
      IsTurn host ⟨x, ((attempt x).outcome.run host s).1,
        .clock :: (attempt x).outcome.requests host s ++ report⟩

def turnAt (host : Host σ) (x : S) (s : σ) : Turn S α :=
  ⟨x, ((turn name h gate attempt x).run host s).1, (turn name h gate attempt x).requests host s⟩

/-- The turns of all strategies of an order, one after the other. -/
def turns (host : Host σ) : List S → σ → List (Turn S α)
  | [], _ => []
  | x :: rest, s =>
    turnAt name h gate attempt host x s :: turns host rest ((turn name h gate attempt x).run host s).2

variable {name h gate attempt} {host : Host σ}

theorem requests_conclude (x : S) (started : Diagnostic.Instant) (outcome : Except Failure α) (s : σ) :
    ∀ request ∈ (conclude name h x started outcome).requests host s,
      request = .clock ∨ ∃ entry, request = .record entry := by
  intro request hrequest
  cases outcome with
  | ok answer =>
    rcases List.mem_cons.1 hrequest with rfl | hrest
    · exact .inl rfl
    · exact .inr ⟨_, List.mem_singleton.1 hrest⟩
  | error failure =>
    rw [conclude] at hrequest
    split at hrequest
    · exact .inr ⟨_, List.mem_singleton.1 hrequest⟩
    · contradiction

theorem isTurn_turnAt (x : S) (s : σ) : IsTurn gate attempt host (turnAt name h gate attempt host x s) := by
  rw [turnAt, turn]
  cases hx : gate x with
  | error failure => exact .skipped x failure _ hx
  | ok =>
    let tried := (host.answer .clock s).2
    let after := (attempt x).outcome.run host tried
    have hrun : ((openTurn name h attempt x).run host s).1 = after.1 := by
      rw [openTurn, Inquiry.run_bind, Inquiry.run_bind, Inquiry.run_bind]
      rfl
    have hrequests : (openTurn name h attempt x).requests host s =
        .clock :: (attempt x).outcome.requests host tried ++
          (conclude name h x (host.answer .clock s).1 after.1).requests host after.2 := by
      rw [openTurn, Inquiry.requests_bind, Inquiry.requests_bind, Inquiry.requests_bind, Inquiry.requests_pure,
        List.append_nil]
      rfl
    simp only [hrun, hrequests]
    exact .attempted x tried _ hx (requests_conclude x _ after.1 after.2)

theorem strategies_turns (order : List S) (s : σ) :
    (turns name h gate attempt host order s).map (·.strategy) = order := by
  induction order generalizing s with
  | nil => rfl
  | cons x rest ih => exact congrArg (x :: ·) (ih _)

theorem isTurn_turns (order : List S) (s : σ) :
    ∀ t ∈ turns name h gate attempt host order s, IsTurn gate attempt host t := by
  induction order generalizing s with
  | nil => exact fun t ht => absurd ht List.not_mem_nil
  | cons x rest ih =>
    intro t ht
    rcases List.mem_cons.1 ht with rfl | hrest
    · exact isTurn_turnAt x s
    · exact ih _ t hrest

/-! ## On a steady host -/

/-- The outcome of a strategy: the failure of its gate, and behind the gate the outcome of every attempt. -/
def entryOf (gate : S → Except Failure Unit) (behind : S → Except Failure α) (x : S) : Except Failure α :=
  gate x >>= fun _ => behind x

section Steady

variable {steady : σ → Prop} (hkeeps : host.Keeps steady) {behind : S → Except Failure α}
  (hattempt : ∀ x, ComesTo host steady (attempt x) (· = behind x))

include hkeeps hattempt

theorem turn_comesTo (x : S) :
    Inquiry.ComesTo host steady (turn name h gate attempt x) (· = entryOf gate behind x) := by
  rw [turn, entryOf]
  cases gate x with
  | error failure =>
    exact Inquiry.ComesTo.bind_any hkeeps fun _ => Inquiry.ComesTo.pure rfl
  | ok =>
    refine Inquiry.ComesTo.bind_any hkeeps fun _ => ?_
    refine Inquiry.ComesTo.bind hkeeps (hattempt x) fun outcome houtcome => ?_
    exact Inquiry.ComesTo.bind_any hkeeps fun _ => Inquiry.ComesTo.pure houtcome

theorem outcome_of_mem_turns (order : List S) {s : σ} (hs : steady s) :
    ∀ t ∈ turns name h gate attempt host order s, t.outcome = entryOf gate behind t.strategy := by
  induction order generalizing s with
  | nil => exact fun t ht => absurd ht List.not_mem_nil
  | cons x rest ih =>
    intro t ht
    rcases List.mem_cons.1 ht with rfl | hrest
    · exact turn_comesTo hkeeps hattempt x s hs
    · exact ih (Inquiry.run_keeps hkeeps (turn name h gate attempt x) hs) t hrest

end Steady

/-- When all strategies of an order agree on an outcome that does not give way, one open gate is enough for it. -/
theorem tryOrder_comesTo_of_agreed {steady : σ → Prop} (hkeeps : host.Keeps steady) {P : Except Failure α → Prop}
    (hsettled : ∀ outcome, P outcome → givesWay outcome = false) {order : List S}
    (hattempt : ∀ x ∈ order, ComesTo host steady (attempt x) P) (hopen : ∃ x ∈ order, gate x = .ok ()) :
    ComesTo host steady (tryOrder name h gate attempt order) P := by
  suffices hfrom : ∀ last, Inquiry.ComesTo host steady (tryFrom name h gate attempt last order) P from hfrom none
  induction order with
  | nil =>
    obtain ⟨x, hx, -⟩ := hopen
    contradiction
  | cons x rest ih =>
    intro last
    rw [tryFrom]
    cases hgate : gate x with
    | error failure =>
      have hrest : ∃ y ∈ rest, gate y = .ok () := by
        obtain ⟨y, hy, hyopen⟩ := hopen
        rcases List.mem_cons.1 hy with rfl | hy
        · rw [hgate] at hyopen
          contradiction
        · exact ⟨y, hy, hyopen⟩
      refine Inquiry.ComesTo.bind_any hkeeps fun _ => ?_
      exact ih (fun y hy => hattempt y (List.mem_cons_of_mem x hy)) hrest (some failure)
    | ok =>
      refine Inquiry.ComesTo.bind_any hkeeps fun started => ?_
      refine Inquiry.ComesTo.bind hkeeps (hattempt x List.mem_cons_self) fun outcome houtcome => ?_
      cases outcome with
      | ok answer =>
        refine Inquiry.ComesTo.bind_any hkeeps fun _ => Inquiry.ComesTo.bind_any hkeeps fun _ => ?_
        exact Inquiry.ComesTo.pure houtcome
      | error failure =>
        have hfinal : failure.mayFallBack = false := hsettled _ houtcome
        simp only [hfinal]
        exact Inquiry.ComesTo.pure houtcome

/-! ## The law of an order -/

section Run

variable (hgate : ∀ x failure, gate x = .error failure → failure.mayFallBack = true)

include hgate

theorem tryFrom_cons_settled {x : S} {s : σ} (last : Option Failure) (rest : List S)
    (hsettled : givesWay ((turn name h gate attempt x).run host s).1 = false) :
    ((tryFrom name h gate attempt last (x :: rest)).run host s).1 = ((turn name h gate attempt x).run host s).1 ∧
      (tryFrom name h gate attempt last (x :: rest)).requests host s =
        (turn name h gate attempt x).requests host s := by
  rw [tryFrom_cons name h gate attempt (hgate x), Inquiry.run_bind, Inquiry.requests_bind]
  cases hturn : ((turn name h gate attempt x).run host s).1 with
  | ok answer => simp
  | error failure =>
    rw [hturn, givesWay] at hsettled
    simp [hsettled]

theorem tryFrom_cons_givesWay {x : S} {s : σ} {failure : Failure} (last : Option Failure) (rest : List S)
    (hturn : ((turn name h gate attempt x).run host s).1 = .error failure) (hway : failure.mayFallBack = true) :
    (tryFrom name h gate attempt last (x :: rest)).run host s =
        (tryFrom name h gate attempt (some failure) rest).run host ((turn name h gate attempt x).run host s).2 ∧
      (tryFrom name h gate attempt last (x :: rest)).requests host s =
        (turn name h gate attempt x).requests host s ++
          (tryFrom name h gate attempt (some failure) rest).requests host
            ((turn name h gate attempt x).run host s).2 := by
  rw [tryFrom_cons name h gate attempt (hgate x), Inquiry.run_bind, Inquiry.requests_bind, hturn]
  simp [hway]

/-- The result is the outcome of the first turn that does not give way, and nothing is asked after it. -/
theorem tryFrom_settled {order : List S} {s : σ} (last : Option Failure) {before after : List (Turn S α)}
    {t : Turn S α} (hturns : turns name h gate attempt host order s = before ++ t :: after)
    (hbefore : ∀ u ∈ before, givesWay u.outcome = true) (hsettled : givesWay t.outcome = false) :
    ((tryFrom name h gate attempt last order).run host s).1 = t.outcome ∧
      (tryFrom name h gate attempt last order).requests host s = (before ++ [t]).flatMap (·.requests) := by
  -- The turns before the one that settles the order give way one after the other, each with a failure of its own to
  -- go on from.
  induction before generalizing order s last with
  | nil =>
    cases order with
    | nil => contradiction
    | cons x rest =>
      obtain ⟨rfl, -⟩ := List.cons.inj hturns
      obtain ⟨houtcome, hrequests⟩ := tryFrom_cons_settled hgate last rest hsettled
      exact ⟨houtcome, by simpa [turnAt] using hrequests⟩
  | cons u before ih =>
    cases order with
    | nil => contradiction
    | cons x rest =>
      obtain ⟨rfl, hrest⟩ := List.cons.inj hturns
      have hway := hbefore _ List.mem_cons_self
      rw [turnAt] at hway
      cases hturn : ((turn name h gate attempt x).run host s).1 with
      | ok answer =>
        rw [hturn] at hway
        contradiction
      | error failure =>
        rw [hturn] at hway
        obtain ⟨hrun, hrequests⟩ := tryFrom_cons_givesWay hgate last rest hturn hway
        obtain ⟨houtcome, hfurther⟩ := ih (some failure) hrest fun u hu => hbefore u (List.mem_cons_of_mem _ hu)
        rw [hrun, hrequests, hfurther]
        exact ⟨houtcome, by simp [turnAt]⟩

theorem tryFrom_exhausted {order : List S} (hne : order ≠ []) {s : σ} (last : Option Failure)
    (hall : ∀ t ∈ turns name h gate attempt host order s, givesWay t.outcome = true) :
    ∃ before t failure entry, turns name h gate attempt host order s = before ++ [t] ∧ t.outcome = .error failure ∧
      failure.mayFallBack = true ∧ ((tryFrom name h gate attempt last order).run host s).1 = .error failure ∧
      (tryFrom name h gate attempt last order).requests host s =
        (turns name h gate attempt host order s).flatMap (·.requests) ++ [.record entry] := by
  induction order generalizing s last with
  | nil => contradiction
  | cons x rest ih =>
    have hway := hall _ List.mem_cons_self
    rw [turnAt] at hway
    cases hturn : ((turn name h gate attempt x).run host s).1 with
    | ok answer =>
      rw [hturn] at hway
      contradiction
    | error failure =>
      rw [hturn] at hway
      obtain ⟨hrun, hrequests⟩ := tryFrom_cons_givesWay hgate last rest hturn hway
      cases rest with
      | nil =>
        obtain ⟨entry, hresult, hend⟩ :=
          tryFrom_nil name h gate attempt host failure ((turn name h gate attempt x).run host s).2
        rw [hrun, hrequests, hend]
        exact ⟨[], _, failure, entry, rfl, hturn, hway, hresult, by simp [turns, turnAt]⟩
      | cons y rest =>
        obtain ⟨before, t, failure', entry, hsplit, houtcome, hway', hresult, hfurther⟩ :=
          ih (List.cons_ne_nil y rest) (some failure) fun t ht => hall t (List.mem_cons_of_mem _ ht)
        rw [hrun, hrequests, hfurther]
        refine ⟨turnAt name h gate attempt host x s :: before, t, failure', entry, ?_, houtcome, hway', hresult, ?_⟩
        · rw [turns, hsplit]
          rfl
        · rw [← List.append_assoc]
          rfl

end Run

variable (name h gate attempt)

/-- The law of an order: each strategy has one turn, and the turns are taken as far as the first one that does not
give way, which is then the result; without such a turn all are taken, and the failure of the last one is the result. -/
structure RunsInOrder (host : Host σ) (order : List S) (s : σ) : Prop where
  strategies : (turns name h gate attempt host order s).map (·.strategy) = order
  isTurn : ∀ t ∈ turns name h gate attempt host order s, IsTurn gate attempt host t
  settled : ∀ before t after, turns name h gate attempt host order s = before ++ t :: after →
    (∀ u ∈ before, givesWay u.outcome = true) → givesWay t.outcome = false →
      ((tryOrder name h gate attempt order).outcome.run host s).1 = t.outcome ∧
        (tryOrder name h gate attempt order).outcome.requests host s = (before ++ [t]).flatMap (·.requests)
  exhausted : (∀ t ∈ turns name h gate attempt host order s, givesWay t.outcome = true) →
    ∃ before t failure entry, turns name h gate attempt host order s = before ++ [t] ∧ t.outcome = .error failure ∧
      failure.mayFallBack = true ∧ ((tryOrder name h gate attempt order).outcome.run host s).1 = .error failure ∧
      (tryOrder name h gate attempt order).outcome.requests host s =
        (turns name h gate attempt host order s).flatMap (·.requests) ++ [.record entry]

theorem runsInOrder {order : List S} (hne : order ≠ [])
    (hgate : ∀ x failure, gate x = .error failure → failure.mayFallBack = true) (host : Host σ) (s : σ) :
    RunsInOrder name h gate attempt host order s where
  strategies := strategies_turns order s
  isTurn := isTurn_turns order s
  settled := fun _ _ _ => tryFrom_settled hgate none
  exhausted := tryFrom_exhausted hgate hne none

end ProcessProbe.Query
