import ProcessProbe.Proofs.Journal.Events
import ProcessProbe.Proofs.Query.Order

/-!
# Events of an order

What the events of a run tell: how far it is, and what became of which strategy. Main statement: an order of strategies
tells of each turn that gives way, in order, and then of the answer that it has or of its end, and of nothing else.
-/

namespace ProcessProbe

variable {S α β σ : Type}

namespace Journal

def EventName.ofText? (text : String) : Option EventName := EventName.all.find? (·.text == text)

def Event.text? (name : String) (e : Event) : Option String :=
  match e.fields.lookup name with
  | some (.text s) => some s
  | _ => none

def Event.integer? (name : String) (e : Event) : Option Int :=
  match e.fields.lookup name with
  | some (.integer n) => some n
  | _ => none

/-- What an event tells of a run. -/
inductive Mark where
  | runStarted
  | configError
  | configLoaded
  | skipped (strategy : String)
  | fallback (strategy : String)
  | answered (strategy : String)
  | exhausted
  | queryFinished
  | queryFailed
  | runFinished (code : Int)
  deriving Repr, DecidableEq

/-- The mark of an event, if it has one of the names and the values that belong to it. -/
def Mark.ofEvent? (e : Event) : Option Mark := do
  match ← EventName.ofText? e.target with
  | .runStarted => return .runStarted
  | .configError => return .configError
  | .configLoaded => return .configLoaded
  | .strategySkipped => return .skipped (← e.text? "strategy")
  | .strategyFallback => return .fallback (← e.text? "strategy")
  | .strategyAnswered => return .answered (← e.text? "strategy")
  | .strategyExhausted => return .exhausted
  | .queryFinished => return .queryFinished
  | .queryFailed => return .queryFailed
  | .runFinished => return .runFinished (← e.integer? "exit_code")

end Journal

open Journal (Mark)

namespace Inquiry

/-- The marks of the events that an inquiry reports; none stands for an event that has no mark. -/
def marks (host : Host σ) (q : Inquiry α) (s : σ) : List (Option Mark) := (q.events host s).map Mark.ofEvent?

theorem marks_bind (host : Host σ) (q : Inquiry α) (f : α → Inquiry β) (s : σ) :
    (q >>= f).marks host s = q.marks host s ++ (f (q.run host s).1).marks host (q.run host s).2 := by
  rw [marks, events_bind, List.map_append]
  rfl

@[simp] theorem marks_pure (host : Host σ) (value : α) (s : σ) : (pure value : Inquiry α).marks host s = [] := rfl

theorem Quiet.marks_eq_nil {q : Inquiry α} (hq : q.Quiet) (host : Host σ) (s : σ) : q.marks host s = [] := by
  rw [marks, hq.events_eq_nil, List.map_nil]

theorem Quiet.marks_bind {q : Inquiry α} (hq : q.Quiet) (f : α → Inquiry β) (host : Host σ) (s : σ) :
    (q >>= f).marks host s = (f (q.run host s).1).marks host (q.run host s).2 := by
  rw [Inquiry.marks_bind, hq.marks_eq_nil, List.nil_append]

theorem marks_bind_quiet (host : Host σ) (q : Inquiry α) {f : α → Inquiry β} (hf : ∀ value, (f value).Quiet) (s : σ) :
    (q >>= f).marks host s = q.marks host s := by
  rw [Inquiry.marks_bind, (hf _).marks_eq_nil, List.append_nil]

end Inquiry

/-- The state of a host inside a span. -/
def Host.inside (host : Host σ) (span : Journal.Span) (s : σ) : σ := (host.answer (.record (.enter span)) s).2

namespace Query

variable (name : S → String) (h : Handle) (gate : S → Except Failure Unit) (attempt : S → Query α) (host : Host σ)

/-- The mark of a turn that gives way. -/
def passed (t : Turn S α) : Mark :=
  match gate t.strategy with
  | .error _ => .skipped (name t.strategy)
  | .ok () => .fallback (name t.strategy)

/-- The marks at the end of an order, given the turn that does not give way: its answer, or nothing for a failure. -/
def settled : Option (Turn S α) → List Mark
  | none => [.exhausted]
  | some t =>
    match t.outcome with
    | .ok _ => [.answered (name t.strategy)]
    | .error _ => []

/-- The marks of an order, given the turns of all its strategies. -/
def orderMarks (ts : List (Turn S α)) : List Mark :=
  (ts.takeWhile (givesWay ·.outcome)).map (passed name gate) ++ settled name (ts.find? (!givesWay ·.outcome))

theorem orderMarks_cons (t : Turn S α) (ts : List (Turn S α)) :
    orderMarks name gate (t :: ts) =
      if givesWay t.outcome then passed name gate t :: orderMarks name gate ts else settled name (some t) := by
  cases hway : givesWay t.outcome <;> simp [orderMarks, hway]

theorem marks_within (span : Journal.Span) (q : Query α) (s : σ) :
    (Query.within span q).outcome.marks host s = q.outcome.marks host (host.inside span s) := by
  have henter : (Inquiry.record (.enter span)).Quiet := Inquiry.Quiet.send rfl
  change (Inquiry.record (.enter span) >>= fun _ => q.outcome >>= fun outcome =>
    Inquiry.record .leave >>= fun _ => pure outcome).marks host s = _
  rw [henter.marks_bind]
  apply Inquiry.marks_bind_quiet
  intro outcome
  exact (Inquiry.Quiet.send rfl).bind fun _ => Inquiry.Quiet.pure

theorem marks_openTurn {x : S} (hquiet : (attempt x).outcome.Quiet) (s : σ) : ∃ started t,
    ((openTurn name h attempt x).run host s).1 = ((attempt x).outcome.run host t).1 ∧
      (openTurn name h attempt x).marks host s =
        (conclude name h x started ((attempt x).outcome.run host t).1).marks host
          ((attempt x).outcome.run host t).2 := by
  refine ⟨(host.answer .clock s).1, (host.answer .clock s).2, ?_, ?_⟩
  · rw [openTurn, Inquiry.run_bind, Inquiry.run_bind, Inquiry.run_bind]
    rfl
  · have hclock : Inquiry.clock.Quiet := Inquiry.Quiet.send rfl
    rw [openTurn, hclock.marks_bind, hquiet.marks_bind]
    exact Inquiry.marks_bind_quiet host _ (fun _ => Inquiry.Quiet.pure) _

/-- A turn that gives way has one mark, and any other one has those of its outcome. -/
theorem marks_turn {x : S} (hgate : ∀ failure, gate x = .error failure → failure.mayFallBack = true)
    (hquiet : (attempt x).outcome.Quiet) (s : σ) :
    (turn name h gate attempt x).marks host s =
      (if givesWay (turnAt name h gate attempt host x s).outcome
        then [passed name gate (turnAt name h gate attempt host x s)]
        else settled name (some (turnAt name h gate attempt host x s))).map some := by
  cases hx : gate x with
  | error failure =>
    have hturn : turn name h gate attempt x = do
        report .debug .strategySkipped "strategy skipped" h
          [("strategy", .text (name x)), ("reason", .text failure.message)]
        return .error failure := by rw [turn, hx]
    have hway : failure.mayFallBack = true := hgate failure hx
    simp only [turnAt, hturn, passed, hx, Inquiry.run_bind, Inquiry.run_pure, givesWay, hway, if_true]
    rfl
  | ok =>
    have hturn : turn name h gate attempt x = openTurn name h attempt x := by rw [turn, hx]
    obtain ⟨started, t, hrun, hmarks⟩ := marks_openTurn name h attempt host hquiet s
    simp only [turnAt, hturn, passed, hx, settled, hrun, hmarks]
    cases ((attempt x).outcome.run host t).1 with
    | ok answer => rfl
    | error failure => cases hway : failure.mayFallBack <;> simp only [givesWay, conclude, hway] <;> rfl

/-- The marks of an order are those of the turns that give way, and of the one that does not. -/
theorem marks_tryFrom (hgate : ∀ x failure, gate x = .error failure → failure.mayFallBack = true) {order : List S}
    (hquiet : ∀ x ∈ order, (attempt x).outcome.Quiet) (last : Option Failure) (s : σ) :
    (tryFrom name h gate attempt last order).marks host s =
      (orderMarks name gate (turns name h gate attempt host order s)).map some := by
  induction order generalizing last s with
  | nil => rfl
  | cons x rest ih =>
    have hturn := marks_turn name h gate attempt host (hgate x) (hquiet x List.mem_cons_self) s
    rw [tryFrom_cons name h gate attempt (hgate x), Inquiry.marks_bind, hturn, turns, orderMarks_cons, turnAt]
    cases hresult : ((turn name h gate attempt x).run host s).1 with
    | ok answer => simp [givesWay]
    | error failure =>
      cases hway : failure.mayFallBack with
      | false => simp [givesWay, hway]
      | true =>
        have hrest := ih (fun y hy => hquiet y (List.mem_cons_of_mem x hy)) (some failure)
        simp [givesWay, hway, hrest]

end Query

end ProcessProbe
