import ProcessProbe.Proofs.Query.Order

/-!
# What queries answer

A condition on the answers of a query on a host, whatever state it is asked from and whatever it may fail with. What
queries are put together with hands such a condition on: an answer of a whole is one of its parts, and the answer of an
order is the answer of one of its strategies.
-/

namespace ProcessProbe.Query

variable {S α β σ : Type}

/-- From every state of the host, the query answers only with values of which `P` holds. -/
def AnswersOnly (host : Host σ) (q : Query α) (P : α → Prop) : Prop :=
  ComesTo host (fun _ => True) q fun outcome => ∀ value, outcome = .ok value → P value

namespace AnswersOnly

variable {host : Host σ} {P : α → Prop} {Q : β → Prop}

theorem of_failed {failure : Failure} : ∀ value, (.error failure : Except Failure α) = .ok value → P value :=
  fun _ hvalue => absurd hvalue (by simp)

theorem bind {q : Query α} {f : α → Query β} (hq : AnswersOnly host q P)
    (hf : ∀ value, P value → AnswersOnly host (f value) Q) : AnswersOnly host (q >>= f) Q := by
  refine ComesTo.bind host.keeps_any hq ?_ ?_
  · intro value hvalue
    exact hf value (hvalue value rfl)
  · intro failure _
    exact of_failed

theorem bind_any {q : Query α} {f : α → Query β} (hf : ∀ value, AnswersOnly host (f value) Q) :
    AnswersOnly host (q >>= f) Q :=
  have hq : AnswersOnly host q fun _ => True := fun _ _ _ _ => trivial
  hq.bind fun value _ => hf value

theorem bind_lift {q : Inquiry α} {f : α → Query β} (hq : Inquiry.ComesTo host (fun _ => True) q P)
    (hf : ∀ value, P value → AnswersOnly host (f value) Q) : AnswersOnly host (liftM q >>= f) Q :=
  ComesTo.bind_lift host.keeps_any hq hf

theorem bind_lift_any {q : Inquiry α} {f : α → Query β} (hf : ∀ value, AnswersOnly host (f value) Q) :
    AnswersOnly host (liftM q >>= f) Q := ComesTo.bind_lift_any host.keeps_any hf

theorem ofExcept {r : Except Failure α} (h : ∀ value, r = .ok value → P value) :
    AnswersOnly host (Query.ofExcept r) P := ComesTo.ofExcept h

theorem throw {failure : Failure} : AnswersOnly host (throwThe Failure failure : Query α) P :=
  ComesTo.throw of_failed

theorem pure {value : α} (h : P value) : AnswersOnly host (Pure.pure value : Query α) P := by
  refine ComesTo.pure ?_
  intro answer hanswer
  exact Except.ok.inj hanswer ▸ h

theorem lift {q : Inquiry α} (hq : Inquiry.ComesTo host (fun _ => True) q P) :
    AnswersOnly host (liftM q : Query α) P := by
  refine ComesTo.lift (hq.mono ?_)
  intro value hvalue answer hanswer
  exact Except.ok.inj hanswer ▸ hvalue

theorem check {c : Prop} [Decidable c] {failure : Failure} {next : PUnit → Query α}
    (hnext : ¬c → AnswersOnly host (next ⟨⟩) P) :
    AnswersOnly host (if c then throwThe Failure failure >>= next else next ⟨⟩) P := by
  by_cases hc : c
  · rw [if_pos hc]
    exact ComesTo.throw_bind of_failed
  · rw [if_neg hc]
    exact hnext hc

theorem within {q : Query α} (span : Journal.Span) (hq : AnswersOnly host q P) :
    AnswersOnly host (Query.within span q) P := ComesTo.within host.keeps_any span hq

section Order

variable {name : S → String} {h : Handle} {gate : S → Except Failure Unit} {attempt : S → Query α}

private theorem tryFrom (order : List S) (hattempt : ∀ x ∈ order, AnswersOnly host (attempt x) P)
    (last : Option Failure) : AnswersOnly host (ExceptT.mk (Query.tryFrom name h gate attempt last order)) P := by
  change Inquiry.ComesTo host (fun _ => True) (Query.tryFrom name h gate attempt last order)
    fun outcome => ∀ value, outcome = .ok value → P value
  induction order generalizing last with
  | nil => exact Inquiry.ComesTo.bind_any host.keeps_any fun _ => Inquiry.ComesTo.pure of_failed
  | cons x rest ih =>
    have hrest := ih fun y hy => hattempt y (List.mem_cons_of_mem x hy)
    rw [Query.tryFrom]
    cases gate x with
    | error failure => exact Inquiry.ComesTo.bind_any host.keeps_any fun _ => hrest (some failure)
    | ok =>
      refine Inquiry.ComesTo.bind_any host.keeps_any fun started => ?_
      have hx : Inquiry.ComesTo host (fun _ => True) (attempt x).outcome
          fun outcome => ∀ value, outcome = .ok value → P value := hattempt x List.mem_cons_self
      refine Inquiry.ComesTo.bind host.keeps_any hx fun outcome houtcome => ?_
      cases outcome with
      | ok answer =>
        exact Inquiry.ComesTo.bind_any host.keeps_any fun _ =>
          Inquiry.ComesTo.bind_any host.keeps_any fun _ => Inquiry.ComesTo.pure houtcome
      | error failure =>
        simp only
        split
        · exact Inquiry.ComesTo.bind_any host.keeps_any fun _ => hrest (some failure)
        · exact Inquiry.ComesTo.pure of_failed

theorem tryOrder {order : List S} (hattempt : ∀ x ∈ order, AnswersOnly host (attempt x) P) :
    AnswersOnly host (Query.tryOrder name h gate attempt order) P := tryFrom order hattempt none

end Order

end AnswersOnly

end ProcessProbe.Query
