import ProcessProbe.Host.Inquiry

/-!
# What an inquiry asks, and when

The exchanges of an inquiry with its host, and a condition on the requests that it makes: a rule says which request may
come after which exchanges. It is a condition on the inquiry as such, with every answer that a host may give. Main
statement: wherever a request stands in the exchanges of an inquiry that meets the condition, the rule lets it come after
those before it.
-/

namespace ProcessProbe

variable {α β σ : Type}

/-- A request with its answer. -/
structure Exchange where
  request : Request
  answer : request.Answer

namespace Inquiry

/-- The exchanges of an inquiry, from a state of the host on. -/
def transcript (host : Host σ) : Inquiry α → σ → List Exchange
  | done _, _ => []
  | ask request next, s =>
    let (answer, s) := host.answer request s
    ⟨request, answer⟩ :: (next answer).transcript host s

theorem transcript_bind (host : Host σ) (q : Inquiry α) (f : α → Inquiry β) (s : σ) :
    (q >>= f).transcript host s =
      q.transcript host s ++ (f (q.run host s).1).transcript host (q.run host s).2 := by
  induction q generalizing s with
  | done value => rfl
  | ask request next ih => exact congrArg (_ :: ·) (ih ..)

/-- After the exchanges in `past` the inquiry asks only what the rule lets come then, whatever the answers are, and
`post` holds of all the exchanges and the value in the end. -/
def AsksOnly (rule : List Exchange → Request → Prop) :
    Inquiry α → List Exchange → (List Exchange → α → Prop) → Prop
  | done value, past, post => post past value
  | ask request next, past, post =>
    rule past request ∧ ∀ answer, (next answer).AsksOnly rule (past ++ [⟨request, answer⟩]) post

namespace AsksOnly

variable {rule rule' : List Exchange → Request → Prop} {past : List Exchange}

theorem pure {value : α} {post : List Exchange → α → Prop} (h : post past value) :
    (Pure.pure value : Inquiry α).AsksOnly rule past post := h

theorem mono {q : Inquiry α} {post post' : List Exchange → α → Prop} (hq : q.AsksOnly rule past post)
    (h : ∀ past' value, post past' value → post' past' value) : q.AsksOnly rule past post' := by
  induction q generalizing past with
  | done value => exact h past value hq
  | ask request next ih => exact ⟨hq.1, fun answer => ih answer (hq.2 answer)⟩

theorem weaken {q : Inquiry α} {post : List Exchange → α → Prop} (hq : q.AsksOnly rule past post)
    (h : ∀ past request, rule past request → rule' past request) : q.AsksOnly rule' past post := by
  induction q generalizing past with
  | done value => exact hq
  | ask request next ih => exact ⟨h past request hq.1, fun answer => ih answer (hq.2 answer)⟩

theorem bind {q : Inquiry α} {f : α → Inquiry β} {P : List Exchange → α → Prop} {Q : List Exchange → β → Prop}
    (hq : q.AsksOnly rule past P)
    (hf : ∀ past' value, past <+: past' → P past' value → (f value).AsksOnly rule past' Q) :
    (q >>= f).AsksOnly rule past Q := by
  induction q generalizing past with
  | done value => exact hf past value (List.prefix_refl past) hq
  | ask request next ih =>
    refine ⟨hq.1, fun answer => ih answer (hq.2 answer) ?_⟩
    intro past' value hpast
    exact hf past' value ((List.prefix_append past _).trans hpast)

theorem map {q : Inquiry α} {f : α → β} {P : List Exchange → β → Prop}
    (hq : q.AsksOnly rule past fun past' value => P past' (f value)) : (f <$> q).AsksOnly rule past P := by
  rw [map_eq_pure_bind]
  apply hq.bind
  intro past' value _ hvalue
  exact pure hvalue

theorem send {request : Request} (h : rule past request) :
    (Inquiry.send request).AsksOnly rule past fun past' answer => past' = past ++ [⟨request, answer⟩] :=
  ⟨h, fun _ => rfl⟩

/-- Wherever a request stands in the exchanges, the rule lets it come after those before it. -/
theorem rule_of_mem {q : Inquiry α} {post : List Exchange → α → Prop} (hq : q.AsksOnly rule past post)
    {host : Host σ} {s : σ} {before after : List Exchange} {exchange : Exchange}
    (h : q.transcript host s = before ++ exchange :: after) : rule (past ++ before) exchange.request := by
  induction q generalizing past s before with
  | done value => simp [transcript] at h
  | ask request next ih =>
    rw [transcript] at h
    cases before with
    | nil =>
      obtain ⟨rfl, -⟩ := List.cons.inj h
      rw [List.append_nil]
      exact hq.1
    | cons first before =>
      obtain ⟨rfl, hrest⟩ := List.cons.inj h
      have hlater := ih _ (hq.2 _) hrest
      rwa [List.append_assoc] at hlater

end AsksOnly

end Inquiry

end ProcessProbe
