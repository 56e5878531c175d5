import ProcessProbe.Host.Inquiry

/-!
# Inquiries on a steady host

A host is steady in a set of states if its answers do not lead out of it. What an inquiry comes to there follows from
what its parts come to, and from what the host answers in each of these states.
-/

namespace ProcessProbe

variable {α β σ : Type}

/-- Answering a request does not lead out of the steady states. -/
def Host.Keeps (host : Host σ) (steady : σ → Prop) : Prop :=
  ∀ request s, steady s → steady (host.answer request s).2

theorem Host.keeps_any (host : Host σ) : host.Keeps fun _ => True := fun _ _ _ => trivial

namespace Inquiry

variable {host : Host σ} {steady : σ → Prop}

@[simp] theorem run_pure (host : Host σ) (value : α) (s : σ) : (pure value : Inquiry α).run host s = (value, s) := rfl

theorem run_map (host : Host σ) (f : α → β) (q : Inquiry α) (s : σ) :
    (f <$> q).run host s = (f (q.run host s).1, (q.run host s).2) := by
  rw [map_eq_pure_bind, run_bind, run_pure]

/-! A single question is answered by the host. -/

section Questions

variable (host : Host σ) (s : σ)

@[simp] theorem run_probe (pid : Int) : (probe pid).run host s = host.answer (.probe pid) s := rfl

@[simp] theorem run_readFile (path : Path) : (readFile path).run host s = host.answer (.readFile path) s := rfl

@[simp] theorem run_list (path : Path) : (list path).run host s = host.answer (.list path) s := rfl

@[simp] theorem run_isPresent (path : Path) : (isPresent path).run host s = host.answer (.isPresent path) s := rfl

@[simp] theorem run_start (invocation : Invocation) :
    (start invocation).run host s = host.answer (.run invocation) s := rfl

@[simp] theorem run_diagnosticsSince (since : Diagnostic.Instant) :
    (diagnosticsSince since).run host s = host.answer (.diagnosticsSince since) s := rfl

@[simp] theorem run_clock : clock.run host s = host.answer .clock s := rfl

end Questions

theorem run_keeps (hkeeps : host.Keeps steady) (q : Inquiry α) {s : σ} (hs : steady s) :
    steady (q.run host s).2 := by
  induction q generalizing s with
  | done value => exact hs
  | ask request next ih => exact ih _ (hkeeps request s hs)

/-- From each steady state, the inquiry comes to a value of which `post` holds. -/
def ComesTo (host : Host σ) (steady : σ → Prop) (q : Inquiry α) (post : α → Prop) : Prop :=
  ∀ s, steady s → post (q.run host s).1

namespace ComesTo

theorem pure {value : α} {post : α → Prop} (h : post value) :
    ComesTo host steady (Pure.pure value) post := fun _ _ => h

theorem mono {q : Inquiry α} {post post' : α → Prop} (hq : ComesTo host steady q post)
    (h : ∀ value, post value → post' value) : ComesTo host steady q post' := fun s hs => h _ (hq s hs)

theorem send {request : Request} {post : request.Answer → Prop}
    (h : ∀ s, steady s → post (host.answer request s).1) : ComesTo host steady (Inquiry.send request) post := h

theorem map_send {request : Request} {f : request.Answer → α} {post : α → Prop}
    (h : ∀ s, steady s → post (f (host.answer request s).1)) :
    ComesTo host steady (f <$> Inquiry.send request) post := h

theorem bind (hkeeps : host.Keeps steady) {q : Inquiry α} {f : α → Inquiry β} {P : α → Prop} {Q : β → Prop}
    (hq : ComesTo host steady q P) (hf : ∀ value, P value → ComesTo host steady (f value) Q) :
    ComesTo host steady (q >>= f) Q := by
  intro s hs
  rw [run_bind]
  exact hf _ (hq s hs) _ (run_keeps hkeeps q hs)

theorem bind_any (hkeeps : host.Keeps steady) {q : Inquiry α} {f : α → Inquiry β} {Q : β → Prop}
    (hf : ∀ value, ComesTo host steady (f value) Q) : ComesTo host steady (q >>= f) Q := by
  have hq : ComesTo host steady q fun _ => True := fun _ _ => trivial
  exact bind hkeeps hq fun value _ => hf value

end ComesTo

end Inquiry

namespace Query

variable {host : Host σ} {steady : σ → Prop}

theorem outcome_bind (q : Query α) (f : α → Query β) :
    outcome (q >>= f) = q.outcome >>= fun
      | .ok value => (f value).outcome
      | .error failure => pure (.error failure) :=
  congrArg (q.outcome >>= ·) (funext fun r => by cases r <;> rfl)

theorem outcome_lift_bind (q : Inquiry α) (f : α → Query β) :
    outcome (liftM q >>= f) = q >>= fun value => (f value).outcome := by
  have hlift : outcome (liftM q : Query α) = q >>= fun value => pure (.ok value) := rfl
  rw [outcome_bind, hlift, bind_assoc]
  rfl

def ComesTo (host : Host σ) (steady : σ → Prop) (q : Query α) (post : Except Failure α → Prop) : Prop :=
  Inquiry.ComesTo host steady q.outcome post

namespace ComesTo

theorem bind (hkeeps : host.Keeps steady) {q : Query α} {f : α → Query β} {P : Except Failure α → Prop}
    {Q : Except Failure β → Prop} (hq : ComesTo host steady q P)
    (hok : ∀ value, P (.ok value) → ComesTo host steady (f value) Q)
    (herror : ∀ failure, P (.error failure) → Q (.error failure)) : ComesTo host steady (q >>= f) Q := by
  rw [ComesTo, outcome_bind]
  refine Inquiry.ComesTo.bind hkeeps hq fun outcome houtcome => ?_
  cases outcome with
  | ok value => exact hok value houtcome
  | error failure => exact Inquiry.ComesTo.pure (herror failure houtcome)

theorem bind_lift (hkeeps : host.Keeps steady) {q : Inquiry α} {f : α → Query β} {P : α → Prop}
    {Q : Except Failure β → Prop} (hq : Inquiry.ComesTo host steady q P)
    (hf : ∀ value, P value → ComesTo host steady (f value) Q) : ComesTo host steady (liftM q >>= f) Q := by
  rw [ComesTo, outcome_lift_bind]
  exact Inquiry.ComesTo.bind hkeeps hq hf

theorem bind_lift_any (hkeeps : host.Keeps steady) {q : Inquiry α} {f : α → Query β} {Q : Except Failure β → Prop}
    (hf : ∀ value, ComesTo host steady (f value) Q) : ComesTo host steady (liftM q >>= f) Q := by
  have hq : Inquiry.ComesTo host steady q fun _ => True := fun _ _ => trivial
  exact bind_lift hkeeps hq fun value _ => hf value

theorem ofExcept {r : Except Failure α} {Q : Except Failure α → Prop} (h : Q r) :
    ComesTo host steady (Query.ofExcept r) Q := fun _ _ => h

theorem throw {failure : Failure} {Q : Except Failure α → Prop} (h : Q (.error failure)) :
    ComesTo host steady (throwThe Failure failure : Query α) Q := fun _ _ => h

theorem throw_bind {failure : Failure} {f : α → Query β} {Q : Except Failure β → Prop} (h : Q (.error failure)) :
    ComesTo host steady ((throwThe Failure failure : Query α) >>= f) Q := fun _ _ => h

theorem pure {value : α} {Q : Except Failure α → Prop} (h : Q (.ok value)) :
    ComesTo host steady (Pure.pure value : Query α) Q := fun _ _ => h

theorem lift {q : Inquiry α} {Q : Except Failure α → Prop}
    (h : Inquiry.ComesTo host steady q fun value => Q (.ok value)) : ComesTo host steady (liftM q : Query α) Q := by
  intro s hs
  change Q ((q >>= fun value => Pure.pure (Except.ok value)).run host s).1
  rw [Inquiry.run_bind]
  exact h s hs

end ComesTo

end Query

end ProcessProbe
