import ProcessProbe.Proofs.Host.Exchange
import ProcessProbe.Proofs.Host.Steady

/-!
# Runs that an inquiry starts

The diagnostics that an inquiry starts on a host, in order, and what they come to. A statement about the value of an
inquiry and its runs follows from those about its parts: the runs of the parts come one after the other.
-/

namespace ProcessProbe

variable {α β σ : Type}

/-- A diagnostic that an exchange starts, and what it comes to. -/
def Exchange.start? : Exchange → Option (Invocation × Run)
  | ⟨.run invocation, run⟩ => some (invocation, run)
  | _ => none

namespace Inquiry

/-- The diagnostics that an inquiry starts, from a state of the host on. -/
def started (host : Host σ) (q : Inquiry α) (s : σ) : List (Invocation × Run) :=
  (q.transcript host s).filterMap Exchange.start?

theorem started_bind (host : Host σ) (q : Inquiry α) (f : α → Inquiry β) (s : σ) :
    (q >>= f).started host s = q.started host s ++ (f (q.run host s).1).started host (q.run host s).2 := by
  rw [started, transcript_bind, List.filterMap_append]
  rfl

/-- From each steady state, `post` holds of the value that the inquiry comes to and of the diagnostics it starts. -/
def Does (host : Host σ) (steady : σ → Prop) (q : Inquiry α) (post : α → List (Invocation × Run) → Prop) : Prop :=
  ∀ s, steady s → post (q.run host s).1 (q.started host s)

namespace Does

variable {host : Host σ} {steady : σ → Prop}

theorem pure {value : α} {post : α → List (Invocation × Run) → Prop} (h : post value []) :
    Does host steady (Pure.pure value) post := fun _ _ => h

theorem bind (hkeeps : host.Keeps steady) {q : Inquiry α} {f : α → Inquiry β}
    {P : α → List (Invocation × Run) → Prop} {Q : β → List (Invocation × Run) → Prop} (hq : Does host steady q P)
    (hf : ∀ value runs, P value runs → Does host steady (f value) fun b more => Q b (runs ++ more)) :
    Does host steady (q >>= f) Q := by
  intro s hs
  rw [run_bind, started_bind]
  exact hf _ _ (hq s hs) _ (run_keeps hkeeps q hs)

theorem bind_silent (hkeeps : host.Keeps steady) {q : Inquiry α} {f : α → Inquiry β} {P : α → Prop}
    {Q : β → List (Invocation × Run) → Prop} (hq : Does host steady q fun value runs => runs = [] ∧ P value)
    (hf : ∀ value, P value → Does host steady (f value) Q) : Does host steady (q >>= f) Q := by
  refine bind hkeeps hq fun value runs hvalue => ?_
  rw [hvalue.1]
  exact hf value hvalue.2

theorem send {request : Request} {P : request.Answer → Prop}
    (hrequest : ∀ answer, Exchange.start? ⟨request, answer⟩ = none)
    (h : ∀ s, steady s → P (host.answer request s).1) :
    Does host steady (Inquiry.send request) fun answer runs => runs = [] ∧ P answer := by
  intro s hs
  have hstarted : (Inquiry.send request).started host s = [] := by
    simp [started, Inquiry.send, transcript, hrequest]
  exact ⟨hstarted, h s hs⟩

theorem start (invocation : Invocation) :
    Does host steady (Inquiry.start invocation) fun run runs => runs = [(invocation, run)] := fun _ _ => rfl

end Does

end Inquiry

end ProcessProbe
