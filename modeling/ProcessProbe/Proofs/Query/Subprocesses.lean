import ProcessProbe.Proofs.Host.Steady
import ProcessProbe.Proofs.Report.ChildList
import ProcessProbe.Proofs.Text.Utf8
import ProcessProbe.Query.Subprocesses

/-!
# What the strategies make of their reports
-/

namespace ProcessProbe.Subprocesses

variable {σ : Type} {host : Host σ} {steady : σ → Prop}

theorem anyLive_comesTo (hkeeps : host.Keeps steady) {live : Nat → Inquiry Bool} {isLive : Nat → Bool}
    (pids : List Nat) (h : ∀ pid ∈ pids, Inquiry.ComesTo host steady (live pid) (· = isLive pid)) :
    Inquiry.ComesTo host steady (anyLive live pids) (· = pids.any isLive) := by
  induction pids with
  | nil => exact Inquiry.ComesTo.pure rfl
  | cons pid pids ih =>
    refine Inquiry.ComesTo.bind hkeeps (h pid List.mem_cons_self) fun first hfirst => ?_
    subst hfirst
    cases hlive : isLive pid with
    | true => exact Inquiry.ComesTo.pure (by simp [hlive])
    | false =>
      refine (ih fun p hp => h p (List.mem_cons_of_mem pid hp)).mono fun rest hrest => ?_
      rw [hrest, List.any_cons, hlive, Bool.false_or]

theorem listed_found {command : String} {args : List String} {pid : Nat} {stderr : Bytes} {pids : List Nat}
    (hne : pids ≠ []) (hpids : ∀ p ∈ pids, 0 < p ∧ p ≤ Text.maxU32) :
    listed ⟨command, args, pid, Utf8.encode (Report.ChildList.text pids), stderr, some 0, false⟩ = .ok pids := by
  simp only [listed, Diagnostic.Output.stdoutText, Utf8.decodeLossy_encode, Report.ChildList.ofText_text hpids]
  cases pids with
  | nil => contradiction
  | cons p pids => rfl

theorem listed_none {command : String} {args : List String} {pid : Nat} {stderr : Bytes} :
    listed ⟨command, args, pid, [], stderr, some 1, false⟩ = .ok [] := by
  have htext : Text.trim (Utf8.decodeLossy []) = [] := congrArg Text.trim (Utf8.decodeLossy_encode [])
  simp [listed, Diagnostic.Output.stdoutText, htext]

end ProcessProbe.Subprocesses
