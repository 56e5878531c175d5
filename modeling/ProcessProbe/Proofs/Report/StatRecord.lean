import ProcessProbe.Proofs.Report.StatLayout

/-!
# The stat record read back

The record that the kernel writes is read as the process it is about. The name cannot spoof the fields after it, since
none of them holds a closing parenthesis.
-/

namespace ProcessProbe.Report.StatRecord

open Text (isBlank decimal maxU32)

/-- The record that is written for a process, with `tail` for the fields after the parent's number. -/
def text (r : StatRecord) (tail : List Char) : List Char :=
  decimal r.pid ++ " (".toList ++ r.name ++ ')' :: ' ' :: r.state :: ' ' :: (decimal r.ppid ++ tail)

theorem laidOut_text {r : StatRecord} {tail : List Char} (hblank : isBlank r.state = false) (hclose : r.state ≠ ')')
    (htail : IsTail tail) : LaidOut r [' '] (r.text tail) := by
  have hspace : ∀ c ∈ [' '], isBlank c = true := List.forall_mem_singleton.2 (by decide)
  have hstate : ∀ c ∈ [r.state], isBlank c = false ∧ c ≠ ')' := List.forall_mem_singleton.2 ⟨hblank, hclose⟩
  have hmargin : ∀ c ∈ ([] : List Char), isBlank c = true := fun c hc => absurd hc List.not_mem_nil
  have h : LaidOut r [' '] _ := .mk hmargin (.bare (Text.isDigits_decimal r.pid)) hspace (by decide) hstate
    (List.cons_ne_nil _ _) hspace (.bare (Text.isDigits_decimal r.ppid)) htail
  simpa [text] using h

theorem ofText_text {r : StatRecord} {tail : List Char} (hpid : r.pid ≤ maxU32) (hppid : r.ppid ≤ maxU32)
    (hblank : isBlank r.state = false) (hclose : r.state ≠ ')') (htail : IsTail tail) :
    ofText (r.text tail) = .ok r :=
  (laidOut_text hblank hclose htail).ofText_eq (by decide) (fun d hd => absurd hd List.not_mem_nil) hpid hppid

end ProcessProbe.Report.StatRecord
