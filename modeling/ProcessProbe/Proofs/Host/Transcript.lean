import ProcessProbe.Host.Inquiry

/-!
# Transcripts

The requests that an inquiry makes on a host, in order. Those of an inquiry that is made of parts are the ones of its
parts, each from the state in which the part before it leaves the host.
-/

namespace ProcessProbe.Inquiry

variable {α β σ : Type}

/-- The requests of an inquiry, from a state of the host on. -/
def requests (host : Host σ) : Inquiry α → σ → List Request
  | done _, _ => []
  | ask request next, s =>
    let (answer, s) := host.answer request s
    request :: (next answer).requests host s

@[simp] theorem requests_pure (host : Host σ) (value : α) (s : σ) :
    (pure value : Inquiry α).requests host s = [] := rfl

theorem requests_bind (host : Host σ) (q : Inquiry α) (f : α → Inquiry β) (s : σ) :
    (q >>= f).requests host s =
      q.requests host s ++ (f (q.run host s).1).requests host (q.run host s).2 := by
  induction q generalizing s with
  | done value => rfl
  | ask request next ih => exact congrArg (request :: ·) (ih ..)

/-- The run of a command in the answer to a request. -/
def runIn (command : String) : (request : Request) → request.Answer → List Run
  | .run invocation, run => if invocation.command = command then [run] else []
  | _, _ => []

/-- The runs of a command that an inquiry makes, from a state of the host on. -/
def runsOf (command : String) (host : Host σ) : Inquiry α → σ → List Run
  | done _, _ => []
  | ask request next, s =>
    let (answer, s) := host.answer request s
    runIn command request answer ++ (next answer).runsOf command host s

theorem runsOf_bind (command : String) (host : Host σ) (q : Inquiry α) (f : α → Inquiry β) (s : σ) :
    (q >>= f).runsOf command host s =
      q.runsOf command host s ++ (f (q.run host s).1).runsOf command host (q.run host s).2 := by
  induction q generalizing s with
  | done value => rfl
  | ask request next ih =>
    have hnext := ih (host.answer request s).1 (host.answer request s).2
    simp only [ask_bind, runsOf, run_ask, hnext, List.append_assoc]

theorem exists_of_mem_runsOf {command : String} {host : Host σ} {q : Inquiry α} {s : σ} {run : Run}
    (h : run ∈ q.runsOf command host s) :
    ∃ invocation s', invocation.command = command ∧ run = (host.answer (.run invocation) s').1 := by
  induction q generalizing s with
  | done value => contradiction
  | ask request next ih =>
    rcases List.mem_append.1 h with hnow | hlater
    · rw [runIn.eq_def] at hnow
      split at hnow
      · split at hnow
        · exact ⟨_, s, ‹_›, List.mem_singleton.1 hnow⟩
        · contradiction
      · contradiction
    · exact ih _ hlater

end ProcessProbe.Inquiry
