import ProcessProbe.Host.Inquiry
import ProcessProbe.Process.Handle

/-!
# Trying strategies in order

A question is put to one strategy after the other. Strategies whose gate is closed are skipped, and one that fails for
reasons of its tooling gives way to the next. The first answer, and the first failure that is not of that kind, is the
outcome; otherwise it is the last failure.
-/

namespace ProcessProbe.Query

open Journal (Level EventName Value)

def report (level : Level) (name : EventName) (message : String) (h : Handle) (fields : Journal.Fields) :
    Inquiry Unit :=
  Inquiry.record (.event ⟨level, name.text, some (.text message), ("pid", .text h.message) :: fields⟩)

/-- The failure when there is no strategy at all. -/
def noStrategy : Failure := .backendUnavailable "none" "no strategy exists for this platform"

variable {S α : Type}

/-- Tries the strategies, after the failure `last` of those before them. -/
def tryFrom (name : S → String) (h : Handle) (gate : S → Except Failure Unit) (attempt : S → Query α)
    (last : Option Failure) : List S → Inquiry (Except Failure α)
  | [] => do
    let failure := last.getD noStrategy
    report .warn .strategyExhausted "every strategy failed" h [("error", .text failure.message)]
    return .error failure
  | s :: rest =>
    match gate s with
    | .error failure => do
      report .debug .strategySkipped "strategy skipped" h
        [("strategy", .text (name s)), ("reason", .text failure.message)]
      tryFrom name h gate attempt (some failure) rest
    | .ok () => do
      let started ← Inquiry.clock
      match ← (attempt s).outcome with
      | .ok answer => do
        let ended ← Inquiry.clock
        report .debug .strategyAnswered "strategy answered" h
          [("strategy", .text (name s)), ("elapsed_ms", .integer ((ended - started : Nat) / 1000000))]
        return .ok answer
      | .error failure =>
        if failure.mayFallBack then do
          report .warn .strategyFallback "strategy failed, trying next" h
            [("strategy", .text (name s)), ("kind", .text failure.kind.name), ("error", .text failure.message)]
          tryFrom name h gate attempt (some failure) rest
        else return .error failure

def tryOrder (name : S → String) (h : Handle) (gate : S → Except Failure Unit) (attempt : S → Query α)
    (order : List S) : Query α :=
  ExceptT.mk (tryFrom name h gate attempt none order)

def within (span : Journal.Span) (q : Query α) : Query α := ExceptT.mk do
  Inquiry.record (.enter span)
  let outcome ← q.outcome
  Inquiry.record .leave
  return outcome

end ProcessProbe.Query
