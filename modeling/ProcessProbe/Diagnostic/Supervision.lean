import ProcessProbe.Diagnostic.Capture
import ProcessProbe.Diagnostic.Output
import ProcessProbe.Diagnostic.Registry

/-!
# Supervision of a diagnostic

A started diagnostic is watched in rounds: its output is read, it is asked whether it has ended, and the clock is
compared with the deadline. One that overstays is asked to end, and killed after a grace period. Either way it is
waited for.
-/

namespace ProcessProbe.Diagnostic

inductive Poll where
  | running
  | ended (exit : Option Int)
  | failed (error : SystemError)
  deriving Repr, DecidableEq

inductive Action where
  | poll (answer : Poll)
  | terminate
  | kill
  | wait
  deriving Repr, DecidableEq

/-- What one round of watching meets. The last two lists are read only after the child has ended. -/
structure Round where
  stdout : List ReadResult
  stderr : List ReadResult
  poll : Poll
  now : Instant
  lastStdout : List ReadResult
  lastStderr : List ReadResult
  deriving Repr

/-- How a run ends. It has no deadline when that would be a time that the clock cannot show. -/
inductive Ending where
  | completed (capture : Capture) (exit : Option Int)
  | failed (error : Error)
  | noDeadline
  deriving Repr, DecidableEq

structure Supervised where
  actions : List Action
  ending : Ending
  deriving Repr

/-- What a run does once its child is started. -/
inductive Deed where
  | register
  | act (action : Action)
  | mark
  deriving Repr, DecidableEq

/-- The child enters the registry before it is supervised, and its record is marked when that is over. -/
def Supervised.deeds (s : Supervised) : List Deed := .register :: (s.actions.map .act ++ [.mark])

/-- The registry after a deed of the run of a process, given when that starts and when it is over. -/
def Registry.follow (pid : Nat) (started ended : Instant) (r : Registry) : Deed → Registry
  | .register => r.register started pid
  | .act _ => r
  | .mark => r.markReaped ended pid

namespace Supervision

/-- The time between asking the child to end and killing it. -/
def grace : Nat := 500000000

/-- The latest time the clock can show: its seconds are signed 64-bit numbers. -/
def lastInstant : Instant := 9223372036854775807 * 1000000000 + 999999999

def deadline? (now : Instant) (timeout : Duration) : Option Instant :=
  if now + timeout.nanoseconds ≤ lastInstant then some (now + timeout.nanoseconds) else none

/-- What is done after the child was asked to end, given the polls until then and their times. -/
def graceActions (giveUp : Instant) : List (Instant × Poll) → List Action
  | [] => [.kill, .wait]
  | (now, answer) :: polls =>
    if giveUp ≤ now then [.kill, .wait]
    else
      match answer with
      | .running => .poll answer :: graceActions giveUp polls
      | .ended _ => [.poll answer]
      | .failed _ => [.poll answer, .kill, .wait]

/-- What is done to end the child, given the time at which that starts. -/
def endActions (now : Instant) (polls : List (Instant × Poll)) : List Action :=
  .terminate :: graceActions (now + grace) polls

/-- Watches the child, round by round. `final` has the time and the polls of the grace period, if it comes to one.
Answers nothing if the rounds, or what there is to read in one, end before the run does. -/
def watch (timeout : Duration) (deadline : Instant) (final : Instant × List (Instant × Poll)) (capture : Capture) :
    List Round → Option Supervised
  | [] => none
  | round :: rounds => do
    let (capture, _) ← capture.pump round.stdout round.stderr
    match round.poll with
    | .ended exit => do
      let (capture, _) ← capture.pump round.lastStdout round.lastStderr
      return ⟨[.poll round.poll], .completed capture exit⟩
    | .failed error => return ⟨.poll round.poll :: endActions final.1 final.2, .failed (.io error)⟩
    | .running =>
      if deadline ≤ round.now then
        return ⟨.poll round.poll :: endActions final.1 final.2, .failed (.timeout timeout)⟩
      else do
        let supervised ← watch timeout deadline final capture rounds
        return { supervised with actions := .poll round.poll :: supervised.actions }

/-- Supervises a child that was just started, given the time, the result of preparing its pipes, and what the rounds
and the grace period meet. -/
def run (timeout : Duration) (limit : Nat) (now : Instant) (pipes : Except SystemError Unit) (rounds : List Round)
    (final : Instant × List (Instant × Poll)) : Option Supervised :=
  match pipes with
  | .error error => some ⟨endActions final.1 final.2, .failed (.io error)⟩
  | .ok () =>
    match deadline? now timeout with
    | none => some ⟨[], .noDeadline⟩
    | some deadline => watch timeout deadline final (Capture.empty limit) rounds

/-- A whole run, from the start of its child until its record is dropped, with the registry that it leaves. -/
def tend (registry : Registry) (pid : Nat) (ended : Instant) (timeout : Duration) (limit : Nat) (now : Instant)
    (pipes : Except SystemError Unit) (rounds : List Round) (final : Instant × List (Instant × Poll)) :
    Option (Supervised × Registry) := do
  let supervised ← run timeout limit now pipes rounds final
  return (supervised, supervised.deeds.foldl (Registry.follow pid now ended) registry)

end Supervision

end ProcessProbe.Diagnostic
