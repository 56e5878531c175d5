import ProcessProbe.Text.Utf8

/-!
# Capturing the output of a diagnostic

Each of its two streams is read as far as it has data and kept up to a limit. What exceeds the limit is read too, so
that the diagnostic is never held up by a full pipe.
-/

namespace ProcessProbe.Diagnostic

/-- What reading from a pipe comes to. It has `stopped` when there is no data now or reading failed. -/
inductive ReadResult where
  | data (bytes : Bytes)
  | endOfStream
  | interrupted
  | stopped
  deriving Repr, DecidableEq

/-- What is kept of one stream. -/
structure Stream where
  kept : Bytes
  truncated : Bool
  deriving Repr, DecidableEq

namespace Stream

def empty : Stream := ⟨[], false⟩

def take (limit : Nat) (s : Stream) (bytes : Bytes) : Stream :=
  let room := limit - s.kept.length
  ⟨s.kept ++ bytes.take room, s.truncated || room < bytes.length⟩

/-- Reads until there is nothing more to read. Answers the stream, whether anything arrived, and the results that
were not asked for; nothing if the results end before the reading does. -/
def drain (limit : Nat) (s : Stream) (got : Bool) : List ReadResult → Option (Stream × Bool × List ReadResult)
  | [] => none
  | .data bytes :: results => drain limit (s.take limit bytes) true results
  | .interrupted :: results => drain limit s got results
  | .endOfStream :: results | .stopped :: results => some (s, got, results)

end Stream

structure Capture where
  stdout : Stream
  stderr : Stream
  limit : Nat
  deriving Repr, DecidableEq

namespace Capture

def empty (limit : Nat) : Capture := ⟨.empty, .empty, limit⟩

def truncated (c : Capture) : Bool := c.stdout.truncated || c.stderr.truncated

/-- Reads both streams. Answers the capture and whether anything arrived, if the results last that long. -/
def pump (c : Capture) (out err : List ReadResult) : Option (Capture × Bool) := do
  let (stdout, gotOut, _) ← c.stdout.drain c.limit false out
  let (stderr, gotErr, _) ← c.stderr.drain c.limit false err
  return ({ c with stdout := stdout, stderr := stderr }, gotOut || gotErr)

end Capture

end ProcessProbe.Diagnostic
