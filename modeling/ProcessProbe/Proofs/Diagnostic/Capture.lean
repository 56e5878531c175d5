import ProcessProbe.Diagnostic.Supervision

/-!
# What is kept of a diagnostic's output

A stream arrives in pieces, over any number of readings, with readings of the other stream between them. What is kept
of it at any time is told by the bytes that have arrived alone. Main statement: however two streams arrive, the output
has each of them up to the limit, it is truncated just when one of them is longer, and on the way there each buffer is a
part of its stream from the start.
-/

namespace ProcessProbe.Diagnostic

/-! ## Single reads -/

inductive Pipe where
  | stdout
  | stderr
  deriving Repr, DecidableEq

structure Read where
  pipe : Pipe
  result : ReadResult
  deriving Repr, DecidableEq

def ReadResult.bytes : ReadResult → Bytes
  | data bytes => bytes
  | endOfStream | interrupted | stopped => []

def Read.bytesOf (p : Pipe) (r : Read) : Bytes := if r.pipe = p then r.result.bytes else []

/-- What has arrived of one of the streams. -/
def arrived (p : Pipe) (reads : List Read) : Bytes := reads.flatMap (Read.bytesOf p)

namespace Stream

/-- What is kept of a stream of which these bytes have arrived. -/
def ofArrived (limit : Nat) (bytes : Bytes) : Stream := ⟨bytes.take limit, limit < bytes.length⟩

def read (limit : Nat) (s : Stream) : ReadResult → Stream
  | .data bytes => s.take limit bytes
  | .endOfStream | .interrupted | .stopped => s

theorem take_ofArrived (limit : Nat) (seen bytes : Bytes) :
    (ofArrived limit seen).take limit bytes = ofArrived limit (seen ++ bytes) := by
  have hroom : limit - (seen.take limit).length = limit - seen.length := by
    rw [List.length_take]
    omega
  simp only [take, ofArrived, hroom, List.take_append, List.length_append, mk.injEq, true_and]
  rw [← Bool.decide_or, decide_eq_decide]
  omega

theorem read_ofArrived (limit : Nat) (seen : Bytes) (result : ReadResult) :
    (ofArrived limit seen).read limit result = ofArrived limit (seen ++ result.bytes) := by
  cases result with
  | data bytes => exact take_ofArrived limit seen bytes
  | endOfStream | interrupted | stopped => rw [read, ReadResult.bytes, List.append_nil]

end Stream

namespace Capture

def stream (c : Capture) : Pipe → Stream
  | .stdout => c.stdout
  | .stderr => c.stderr

/-- Changes what is kept of one of the streams. -/
def onStream (c : Capture) (p : Pipe) (f : Stream → Stream) : Capture :=
  match p with
  | .stdout => { c with stdout := f c.stdout }
  | .stderr => { c with stderr := f c.stderr }

def read (c : Capture) (r : Read) : Capture := c.onStream r.pipe (·.read c.limit r.result)

/-- What is kept of two streams of which these bytes have arrived. -/
def ofArrived (limit : Nat) (seen : Pipe → Bytes) : Capture :=
  ⟨.ofArrived limit (seen .stdout), .ofArrived limit (seen .stderr), limit⟩

theorem empty_eq (limit : Nat) : empty limit = ofArrived limit fun _ => [] := by
  simp [empty, ofArrived, Stream.empty, Stream.ofArrived]

@[simp] theorem stream_ofArrived (limit : Nat) (seen : Pipe → Bytes) (p : Pipe) :
    (ofArrived limit seen).stream p = .ofArrived limit (seen p) := by
  cases p <;> rfl

theorem read_ofArrived (limit : Nat) (seen : Pipe → Bytes) (r : Read) :
    (ofArrived limit seen).read r = ofArrived limit fun p => seen p ++ r.bytesOf p := by
  obtain ⟨pipe, result⟩ := r
  cases pipe <;> simp [read, onStream, ofArrived, Read.bytesOf, Stream.read_ofArrived]

/-- Each read leaves what has arrived so far, whichever stream it is of and whatever it meets. -/
theorem foldl_read_ofArrived (limit : Nat) (seen : Pipe → Bytes) (reads : List Read) :
    reads.foldl read (ofArrived limit seen) = ofArrived limit fun p => seen p ++ arrived p reads := by
  induction reads generalizing seen with
  | nil => simp [arrived]
  | cons r reads ih =>
    rw [List.foldl_cons, read_ofArrived, ih]
    simp [arrived]

theorem foldl_read_empty (limit : Nat) (reads : List Read) :
    reads.foldl read (empty limit) = ofArrived limit fun p => arrived p reads := by
  rw [empty_eq, foldl_read_ofArrived]
  rfl

theorem truncated_ofArrived_iff (limit : Nat) (seen : Pipe → Bytes) :
    (ofArrived limit seen).truncated = true ↔ ∃ p, limit < (seen p).length := by
  simp only [truncated, ofArrived, Stream.ofArrived, Bool.or_eq_true, decide_eq_true_eq]
  constructor
  · intro hlonger
    cases hlonger with
    | inl hout => exact ⟨.stdout, hout⟩
    | inr herr => exact ⟨.stderr, herr⟩
  · intro hlonger
    obtain ⟨p, hp⟩ := hlonger
    cases p with
    | stdout => exact .inl hp
    | stderr => exact .inr hp

end Capture

/-! ## Readings until a stream has no more to give -/

/-- What a reading meets, up to the result that ends it. -/
def asked : List ReadResult → List ReadResult
  | [] => []
  | .data bytes :: results => .data bytes :: asked results
  | .interrupted :: results => .interrupted :: asked results
  | .endOfStream :: _ => [.endOfStream]
  | .stopped :: _ => [.stopped]

def EndsReading (results : List ReadResult) : Prop := .endOfStream ∈ results ∨ .stopped ∈ results

instance : DecidablePred EndsReading := fun _ => inferInstanceAs (Decidable (_ ∨ _))

@[simp] theorem endsReading_data (bytes : Bytes) (results : List ReadResult) :
    EndsReading (.data bytes :: results) ↔ EndsReading results := by
  simp [EndsReading]

@[simp] theorem endsReading_interrupted (results : List ReadResult) :
    EndsReading (.interrupted :: results) ↔ EndsReading results := by
  simp [EndsReading]

theorem Stream.drain_eq (limit : Nat) (s : Stream) (got : Bool) {results : List ReadResult}
    (hends : EndsReading results) :
    ∃ got' rest, s.drain limit got results = some ((asked results).foldl (Stream.read limit) s, got', rest) := by
  induction results generalizing s got with
  | nil => simp [EndsReading] at hends
  | cons result results ih =>
    cases result with
    | data bytes => exact ih (s.take limit bytes) true (by simpa using hends)
    | interrupted => exact ih s got (by simpa using hends)
    | endOfStream | stopped => exact ⟨got, results, rfl⟩

theorem Stream.isSome_drain_iff {limit : Nat} {s : Stream} {got : Bool} {results : List ReadResult} :
    (s.drain limit got results).isSome = true ↔ EndsReading results := by
  induction results generalizing s got with
  | nil => simp [drain, EndsReading]
  | cons result results ih =>
    cases result with
    | data bytes => rw [drain, ih, endsReading_data]
    | interrupted => rw [drain, ih, endsReading_interrupted]
    | endOfStream | stopped => simp [drain, EndsReading]

/-- What reading both streams once meets on each of them. -/
structure Pumping where
  stdout : List ReadResult
  stderr : List ReadResult
  deriving Repr, DecidableEq

namespace Pumping

/-- The reads in order: first those of the one stream, then those of the other one. -/
def reads (x : Pumping) : List Read := (asked x.stdout).map (⟨.stdout, ·⟩) ++ (asked x.stderr).map (⟨.stderr, ·⟩)

def Ends (x : Pumping) : Prop := EndsReading x.stdout ∧ EndsReading x.stderr

instance : DecidablePred Ends := fun _ => inferInstanceAs (Decidable (_ ∧ _))

end Pumping

namespace Capture

theorem foldl_read_pipe (c : Capture) (p : Pipe) (results : List ReadResult) :
    (results.map (Read.mk p)).foldl read c = c.onStream p fun s => results.foldl (Stream.read c.limit) s := by
  induction results generalizing c with
  | nil => cases p <;> rfl
  | cons result results ih =>
    rw [List.map_cons, List.foldl_cons, ih]
    cases p <;> rfl

theorem pump_eq (c : Capture) {x : Pumping} (hends : x.Ends) :
    ∃ got, c.pump x.stdout x.stderr = some (x.reads.foldl read c, got) := by
  obtain ⟨gotOut, restOut, hout⟩ := Stream.drain_eq c.limit c.stdout false hends.1
  obtain ⟨gotErr, restErr, herr⟩ := Stream.drain_eq c.limit c.stderr false hends.2
  refine ⟨gotOut || gotErr, ?_⟩
  rw [pump, hout, herr, Pumping.reads, List.foldl_append, foldl_read_pipe, foldl_read_pipe]
  rfl

theorem exists_pump_iff {c : Capture} {out err : List ReadResult} :
    (∃ next, c.pump out err = some next) ↔ EndsReading out ∧ EndsReading err := by
  constructor
  · rintro ⟨next, hnext⟩
    obtain ⟨kept, hout, hrest⟩ := Option.bind_eq_some_iff.1 hnext
    obtain ⟨kept', herr, -⟩ := Option.bind_eq_some_iff.1 hrest
    exact ⟨Stream.isSome_drain_iff.1 (Option.isSome_of_eq_some hout),
      Stream.isSome_drain_iff.1 (Option.isSome_of_eq_some herr)⟩
  · intro hends
    obtain ⟨got, hpump⟩ := c.pump_eq (x := ⟨out, err⟩) hends
    exact ⟨_, hpump⟩

/-- Reads both streams again and again. -/
def pumps (c : Capture) : List Pumping → Option Capture
  | [] => some c
  | x :: xs => do
    let (c, _) ← c.pump x.stdout x.stderr
    c.pumps xs

theorem pumps_eq (c : Capture) {xs : List Pumping} (hends : ∀ x ∈ xs, x.Ends) :
    c.pumps xs = some ((xs.flatMap Pumping.reads).foldl read c) := by
  induction xs generalizing c with
  | nil => rfl
  | cons x xs ih =>
    obtain ⟨got, hpump⟩ := c.pump_eq (hends x List.mem_cons_self)
    rw [pumps, hpump, List.flatMap_cons, List.foldl_append]
    exact ih _ fun y hy => hends y (List.mem_cons_of_mem x hy)

end Capture

namespace Supervision

/-- The readings of a supervised run: one in each round, and one more when the child has ended. -/
def pumpings : List Round → List Pumping
  | [] => []
  | round :: rounds =>
    ⟨round.stdout, round.stderr⟩ ::
      match round.poll with
      | .running => pumpings rounds
      | .ended _ => [⟨round.lastStdout, round.lastStderr⟩]
      | .failed _ => []

variable {timeout : Duration} {limit : Nat} {deadline now : Instant} {final : Instant × List (Instant × Poll)}
  {rounds : List Round} {capture c : Capture} {actions : List Action} {exit : Option Int}

private theorem pumps_of_watch
    (h : watch timeout deadline final capture rounds = some ⟨actions, .completed c exit⟩) :
    capture.pumps (pumpings rounds) = some c := by
  induction rounds generalizing capture actions with
  | nil => contradiction
  | cons round rounds ih =>
    rw [watch] at h
    obtain ⟨⟨next, got⟩, hpump, h⟩ := Option.bind_eq_some_iff.1 h
    rw [pumpings, Capture.pumps, hpump]
    change next.pumps _ = some c
    cases hpoll : round.poll with
    | ended status =>
      rw [hpoll] at h
      obtain ⟨⟨last, got'⟩, hlast, h⟩ := Option.bind_eq_some_iff.1 h
      simp only [Option.pure_def, Option.some.injEq, Supervised.mk.injEq, Ending.completed.injEq] at h
      obtain ⟨-, rfl, -⟩ := h
      simp only [Capture.pumps, hlast]
      rfl
    | failed error =>
      rw [hpoll] at h
      simp at h
    | running =>
      rw [hpoll] at h
      simp only at h
      split at h
      · simp at h
      · obtain ⟨⟨actions', ending⟩, hwatch, h⟩ := Option.bind_eq_some_iff.1 h
        simp only [Option.pure_def, Option.some.injEq, Supervised.mk.injEq] at h
        obtain ⟨-, rfl⟩ := h
        exact ih hwatch

theorem pumps_of_completed {pipes : Except SystemError Unit}
    (h : run timeout limit now pipes rounds final = some ⟨actions, .completed c exit⟩) :
    (Capture.empty limit).pumps (pumpings rounds) = some c := by
  rw [run.eq_def] at h
  split at h
  · simp at h
  · split at h
    · simp at h
    · exact pumps_of_watch h

/-- The child is found running before the deadline, any number of times, and then to have ended. -/
inductive EndsInTime (deadline : Instant) (exit : Option Int) : List Round → Prop
  | ended {round : Round} {rest : List Round} (hpoll : round.poll = .ended exit) :
    EndsInTime deadline exit (round :: rest)
  | running {round : Round} {rest : List Round} (hpoll : round.poll = .running) (hearly : round.now < deadline)
    (h : EndsInTime deadline exit rest) : EndsInTime deadline exit (round :: rest)

theorem EndsInTime.exists_watch_eq (h : EndsInTime deadline exit rounds)
    (hpumps : capture.pumps (pumpings rounds) = some c) :
    ∃ actions, watch timeout deadline final capture rounds = some ⟨actions, .completed c exit⟩ := by
  induction h generalizing capture with
  | @ended round rest hpoll =>
    rw [pumpings, hpoll] at hpumps
    obtain ⟨⟨first, got⟩, hfirst, hpumps⟩ := Option.bind_eq_some_iff.1 hpumps
    obtain ⟨⟨last, got'⟩, hlast, hpumps⟩ := Option.bind_eq_some_iff.1 hpumps
    obtain rfl := Option.some.inj hpumps
    exact ⟨[.poll round.poll], by simp [watch, hfirst, hpoll, hlast]⟩
  | @running round rest hpoll hearly _ ih =>
    rw [pumpings, hpoll] at hpumps
    obtain ⟨⟨first, got⟩, hfirst, hpumps⟩ := Option.bind_eq_some_iff.1 hpumps
    obtain ⟨actions, hactions⟩ := ih hpumps
    exact ⟨.poll round.poll :: actions, by simp [watch, hfirst, hpoll, Nat.not_le.2 hearly, hactions]⟩

end Supervision

/-- When the readings have taken in two streams, in whatever pieces and with whatever interruptions, each of them is
kept up to the limit, and the output is truncated just when one of them is longer than that. It is made read by read,
and after any part of the reads each buffer is within the limit and a part of its stream from the start. This is what a
run that completes returns, and a run completes when it finds in time that the child has ended. -/
theorem captured_streams_are_capped {limit : Nat} {pumpings : List Pumping} {stream : Pipe → Bytes}
    (hends : ∀ x ∈ pumpings, x.Ends) (hread : ∀ p, arrived p (pumpings.flatMap Pumping.reads) = stream p) :
    ∃ c, (Capture.empty limit).pumps pumpings = some c ∧
      (∀ p, (c.stream p).kept = (stream p).take limit) ∧
      (c.truncated = true ↔ ∃ p, limit < (stream p).length) ∧
      c = (pumpings.flatMap Pumping.reads).foldl Capture.read (.empty limit) ∧
      (∀ before, before <+: pumpings.flatMap Pumping.reads → ∀ p,
        ((before.foldl Capture.read (.empty limit)).stream p).kept.length ≤ limit ∧
          ((before.foldl Capture.read (.empty limit)).stream p).kept <+: stream p) ∧
      (∀ timeout now pipes rounds final actions c' exit, Supervision.pumpings rounds = pumpings →
        Supervision.run timeout limit now pipes rounds final = some ⟨actions, .completed c' exit⟩ → c' = c) ∧
      ∀ timeout now deadline rounds final exit, Supervision.pumpings rounds = pumpings →
        Supervision.deadline? now timeout = some deadline → Supervision.EndsInTime deadline exit rounds →
          ∃ actions, Supervision.run timeout limit now (.ok ()) rounds final = some ⟨actions, .completed c exit⟩ := by
  have hpumps := (Capture.empty limit).pumps_eq hends
  have hstream : (fun p => arrived p (pumpings.flatMap Pumping.reads)) = stream := funext hread
  have hleft := Capture.foldl_read_empty limit (pumpings.flatMap Pumping.reads)
  rw [hstream] at hleft
  rw [hleft] at hpumps
  refine ⟨_, hpumps, fun p => ?_, Capture.truncated_ofArrived_iff limit stream, hleft.symm,
    fun before hbefore p => ?_, ?_, ?_⟩
  · rw [Capture.stream_ofArrived]
    rfl
  · rw [Capture.foldl_read_empty, Capture.stream_ofArrived]
    refine ⟨List.length_take_le limit _, (List.take_prefix limit _).trans ?_⟩
    obtain ⟨after, hafter⟩ := hbefore
    rw [← hread p, ← hafter]
    exact ⟨arrived p after, (List.flatMap_append).symm⟩
  · intro timeout now pipes rounds final actions c' exit hrounds hrun
    have hcompleted := Supervision.pumps_of_completed hrun
    rw [hrounds, hpumps] at hcompleted
    exact (Option.some.inj hcompleted).symm
  · intro timeout now deadline rounds final exit hrounds hdeadline htime
    rw [Supervision.run, hdeadline]
    exact htime.exists_watch_eq (hrounds ▸ hpumps)

/-- `ab`, then `cd`, with two errors that mean nothing in between; the other stream comes in the first reading and is as
long as the limit. -/
def interleaved : List Pumping :=
  [⟨[.data [97, 98], .interrupted, .stopped], [.data [120], .data [121, 122], .stopped]⟩,
    ⟨[.interrupted, .data [99, 100], .endOfStream], [.endOfStream]⟩]

/-- The readings of a run that finds the child to have ended in its first round. -/
def interleavedRound : Round :=
  ⟨[.data [97, 98], .interrupted, .stopped], [.data [120], .data [121, 122], .stopped], .ended (some 0), 0,
    [.interrupted, .data [99, 100], .endOfStream], [.endOfStream]⟩

theorem captured_streams_are_capped_interleaved : (∀ x ∈ interleaved, x.Ends) ∧
    ∃ c, (Capture.empty 3).pumps interleaved = some c ∧ c.stdout.kept = [97, 98, 99] ∧
      c.stderr.kept = [120, 121, 122] ∧ c.truncated = true ∧
      ∃ actions, Supervision.run (.ofMillis 1) 3 0 (.ok ()) [interleavedRound] (0, []) =
        some ⟨actions, .completed c (some 0)⟩ := by
  have hends : ∀ x ∈ interleaved, x.Ends := by decide
  obtain ⟨c, hpumps, hkept, htruncated, -, -, -, hcompletes⟩ := @captured_streams_are_capped 3 _ _ hends fun _ => rfl
  have hdeadline : Supervision.deadline? 0 (.ofMillis 1) = some 1000000 := by decide
  exact ⟨hends, c, hpumps, hkept .stdout, hkept .stderr, htruncated.2 ⟨.stdout, by decide⟩,
    hcompletes _ _ _ [interleavedRound] (0, []) (some 0) rfl hdeadline (.ended rfl)⟩

end ProcessProbe.Diagnostic
