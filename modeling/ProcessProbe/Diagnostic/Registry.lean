/-!
# The registry of diagnostics

Every diagnostic is a child of the caller while it runs. The registry remembers the process numbers of those that
are running and, for a while, of those that have been reaped, so that a capture can leave them out.
-/

namespace ProcessProbe.Diagnostic

/-- A reading of the monotonic clock, in nanoseconds. -/
abbrev Instant := Nat

structure Registry.Item where
  pid : Nat
  reapedAt : Option Instant
  deriving Repr, DecidableEq

structure Registry where
  items : List Registry.Item
  deriving Repr, DecidableEq

namespace Registry

def empty : Registry := ⟨[]⟩

def memory : Nat := 60000000000

/-- Whether an item is kept at a time: it is not reaped, or was so less than `memory` ago. -/
def Item.isFresh (now : Instant) (item : Item) : Bool :=
  match item.reapedAt with
  | some t => now - t < memory
  | none => true

/-- Forgets what is no longer fresh and adds a running diagnostic. -/
def register (r : Registry) (now : Instant) (pid : Nat) : Registry :=
  ⟨r.items.filter (Item.isFresh now) ++ [⟨pid, none⟩]⟩

/-- Marks what runs under a process number as reaped. -/
def markReaped (r : Registry) (now : Instant) (pid : Nat) : Registry :=
  ⟨r.items.map fun item => if item.pid = pid ∧ item.reapedAt = none then { item with reapedAt := some now } else item⟩

/-- The process numbers of diagnostics that ran at some time from `since` on. -/
def since (r : Registry) (since : Instant) : List Nat :=
  (r.items.filter fun item => item.reapedAt.all (since ≤ ·)).map (·.pid)

end Registry

end ProcessProbe.Diagnostic
