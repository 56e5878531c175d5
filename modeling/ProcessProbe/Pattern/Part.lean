import ProcessProbe.Pattern.Basic

/-!
# Parts of patterns while they are read

A pattern is put together from parts. How deep they are nested is counted, since a pattern that is nested too deep is
refused.
-/

namespace ProcessProbe.Pattern

/-- The deepest nesting that is read. -/
def depthLimit : Nat := 250

structure Part (α : Type) where
  value : α
  depth : Nat
  deriving Repr

namespace Part

variable {α β : Type}

/-- A part that has none inside. -/
def leaf (value : α) : Part α := ⟨value, 0⟩

/-- A part around another one. -/
def around (f : α → β) (p : Part α) : Part β := ⟨f p.value, p.depth + 1⟩

/-- A part around two others. -/
def both (f : α → α → β) (p q : Part α) : Part β := ⟨f p.value q.value, max p.depth q.depth + 1⟩

/-- Parts side by side, the last one first; a single one is not nested. -/
def join (f : α → α → α) (nothing : α) : List (Part α) → Part α
  | [] => leaf nothing
  | [p] => p
  | last :: before =>
    before.foldl (fun (all : Part α) p => ⟨f p.value all.value, max (p.depth + 1) all.depth⟩) (around id last)

end Part

end ProcessProbe.Pattern
