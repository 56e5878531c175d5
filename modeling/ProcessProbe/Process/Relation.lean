import ProcessProbe.Process.Handle

/-!
# Relations between processes

A relation names a process and its parent, and a table holds the relations of one capture. A table made by `ofList`
has one row for each process, so it is a function from a process to its parent; one that is read back from JSON has
the rows that were written.
-/

namespace ProcessProbe

/-- A process and its parent, absent for one whose parent has no handle. -/
structure Relation where
  process : Handle
  parent : Option Handle
  deriving Repr, DecidableEq

namespace Relation

/-- The relation of two process numbers. A process without a handle and one that is its own parent have none. -/
def ofPids? (pid ppid : Nat) : Option Relation :=
  if pid = ppid then none else (Handle.ofNat? pid).map fun process => ⟨process, Handle.ofNat? ppid⟩

def toJson (r : Relation) : Json := .object [("pid", r.process.toJson), ("ppid", .ofOption Handle.toJson r.parent)]

def ofJson? (v : Json) : Option Relation := do
  match ← Json.record? ["pid", "ppid"] v with
  | [pid, ppid] => return ⟨← Json.required? Handle.ofJson? pid, ← Json.absent? Handle.ofJson? ppid⟩
  | _ => none

end Relation

structure RelationTable where
  rows : List Relation
  deriving Repr, DecidableEq

namespace RelationTable

/-- Appends a row, unless its process has one. `rows` are in reverse. -/
def keepFirst (rows : List Relation) (r : Relation) : List Relation :=
  if rows.any (·.process == r.process) then rows else r :: rows

def ofList (rows : List Relation) : RelationTable := ⟨(rows.foldl keepFirst []).reverse⟩

def contains (t : RelationTable) (h : Handle) : Bool := t.rows.any (·.process == h)

def hasChildren (t : RelationTable) (h : Handle) : Bool := t.rows.any (·.parent == some h)

def childrenOf (t : RelationTable) (h : Handle) : List Handle :=
  (t.rows.filter (·.parent == some h)).map (·.process)

def relation? (t : RelationTable) (h : Handle) : Option Relation := t.rows.find? (·.process == h)

def parentOf? (t : RelationTable) (h : Handle) : Option Handle := (t.relation? h).bind (·.parent)

/-- The table without the processes that satisfy `skip`; their children keep them as parents. -/
def without (t : RelationTable) (skip : Handle → Bool) : RelationTable := ⟨t.rows.filter (!skip ·.process)⟩

def size (t : RelationTable) : Nat := t.rows.length

def isEmpty (t : RelationTable) : Bool := t.rows.isEmpty

def toJson (t : RelationTable) : Json := .object [("relations", .ofList Relation.toJson t.rows)]

def ofJson? (v : Json) : Option RelationTable := do
  match ← Json.record? ["relations"] v with
  | [rows] => return ⟨← (← Json.required? Json.array? rows).mapM Relation.ofJson?⟩
  | _ => none

end RelationTable

end ProcessProbe
