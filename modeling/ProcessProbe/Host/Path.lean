import ProcessProbe.Text.Blank
import ProcessProbe.Text.Quoted

/-!
# Paths

A path is any sequence of bytes. Its components ignore repeated separators, and the components `.` that change
nothing, and two paths are the same when their components are.
-/

namespace ProcessProbe

structure Path where
  bytes : Bytes
  deriving Repr, DecidableEq

namespace Path

def separator : UInt8 := 47

inductive Component where
  | root
  | current
  | parent
  | normal (name : Bytes)
  deriving Repr, DecidableEq

def ofString (s : String) : Path := ⟨Bytes.ofString s⟩

def shown (p : Path) : String := p.bytes.shown

def quoted (p : Path) : String := Text.quoteBytes p.bytes

def isAbsolute (p : Path) : Bool := p.bytes.head? == some separator

def segments (p : Path) : List Bytes := Text.split (· == separator) p.bytes

def dot : Bytes := [46]

def dotDot : Bytes := [46, 46]

/-- The component of a part, none for an empty part and for `.`. -/
def Component.ofSegment? (segment : Bytes) : Option Component :=
  if segment = [] ∨ segment = dot then none
  else if segment = dotDot then some .parent
  else some (.normal segment)

/-- The components in order. A relative path may start with `.`; an absolute one starts with the root. -/
def components (p : Path) : List Component :=
  let start : List Component :=
    if p.isAbsolute then [.root] else if p.segments.head? = some dot then [.current] else []
  start ++ p.segments.filterMap Component.ofSegment?

def fileName? (p : Path) : Option Bytes :=
  match p.components.getLast? with
  | some (.normal name) => some name
  | _ => none

/-- The path of `child` as seen from `p`. -/
def join (p child : Path) : Path :=
  if child.isAbsolute || p.bytes.isEmpty then child
  else if p.bytes.getLast? = some separator then ⟨p.bytes ++ child.bytes⟩
  else ⟨p.bytes ++ separator :: child.bytes⟩

def ofNames (names : List Bytes) : Path :=
  match names with
  | [] => ⟨[separator]⟩
  | names => ⟨names.flatMap (separator :: ·)⟩

/-- Adds a component to the names below the root, which are in reverse; the parent of the root is the root. -/
def follow (names : List Bytes) : Component → List Bytes
  | .root => []
  | .current => names
  | .parent => names.tail
  | .normal name => name :: names

/-- An absolute path with every `..` taken off together with the name before it, whatever the file system holds. -/
def lexicallyNormal (p : Path) : Path := ofNames (p.components.foldl follow []).reverse

def same (p q : Path) : Bool := p.components == q.components

end Path

end ProcessProbe
