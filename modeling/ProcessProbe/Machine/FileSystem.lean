import ProcessProbe.Host.Path
import ProcessProbe.Host.SystemError

/-!
# File systems

A file system as a value: directories, files and links by the names that lead to them from the root. A path is walked
name by name. Every link on the way is followed, up to a limit; whether the last one is depends on the call.
-/

namespace ProcessProbe.Machine

/-- What a path leads to; a `tool` is a diagnostic that can be run. -/
inductive Node where
  | directory
  | file (content : Bytes) (executable : Bool)
  | tool
  | link (target : Path)
  deriving Repr, DecidableEq

/-- Names from an entry up to the root. -/
abbrev Location := List Bytes

structure FileSystem where
  nodes : List (Location × Node)
  deriving Repr

namespace FileSystem

def empty : FileSystem := ⟨[]⟩

def node? (fs : FileSystem) (l : Location) : Option Node :=
  if l.isEmpty then some .directory else (fs.nodes.find? (·.1 == l)).map (·.2)

def set (fs : FileSystem) (l : Location) (node : Node) : FileSystem := ⟨(l, node) :: fs.nodes.filter (·.1 != l)⟩

def erase (fs : FileSystem) (l : Location) : FileSystem := ⟨fs.nodes.filter fun (l', _) => !l.isSuffixOf l'⟩

def names (fs : FileSystem) (l : Location) : List Bytes :=
  fs.nodes.filterMap fun (l', _) =>
    match l' with
    | name :: parent => if parent = l then some name else none
    | [] => none

/-- The most links that are followed on one way. -/
def maxLinks : Nat := 40

/-- The length that no name exceeds. -/
def maxName : Nat := 255

/-- The length that a path has to stay below. -/
def maxPath : Nat := 4096

/-- The steps of a way: `.` and `..` are steps too, and a separator at the end is one to `.`, which only a directory
has. -/
def stepsOf (path : Path) : List Bytes :=
  let parts := path.segments
  parts.filter (!·.isEmpty) ++ if parts.getLast? = some [] then [Path.dot] else []

/-- Walks from a location. `links` more links may be followed, the last step being one of them if `follow` holds. -/
def walkFrom (fs : FileSystem) (follow : Bool) (links : Nat) (l : Location) (steps : List Bytes) :
    Except SystemError Location :=
  match steps with
  | [] => .ok l
  | step :: rest =>
    if fs.node? l != some .directory then .error .notADirectory
    else if step = Path.dot then walkFrom fs follow links l rest
    else if step = Path.dotDot then walkFrom fs follow links l.tail rest
    else if maxName < step.length then .error .nameTooLong
    else
      match fs.node? (step :: l) with
      | none => .error .noSuchEntry
      | some (.link target) =>
        if rest.isEmpty && !follow then .ok (step :: l)
        else
          match links with
          | 0 => .error .tooManyLinks
          | links + 1 => walkFrom fs follow links (if target.isAbsolute then [] else l) (stepsOf target ++ rest)
      | some _ => walkFrom fs follow links (step :: l) rest
termination_by (links, steps.length)

/-- The location that a path leads to. A relative path starts at the root, where the caller works. -/
def walk (fs : FileSystem) (follow : Bool) (path : Path) : Except SystemError Location :=
  if path.bytes.isEmpty then .error .noSuchEntry
  else if maxPath ≤ path.bytes.length then .error .nameTooLong
  else walkFrom fs follow maxLinks [] (stepsOf path)

def lookUp (fs : FileSystem) (follow : Bool) (path : Path) : Except SystemError Node := do
  match fs.node? (← fs.walk follow path) with
  | some node => return node
  | none => throw .noSuchEntry

def resolve (fs : FileSystem) (path : Path) : Except SystemError Path := do
  return .ofNames (← fs.walk true path).reverse

def readLink (fs : FileSystem) (path : Path) : Except SystemError Path := do
  match ← fs.lookUp false path with
  | .link target => return target
  | _ => throw .invalidArgument

def readFile (fs : FileSystem) (path : Path) : Except SystemError Bytes := do
  match ← fs.lookUp true path with
  | .file content _ => return content
  | .directory => throw .isADirectory
  | _ => return []

def list (fs : FileSystem) (path : Path) : Except SystemError (List Bytes) := do
  let l ← fs.walk true path
  match fs.node? l with
  | some .directory => return fs.names l
  | _ => throw .notADirectory

/-- Adds a directory with the directories above it, and answers where it is. What is there already stays. -/
def addDirectory (fs : FileSystem) (path : Path) : FileSystem × Location :=
  path.components.foldl (fun (fs, l) component =>
    match component with
    | .normal name =>
      match fs.walkFrom true maxLinks l [name] with
      | .ok l => (fs, l)
      | .error _ => (fs.set (name :: l) .directory, name :: l)
    | component => (fs, Path.follow l component)) (fs, [])

/-- Puts an entry at a path, in place of what is there, with the directories above it. -/
def put (fs : FileSystem) (path : Path) (node : Node) : FileSystem :=
  match path.components.getLast? with
  | some (.normal name) =>
    let parent : Path := ⟨(path.bytes.reverse.dropWhile (· != Path.separator)).reverse⟩
    let (fs, l) := fs.addDirectory parent
    (fs.erase (name :: l)).set (name :: l) node
  | _ => fs

def remove (fs : FileSystem) (path : Path) : FileSystem :=
  match fs.walk false path with
  | .ok l => fs.erase l
  | .error _ => fs

end FileSystem

end ProcessProbe.Machine
