import ProcessProbe.Process.Liveness
import ProcessProbe.Report.WorkingDirectory

/-!
# The working directory

The canonical path of the directory in which a process works, by one strategy.
-/

namespace ProcessProbe.WorkingDirectory

open Diagnostic (Policy)

/-- Where the directory of a process is looked for: as the platform does by default, in the report of `lsof`, or in the
process file system. -/
inductive Strategy where
  | generic
  | lsof
  | procfs
  deriving Repr, DecidableEq

namespace Strategy

def all : List Strategy := [generic, lsof, procfs]

def platformOrder : List Strategy := [procfs, lsof]

def name : Strategy → String
  | generic => "generic"
  | lsof => "lsof"
  | procfs => "procfs"

def ofName? (name : String) : Option Strategy := all.find? (·.name == name)

end Strategy

/-- What is added to the path of a directory that was removed. -/
def deletedMark : List Char := " (deleted)".toList

/-- The path without the mark of a removed directory, unless there is an entry that is named like this. -/
def deletedTarget? (raw : List Char) : Inquiry (Option (List Char)) :=
  if deletedMark.isSuffixOf raw then do
    if ← Inquiry.isPresent ⟨Utf8.encode raw⟩ then return none
    else return some (raw.take (raw.length - deletedMark.length))
  else return none

/-- The canonical form of a raw answer. When the caller may not follow the path, it is taken by its text. -/
def canonical (h : Handle) (raw : Path) (backend : String) : Query Path := do
  if !raw.isAbsolute then throw (.parse backend s!"expected an absolute path, got {raw.quoted}")
  match ← Inquiry.resolve raw with
  | .ok path => return path
  | .error e =>
    if e.isNotFound then throw (.unavailable h.pid s!"{raw.shown} no longer exists")
    else if e.isDenied then return raw.lexicallyNormal
    else throw (.backendUnavailable backend s!"cannot canonicalize {raw.shown}: {e.message}")

/-- The answer to a raw path and its text: a removed directory has none. -/
def settle (h : Handle) (raw : Path) (text : List Char) (backend : String) : Query Path := do
  match ← deletedTarget? text with
  | some gone => throw (.unavailable h.pid s!"directory {String.ofList gone} was deleted")
  | none => canonical h raw backend

/-- What a failure to read the link says. -/
def linkFailure (h : Handle) (e : SystemError) : Failure :=
  if e.isNotFound then .notFound h.pid
  else if e.isDenied then .permissionDenied h.pid e.message
  else if e = .noSuchProcess then .notFound h.pid
  else if e = .invalidArgument then .parse "procfs" "cwd entry is not a symlink"
  else .backendUnavailable "procfs" e.message

def viaLink (procRoot : Path) (h : Handle) : Query Path := do
  if !(← Inquiry.isDirectory procRoot) then
    throw (.backendUnavailable "procfs" s!"{procRoot.shown} is not mounted")
  match ← Inquiry.readLink (Liveness.entry procRoot h.pid "cwd") with
  | .error e => throw (linkFailure h e)
  | .ok target => settle h target (Utf8.decodeLossy target.bytes) "procfs"

/-- Asks `lsof`. When it reports nothing the process is gone, or it is hidden from the caller. -/
def viaReport (p : Policy) (procRoot : Path) (h : Handle) : Query Path := do
  match ← p.run "lsof" (Diagnostic.directoryArgs h) none with
  | .error e => throw (e.failure "lsof")
  | .ok o =>
    if o.truncated then throw (.parse "lsof" "output truncated")
    match Report.WorkingDirectory.ofText o.stdoutText with
    | .error defect => throw (defect.failure "lsof")
    | .ok (some (.path raw)) => settle h ⟨Utf8.encode raw⟩ raw "lsof"
    | .ok (some (.denied detail)) => throw (.permissionDenied h.pid (String.ofList detail))
    | .ok none =>
      if o.exit = some 0 ∨ o.exit = some 1 then
        Liveness.ensureLive p procRoot h
        throw (.permissionDenied h.pid "lsof reported no cwd for a live process")
      else throw (.parse "lsof" s!"unexpected exit {o.exitShown}: {o.stderrHead}")

/-- The answer of one strategy; the default is none of its own. -/
def resolve (p : Policy) (procRoot : Path) (h : Handle) : Strategy → Query Path
  | .procfs => viaLink procRoot h
  | .lsof => viaReport p procRoot h
  | .generic => throw (.backendUnavailable "generic" "generic resolution has no backend of its own")

end ProcessProbe.WorkingDirectory
