import ProcessProbe.Diagnostic.Output
import ProcessProbe.Diagnostic.Registry
import ProcessProbe.Host.Path
import ProcessProbe.Journal.Entry

/-!
# Requests to the host

What a query may ask the machine it runs on, and what the machine may answer.
-/

namespace ProcessProbe

/-- A diagnostic to run, with the time it may take and the number of bytes to keep of each stream. -/
structure Invocation where
  command : String
  args : List String
  timeout : Duration
  limit : Nat
  deriving Repr, DecidableEq

inductive Run where
  | notStarted (error : SystemError)
  | failed (error : Diagnostic.Error)
  | finished (pid : Nat) (stdout stderr : Bytes) (truncated : Bool) (exit : Option Int)
  deriving Repr, DecidableEq

structure Platform where
  os : String
  kernelRelease : Option String
  arch : String
  deriving Repr, DecidableEq

inductive EntryKind where
  | file
  | directory
  | other
  deriving Repr, DecidableEq

/-- What is known of the entry that a path leads to, with its permission bits. -/
structure Metadata where
  kind : EntryKind
  mode : UInt32
  deriving Repr, DecidableEq

/-- What the program asks of its host. A probe sends signal zero, a resolved path has every link followed, and a
directory is listed in the order of the file system. The diagnostics since an instant are the numbers of the caller's
own ones that ran at some time from then on. -/
inductive Request where
  | probe (pid : Int)
  | readFile (path : Path)
  | readLink (path : Path)
  | resolve (path : Path)
  | list (path : Path)
  | isPresent (path : Path)
  | isDirectory (path : Path)
  | metadata (path : Path)
  | run (invocation : Invocation)
  | diagnosticsSince (since : Diagnostic.Instant)
  | clock
  | record (entry : Journal.Entry)
  | environment (name : String)
  | ownPid
  | platform
  | timestamp
  | identity
  deriving Repr

/-- What a request is answered with. -/
def Request.Answer : Request → Type
  | probe _ => Except SystemError Unit
  | readFile _ => Except SystemError Bytes
  | readLink _ => Except SystemError Path
  | resolve _ => Except SystemError Path
  | list _ => Except SystemError (List Bytes)
  | isPresent _ => Bool
  | isDirectory _ => Bool
  | metadata _ => Except SystemError Metadata
  | run _ => Run
  | diagnosticsSince _ => List Nat
  | clock => Diagnostic.Instant
  | record _ => Unit
  | environment _ => Option Bytes
  | ownPid => Nat
  | platform => Platform
  | timestamp => String
  | identity => String × String

end ProcessProbe
