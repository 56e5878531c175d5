import ProcessProbe.Host.Request

/-!
# Inquiries

A computation that asks the host and continues with its answers. What it asks is data, so that a statement about an
inquiry holds of every host.
-/

namespace ProcessProbe

inductive Inquiry (α : Type) where
  | done (value : α)
  | ask (request : Request) (next : request.Answer → Inquiry α)

/-- A machine that answers requests, in a state that its answers may change. -/
structure Host (σ : Type) where
  answer : (request : Request) → σ → request.Answer × σ

namespace Inquiry

variable {α β γ σ : Type}

def bind : Inquiry α → (α → Inquiry β) → Inquiry β
  | done value, f => f value
  | ask request next, f => ask request fun answer => (next answer).bind f

instance : Monad Inquiry where
  pure := done
  bind := bind

@[simp] theorem done_bind (value : α) (f : α → Inquiry β) : done value >>= f = f value := rfl

@[simp] theorem ask_bind (request : Request) (next : request.Answer → Inquiry α) (f : α → Inquiry β) :
    ask request next >>= f = ask request fun answer => next answer >>= f := rfl

theorem bind_done (q : Inquiry α) : q >>= done = q := by
  induction q with
  | done value => rfl
  | ask request next ih => exact congrArg (ask request) (funext ih)

theorem bind_assoc (q : Inquiry α) (f : α → Inquiry β) (g : β → Inquiry γ) :
    q >>= f >>= g = q >>= fun a => f a >>= g := by
  induction q with
  | done value => rfl
  | ask request next ih => exact congrArg (ask request) (funext ih)

instance : LawfulMonad Inquiry := LawfulMonad.mk' Inquiry bind_done (fun _ _ => rfl) bind_assoc

def send (request : Request) : Inquiry request.Answer := ask request done

def probe (pid : Int) : Inquiry (Except SystemError Unit) := send (.probe pid)

def readFile (path : Path) : Inquiry (Except SystemError Bytes) := send (.readFile path)

def readLink (path : Path) : Inquiry (Except SystemError Path) := send (.readLink path)

def resolve (path : Path) : Inquiry (Except SystemError Path) := send (.resolve path)

def list (path : Path) : Inquiry (Except SystemError (List Bytes)) := send (.list path)

def isPresent (path : Path) : Inquiry Bool := send (.isPresent path)

def isDirectory (path : Path) : Inquiry Bool := send (.isDirectory path)

def metadata (path : Path) : Inquiry (Except SystemError Metadata) := send (.metadata path)

def start (invocation : Invocation) : Inquiry Run := send (.run invocation)

def diagnosticsSince (since : Diagnostic.Instant) : Inquiry (List Nat) := send (.diagnosticsSince since)

def clock : Inquiry Diagnostic.Instant := send .clock

def record (entry : Journal.Entry) : Inquiry Unit := send (.record entry)

def environment (name : String) : Inquiry (Option Bytes) := send (.environment name)

def ownPid : Inquiry Nat := send .ownPid

def platform : Inquiry Platform := send .platform

def timestamp : Inquiry String := send .timestamp

def identity : Inquiry (String × String) := send .identity

/-- The value that an inquiry comes to on a host, and the state it leaves. -/
def run (host : Host σ) : Inquiry α → σ → α × σ
  | done value, s => (value, s)
  | ask request next, s =>
    let (answer, s) := host.answer request s
    (next answer).run host s

@[simp] theorem run_done (host : Host σ) (value : α) (s : σ) : (done value).run host s = (value, s) := rfl

@[simp] theorem run_ask (host : Host σ) (request : Request) (next : request.Answer → Inquiry α) (s : σ) :
    (ask request next).run host s = (next (host.answer request s).1).run host (host.answer request s).2 := rfl

theorem run_bind (host : Host σ) (q : Inquiry α) (f : α → Inquiry β) (s : σ) :
    (q >>= f).run host s = (f (q.run host s).1).run host (q.run host s).2 := by
  induction q generalizing s with
  | done value => rfl
  | ask request next ih => exact ih ..

end Inquiry

abbrev Query := ExceptT Failure Inquiry

namespace Query

variable {α : Type}

def ofExcept (r : Except Failure α) : Query α := ExceptT.mk (pure r)

def outcome (q : Query α) : Inquiry (Except Failure α) := ExceptT.run q

end Query

end ProcessProbe
