import ProcessProbe.Failure
import ProcessProbe.Json.Record
import ProcessProbe.Text.Blank
import ProcessProbe.Text.Integer

/-!
# Process handles

A handle is a positive process number that a signed 32-bit integer can hold, so it never addresses a group of
processes.
-/

namespace ProcessProbe

/-- The largest process number, that of signed 32-bit integers. -/
def Handle.max : Nat := 2147483647

structure Handle where
  pid : Nat
  pid_pos : 0 < pid
  pid_le : pid ≤ Handle.max
  deriving Repr, DecidableEq

namespace Handle

def ofNat? (n : Nat) : Option Handle := if h : 0 < n ∧ n ≤ max then some ⟨n, h.1, h.2⟩ else none

/-- The handle with a given number, or the refusal of that number. -/
def ofInt (raw : Int) : Except Failure Handle :=
  match raw with
  | .ofNat n => (ofNat? n).elim (.error (.invalidHandle raw)) .ok
  | .negSucc _ => .error (.invalidHandle raw)

def ofNat (raw : Nat) : Except Failure Handle := ofInt raw

/-- Reads a decimal number between blanks. A text that is no number of 64 bits is refused as zero. -/
def ofText (s : List Char) : Except Failure Handle :=
  match Text.readI64? (Text.trim s) with
  | some raw => ofInt raw
  | none => .error (.invalidHandle 0)

def toInt (h : Handle) : Int := h.pid

def message (h : Handle) : String := toString h.pid

def toJson (h : Handle) : Json := .ofNat h.pid

def ofJson? : Json → Option Handle
  | .integer n => (ofInt n).toOption
  | _ => none

theorem eq_of_pid_eq {h k : Handle} (hpid : h.pid = k.pid) : h = k := by
  cases h
  cases k
  cases hpid
  rfl

theorem ofNat?_eq_some_iff {n : Nat} {h : Handle} : ofNat? n = some h ↔ h.pid = n := by
  obtain ⟨p, h₁, h₂⟩ := h
  unfold ofNat?
  split <;> simp_all <;> omega

@[simp] theorem ofNat?_pid (h : Handle) : ofNat? h.pid = some h := ofNat?_eq_some_iff.2 rfl

@[simp] theorem ofInt_toInt (h : Handle) : ofInt h.toInt = .ok h := by
  change (ofNat? h.pid).elim _ _ = _
  simp

theorem ofInt_eq_ok_iff {raw : Int} {h : Handle} : ofInt raw = .ok h ↔ raw = h.toInt := by
  constructor
  · intro hmade
    cases raw with
    | ofNat n =>
      change (ofNat? n).elim (Except.error (Failure.invalidHandle n)) Except.ok = .ok h at hmade
      cases hn : ofNat? n with
      | none => simp [hn] at hmade
      | some k =>
        obtain rfl : k = h := by simpa [hn] using hmade
        rw [toInt, ofNat?_eq_some_iff.1 hn]
        rfl
    | negSucc n => contradiction
  · rintro rfl
    exact ofInt_toInt h

end Handle

end ProcessProbe
