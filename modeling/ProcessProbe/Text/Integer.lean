/-!
# Integers in text

Decimal integers between two bounds: one optional sign, then ASCII digits, leading zeros allowed. The digits are
read from the left, so a number that passes its bound is refused there and what follows does not matter.
-/

namespace ProcessProbe.Text

/-- Why a text is not an integer of the wanted range. -/
inductive IntegerDefect where
  | empty
  | invalidDigit
  | tooLarge
  | tooSmall
  deriving Repr, DecidableEq

def IntegerDefect.message : IntegerDefect → String
  | .empty => "cannot parse integer from empty string"
  | .invalidDigit => "invalid digit found in string"
  | .tooLarge => "number too large to fit in target type"
  | .tooSmall => "number too small to fit in target type"

def digit? (c : Char) : Option Nat := if '0' ≤ c ∧ c ≤ '9' then some (c.toNat - 48) else none

def hexDigit? (c : Char) : Option Nat :=
  if c.isDigit then some (c.toNat - 48)
  else if 'a' ≤ c ∧ c ≤ 'f' then some (c.toNat - 87)
  else if 'A' ≤ c ∧ c ≤ 'F' then some (c.toNat - 55)
  else none

/-- Appends the digits to `value`, as long as it stays within `bound`. -/
def readDigits (bound : Nat) : Nat → List Char → Except Unit (Option Nat)
  | value, [] => .ok (some value)
  | value, c :: cs =>
    match digit? c with
    | none => .ok none
    | some d => if value * 10 + d ≤ bound then readDigits bound (value * 10 + d) cs else .error ()

/-- Reads an integer from `-low` to `high`; a minus sign is a digit defect where there are no negative numbers. -/
def readInteger (low high : Nat) (s : List Char) : Except IntegerDefect Int :=
  let magnitude (bound : Nat) (past : IntegerDefect) (sign : Int) (digits : List Char) : Except IntegerDefect Int :=
    match readDigits bound 0 digits with
    | .error () => .error past
    | .ok none => .error .invalidDigit
    | .ok (some n) => .ok (sign * n)
  match s with
  | [] => .error .empty
  | ['+'] | ['-'] => .error .invalidDigit
  | '+' :: digits => magnitude high .tooLarge 1 digits
  | '-' :: digits => if low = 0 then .error .invalidDigit else magnitude low .tooSmall (-1) digits
  | digits => magnitude high .tooLarge 1 digits

/-- Natural numbers up to `high`. -/
def readNat (high : Nat) (s : List Char) : Except IntegerDefect Nat := (readInteger 0 high s).map Int.toNat

/-- The largest number of 32 bits. -/
def maxU32 : Nat := 4294967295

def maxU64 : Nat := 18446744073709551615

def maxI64 : Nat := 9223372036854775807

def readU32? (s : List Char) : Option Nat := (readNat maxU32 s).toOption

def readI64? (s : List Char) : Option Int := (readInteger (maxI64 + 1) maxI64 s).toOption

end ProcessProbe.Text
