import ProcessProbe.Text.Integer
import ProcessProbe.Text.Named

/-!
# Real numbers in text

Decimal numbers with a point, an exponent, both or neither, and the names of the infinite one and of what is no number;
each may have a sign. A digit has to stand on one side of the point at least.
-/

namespace ProcessProbe.Text

/-- The floating-point number nearest to `mantissa · 10 ^ exponent`. What lies beyond all of them, by the number of its
digits, is not computed. -/
def nearestReal (mantissa : Nat) (exponent : Int) : Float :=
  let magnitude := exponent + (Nat.toDigits 10 mantissa).length
  if mantissa = 0 || magnitude < -400 then 0.0
  else if magnitude > 400 then 1.0 / 0.0
  else Float.ofScientific mantissa (exponent < 0) exponent.natAbs

/-- A positive number without a name. -/
def readUnsigned? (s : List Char) : Option Float :=
  let digits (s : List Char) : List Char × List Char := s.span Char.isDigit
  let value (s : List Char) : Nat := s.foldl (fun n c => n * 10 + (c.toNat - 48)) 0
  let (whole, s) := digits s
  let (fraction, s) := match s with
    | '.' :: s => digits s
    | s => ([], s)
  let number (exponent : Int) : Option Float :=
    if whole.isEmpty && fraction.isEmpty then none
    else some (nearestReal (value (whole ++ fraction)) (exponent - fraction.length))
  match s with
  | [] => number 0
  | e :: s =>
    let (sign, s) : Int × List Char := match s with
      | '+' :: s => (1, s)
      | '-' :: s => (-1, s)
      | s => (1, s)
    if e.toLower = 'e' && !s.isEmpty && s.all Char.isDigit then number (sign * value s) else none

/-- Reads a number of any kind. -/
def readReal? (s : List Char) : Option Float :=
  let unsigned (s : List Char) : Option Float :=
    if sameLetters s "inf".toList || sameLetters s "infinity".toList then some (1.0 / 0.0)
    else if sameLetters s "nan".toList then some (0.0 / 0.0)
    else readUnsigned? s
  match s with
  | '-' :: s => (unsigned s).map (-·)
  | '+' :: s => unsigned s
  | s => unsigned s

end ProcessProbe.Text
