import ProcessProbe.Json.Basic

/-!
# Binary fractions in JSON

The decimal numeral of a floating-point number: of the shortest numerals that are nearer to it than to any other
such number, the nearest. All arithmetic is on natural numbers.
-/

namespace ProcessProbe.Json

/-- A positive number `mantissa · 2 ^ exponent`. It is `tight` when the next smaller floating-point number is only half
as far away as the next larger one. -/
structure Dyadic where
  mantissa : Nat
  exponent : Int
  tight : Bool

namespace Dyadic

def hidden : Nat := 4503599627370496

/-- The absolute value of the finite, non-zero number with these bits. -/
def ofBits (bits : UInt64) : Dyadic :=
  let fraction : Nat := bits.toNat % hidden
  let biased : Nat := bits.toNat / hidden % 2048
  if biased = 0 then ⟨fraction, -1074, false⟩
  else ⟨hidden + fraction, Int.ofNat biased - 1075, fraction = 0 && biased > 1⟩

/-- Factors `a` and `b` such that `d · 10 ^ e` compares with a quarter of `x · 2 ^ x.exponent` as `d * a` does with
`x * b`. -/
def scales (x : Dyadic) (e : Int) : Nat × Nat :=
  let q := x.exponent - 2
  (Nat.pow 10 e.toNat * Nat.pow 2 (-q).toNat, Nat.pow 10 (-e).toNat * Nat.pow 2 q.toNat)

/-- Whether `d · 10 ^ e` is read back as `x`. -/
def isReadFrom (x : Dyadic) (d : Nat) (e : Int) : Bool :=
  let (a, b) := x.scales e
  let low := (4 * x.mantissa - (if x.tight then 1 else 2)) * b
  let high := (4 * x.mantissa + 2) * b
  if x.mantissa % 2 = 0 then low ≤ d * a && d * a ≤ high else low < d * a && d * a < high

/-- The nearer of the two multiples of `10 ^ e` around `x` that is read back as `x`. -/
def candidate? (x : Dyadic) (e : Int) : Option Nat :=
  let (a, b) := x.scales e
  let value := 4 * x.mantissa * b
  let below := value / a
  let order := if value - below * a ≤ (below + 1) * a - value then [below, below + 1] else [below + 1, below]
  order.find? fun d => x.isReadFrom d e

/-- The number of digits before the point, negative for zeros after it: at most 310, and at least -325. -/
def magnitude (x : Dyadic) : Int :=
  let reaches (k : Int) : Bool := let (a, b) := x.scales k; a ≤ 4 * x.mantissa * b
  (((List.range 640).map fun i : Nat => 310 - Int.ofNat i).find? reaches).getD (-325) + 1

/-- The shortest numeral as digits and an exponent of ten. -/
def shortest (x : Dyadic) : Nat × Int :=
  let k := x.magnitude
  let exponents := (List.range 17).map fun n : Nat => k - Int.ofNat (n + 1)
  (exponents.findSome? fun e => (x.candidate? e).map fun d => (d, e)).getD (0, 0)

end Dyadic

def signBit : Nat := 9223372036854775808

/-- The numeral of a finite number; infinities and what is no number have none. -/
def ofFloat? (x : Float) : Option Json :=
  if !x.isFinite then none
  else
    let bits := x.toBits
    let negative := bits.toNat / signBit = 1
    if bits.toNat % signBit = 0 then some (.decimal negative 0 0)
    else
      let (mantissa, exponent) := (Dyadic.ofBits bits).shortest
      some (.decimal negative mantissa exponent)

/-- The floating-point number nearest to a numeral. -/
def toFloat? : Json → Option Float
  | integer n => some (Float.ofInt n)
  | decimal negative mantissa exponent =>
    let x := Float.ofScientific mantissa (exponent < 0) exponent.natAbs
    some (if negative then -x else x)
  | _ => none

end ProcessProbe.Json
