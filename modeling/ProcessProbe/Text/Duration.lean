/-!
# Durations

A span of time in whole nanoseconds. It is shown in the largest of the units s, ms, µs and ns of which it holds at
least one, with as many decimals as it needs.
-/

namespace ProcessProbe

structure Duration where
  nanoseconds : Nat
  deriving Repr, DecidableEq, Inhabited

namespace Duration

def ofMillis (ms : Nat) : Duration := ⟨ms * 1000000⟩

def toMillis (d : Duration) : Nat := d.nanoseconds / 1000000

theorem toMillis_ofMillis (ms : Nat) : (ofMillis ms).toMillis = ms := by simp [ofMillis, toMillis]

/-- Decimals of `n` units, `width` digits of which make a whole, after a point and without final zeros. -/
def decimals (width n : Nat) : List Char :=
  let digits := Nat.toDigits 10 n
  let padded := List.replicate (width - digits.length) '0' ++ digits
  match (padded.reverse.dropWhile (· == '0')).reverse with
  | [] => []
  | ds => '.' :: ds

def message (d : Duration) : String :=
  let write (size width : Nat) (unit : String) : String :=
    toString (d.nanoseconds / size) ++ String.ofList (decimals width (d.nanoseconds % size)) ++ unit
  if d.nanoseconds ≥ 1000000000 then write 1000000000 9 "s"
  else if d.nanoseconds ≥ 1000000 then write 1000000 6 "ms"
  else if d.nanoseconds ≥ 1000 then write 1000 3 "µs"
  else write 1 0 "ns"

end Duration

end ProcessProbe
