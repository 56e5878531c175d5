/-!
# JSON values

An object keeps its fields in the order in which they are written, a repeated name included, and a numeral with a
fraction or an exponent keeps its decimal digits.
-/

namespace ProcessProbe

/-- A JSON value. The numeral `± mantissa · 10 ^ exponent` was written with a fraction or an exponent, or as `-0`; what
is `unreadable` is well-formed, but has half a surrogate pair in a text or in a field name. -/
inductive Json where
  | null
  | bool (b : Bool)
  | integer (n : Int)
  | decimal (negative : Bool) (mantissa : Nat) (exponent : Int)
  | text (s : String)
  | array (items : List Json)
  | object (fields : List (String × Json))
  | unreadable
  deriving Repr, Inhabited

namespace Json

/-- The value of a field of an object, the last one if its name is repeated. -/
def get? (name : String) : Json → Option Json
  | object fields => (fields.reverse.find? (·.1 == name)).map (·.2)
  | _ => none

/-- A value that may be absent, written as `null` then. -/
def ofOption (f : α → Json) : Option α → Json
  | none => null
  | some a => f a

def ofNat (n : Nat) : Json := integer n

def ofList (f : α → Json) (xs : List α) : Json := array (xs.map f)

end Json

end ProcessProbe
