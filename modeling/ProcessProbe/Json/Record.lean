import ProcessProbe.Json.Basic

/-!
# Records in JSON

A record is written as an object, whose other fields are skipped and in which none of its own may be repeated, or
as an array of all its fields in order. A field that may be absent may be left out of the object.
-/

namespace ProcessProbe.Json

/-- Whether a name of `names` occurs twice among the fields. -/
def repeats (names : List String) (fields : List (String × Json)) : Bool :=
  names.any fun name => (fields.filter (·.1 == name)).length > 1

/-- The values of the named fields of a record, `none` for one that is left out. -/
def record? (names : List String) : Json → Option (List (Option Json))
  | object fields =>
    if repeats names fields then none
    else some (names.map fun name => (fields.find? (·.1 == name)).map (·.2))
  | array items => if items.length = names.length then some (items.map some) else none
  | _ => none

def nat? (high : Nat) : Json → Option Nat
  | integer n => if 0 ≤ n ∧ n ≤ high then some n.toNat else none
  | _ => none

def text? : Json → Option String
  | text s => some s
  | _ => none

def bool? : Json → Option Bool
  | bool b => some b
  | _ => none

def array? : Json → Option (List Json)
  | array items => some items
  | _ => none

/-- A value that may be absent: `null` stands for none. -/
def optional? (f : Json → Option α) : Json → Option (Option α)
  | null => some none
  | v => (f v).map some

/-- The value of a field that has to be there. -/
def required? (f : Json → Option α) (field : Option Json) : Option α := field.bind f

/-- The value of a field that may be left out. -/
def absent? (f : Json → Option α) : Option Json → Option (Option α)
  | none => some none
  | some v => optional? f v

/-- The value named by a text, or by an object whose only field has that name and holds `null`. -/
def variant? (f : String → Option α) : Json → Option α
  | text s => f s
  | object [(name, null)] => f name
  | _ => none

end ProcessProbe.Json
