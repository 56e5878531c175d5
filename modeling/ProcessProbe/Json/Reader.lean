import ProcessProbe.Json.Basic
import ProcessProbe.Text.Integer

/-!
# Reading JSON

The grammar of RFC 8259, over a list of characters: one value between blanks, and nothing after it.
-/

namespace ProcessProbe.Json

def skipBlanks (s : List Char) : List Char :=
  s.dropWhile fun c => c == ' ' || c == '\n' || c == '\t' || c == '\r'

def digitsOf (s : List Char) : List Char × List Char := s.span Char.isDigit

def natOf (digits : List Char) : Nat := digits.foldl (fun n c => n * 10 + (c.toNat - 48)) 0

/-- The digits after a point, of which there is at least one. Without a point there are none. -/
def readFraction : List Char → Option (List Char × List Char)
  | '.' :: r =>
    let (ds, r) := digitsOf r
    if ds.isEmpty then none else some (ds, r)
  | s => some ([], s)

/-- An exponent, with at least one digit. -/
def readExponent : List Char → Option (Option Int × List Char)
  | [] => some (none, [])
  | c :: r =>
    if c == 'e' || c == 'E' then
      let (sign, r) : Int × List Char := match r with
        | '+' :: r => (1, r)
        | '-' :: r => (-1, r)
        | _ => (1, r)
      let (ds, r) := digitsOf r
      if ds.isEmpty then none else some (some (sign * natOf ds), r)
    else some (none, c :: r)

/-- A numeral after its sign: no leading zero. -/
def readMagnitude (negative : Bool) (s : List Char) : Option (Json × List Char) :=
  let (whole, s) := digitsOf s
  if whole.isEmpty || (whole.length > 1 && whole.head? == some '0') then none
  else match readFraction s with
    | none => none
    | some (fraction, s) =>
      match readExponent s with
      | none => none
      | some (exponent, rest) =>
        if fraction.isEmpty && exponent.isNone && !(negative && natOf whole == 0) then
          some (.integer (if negative then -(natOf whole : Int) else natOf whole), rest)
        else
          some (.decimal negative (natOf (whole ++ fraction)) (exponent.getD 0 - fraction.length), rest)

def readNumeral : List Char → Option (Json × List Char)
  | '-' :: r => readMagnitude true r
  | s => readMagnitude false s

def hexUnit? (a b c d : Char) : Option Nat := do
  let high := (← Text.hexDigit? a) * 16 + (← Text.hexDigit? b)
  return high * 256 + ((← Text.hexDigit? c) * 16 + (← Text.hexDigit? d))

def shortEscape? (c : Char) : Option Char :=
  match c with
  | '"' | '\\' | '/' => some c
  | 'b' => some '\x08'
  | 'f' => some '\x0c'
  | 'n' => some '\n'
  | 'r' => some '\r'
  | 't' => some '\t'
  | _ => none

/-- The text up to the closing quote. `acc` holds it in reverse, and is `none` once it has an escape that names no
character. -/
def readText (acc : Option (List Char)) : List Char → Option (Option String × List Char)
  | [] => none
  | '"' :: r => some (acc.map fun cs => String.ofList cs.reverse, r)
  | '\\' :: 'u' :: a :: b :: c :: d :: r =>
    match hexUnit? a b c d with
    | none => none
    | some u =>
      if 0xD800 ≤ u && u < 0xDC00 then
        match r with
        | '\\' :: 'u' :: e :: f :: g :: h :: r' =>
          match hexUnit? e f g h with
          | none => none
          | some v =>
            if 0xDC00 ≤ v && v < 0xE000 then
              readText (acc.map (Char.ofNat (0x10000 + (u - 0xD800) * 0x400 + (v - 0xDC00)) :: ·)) r'
            else readText none ('\\' :: 'u' :: e :: f :: g :: h :: r')
        | rest => readText none rest
      else if 0xDC00 ≤ u && u < 0xE000 then readText none r
      else readText (acc.map (Char.ofNat u :: ·)) r
  | '\\' :: c :: r =>
    match shortEscape? c with
    | none => none
    | some e => readText (acc.map (e :: ·)) r
  | c :: r => if c.toNat < 0x20 then none else readText (acc.map (c :: ·)) r
termination_by s => s.length

mutual

/-- One value; `fuel` bounds the nesting together with the number of parts. -/
def readValue (fuel : Nat) (s : List Char) : Option (Json × List Char) :=
  match fuel with
  | 0 => none
  | fuel + 1 =>
    match skipBlanks s with
    | 'n' :: 'u' :: 'l' :: 'l' :: r => some (.null, r)
    | 't' :: 'r' :: 'u' :: 'e' :: r => some (.bool true, r)
    | 'f' :: 'a' :: 'l' :: 's' :: 'e' :: r => some (.bool false, r)
    | '"' :: r => (readText (some []) r).map fun (t, r) => (t.elim .unreadable .text, r)
    | '[' :: r =>
      match skipBlanks r with
      | ']' :: r => some (.array [], r)
      | _ => readItems fuel [] r
    | '\x7b' :: r =>
      match skipBlanks r with
      | '\x7d' :: r => some (.object [], r)
      | _ => readFields fuel true [] r
    | s => readNumeral s

/-- The items of an array up to its closing bracket, put behind `done`. -/
def readItems (fuel : Nat) (done : List Json) (s : List Char) : Option (Json × List Char) :=
  match fuel with
  | 0 => none
  | fuel + 1 =>
    match readValue fuel s with
    | none => none
    | some (v, r) =>
      match skipBlanks r with
      | ',' :: r => readItems fuel (v :: done) r
      | ']' :: r => some (.array (v :: done).reverse, r)
      | _ => none

/-- The fields of an object up to its closing brace, put behind `done`; `readable` while every name is a text. -/
def readFields (fuel : Nat) (readable : Bool) (done : List (String × Json)) (s : List Char) :
    Option (Json × List Char) :=
  match fuel with
  | 0 => none
  | fuel + 1 =>
    match skipBlanks s with
    | '"' :: r =>
      match readText (some []) r with
      | none => none
      | some (name, r) =>
        match skipBlanks r with
        | ':' :: r =>
          match readValue fuel r with
          | none => none
          | some (v, r) =>
            let readable := readable && name.isSome
            let done := (name.getD "", v) :: done
            match skipBlanks r with
            | ',' :: r => readFields fuel readable done r
            | '\x7d' :: r => some (if readable then .object done.reverse else .unreadable, r)
            | _ => none
        | _ => none
    | _ => none

end

/-- The value that a text denotes. Every part takes at least one character, so its length is fuel enough. -/
def read? (s : List Char) : Option Json :=
  match readValue (s.length + 1) s with
  | some (v, r) => if (skipBlanks r).isEmpty then some v else none
  | none => none

def ofString? (s : String) : Option Json := read? s.toList

end ProcessProbe.Json
