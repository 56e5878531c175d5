import ProcessProbe.Json.Basic

/-!
# Writing JSON

The compact form, and the indented form with two blanks a level. The fields of an object are written in the order
of their names' code points, the last value of a repeated name only.
-/

namespace ProcessProbe.Json

def hexDigit (n : Nat) : Char := (Nat.toDigits 16 n).headD '0'

/-- A character between the quotes of a text: escaped if it is a quote, a backslash or a control character. -/
def escapeChar (c : Char) : List Char :=
  match c with
  | '"' => ['\\', '"']
  | '\\' => ['\\', '\\']
  | '\x08' => ['\\', 'b']
  | '\x0c' => ['\\', 'f']
  | '\n' => ['\\', 'n']
  | '\r' => ['\\', 'r']
  | '\t' => ['\\', 't']
  | c => if c.toNat < 0x20 then ['\\', 'u', '0', '0', hexDigit (c.toNat / 16), hexDigit (c.toNat % 16)] else [c]

def writeText (s : String) : String := String.ofList ('"' :: s.toList.flatMap escapeChar ++ ['"'])

/-- Digits with the point after the first `point` of them: positional for small exponents, else scientific. -/
def writeDigits (digits : List Char) (point : Int) : String :=
  let n : Int := digits.length
  if n ≤ point && point ≤ 16 then
    String.ofList (digits ++ List.replicate (point - n).toNat '0') ++ ".0"
  else if 0 < point && point ≤ 16 then
    String.ofList (digits.take point.toNat ++ '.' :: digits.drop point.toNat)
  else if -5 < point && point ≤ 0 then
    "0." ++ String.ofList (List.replicate (-point).toNat '0' ++ digits)
  else
    let fraction := digits.drop 1
    String.ofList (digits.take 1 ++ (if fraction.isEmpty then [] else '.' :: fraction)) ++ "e" ++ toString (point - 1)

/-- A decimal numeral without the zeros at the end of its digits. -/
def writeDecimal (negative : Bool) (mantissa : Nat) (exponent : Int) : String :=
  let sign := if negative then "-" else ""
  if mantissa = 0 then sign ++ "0.0"
  else
    let all := Nat.toDigits 10 mantissa
    sign ++ writeDigits (all.reverse.dropWhile (· == '0')).reverse (all.length + exponent)

/-- Inserts a field by the order of names, in place of one of the same name. -/
def insertField (name : String) (value : α) : List (String × α) → List (String × α)
  | [] => [(name, value)]
  | (n, v) :: rest =>
    if name < n then (name, value) :: (n, v) :: rest
    else if name = n then (name, value) :: rest
    else (n, v) :: insertField name value rest

def sortFields (fields : List (String × α)) : List (String × α) :=
  fields.foldl (fun sorted f => insertField f.1 f.2 sorted) []

/-- A new line at a depth of the indented form, nothing in the compact one. -/
def lineBreak : Option Nat → String
  | none => ""
  | some depth => "\n" ++ String.ofList (List.replicate (2 * depth) ' ')

mutual

/-- Writes a value; `indent` is the depth of the indented form, or `none` for the compact one. -/
def writeAt (indent : Option Nat) : Json → String
  | null => "null"
  | bool b => if b then "true" else "false"
  | integer n => toString n
  | decimal negative mantissa exponent => writeDecimal negative mantissa exponent
  | text s => writeText s
  | array [] => "[]"
  | array (item :: items) =>
    let first := "[" ++ lineBreak (indent.map (· + 1)) ++ writeAt (indent.map (· + 1)) item
    writeItems (indent.map (· + 1)) first items ++ lineBreak indent ++ "]"
  | object fields =>
    let written := sortFields (writeFields (indent.map (· + 1)) fields)
    if written.isEmpty then "\x7b\x7d"
    else
      "\x7b" ++ lineBreak (indent.map (· + 1)) ++
        ("," ++ lineBreak (indent.map (· + 1))).intercalate
          (written.map fun (name, value) => writeText name ++ (if indent.isSome then ": " else ":") ++ value) ++
        lineBreak indent ++ "\x7d"
  | unreadable => "null"

/-- Appends the items after the first one. -/
def writeItems (indent : Option Nat) (out : String) : List Json → String
  | [] => out
  | item :: items => writeItems indent (out ++ "," ++ lineBreak indent ++ writeAt indent item) items

def writeFields (indent : Option Nat) : List (String × Json) → List (String × String)
  | [] => []
  | (name, value) :: fields => (name, writeAt indent value) :: writeFields indent fields

end

def compact (v : Json) : String := writeAt none v

def pretty (v : Json) : String := writeAt (some 0) v

end ProcessProbe.Json
