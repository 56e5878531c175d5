import ProcessProbe.Text.Utf8
import ProcessProbe.Text.Visible

/-!
# Quoted texts

How a text is shown inside a message: between double quotes, with escapes for what would not be visible. Bytes
that encode no character are shown in hexadecimal, so two different byte sequences are never quoted alike.
-/

namespace ProcessProbe.Text

def hexDigits (n : Nat) : List Char := Nat.toDigits 16 n

/-- One character between the quotes. -/
def escapeChar (c : Char) : List Char :=
  if c = '\x00' then ['\\', '0']
  else if c = '\t' then ['\\', 't']
  else if c = '\r' then ['\\', 'r']
  else if c = '\n' then ['\\', 'n']
  else if c = '"' || c = '\\' then ['\\', c]
  else if isVisible c then [c]
  else ['\\', 'u', '\x7b'] ++ hexDigits c.toNat ++ ['\x7d']

def quote (s : List Char) : String := String.ofList ('"' :: s.flatMap escapeChar ++ ['"'])

/-- Two hexadecimal digits in upper case after `\x`. -/
def escapeByte (b : UInt8) : List Char :=
  let digits := (hexDigits b.toNat).map Char.toUpper
  ['\\', 'x'] ++ (if b < 16 then '0' :: digits else digits)

/-- One piece between the quotes. The bytes of an invalid part are escaped one by one, and of the characters the single
quote too. -/
def escapePiece : Utf8.Piece → List Char
  | .char c => if c = '\x27' then ['\\', c] else escapeChar c
  | .invalid raw => raw.flatMap escapeByte

/-- Quotes what a byte sequence encodes. -/
def quoteBytes (bytes : Bytes) : String := String.ofList ('"' :: (Utf8.pieces bytes).flatMap escapePiece ++ ['"'])

end ProcessProbe.Text
