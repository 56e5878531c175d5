/-!
# UTF-8

A byte sequence is cut into pieces: the characters it encodes, and between them the maximal parts that no
character's encoding starts with. Strict reading refuses the latter and lossy reading puts one replacement
character for each.
-/

namespace ProcessProbe

abbrev Bytes := List UInt8

namespace Utf8

/-- A part of a byte sequence: one encoded character, or bytes that start no encoding. -/
inductive Piece where
  | char (c : Char)
  | invalid (raw : Bytes)
  deriving Repr, DecidableEq

def isTail (b : UInt8) : Bool := 0x80 ≤ b && b ≤ 0xBF

/-- The six payload bits of a continuation byte. -/
def tailBits (b : UInt8) : Nat := b.toNat % 64

/-- Whether `b` may follow the lead byte of a three-byte sequence: no overlong form and no surrogate. -/
def isSecondOfThree (lead b : UInt8) : Bool :=
  if lead = 0xE0 then 0xA0 ≤ b && b ≤ 0xBF else if lead = 0xED then 0x80 ≤ b && b ≤ 0x9F else isTail b

/-- Whether `b` may follow the lead byte of a four-byte sequence: no overlong form, nothing past U+10FFFF. -/
def isSecondOfFour (lead b : UInt8) : Bool :=
  if lead = 0xF0 then 0x90 ≤ b && b ≤ 0xBF else if lead = 0xF4 then 0x80 ≤ b && b ≤ 0x8F else isTail b

/-- The piece that starts with the byte `b`, and what follows it. -/
def next (b : UInt8) (rest : Bytes) : Piece × Bytes :=
  if b < 0x80 then (.char (Char.ofNat b.toNat), rest)
  else if 0xC2 ≤ b && b ≤ 0xDF then
    match rest with
    | c :: r => if isTail c then (.char (Char.ofNat (b.toNat % 32 * 64 + tailBits c)), r) else (.invalid [b], rest)
    | [] => (.invalid [b], [])
  else if 0xE0 ≤ b && b ≤ 0xEF then
    match rest with
    | c :: r =>
      if isSecondOfThree b c then
        match r with
        | d :: s =>
          if isTail d then (.char (Char.ofNat ((b.toNat % 16 * 64 + tailBits c) * 64 + tailBits d)), s)
          else (.invalid [b, c], r)
        | [] => (.invalid [b, c], [])
      else (.invalid [b], rest)
    | [] => (.invalid [b], [])
  else if 0xF0 ≤ b && b ≤ 0xF4 then
    match rest with
    | c :: r =>
      if isSecondOfFour b c then
        match r with
        | d :: s =>
          if isTail d then
            match s with
            | e :: t =>
              if isTail e then
                (.char (Char.ofNat (((b.toNat % 8 * 64 + tailBits c) * 64 + tailBits d) * 64 + tailBits e)), t)
              else (.invalid [b, c, d], s)
            | [] => (.invalid [b, c, d], [])
          else (.invalid [b, c], r)
        | [] => (.invalid [b, c], [])
      else (.invalid [b], rest)
    | [] => (.invalid [b], [])
  else (.invalid [b], rest)

theorem length_next_le (b : UInt8) (rest : Bytes) : (next b rest).2.length ≤ rest.length := by
  unfold next
  repeat' split
  all_goals simp_all <;> omega

/-- The pieces of `bytes`, put behind `done`, which is held in reverse. -/
def piecesFrom (done : List Piece) : Bytes → List Piece
  | [] => done.reverse
  | b :: rest => piecesFrom ((next b rest).1 :: done) (next b rest).2
termination_by bytes => bytes.length
decreasing_by exact Nat.lt_succ_of_le (length_next_le b rest)

def pieces (bytes : Bytes) : List Piece := piecesFrom [] bytes

private theorem piecesFrom_append (done : List Piece) (bytes : Bytes) :
    piecesFrom done bytes = done.reverse ++ piecesFrom [] bytes := by
  induction h : bytes.length using Nat.strongRecOn generalizing done bytes with
  | ind n ih =>
    subst h
    cases bytes with
    | nil => simp [piecesFrom]
    | cons b rest =>
      have hlt : (next b rest).2.length < (b :: rest).length := Nat.lt_succ_of_le (length_next_le b rest)
      rw [piecesFrom.eq_def done, piecesFrom.eq_def []]
      simp only
      rw [ih _ hlt ((next b rest).1 :: done) _ rfl, ih _ hlt [(next b rest).1] _ rfl]
      simp

@[simp] theorem pieces_nil : pieces [] = [] := by simp [pieces, piecesFrom]

theorem pieces_cons (b : UInt8) (rest : Bytes) :
    pieces (b :: rest) = (next b rest).1 :: pieces (next b rest).2 := by
  rw [pieces, piecesFrom.eq_def]
  simp only
  rw [piecesFrom_append, ← pieces]
  simp

/-- The character of a valid piece. -/
def Piece.char? : Piece → Option Char
  | .char c => some c
  | .invalid _ => none

/-- The character shown for a piece: the replacement character for bytes that encode none. -/
def Piece.shown : Piece → Char
  | .char c => c
  | .invalid _ => '\uFFFD'

/-- Strict reading: every piece has to be a character. -/
def decode? (bytes : Bytes) : Option (List Char) := (pieces bytes).mapM Piece.char?

/-- Lossy reading: one replacement character for each invalid part. -/
def decodeLossy (bytes : Bytes) : List Char := (pieces bytes).map Piece.shown

def encode (s : List Char) : Bytes := s.flatMap String.utf8EncodeChar

end Utf8

def Bytes.ofString (s : String) : Bytes := Utf8.encode s.toList

def Bytes.shown (bytes : Bytes) : String := String.ofList (Utf8.decodeLossy bytes)

end ProcessProbe
