/-!
# Blank characters

Trimming and splitting of texts, which are lists of characters, by the Unicode white-space set.
-/

namespace ProcessProbe.Text

/-- The Unicode property `White_Space`. -/
def isBlank (c : Char) : Bool :=
  let n := c.toNat
  (9 ≤ n && n ≤ 13) || n == 0x20 || n == 0x85 || n == 0xA0 || n == 0x1680 || (0x2000 ≤ n && n ≤ 0x200A) ||
    n == 0x2028 || n == 0x2029 || n == 0x202F || n == 0x205F || n == 0x3000

def trimStart (s : List Char) : List Char := s.dropWhile isBlank

def trimEnd (s : List Char) : List Char := (s.reverse.dropWhile isBlank).reverse

/-- The text without the blanks at its two ends. -/
def trim (s : List Char) : List Char := trimEnd (trimStart s)

/-- The parts of a list between the elements that satisfy `p`; `n` of these give `n + 1` parts. -/
def split {α : Type} (p : α → Bool) (s : List α) : List (List α) :=
  s.foldr (fun c parts => if p c then [] :: parts else parts.modifyHead (c :: ·)) [[]]

/-- The maximal blank-free parts of a text, in order. -/
def words (s : List Char) : List (List Char) := (split isBlank s).filter (!·.isEmpty)

@[simp] theorem split_nil {α : Type} (p : α → Bool) : split p [] = [[]] := rfl

theorem split_cons {α : Type} (p : α → Bool) (c : α) (s : List α) :
    split p (c :: s) = if p c then [] :: split p s else (split p s).modifyHead (c :: ·) := rfl

theorem split_ne_nil {α : Type} (p : α → Bool) (s : List α) : split p s ≠ [] := by
  cases s with
  | nil => simp
  | cons c s =>
    rw [split_cons]
    split
    · simp
    · cases h : split p s with
      | nil => exact absurd h (split_ne_nil p s)
      | cons a r => simp

@[simp] theorem words_nil : words [] = [] := rfl

theorem words_cons_blank {c : Char} (h : isBlank c = true) (s : List Char) : words (c :: s) = words s := by
  simp [words, split_cons, h]

end ProcessProbe.Text
