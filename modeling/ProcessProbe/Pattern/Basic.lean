import ProcessProbe.Pattern.CharSet

/-!
# Patterns of texts

What a pattern is made of. The order of the parts of a choice matters: the first that leads to a match is taken, and a
repetition goes on as long as it can, or stops as soon as it can if it is lazy.
-/

namespace ProcessProbe

/-- A condition on a place in a text. For `anyLineStart` and `anyLineFinish` a line ends in a carriage return, a line
feed or both. -/
inductive Look where
  | start
  | finish
  | lineStart
  | lineFinish
  | anyLineStart
  | anyLineFinish
  | wordBoundary
  | notWordBoundary
  | wordStart
  | wordFinish
  deriving Repr, BEq

namespace Look

def isWord (c : Option Char) : Bool := c.any fun c => c.isAlphanum || c == '_'

/-- Whether it holds between two characters, which are missing at the ends of the text. -/
def holds (before after : Option Char) : Look → Bool
  | start => before.isNone
  | finish => after.isNone
  | lineStart => before.all (· == '\n')
  | lineFinish => after.all (· == '\n')
  | anyLineStart => before.all fun c => c == '\n' || (c == '\r' && after != some '\n')
  | anyLineFinish => after.all fun c => c == '\r' || (c == '\n' && before != some '\r')
  | wordBoundary => isWord before != isWord after
  | notWordBoundary => isWord before == isWord after
  | wordStart => !isWord before && isWord after
  | wordFinish => isWord before && !isWord after

end Look

inductive Pattern where
  | empty
  | one (set : CharSet)
  | look (look : Look)
  | seq (p q : Pattern)
  | either (p q : Pattern)
  | optional (isLazy : Bool) (p : Pattern)
  | oneOrMore (isLazy : Bool) (p : Pattern)
  | many (isLazy : Bool) (p : Pattern)
  deriving Repr, BEq

namespace Pattern

def isNullable : Pattern → Bool
  | empty | look _ | optional _ _ | many _ _ => true
  | one _ => false
  | seq p q => p.isNullable && q.isNullable
  | either p q => p.isNullable || q.isNullable
  | oneOrMore _ p => p.isNullable

end Pattern

end ProcessProbe
