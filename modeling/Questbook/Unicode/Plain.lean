/-
Questbook.Unicode.Plain — which characters printed text shows as they are.
-/
import Questbook.Unicode.PlainTable
import Questbook.Unicode.Range

namespace Questbook.Unicode

/-- The character has a form of its own and does not join on to another. -/
def isPlain (c : Char) : Bool :=
  !inRanges hidden c.toNat

end Questbook.Unicode
