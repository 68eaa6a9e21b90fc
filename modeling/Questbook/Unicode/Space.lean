/-
Questbook.Unicode.Space — white space in the sense of Unicode.

The language itself knows ASCII white space only. A title, however, counts as
missing when nothing in it is visible, whatever sort of space it is made of.
-/
import Questbook.Unicode.Range

namespace Questbook.Unicode

/-- The 25 characters with the property White_Space. -/
def spaces : List (Nat × Nat) := [
  (0x09, 0x0D), (0x20, 0x20), (0x85, 0x85), (0xA0, 0xA0), (0x1680, 0x1680),
  (0x2000, 0x200A), (0x2028, 0x2029), (0x202F, 0x202F), (0x205F, 0x205F), (0x3000, 0x3000)]

/-- The character is white space of any sort. -/
def isSpace (c : Char) : Bool :=
  inRanges spaces c.toNat

/-- The text holds nothing but white space. -/
def isBlankText (s : String) : Bool :=
  s.toList.all isSpace

end Questbook.Unicode
