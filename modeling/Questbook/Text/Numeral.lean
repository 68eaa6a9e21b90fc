/-
Questbook.Text.Numeral — decimal numerals of signed 64-bit numbers.

A numeral is one optional sign and at least one ASCII digit; leading zeros are
allowed on reading. A numeral outside the range is no numeral at all, which is
why reading goes through the integers and tests the range last. On writing,
each number has one numeral: no plus sign, no leading zero, no negative zero.
-/

namespace Questbook.Text.Numeral

/-- The number that a non-empty row of digits stands for. -/
def readNat? (ds : List Char) : Option Nat :=
  if ds ≠ [] ∧ ds.all Char.isDigit then some (Nat.ofDigitChars 10 ds 0) else none

/-- The number that an optional sign and a row of digits stand for. -/
def readInt? : List Char → Option Int
  | '-' :: ds => (readNat? ds).map fun n => -(n : Int)
  | '+' :: ds => (readNat? ds).map fun n => (n : Int)
  | ds => (readNat? ds).map fun n => (n : Int)

/-- The 64-bit number equal to an integer, if it is in range. -/
def ofInt? (i : Int) : Option Int64 :=
  if Int64.minValue.toInt ≤ i ∧ i ≤ Int64.maxValue.toInt then some (Int64.ofInt i) else none

/-- The number a numeral stands for. -/
def read? (cs : List Char) : Option Int64 :=
  (readInt? cs).bind ofInt?

/-- The numeral of a number. -/
def render (n : Int64) : String :=
  n.toInt.repr

/-- The number whose written form this is: no plus sign, no leading zero, no
negative zero. -/
def readCanonical? (s : String) : Option Int64 :=
  (read? s.toList).filter fun n => render n == s

end Questbook.Text.Numeral
