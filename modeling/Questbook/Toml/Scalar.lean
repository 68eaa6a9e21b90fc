/-
Questbook.Toml.Scalar — numbers, dates and times.

A scalar without quotation marks reaches up to the next blank, comma, bracket,
brace, comment or line end, so it can be cut out first and judged as a whole.
-/
import Questbook.Text.Numeral
import Questbook.Toml.Value

namespace Questbook.Toml

open Text

/-! ## 1. Digits -/

/-- Digits of a kind with single underscores between them. -/
def isDigitRow (isDigit : Char → Bool) : List Char → Bool
  | [] => false
  | [c] => isDigit c
  | c :: '_' :: cs => isDigit c && isDigitRow isDigit cs
  | c :: cs => isDigit c && isDigitRow isDigit cs

/-- Text without its sign, and whether that is a minus. -/
def splitSign : List Char → Bool × List Char
  | '-' :: cs => (true, cs)
  | '+' :: cs => (false, cs)
  | cs => (false, cs)

/-- Digits without a leading zero. -/
def isWhole : List Char → Bool
  | '0' :: cs => cs.isEmpty
  | cs => isDigitRow Char.isDigit cs

/-- Text without underscores. -/
def plain (cs : List Char) : List Char :=
  cs.filter (· != '_')

/-- The value of a digit up to `f`. -/
def digitValue (c : Char) : Nat :=
  if c.isDigit then c.toNat - '0'.toNat
  else if c.isLower then c.toNat - 'a'.toNat + 10
  else c.toNat - 'A'.toNat + 10

/-- A hexadecimal digit. -/
def isHexDigit (c : Char) : Bool :=
  c.isDigit || ('a' ≤ c && c ≤ 'f') || ('A' ≤ c && c ≤ 'F')

/-- The value of a row of digits. -/
def rowValue (base : Nat) (cs : List Char) : Nat :=
  (plain cs).foldl (fun n c => base * n + digitValue c) 0

/-! ## 2. Numbers -/

/-- An integer in base two, eight or sixteen, behind its mark. -/
def based? (base : Nat) (isDigit : Char → Bool) (cs : List Char) : Option Int64 :=
  if isDigitRow isDigit cs then Numeral.ofInt? (rowValue base cs) else none

/-- The integer that the text is. -/
def integer? : List Char → Option Int64
  | '0' :: 'x' :: cs => based? 16 isHexDigit cs
  | '0' :: 'o' :: cs => based? 8 (fun c => '0' ≤ c && c ≤ '7') cs
  | '0' :: 'b' :: cs => based? 2 (fun c => c == '0' || c == '1') cs
  | cs => if isWhole (splitSign cs).2 then Numeral.read? (plain cs) else none

/-- The parts of a number with a fraction or an exponent: the digits before
the point, those behind it, and the exponent. -/
def floatParts? (cs : List Char) : Option (List Char × List Char × Int) :=
  let (mantissa, power) := cs.span fun c => c != 'e' && c != 'E'
  let (whole, fraction) := mantissa.span (· != '.')
  let exponent? : Option Int :=
    match power with
    | [] => some 0
    | _ :: power =>
      let (negative, digits) := splitSign power
      if isDigitRow Char.isDigit digits then
        some (if negative then -(rowValue 10 digits : Int) else rowValue 10 digits)
      else none
  let fraction? : Option (List Char) :=
    match fraction with
    | [] => if power.isEmpty then none else some []
    | _ :: digits => if isDigitRow Char.isDigit digits then some (plain digits) else none
  if isWhole whole then
    match fraction?, exponent? with
    | some fraction, some exponent => some (plain whole, fraction, exponent)
    | _, _ => none
  else none

/-- The number is so large that the nearest double is infinite: at least half
a step above the largest double. -/
def overflows (whole fraction : List Char) (exponent : Int) : Bool :=
  let mantissa := rowValue 10 (whole ++ fraction)
  let shift := exponent - fraction.length
  let digits := (Nat.toDigits 10 mantissa).length
  let limit := Nat.pow 2 1024 - Nat.pow 2 970
  if mantissa = 0 then false
  else if digits + shift ≤ 308 then false
  else if 310 ≤ digits + shift then true
  else if shift < 0 then decide (limit * Nat.pow 10 shift.natAbs ≤ mantissa)
  else decide (limit ≤ mantissa * Nat.pow 10 shift.natAbs)

/-- The text is a number with a fraction or an exponent, an infinity or no
number. -/
def isFloat (cs : List Char) : Bool :=
  let (negative, digits) := splitSign cs
  if digits = ['i', 'n', 'f'] || digits = ['n', 'a', 'n'] then true
  else
    match floatParts? digits with
    | some (whole, fraction, exponent) => negative || !overflows whole fraction exponent
    | none => false

/-! ## 3. Dates and times -/

/-- Reads a number of exactly this many digits. -/
def digits? (count : Nat) (cs : List Char) : Option (Nat × List Char) :=
  let ds := cs.take count
  if ds.length = count && ds.all Char.isDigit then some (rowValue 10 ds, cs.drop count) else none

/-- Reads one character. -/
def char? (c : Char) : List Char → Option (List Char)
  | d :: cs => if c = d then some cs else none
  | [] => none

/-- The number of days in a month. -/
def daysIn (year month : Nat) : Nat :=
  if month = 2 then
    if year % 4 = 0 && (year % 100 != 0 || year % 400 = 0) then 29 else 28
  else if month = 4 || month = 6 || month = 9 || month = 11 then 30
  else 31

/-- Reads a date. -/
def date? (cs : List Char) : Option (List Char) := do
  let (year, cs) ← digits? 4 cs
  let cs ← char? '-' cs
  let (month, cs) ← digits? 2 cs
  let cs ← char? '-' cs
  let (day, cs) ← digits? 2 cs
  if 1 ≤ month && month ≤ 12 && 1 ≤ day && day ≤ daysIn year month then some cs else none

/-- Reads a time of day. A minute may have a sixty-first second. -/
def time? (cs : List Char) : Option (List Char) := do
  let (hour, cs) ← digits? 2 cs
  let cs ← char? ':' cs
  let (minute, cs) ← digits? 2 cs
  let cs ← char? ':' cs
  let (second, cs) ← digits? 2 cs
  if hour ≤ 23 && minute ≤ 59 && second ≤ 60 then
    match cs with
    | '.' :: ds => if (ds.takeWhile Char.isDigit).isEmpty then none else some (ds.dropWhile Char.isDigit)
    | _ => some cs
  else none

/-- The text is a distance from universal time, or nothing. -/
def isZone : List Char → Bool
  | [] => true
  | ['Z'] => true
  | ['z'] => true
  | c :: cs =>
    (c == '+' || c == '-') &&
      match (do
        let (hour, cs) ← digits? 2 cs
        let cs ← char? ':' cs
        let (minute, cs) ← digits? 2 cs
        return (hour, minute, cs) : Option (Nat × Nat × List Char)) with
      | some (hour, minute, cs) => hour ≤ 23 && minute ≤ 59 && cs.isEmpty
      | none => false

/-- The text is a date, a time, or both with or without a distance from
universal time. -/
def isDateTime (cs : List Char) : Bool :=
  match date? cs with
  | some [] => true
  | some (c :: cs) =>
    (c == 'T' || c == 't' || c == ' ') &&
      match time? cs with
      | some zone => isZone zone
      | none => false
  | none => time? cs == some []

/-! ## 4. All scalars -/

/-- The value of a scalar without quotation marks. -/
def scalar? (cs : List Char) : Option Value :=
  if cs = ['t', 'r', 'u', 'e'] then some (.boolean true)
  else if cs = ['f', 'a', 'l', 's', 'e'] then some (.boolean false)
  else if isDateTime cs then some (.dateTime (String.ofList cs))
  else if isFloat cs then some (.float (String.ofList cs))
  else (integer? cs).map .integer

end Questbook.Toml
