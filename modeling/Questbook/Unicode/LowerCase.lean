/-
Questbook.Unicode.LowerCase — making a text small in every script.

Each character goes to its small form, with two refinements that Unicode asks
for in all languages. U+0130, the capital I with a dot, becomes two
characters, so that the dot is not lost. And the capital sigma becomes the
final form at the end of a word: a cased letter stands before it and none
after it, where characters that do not count for case are looked past on both
sides.
-/
import Questbook.Unicode.CaseTable
import Questbook.Unicode.Range

namespace Questbook.Unicode

/-- The small form of a character by the table. -/
def smallForm (ranges : List CaseRange) (c : Char) : Char :=
  match ranges.find? fun r =>
      r.first ≤ c.toNat && c.toNat ≤ r.last && (c.toNat - r.first) % r.step == 0 with
  | some r => Char.ofNat (c.toNat + r.shift).toNat
  | none => c

/-- A small, capital or title-case letter. -/
def isCased (c : Char) : Bool :=
  inRanges cased c.toNat

/-- A character that does not count when neighbouring letters are looked for. -/
def isCaseIgnorable (c : Char) : Bool :=
  inRanges caseIgnorable c.toNat

/-- The first character that counts is a cased letter. -/
def meetsCased (cs : List Char) : Bool :=
  match cs.dropWhile isCaseIgnorable with
  | c :: _ => isCased c
  | [] => false

/-- The capital sigma. -/
def capitalSigma : Char := 'Σ'

/-- The small sigma between `before`, which is read backwards, and `behind`. -/
def sigma (before behind : List Char) : Char :=
  if meetsCased before && !meetsCased behind then 'ς' else 'σ'

/-- Makes small what follows `before`, which is read backwards. -/
def lowerFrom (before : List Char) : List Char → List Char
  | [] => []
  | c :: cs =>
    let small :=
      if c = capitalSigma then [sigma before cs]
      else if c = '\u0130' then ['i', '\u0307']
      else [smallForm smallLetters c]
    small ++ lowerFrom (c :: before) cs

/-- The text in small letters. -/
def lower (s : String) : String :=
  String.ofList (lowerFrom [] s.toList)

end Questbook.Unicode
