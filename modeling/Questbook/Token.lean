/-
Questbook.Token — the tokens that a quest source is made of.

There are four sorts. Words are identifiers or integers; a word that is a
numeral of a signed 64-bit number is an integer, and its text is the canonical
numeral whatever its spelling in the source. A run of newlines is one token
that carries their number, because a blank line ends a block of text while a
single line break does not. The end of the file is a token too, so that an
error can point at it.
-/
import Questbook.Text.Fold
import Questbook.Text.Numeral

namespace Questbook

open Text

/-- What a token is, without its place. -/
inductive Lexeme where
  | identifier (text : String)
  | integer (value : Int64)
  /-- A run of newlines, with their number. -/
  | lineBreaks (count : Nat)
  | endOfFile
deriving DecidableEq, Repr

namespace Lexeme

/-- A cut-out word is an integer if it is a numeral, else an identifier. -/
def ofWord (cs : List Char) : Lexeme :=
  match Numeral.read? cs with
  | some value => .integer value
  | none => .identifier (String.ofList cs)

/-- The text of a word; the other tokens are no words. -/
def word? : Lexeme → Option String
  | .identifier text => some text
  | .integer value => some (Numeral.render value)
  | _ => none

/-- The text of an identifier. -/
def identifier? : Lexeme → Option String
  | .identifier text => some text
  | _ => none

/-- The value of an integer. -/
def integer? : Lexeme → Option Int64
  | .integer value => some value
  | _ => none

/-- A blank line stands between what precedes the token and what follows it. -/
def isBlankLine : Lexeme → Bool
  | .lineBreaks count => decide (2 ≤ count)
  | _ => false

/-- How an error names the token. -/
def describe : Lexeme → String
  | .identifier text => s!"identifier '{text}'"
  | .integer value => s!"integer {Numeral.render value}"
  | .lineBreaks 1 => "line break"
  | .lineBreaks count => s!"{count} line breaks"
  | .endOfFile => "end of file"

/-- An identifier equal to `keyword` but for the case of ASCII letters. -/
def isKeyword (keyword : String) : Lexeme → Bool
  | .identifier text => sameFold text keyword
  | _ => false

end Lexeme

/-- A token and the offset of its first byte. -/
structure Token where
  lexeme : Lexeme
  offset : Nat
deriving DecidableEq, Repr

/-- The marker between a keyword and what belongs to it, a word of its own. -/
def scope : String := ":"

end Questbook
