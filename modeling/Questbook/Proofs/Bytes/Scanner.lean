/-
Questbook.Proofs.Bytes.Scanner — reading tokens byte by byte.

A reader holds the text that is still unread. A scanner holds a position in the
bytes of the source, moves on one byte at a time, and cuts a piece out of the source
when it has come to its end. Three things can go wrong on the way, and each of them
stops the scan (`Halt`): a slice that is out of range or has an end inside a
character, a look at a byte that is not there, and a counter of open parentheses
that leaves its range. The loops cannot fail by themselves: they look at the byte at
the position only if there is one.

The checks are stricter than a machine would make them. The slice that is searched
for the start of a comment is one of bytes and would be allowed to cut a character;
and the counter has to keep to the bytes passed in the word, not just to 32 bits.
-/
import Mathlib
import Questbook.Proofs.Bytes.Encoding
import Questbook.Reader

namespace Questbook

open Text

/-- What stops a scan. -/
inductive Halt where
  /-- A slice is out of range, or cuts a character. -/
  | slice
  /-- A byte is asked for that is not there. -/
  | index
  /-- A counter is out of its range. -/
  | counter
deriving DecidableEq, Repr

/-- A place in a source and a way of reading, all that changes in a scan. -/
structure Scanner where
  position : Nat
  wide : Bool
deriving DecidableEq, Repr

namespace Scanner

/-! ## 1. What can go wrong -/

/-- The text from `start` to `stop`. -/
def slice (source : String) (start stop : Nat) : Except Halt String :=
  if h : start ≤ stop ∧ (⟨start⟩ : String.Pos.Raw).IsValid source ∧
      (⟨stop⟩ : String.Pos.Raw).IsValid source then
    .ok (source.extract ⟨⟨start⟩, h.2.1⟩ ⟨⟨stop⟩, h.2.2⟩)
  else .error .slice

/-- The byte at an index. -/
def byteAt (bytes : List UInt8) (index : Nat) : Except Halt UInt8 :=
  match bytes[index]? with
  | some byte => .ok byte
  | none => .error .index

/-- A number of open parentheses after so many bytes of a word. -/
def count (passed : Nat) (depth : Int) : Except Halt Int :=
  if 0 ≤ depth ∧ depth ≤ passed ∧ depth < 2 ^ 31 then .ok depth else .error .counter

/-! ## 2. Loops -/

/-- Whitespace that does not end a line. -/
def isBlankByte (byte : UInt8) : Bool :=
  byte == ' '.toUInt8 || byte == '\t'.toUInt8 || byte == '\x0b'.toUInt8 ||
    byte == '\x0c'.toUInt8 || byte == '\r'.toUInt8

/-- A byte that ends every word. -/
def endsWordByte (byte : UInt8) : Bool :=
  byte == '\n'.toUInt8 || byte == ':'.toUInt8

/-- Behind the blanks. -/
def skipBlanks (bytes : List UInt8) (position : Nat) : Nat :=
  match h : bytes[position]? with
  | none => position
  | some byte => if isBlankByte byte then skipBlanks bytes (position + 1) else position
termination_by bytes.length - position
decreasing_by grind

/-- Behind the end of the line. -/
def skipComment (bytes : List UInt8) (position : Nat) : Nat :=
  match h : bytes[position]? with
  | none => position
  | some byte =>
    if byte == '\n'.toUInt8 then position + 1 else skipComment bytes (position + 1)
termination_by bytes.length - position
decreasing_by grind

theorem le_skipBlanks (bytes : List UInt8) (position : Nat) :
    position ≤ skipBlanks bytes position := by
  fun_induction skipBlanks bytes position <;> omega

theorem le_skipComment (bytes : List UInt8) (position : Nat) :
    position ≤ skipComment bytes position := by
  fun_induction skipComment bytes position <;> omega

theorem lt_skipComment {bytes : List UInt8} {position : Nat} {byte : UInt8}
    (h : bytes[position]? = some byte) : position < skipComment bytes position := by
  have hle := le_skipComment bytes (position + 1)
  rw [skipComment]
  grind

/-- The number of newlines in a run of them, and the position behind it. -/
def separator (bytes : List UInt8) (count position : Nat) : Nat × Nat :=
  match h : bytes[position]? with
  | none => (count, position)
  | some byte =>
    if byte == '\n'.toUInt8 then separator bytes (count + 1) (skipBlanks bytes (position + 1))
    else (count, position)
termination_by bytes.length - position
decreasing_by
  have hle := le_skipBlanks bytes (position + 1)
  grind

/-- Behind a word that starts at `start`, where `depth` parentheses are open. -/
def wordEnd (bytes : List UInt8) (wide span : Bool) (start : Nat) (depth : Int)
    (position : Nat) : Except Halt Nat :=
  match h : bytes[position]? with
  | none => .ok position
  | some byte =>
    if endsWordByte byte || (!wide && isBlankByte byte) then .ok position
    else if span && byte == '('.toUInt8 then do
      let depth ← count (position + 1 - start) (depth + 1)
      wordEnd bytes wide span start depth (position + 1)
    else if span && byte == ')'.toUInt8 then do
      let depth ← count (position + 1 - start) (depth - 1)
      if depth = 0 then return position + 1
      wordEnd bytes wide span start depth (position + 1)
    else wordEnd bytes wide span start depth (position + 1)
termination_by bytes.length - position
decreasing_by all_goals grind

/-- Before the blanks that stand before `stop`. -/
def trimEnd (bytes : List UInt8) (start stop : Nat) : Except Halt Nat :=
  if start < stop then do
    let byte ← byteAt bytes (stop - 1)
    if isBlankByte byte then trimEnd bytes start (stop - 1) else return stop
  else return stop
termination_by stop

/-! ## 3. Tokens -/

/-- Behind the blanks and comments before the next token. -/
def toToken (source : String) (position : Nat) : Except Halt Nat :=
  let start := skipBlanks (bytesOf source) position
  match _ : (bytesOf source)[start]? with
  | none => .ok start
  | some _ => do
    let rest ← slice source start source.utf8ByteSize
    if (encode ['$', '-']).isPrefixOf (bytesOf rest) then
      toToken source (skipComment (bytesOf source) start)
    else return start
termination_by (bytesOf source).length - position
decreasing_by
  have hle := le_skipBlanks (bytesOf source) position
  have hlt := lt_skipComment ‹_›
  grind

/-- The end of the text of a word. Only a word that can hold blanks can end in some. -/
def textEnd (bytes : List UInt8) (wide : Bool) (start stop : Nat) : Except Halt Nat :=
  if wide then trimEnd bytes start stop else .ok stop

/-- The word that starts at a position, and the position behind it. -/
def word (source : String) (wide : Bool) (start : Nat) : Except Halt (Lexeme × Nat) := do
  let bytes := bytesOf source
  let span := bytes[start]? == some '('.toUInt8
  let stop ← wordEnd bytes (wide || span) span start 0 start
  let last ← textEnd bytes (wide || span) start stop
  let text ← slice source start last
  return (.ofWord text.toList, stop)

/-- The next token, and the scanner behind it. -/
def next (source : String) (s : Scanner) : Except Halt (Token × Scanner) := do
  let start ← toToken source s.position
  match (bytesOf source)[start]? with
  | none => return (⟨.endOfFile, source.utf8ByteSize⟩, { s with position := start })
  | some byte =>
    if byte == ':'.toUInt8 then
      return (⟨.identifier scope, start⟩, { s with position := start + 1 })
    else if byte == '\n'.toUInt8 then
      let (count, stop) := separator (bytesOf source) 0 start
      return (⟨.lineBreaks count, start⟩, { s with position := stop })
    else
      let (lexeme, stop) ← word source s.wide start
      return (⟨lexeme, start⟩, { s with position := stop })

end Scanner

end Questbook
