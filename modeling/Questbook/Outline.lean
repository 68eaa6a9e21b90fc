/-
Questbook.Outline — the indented text form for reading quests on a terminal.

A record is its fields in parentheses, a map its entries in braces, a list its
items in brackets; each field, entry or item has a line of its own, four
blanks deeper, and a comma behind it. Words stand bare and texts are quoted.
In a quoted text, every character is visible: what has no form of its own, or
would join on to its neighbour, is written by its code point.
-/
import Questbook.Text.Indent
import Questbook.Unicode.Plain

namespace Questbook

open Text

/-- A value to be shown. -/
inductive Outline where
  /-- Something that stands bare. -/
  | word (w : String)
  | text (s : String)
  | list (items : List Outline)
  | map (entries : List (String × Outline))
  | record (fields : List (String × Outline))
deriving Repr

namespace Outline

/-- A character inside a quoted text. -/
def escapeChar (c : Char) : List Char :=
  if c = '\x00' then ['\\', '0']
  else if c = '\t' then ['\\', 't']
  else if c = '\r' then ['\\', 'r']
  else if c = '\n' then ['\\', 'n']
  else if c = '\'' then ['\\', '\'']
  else if c = '"' then ['\\', '"']
  else if c = '\\' then ['\\', '\\']
  else if Unicode.isPlain c then [c]
  else ['\\', 'u', '\x7b'] ++ Nat.toDigits 16 c.toNat ++ ['\x7d']

/-- A quoted text. -/
def quote (s : String) : String :=
  "\"" ++ String.ofList (s.toList.flatMap escapeChar) ++ "\""

mutual

/-- The text of a value whose first line stands at depth `indent`. -/
def render (indent : Nat) : Outline → String
  | .word w => w
  | .text s => quote s
  | .list [] => "[]"
  | .list (item :: items) =>
    "[" ++ renderItems (indent + 4) (item :: items) ++ newline indent ++ "]"
  | .map [] => "\x7b\x7d"
  | .map (entry :: entries) =>
    "\x7b" ++ renderFields (indent + 4) (entry :: entries) ++ newline indent ++ "\x7d"
  | .record fields => "(" ++ renderFields (indent + 4) fields ++ newline indent ++ ")"

/-- Items, a line each. -/
def renderItems (indent : Nat) : List Outline → String
  | [] => ""
  | item :: items => newline indent ++ item.render indent ++ "," ++ renderItems indent items

/-- Fields or entries, a line each. -/
def renderFields (indent : Nat) : List (String × Outline) → String
  | [] => ""
  | (name, value) :: fields =>
    newline indent ++ name ++ ": " ++ value.render indent ++ "," ++ renderFields indent fields

end

/-- A truth value. -/
def flag (b : Bool) : Outline :=
  .word (if b then "true" else "false")

end Outline

end Questbook
