/-
Questbook.Json — JSON values and their indented text.

Objects keep their fields in the order given, because that order is seen in
the printed text. A number is kept as it is written; quests hold numbers only
as names of fields.
-/
import Questbook.Text.Indent

namespace Questbook

open Text

/-- A JSON value. -/
inductive Json where
  | null
  | bool (b : Bool)
  | number (numeral : String)
  | string (s : String)
  | array (items : List Json)
  | object (fields : List (String × Json))
deriving Repr

namespace Json

/-! ## 1. Text -/

/-- The two hexadecimal digits of a control character. -/
def hexByte (c : Char) : List Char :=
  [Nat.digitChar (c.toNat / 16), Nat.digitChar (c.toNat % 16)]

/-- A character inside a quoted string. Quotation marks, backslashes and the
controls of ASCII are escaped, the controls with a letter where there is one. -/
def escapeChar (c : Char) : List Char :=
  if c = '"' then ['\\', '"']
  else if c = '\\' then ['\\', '\\']
  else if c = '\x08' then ['\\', 'b']
  else if c = '\x0c' then ['\\', 'f']
  else if c = '\n' then ['\\', 'n']
  else if c = '\r' then ['\\', 'r']
  else if c = '\t' then ['\\', 't']
  else if c.toNat < 0x20 then ['\\', 'u', '0', '0'] ++ hexByte c
  else [c]

/-- A quoted string. -/
def quote (s : String) : String :=
  "\"" ++ String.ofList (s.toList.flatMap escapeChar) ++ "\""

mutual

/-- The text of a value, one item or field a line, two blanks deeper at each
level. `indent` is the depth of the line that the value starts on. -/
def pretty (indent : Nat) : Json → String
  | .null => "null"
  | .bool true => "true"
  | .bool false => "false"
  | .number numeral => numeral
  | .string s => quote s
  | .array [] => "[]"
  | .array (item :: items) =>
    "[" ++ newline (indent + 2) ++ item.pretty (indent + 2) ++ prettyItems (indent + 2) items ++
      newline indent ++ "]"
  | .object [] => "\x7b\x7d"
  | .object ((name, value) :: fields) =>
    "\x7b" ++ newline (indent + 2) ++ quote name ++ ": " ++ value.pretty (indent + 2) ++
      prettyFields (indent + 2) fields ++ newline indent ++ "\x7d"

/-- The items behind the first one, each on a line of its own. -/
def prettyItems (indent : Nat) : List Json → String
  | [] => ""
  | item :: items => "," ++ newline indent ++ item.pretty indent ++ prettyItems indent items

/-- The fields behind the first one, each on a line of its own. -/
def prettyFields (indent : Nat) : List (String × Json) → String
  | [] => ""
  | (name, value) :: fields =>
    "," ++ newline indent ++ quote name ++ ": " ++ value.pretty indent ++
      prettyFields indent fields

end

/-! ## 2. Taking values apart -/

/-- The string that the value is. -/
def string? : Json → Option String
  | .string s => some s
  | _ => none

/-- The truth value that the value is. -/
def bool? : Json → Option Bool
  | .bool b => some b
  | _ => none

/-- The items of an array, each read by `read`. -/
def list? {α : Type} (read : Json → Option α) : Json → Option (List α)
  | .array items => items.mapM read
  | _ => none

/-- The fields of an object. -/
def fields? : Json → Option (List (String × Json))
  | .object fields => some fields
  | _ => none

/-- A field that has to be there. -/
def required {α : Type} (fields : List (String × Json)) (name : String)
    (read : Json → Option α) : Option α :=
  (fields.lookup name).bind read

/-- A field that may be left out, but not be ill-formed. -/
def optional {α : Type} (fields : List (String × Json)) (name : String) (default : α)
    (read : Json → Option α) : Option α :=
  match fields.lookup name with
  | none => some default
  | some value => read value

end Json

end Questbook
