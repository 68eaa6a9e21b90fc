/-
Questbook.Toml.Value — TOML values, and tables as they grow line by line.

A table remembers how it came to be, because that decides what may still be
added to it. A table under a header is closed against further headers and
dotted keys; one that is only passed through by a longer header may still get
a header of its own; one that dotted keys made may get more dotted keys; an
inline table is complete as it stands.
-/

namespace Questbook.Toml

/-- How a table came to be. -/
inductive Origin where
  /-- It has a header of its own, or is the whole document. -/
  | header
  /-- A longer header leads through it. -/
  | implied
  /-- Dotted keys lead through it. -/
  | dotted
  /-- It is written in braces. -/
  | inline
deriving DecidableEq, Repr

/-- A TOML value. -/
inductive Value where
  | string (s : String)
  | integer (value : Int64)
  /-- A number with a fraction or an exponent, as it is written. -/
  | float (numeral : String)
  /-- A date, a time or both, as it is written. -/
  | dateTime (text : String)
  | boolean (b : Bool)
  | array (items : List Value)
  | table (origin : Origin) (entries : List (String × Value))
  /-- The tables under a repeated header in double brackets. -/
  | tables (items : List (List (String × Value)))
deriving Repr

/-- The keys of a table with their values. -/
abbrev Entries := List (String × Value)

namespace Entries

/-- The entries with the value of a key replaced. -/
def replace (key : String) (value : Value) (entries : Entries) : Entries :=
  entries.map fun entry => if entry.1 = key then (key, value) else entry

/-- Adds a value under a dotted key. A key may be given once only, and dotted
keys may lead through no table that is closed to them. -/
def add (value : Value) : List String → Entries → Option Entries
  | [], _ => none
  | [key], entries =>
    if (entries.lookup key).isSome then none else some (entries ++ [(key, value)])
  | key :: second :: keys, entries =>
    match entries.lookup key with
    | none => do
      let inner ← add value (second :: keys) []
      return entries ++ [(key, .table .dotted inner)]
    | some (.table origin inner) =>
      if origin = .dotted || (origin = .implied && !keys.isEmpty) then do
        return entries.replace key (.table origin (← add value (second :: keys) inner))
      else none
    | some (.tables items) =>
      match items.reverse with
      | [] => none
      | inner :: others =>
        if keys.isEmpty then none
        else do
          return entries.replace key
            (.tables (others.reverse ++ [← add value (second :: keys) inner]))
    | some _ => none

/-- Changes the table that a header's keys lead to, and makes the tables on
the way that are missing. -/
def within (change : Entries → Option Entries) : List String → Entries → Option Entries
  | [], entries => change entries
  | key :: keys, entries =>
    match entries.lookup key with
    | none => do
      return entries ++ [(key, .table .implied (← within change keys []))]
    | some (.table .inline _) => none
    | some (.table origin inner) => do
      return entries.replace key (.table origin (← within change keys inner))
    | some (.tables items) =>
      match items.reverse with
      | [] => none
      | inner :: others => do
        return entries.replace key (.tables (others.reverse ++ [← within change keys inner]))
    | some _ => none

/-- Opens the table of a header. A table may have one header only. -/
def openTable (key : String) (entries : Entries) : Option Entries :=
  match entries.lookup key with
  | none => some (entries ++ [(key, .table .header [])])
  | some (.table .implied inner) => some (entries.replace key (.table .header inner))
  | some _ => none

/-- Opens one more table of a header in double brackets. -/
def openItem (key : String) (entries : Entries) : Option Entries :=
  match entries.lookup key with
  | none => some (entries ++ [(key, .tables [[]])])
  | some (.tables items) => some (entries.replace key (.tables (items ++ [[]])))
  | some _ => none

end Entries

end Questbook.Toml
