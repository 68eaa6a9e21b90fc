/-
Questbook.Toml.Document — reading a TOML document.

A reader takes the start of a text and gives a value with the rest, or fails;
what exactly is wrong is not told. Lists are read item by item for as long as
an item takes something (`many`), and values inside values are read up to a
fixed depth, so every reader ends.
-/
import Questbook.Text.Position
import Questbook.Toml.Scalar

namespace Questbook.Toml

/-- Reads the start of a text. -/
abbrev Scan (α : Type) := List Char → Option (α × List Char)

/-- Reads items as long as there are any and each takes something. -/
def many {α : Type} (item : Scan α) (cs : List Char) : List α × List Char :=
  match item cs with
  | some (a, rest) =>
    if rest.length < cs.length then
      let (others, last) := many item rest
      (a :: others, last)
    else ([], cs)
  | none => ([], cs)
termination_by cs.length

/-! ## 1. Blanks, line ends and comments -/

/-- Blanks inside a line. -/
def isBlank (c : Char) : Bool :=
  c == ' ' || c == '\t'

/-- A character that may stand in a comment. -/
def inComment (c : Char) : Bool :=
  c == '\t' || (0x20 ≤ c.toNat && c.toNat != 0x7F)

/-- Passes over blanks. -/
def skipBlanks (cs : List Char) : List Char :=
  cs.dropWhile isBlank

/-- Reads a line end. -/
def newline? : List Char → Option (List Char)
  | '\n' :: cs => some cs
  | '\r' :: '\n' :: cs => some cs
  | _ => none

/-- Passes over a comment, if one stands here. -/
def skipComment : List Char → List Char
  | '#' :: cs => cs.dropWhile inComment
  | cs => cs

/-- Reads what may stand behind a value or a header: blanks, a comment, and
the end of the line or of the text. -/
def lineEnd? (cs : List Char) : Option (List Char) :=
  match skipComment (skipBlanks cs) with
  | [] => some []
  | cs => newline? cs

/-- Reads one blank, line end or comment line. -/
def filler : Scan Unit
  | [] => none
  | c :: cs =>
    if isBlank c then some ((), cs)
    else if c = '#' then (newline? (cs.dropWhile inComment)).map ((), ·)
    else (newline? (c :: cs)).map ((), ·)

/-- Passes over blanks, line ends and comments, as inside brackets. -/
def skipFiller (cs : List Char) : List Char :=
  (many filler cs).2

/-! ## 2. Strings -/

/-- A character that stands for itself in a string with escapes. -/
def isUnescaped (c : Char) : Bool :=
  inComment c && c != '"' && c != '\\'

/-- The character with a code point in hexadecimal digits. -/
def scalarValue? (ds : List Char) : Option Char :=
  let n := rowValue 16 ds
  if ds.all isHexDigit && n.isValidChar then some (Char.ofNat n) else none

/-- Reads an escape behind its backslash. -/
def escape : Scan Char
  | 'b' :: cs => some ('\x08', cs)
  | 't' :: cs => some ('\t', cs)
  | 'n' :: cs => some ('\n', cs)
  | 'f' :: cs => some ('\x0c', cs)
  | 'r' :: cs => some ('\r', cs)
  | '"' :: cs => some ('"', cs)
  | '\\' :: cs => some ('\\', cs)
  | 'u' :: a :: b :: c :: d :: cs => (scalarValue? [a, b, c, d]).map (·, cs)
  | 'U' :: a :: b :: c :: d :: e :: f :: g :: h :: cs =>
    (scalarValue? [a, b, c, d, e, f, g, h]).map (·, cs)
  | _ => none

/-- Reads a character of a string on one line. -/
def basicPiece : Scan (List Char)
  | '\\' :: cs => (escape cs).map fun (c, rest) => ([c], rest)
  | c :: cs => if isUnescaped c then some ([c], cs) else none
  | [] => none

/-- Reads a backslash at the end of a line, with the blanks and line ends
behind it. -/
def lineFold? (cs : List Char) : Option (List Char) :=
  (newline? (skipBlanks cs)).map fun rest =>
    (many (fun cs =>
      match cs with
      | [] => none
      | c :: rest => if isBlank c then some ((), rest) else (newline? cs).map ((), ·)) rest).2

/-- Reads a character of a string over several lines. -/
def multilinePiece (cs : List Char) : Option (List Char × List Char) :=
  match cs with
  | '"' :: '"' :: '"' :: _ => none
  | '"' :: cs => some (['"'], cs)
  | '\\' :: cs =>
    match lineFold? cs with
    | some rest => some ([], rest)
    | none => (escape cs).map fun (c, rest) => ([c], rest)
  | c :: rest =>
    match newline? cs with
    | some rest => some (['\n'], rest)
    | none => if isUnescaped c then some ([c], rest) else none
  | [] => none

/-- Reads a character of a literal string over several lines. -/
def literalPiece (cs : List Char) : Option (List Char × List Char) :=
  match cs with
  | '\'' :: '\'' :: '\'' :: _ => none
  | c :: rest =>
    match newline? cs with
    | some rest => some (['\n'], rest)
    | none => if inComment c then some ([c], rest) else none
  | [] => none

/-- Reads the three marks that close a string over several lines. Up to two
more before them belong to the string. -/
def closing (mark : Char) (cs : List Char) : Option (List Char × List Char) :=
  let marks := (cs.takeWhile (· == mark)).length
  if marks < 3 then none
  else
    let own := min (marks - 3) 2
    some (List.replicate own mark, cs.drop (own + 3))

/-- Reads the rest of a string over several lines. A line end right behind the
opening marks is no part of it. -/
def multiline (mark : Char) (piece : Scan (List Char)) (cs : List Char) :
    Option (List Char × List Char) := do
  let (pieces, rest) := many piece ((newline? cs).getD cs)
  let (own, rest) ← closing mark rest
  return (pieces.flatten ++ own, rest)

/-- Reads a string on one line with escapes, behind its mark. -/
def basic (cs : List Char) : Option (List Char × List Char) := do
  let (pieces, rest) := many basicPiece cs
  let rest ← char? '"' rest
  return (pieces.flatten, rest)

/-- Reads a literal string on one line, behind its mark. -/
def literal (cs : List Char) : Option (List Char × List Char) := do
  let (text, rest) := cs.span fun c => inComment c && c != '\''
  let rest ← char? '\'' rest
  return (text, rest)

/-- Reads a string of any sort. -/
def quoted : Scan String := fun cs =>
  let read :=
    match cs with
    | '"' :: '"' :: '"' :: cs => multiline '"' multilinePiece cs
    | '\'' :: '\'' :: '\'' :: cs => multiline '\'' literalPiece cs
    | '"' :: cs => basic cs
    | '\'' :: cs => literal cs
    | _ => none
  read.map fun (text, rest) => (String.ofList text, rest)

/-! ## 3. Keys -/

/-- A character of a key without quotation marks. -/
def inBareKey (c : Char) : Bool :=
  c.isAlphanum || c == '-' || c == '_'

/-- Reads a key without dots. -/
def simpleKey : Scan String
  | '"' :: cs => (basic cs).map fun (text, rest) => (String.ofList text, rest)
  | '\'' :: cs => (literal cs).map fun (text, rest) => (String.ofList text, rest)
  | cs =>
    let text := cs.takeWhile inBareKey
    if text.isEmpty then none else some (String.ofList text, cs.dropWhile inBareKey)

/-- Reads a key with the blanks around it. -/
def spacedKey : Scan String := fun cs =>
  (simpleKey (skipBlanks cs)).map fun (key, rest) => (key, skipBlanks rest)

/-- The most arrays and inline tables that may be inside each other, and the
most keys that dots may join. -/
def deepest : Nat := 79

/-- Reads a dotted key. -/
def dottedKey : Scan (List String) := fun cs => do
  let (first, rest) ← spacedKey cs
  let (others, rest) := many (fun cs => do spacedKey (← char? '.' cs)) rest
  if others.length + 1 ≤ deepest then some (first :: others, rest) else none

/-! ## 4. Values -/

/-- A character that ends a scalar without quotation marks. -/
def endsScalar (c : Char) : Bool :=
  c == ' ' || c == '\t' || c == '\r' || c == '\n' || c == ',' || c == ']' || c == '\x7d' || c == '#'

/-- Reads a scalar without quotation marks. A blank between a date and a time
belongs to it. -/
def bareScalar : Scan Value := fun cs =>
  let (text, rest) := cs.span (!endsScalar ·)
  match date? text, rest with
  | some [], ' ' :: d :: behind =>
    if d.isDigit then
      let (time, last) := (d :: behind).span (!endsScalar ·)
      (scalar? (text ++ ' ' :: time)).map (·, last)
    else (scalar? text).map (·, rest)
  | _, _ => (scalar? text).map (·, rest)

/-- Reads what stands between `separator`s, if anything does. -/
def separated {α : Type} (separator : Char) (item : Scan α) (cs : List Char) : List α × List Char :=
  match item cs with
  | none => ([], cs)
  | some (first, rest) =>
    let (others, last) := many (fun cs => do item (← char? separator cs)) rest
    (first :: others, last)

/-- Reads an array behind its bracket. A comma may stand behind the last item. -/
def array (value : Scan Value) (cs : List Char) : Option (Value × List Char) := do
  let spaced : Scan Value := fun cs =>
    (value (skipFiller cs)).map fun (v, rest) => (v, skipFiller rest)
  let (items, rest) := separated ',' spaced cs
  let rest := if items.isEmpty then rest else (char? ',' rest).getD rest
  let rest ← char? ']' (skipFiller rest)
  return (.array items, rest)

/-- Reads a key, an equals sign and a value. -/
def keyValue (value : Scan Value) : Scan (List String × Value) := fun cs => do
  let (key, rest) ← dottedKey cs
  let rest ← char? '=' rest
  let (v, rest) ← value (skipBlanks rest)
  return ((key, v), rest)

/-- Reads an inline table behind its brace. -/
def inlineTable (value : Scan Value) (cs : List Char) : Option (Value × List Char) := do
  let spaced : Scan (List String × Value) := fun cs =>
    (keyValue value cs).map fun (entry, rest) => (entry, skipBlanks rest)
  let (pairs, rest) := separated ',' spaced cs
  let entries ← pairs.foldlM (fun entries (key, v) => Entries.add v key entries) []
  let rest ← char? '\x7d' (skipBlanks rest)
  return (.table .inline entries, rest)

/-- Reads a value that has no values inside. No bracket or brace opens one. -/
def flatValue : Scan Value := fun cs =>
  match cs with
  | '"' :: _ => (quoted cs).map fun (s, rest) => (.string s, rest)
  | '\'' :: _ => (quoted cs).map fun (s, rest) => (.string s, rest)
  | _ => bareScalar cs

/-- Reads a value with at most `depth` arrays and inline tables inside each
other. -/
def value : Nat → Scan Value
  | depth + 1, '[' :: cs => array (value depth) cs
  | depth + 1, '\x7b' :: cs => inlineTable (value depth) cs
  | _, cs => flatValue cs

/-! ## 5. Lines -/

/-- A line of a document that says something. -/
inductive Line where
  | blank
  | keyValue (key : List String) (value : Value)
  | header (key : List String)
  | itemHeader (key : List String)

/-- Reads a line of a document. -/
def line : Scan Line := fun cs =>
  match skipBlanks cs with
  | [] => some (.blank, [])
  | '[' :: '[' :: cs => do
    let (key, rest) ← dottedKey cs
    let rest ← char? ']' rest
    let rest ← char? ']' rest
    return (.itemHeader key, ← lineEnd? rest)
  | '[' :: cs => do
    let (key, rest) ← dottedKey cs
    let rest ← char? ']' rest
    return (.header key, ← lineEnd? rest)
  | c :: rest =>
    if c = '#' || (newline? (c :: rest)).isSome then (lineEnd? (c :: rest)).map (.blank, ·)
    else do
      let ((key, v), rest) ← keyValue (value deepest) (c :: rest)
      return (.keyValue key v, ← lineEnd? rest)

/-- A document so far: the keys of the last header, and the entries. In a list
of tables, the last one is meant. -/
structure State where
  here : List String := []
  entries : Entries := []

/-- The document with one more line. -/
def State.next (state : State) : Line → Option State
  | .blank => some state
  | .keyValue key v => do
    return { state with entries := ← state.entries.within (Entries.add v key) state.here }
  | .header key => do
    let last ← key.getLast?
    return ⟨key, ← state.entries.within (Entries.openTable last) key.dropLast⟩
  | .itemHeader key => do
    let last ← key.getLast?
    return ⟨key, ← state.entries.within (Entries.openItem last) key.dropLast⟩

/-- The entries of a document. A byte order mark may stand before it. -/
def parse? (source : String) : Option Entries :=
  let text := match source.toList with
    | '\ufeff' :: cs => cs
    | cs => cs
  let (lines, rest) := many line text
  if rest.isEmpty then (lines.foldlM State.next {}).map (·.entries) else none

end Questbook.Toml
