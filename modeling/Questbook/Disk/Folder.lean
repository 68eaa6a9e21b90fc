/-
Questbook.Disk.Folder — a folder with its files as a value.

A folder is a list of what it holds, each item under the names that lead to
it. A path is walked piece by piece, as file systems do: every piece but the
last has to lead to a folder, `..` leads up, and what lies above the folder is
unknown and taken to be empty. So a path can fail because there is nothing
there, or because the way is blocked: by a plain file where a folder has to be,
by a name or a path longer than they can be, or by a zero character.
-/
import Questbook.Disk
import Questbook.Path
import Questbook.Text.Position

namespace Questbook

/-- A thing in a folder. -/
inductive Item where
  | file (content : ByteArray)
  | folder

/-- A folder: what it holds at any depth, each thing under the names leading to it. -/
structure Folder where
  items : List (List String × Item) := []

/-- A place in or above a folder. -/
inductive Place where
  /-- The names leading to it, the innermost first. -/
  | inside (names : List String)
  /-- Above the folder. -/
  | outside
deriving DecidableEq, Repr

/-- Why a path leads nowhere. -/
inductive Dead where
  | missing
  | notFolder
  | tooLong
  | zeroCharacter
deriving DecidableEq, Repr

/-- What the system says of it. -/
def Dead.words : Dead → String
  | .missing => "No such file or directory (os error 2)"
  | .notFolder => "Not a directory (os error 20)"
  | .tooLong => "File name too long (os error 36)"
  | .zeroCharacter => "file name contained an unexpected NUL byte"

namespace Folder

/-! ## 1. Finding the way -/

/-- The thing that these names lead to, the innermost name first. -/
def item? (f : Folder) : List String → Option Item
  | [] => some .folder
  | names => f.items.lookup names

/-- The longest name there can be, in bytes. -/
def longestName : Nat := 255

/-- The longest path there can be, in bytes. -/
def longestPath : Nat := 4095

/-- The place is a folder. -/
def holds (f : Folder) : Place → Bool
  | .inside names =>
    match f.item? names with
    | some .folder => true
    | _ => false
  | .outside => true

/-- The place that one piece of a path leads to. -/
def step (f : Folder) (here : Place) (piece : List Char) : Except Dead Place :=
  if !f.holds here then .error .notFolder
  else if Path.isIdle piece then .ok here
  else if piece = ['.', '.'] then
    match here with
    | .inside (_ :: names) => .ok (.inside names)
    | _ => .ok .outside
  else if longestName < Text.size piece then .error .tooLong
  else
    match here with
    | .outside => .error .missing
    | .inside names =>
      let names := String.ofList piece :: names
      if (f.item? names).isSome then .ok (.inside names) else .error .missing

/-- The place that a path leads to. -/
def walk (f : Folder) (path : String) : Except Dead Place :=
  let cs := path.toList
  if cs = [] then .error .missing
  else if cs.contains '\x00' then .error .zeroCharacter
  else if longestPath < Text.size cs then .error .tooLong
  else
    let start := if Path.isAbsolute path then .outside else .inside []
    (Path.pieces cs).foldlM f.step start

/-! ## 2. Questions -/

/-- The text of the file at a path. -/
def read (f : Folder) (path : String) : Lookup :=
  match f.walk path with
  | .error .missing => .missing
  | .error _ => .unreadable
  | .ok .outside => .unreadable
  | .ok (.inside names) =>
    match f.item? names with
    | some (.file content) =>
      match String.fromUTF8? content with
      | some text => .found text
      | none => .unreadable
    | _ => .unreadable

/-- There is a folder at a path. -/
def isFolder (f : Folder) (path : String) : Bool :=
  match f.walk path with
  | .ok place => f.holds place
  | .error _ => false

/-- The names in the folder at a path. -/
def names? (f : Folder) (path : String) : Option (List String) :=
  match f.walk path with
  | .error _ => none
  | .ok .outside => some []
  | .ok (.inside above) =>
    if f.holds (.inside above) then
      some (f.items.filterMap fun (names, _) =>
        match names with
        | name :: rest => if rest = above then some name else none
        | [] => none)
    else none

/-- What is said of a trouble. The reader of the configuration format has words of its
own for a text, which are not known here. -/
def explain (f : Folder) : Trouble → String
  | .reading path =>
    match f.walk path with
    | .error dead => dead.words
    | .ok place =>
      if f.holds place then "Is a directory (os error 21)"
      else "stream did not contain valid UTF-8"
  | .listing path =>
    match f.walk path with
    | .error dead => dead.words
    | .ok _ => Dead.notFolder.words
  | .malformed _ => "not a configuration"

/-- The folder as a disk. -/
def toDisk (f : Folder) : Disk Id where
  read := f.read
  isFolder := f.isFolder
  names? := f.names?
  explain := f.explain

/-! ## 3. Putting things in -/

/-- The folder with one more thing; what is there already stays. -/
def add (f : Folder) (names : List String) (item : Item) : Folder :=
  if (f.item? names).isSome then f else { f with items := f.items ++ [(names, item)] }

/-- Puts a thing under the pieces of a path, seen from `above`, and makes the
folders on the way. -/
def putAt (f : Folder) (item : Item) (above : List String) : List (List Char) → Folder
  | [] => f
  | piece :: others =>
    if Path.isIdle piece then f.putAt item above others
    else if piece = ['.', '.'] then f.putAt item above.tail others
    else
      let names := String.ofList piece :: above
      if others.isEmpty then f.add names item
      else (f.add names .folder).putAt item names others

/-- The folder with a thing at a path, and with the folders on the way. -/
def put (f : Folder) (path : String) (item : Item) : Folder :=
  f.putAt item [] (Path.pieces path.toList)

end Folder

end Questbook
