/-
Questbook.Assets — where the sources of quests are kept.

A quest's source is a text under a path that follows from the quest's name
alone. The path uses the small letters of the name, so every spelling of a
name that differs in case only leads to the same source. The name is put into
the path as it is, slashes and dots included.
-/
import Questbook.Disk
import Questbook.Path
import Questbook.Table
import Questbook.Unicode.LowerCase

namespace Questbook

/-- The folder of quest sources, seen from the asset root. -/
def questFolder : String := "quests"

/-- The extension of quest sources. -/
def questExtension : String := "qst"

/-- The path of a quest's source, seen from the asset root. -/
def assetPath (name : String) : String :=
  questFolder ++ "/" ++ Unicode.lower name ++ "." ++ questExtension

/-- Hands out texts by path. -/
abbrev Source (m : Type → Type) := String → m Lookup

/-! ## 1. Assets on a disk -/

namespace Disk

variable {m : Type → Type} [Monad m]

/-- The texts under a root folder. -/
def assets (disk : Disk m) (root : String) : Source m :=
  fun path => disk.read (Path.join root path)

/-- The name of the quest whose source has this file name. -/
def questName? (fileName : String) : Option String :=
  match Path.splitExtension fileName with
  | (stem, some extension) => if extension = questExtension then some stem else none
  | (_, none) => none

/-- The names of the quests under a root folder, sorted. No folder of quests
means no quests; `none` means that the folder is there and cannot be listed. -/
def questNames? (disk : Disk m) (root : String) : m (Option (List String)) := do
  let folder := Path.join root questFolder
  if ← disk.isFolder folder then
    let names? ← disk.names? folder
    return names?.map fun names =>
      (names.filterMap questName?).mergeSort fun a b => (compare a b).isLE
  else
    return some []

end Disk

/-! ## 2. Assets in memory -/

/-- Texts by path. -/
abbrev Shelf := Table String String

namespace Shelf

/-- The shelf with the source of a quest at its usual path. -/
def withQuest (shelf : Shelf) (name text : String) : Shelf :=
  shelf.insert (assetPath name) text

/-- The text at a path. Nothing on a shelf is unreadable. -/
def find (shelf : Shelf) (path : String) : Lookup :=
  match shelf.get? path with
  | some text => .found text
  | none => .missing

end Shelf

end Questbook
