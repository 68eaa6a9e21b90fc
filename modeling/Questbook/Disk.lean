/-
Questbook.Disk — what the library asks of a file system.

Three questions are enough: the text of a file, whether there is a folder, and
what a folder holds. They are asked in a monad of the caller's choice, so that
the same code runs on a real disk and on a folder that is a value.

What went wrong with a file is not put into words here. Those words belong to
the system, or to the reader of the configuration format, and they are asked
for when a message has to have them (`Disk.explain`).
-/

namespace Questbook

/-- What came of asking for a text. -/
inductive Lookup where
  | found (text : String)
  | missing
  /-- Something is there, but no text can be had from it. -/
  | unreadable
deriving DecidableEq, Repr

/-- Something that went wrong outside the library. -/
inductive Trouble where
  /-- The file at a path cannot be read as text. -/
  | reading (path : String)
  /-- The folder at a path cannot be listed. -/
  | listing (path : String)
  /-- The text of a configuration file does not describe a configuration. -/
  | malformed (text : String)
deriving DecidableEq, Repr

/-- A file system, as far as quests need one. -/
structure Disk (m : Type → Type) where
  /-- The text of the file at a path. -/
  read : String → m Lookup
  /-- There is a folder at a path. -/
  isFolder : String → m Bool
  /-- The names in the folder at a path, in any order; `none` if they cannot be had. -/
  names? : String → m (Option (List String))
  /-- What is said of a trouble. The words are part of messages, and nothing else
  depends on them. -/
  explain : Trouble → m String

end Questbook
