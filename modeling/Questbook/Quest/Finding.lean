/-
Questbook.Quest.Finding — oddities of a quest that its source is allowed to have.

The check reports them in a fixed order: an empty title, a first task that is
not the entry point, and then, by the place of the task that shows it, each
later task under the entry point's name and each name used again. A name used
again is reported once, at its second task, however often it comes back.
-/
import Questbook.Quest
import Questbook.Unicode.Space

namespace Questbook

/-- An oddity of a quest. -/
inductive Finding where
  | emptyTitle
  | missingEntryPoint
  /-- The task at this place, counted from zero, has the entry point's name. -/
  | misplacedEntryPoint (index : Nat)
  | duplicateTask (name : String)
deriving DecidableEq, Repr

namespace Finding

/-- The oddity in words. -/
def message : Finding → String
  | .emptyTitle => "quest has no title"
  | .missingEntryPoint => "first task is not the entry point"
  | .misplacedEntryPoint index =>
    s!"task #{index} reuses the reserved name '{Task.entryPointName}'"
  | .duplicateTask name =>
    s!"task '{name}' is defined more than once; the last definition wins"

/-- What the tasks from place `index` on show, where `names` are the names
before them, the latest first. The entry point's name does not get into
`names`. -/
def ofTasks (index : Nat) (names : List String) : List Task → List Finding
  | [] => []
  | task :: tasks =>
    if task.isEntryPoint then
      .misplacedEntryPoint index :: ofTasks (index + 1) names tasks
    else if names.count task.name = 1 then
      .duplicateTask task.name :: ofTasks (index + 1) (task.name :: names) tasks
    else
      ofTasks (index + 1) (task.name :: names) tasks

end Finding

namespace Quest

/-- The oddities of a quest. -/
def findings (q : Quest) : List Finding :=
  (if Unicode.isBlankText q.title then [.emptyTitle] else []) ++
  (if (q.tasks.head?.map Task.isEntryPoint).getD false then [] else [.missingEntryPoint]) ++
  Finding.ofTasks 1 [] q.tasks.tail

end Quest

end Questbook
