/-
Questbook.Directive — a quest source as the list of its directives.

A source is read into directives first and made into a quest afterwards. The
directives are what the author wrote, repeated sections and repeated names
included; the quest is what counts in the end, and it follows from the
directives alone. So does what the log is told.
-/
import Questbook.Notice

namespace Questbook

open Text

/-- One directive of a quest source. -/
inductive Directive where
  /-- A word that opens with `+`. -/
  | flag (text : String) (offset : Nat)
  | title (text : String)
  | briefing (text : String)
  /-- A resource table, entries in the order of the source. -/
  | resources (entries : List (Int64 × Resource))
  /-- A task table: the instructions of the main line, then the tasks and events. -/
  | stages (opening : List Command) (blocks : List Task)
deriving DecidableEq, Repr

namespace Directive

/-- The flag of quests that run beside others. -/
def backgroundFlag : String := "+background"

/-! ## 1. What a directive does to a quest -/

/-- The quest with one more directive taken into account. A later directive
replaces what an earlier one of its sort said. -/
def applyTo (q : Quest) : Directive → Quest
  | .flag text _ => if sameFold text backgroundFlag then { q with runsInBackground := true } else q
  | .title text => { q with title := text }
  | .briefing text => { q with briefing := text }
  | .resources entries => { q with resources := .ofList entries }
  | .stages opening blocks => { q with tasks := .entryPoint opening :: blocks }

/-! ## 2. What a directive tells the log -/

/-- A notice for each entry whose number is among `ids` or came before it. -/
def resourceNotices (ids : List Int64) : List (Int64 × Resource) → List Notice
  | [] => []
  | (id, _) :: entries =>
    (if id ∈ ids then [.repeatedResource id] else []) ++ resourceNotices (id :: ids) entries

/-- A notice for each task, and one before it if its name is among `names` or
came before it. -/
def taskNotices (names : List String) : List Task → List Notice
  | [] => []
  | task :: tasks =>
    (if task.name ∈ names then [.repeatedTask task.name] else []) ++
      .taskAdded task.isEvent task.name task.commands.length :: taskNotices (task.name :: names) tasks

/-- What the log is told of a directive. -/
def notices : Directive → List Notice
  | .flag text offset => if sameFold text backgroundFlag then [] else [.unknownFlag text offset]
  | .title _ => []
  | .briefing _ => []
  | .resources entries => resourceNotices [] entries
  | .stages _ blocks => taskNotices [Task.entryPointName] blocks

end Directive

/-- The quest that directives make. -/
def Quest.ofDirectives (directives : List Directive) : Quest :=
  directives.foldl Directive.applyTo {}

end Questbook
