/-
Questbook.Proofs.Source.Print — the source of a quest.

A source is printed the way authors write one: a line for the background flag,
a line for the title, the briefing under its heading, each resource with a
blank line behind it, one line for each command. What is empty is left out,
because a heading with nothing behind it would take the next section for its
text. The sections may come in any order but for the task table, which takes
everything behind it for commands and so has to be the last.

Not every quest can be printed. `Quest.Printable` says which can: those whose
texts come back from their places as they are.
-/
import Questbook.Proofs.Source.Words
import Questbook.Quest

namespace Questbook

open Text

/-! ## 1. Printing -/

/-- The arguments of a command, a space before each. -/
def printArguments (arguments : List String) : List Char :=
  arguments.flatMap fun argument => ' ' :: argument.toList

/-- The line of a command. -/
def Command.print (command : Command) : List Char :=
  command.name.toList ++ printArguments command.arguments ++ ['\n']

/-- The label of a task or event. -/
def Task.printLabel (task : Task) : List Char :=
  (Task.keyword task.isEvent).toList ++ ' ' :: task.name.toList ++ [' ', ':', '\n']

/-- The label of a task or event and its commands. -/
def Task.print (task : Task) : List Char :=
  task.printLabel ++ task.commands.flatMap Command.print

/-- A task table. The main line has no label. -/
def TaskTable.print : List Task → List Char
  | [] => []
  | opening :: blocks =>
    "qst :\n".toList ++ (opening.commands.flatMap Command.print ++ blocks.flatMap Task.print)

theorem TaskTable.print_cons (opening : Task) (blocks : List Task) :
    TaskTable.print (opening :: blocks) =
      "qst :\n".toList ++ (opening.commands.flatMap Command.print ++ blocks.flatMap Task.print) :=
  rfl

/-- The entry of a resource, with the blank line behind it. -/
def Resource.print (id : Int64) (resource : Resource) : List Char :=
  resource.kind.name.toList ++ [' ', ':', ' '] ++ (Numeral.render id).toList ++
    ' ' :: resource.content.toList ++ ['\n', '\n']

/-- A section of a source other than its task table. -/
inductive Section where
  | background
  | title
  | briefing
  | resources
deriving DecidableEq, Repr

/-- A section of the source of a quest; nothing, if the quest has nothing to say
there. -/
def Section.print (q : Quest) : Section → List Char
  | .background => if q.runsInBackground then "+background\n".toList else []
  | .title => if q.title = "" then [] else "title : ".toList ++ q.title.toList ++ ['\n']
  | .briefing =>
    if q.briefing = "" then [] else "briefing :\n".toList ++ q.briefing.toList ++ ['\n', '\n']
  | .resources =>
    if q.resources.entries = [] then []
    else "qrc :\n".toList ++ q.resources.entries.flatMap fun entry => entry.2.print entry.1

/-- The source of a quest, its sections in this order and its task table last. -/
def Quest.print (order : List Section) (q : Quest) : String :=
  String.ofList (order.flatMap (Section.print q) ++ TaskTable.print q.tasks)

/-! ## 2. What can be printed -/

/-- A command whose line comes back as it. The name is in small letters, and it
opens no block. -/
structure Command.Printable (command : Command) : Prop where
  name : IsWord command.name.toList
  lower : ∀ c ∈ command.name.toList, c.isUpper = false
  ne_task : command.name ≠ "task"
  ne_event : command.name ≠ "event"
  arguments : ∀ argument ∈ command.arguments, IsArgument argument.toList

theorem lower_of_all {cs : List Char} (h : cs.all (!·.isUpper)) : ∀ c ∈ cs, c.isUpper = false := by
  simpa using h

/-- A task or event that comes back from under its label. -/
structure Task.Printable (task : Task) : Prop where
  name : IsWord task.name.toList
  commands : ∀ command ∈ task.commands, command.Printable

/-- A quest that comes back from its source. -/
structure Quest.Printable (q : Quest) : Prop where
  title : q.title = "" ∨ IsTextLine q.title.toList
  briefing : q.briefing = "" ∨ IsText q.briefing.toList
  resources : ∀ entry ∈ q.resources.entries, IsText entry.2.content.toList
  tasks : ∃ opening blocks, q.tasks = .entryPoint opening :: blocks ∧
    (∀ command ∈ opening, command.Printable) ∧ ∀ task ∈ blocks, task.Printable

/-- A name in small letters is its own folded form. -/
theorem Command.Printable.fold_name {command : Command} (h : command.Printable) :
    fold command.name = command.name := by
  rw [← String.toList_inj, toList_fold]
  refine (List.map_congr_left fun c hc => ?_).trans (List.map_id _)
  exact toLower_of_not_isUpper (h.lower c hc)

/-- The line of a command opens no block. -/
theorem Command.Printable.blockKind?_name {command : Command} (h : command.Printable) :
    Reader.blockKind? command.name = none := by
  rw [Reader.blockKind?]
  split
  · next htask => exact absurd (h.fold_name ▸ htask) h.ne_task
  · next hevent => exact absurd (h.fold_name ▸ hevent) h.ne_event
  · rfl

end Questbook
