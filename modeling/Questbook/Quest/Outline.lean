/-
Questbook.Quest.Outline — quests in the indented text form.
-/
import Questbook.Outline
import Questbook.Quest
import Questbook.Text.Numeral

namespace Questbook

/-- The resource as a record. -/
def Resource.toOutline (r : Resource) : Outline :=
  .record [("kind", .word r.kind.name), ("content", .text r.content)]

/-- The command as a record. -/
def Command.toOutline (c : Command) : Outline :=
  .record [("name", .text c.name), ("arguments", .list (c.arguments.map .text))]

/-- The task as a record. -/
def Task.toOutline (t : Task) : Outline :=
  .record [
    ("name", .text t.name),
    ("commands", .list (t.commands.map Command.toOutline)),
    ("is_event", .flag t.isEvent)]

/-- The quest as a record. -/
def Quest.toOutline (q : Quest) : Outline :=
  .record [
    ("title", .text q.title),
    ("briefing", .text q.briefing),
    ("runs_in_background", .flag q.runsInBackground),
    ("resources", .map (q.resources.entries.map fun (id, r) =>
      (Text.Numeral.render id, r.toOutline))),
    ("tasks", .list (q.tasks.map Task.toOutline))]

end Questbook
