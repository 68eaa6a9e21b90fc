/-
Questbook.Quest.Parse — from a source to a quest.

The whole grammar at a glance:

    file      := { flag | title | briefing | resources | stages }
    flag      := "+" WORD
    title     := "title" ":" LINE
    briefing  := "briefing" ":" BLOCK
    resources := "qrc" ":" { KIND ":" INTEGER BLOCK }
    stages    := "qst" ":" COMMANDS { ("task" | "event") NAME ":" COMMANDS }

Keywords ignore the case of ASCII letters. A BLOCK is lines of text up to a
blank line. A source with an error gives no quest, but what the log is told
before the error stays.
-/
import Questbook.Directive.Read

namespace Questbook

/-- What came of a source: a quest or an error, and what the log is told. -/
structure Reading where
  result : Except ParseError Quest
  notices : List Notice

namespace Quest

/-- Reads a source. -/
def reading (source : String) : Reading :=
  let run := (Reader.ofSource source).directives
  { result := run.ending.map fun _ => ofDirectives run.items
    notices := run.items.flatMap Directive.notices }

/-- The quest of a source. -/
def parse (source : String) : Except ParseError Quest :=
  (reading source).result

end Quest

end Questbook
