/-
Questbook.Text.Indent — line starts in text that is set out by depth.
-/

namespace Questbook.Text

/-- A new line that starts behind this many spaces. -/
def newline (indent : Nat) : String :=
  String.ofList ('\n' :: List.replicate indent ' ')

end Questbook.Text
