/-
Questbook.ParseError — why a source is no quest, and where.

Every fault is found at one token, and the error carries the offset of that
token's first byte. Line and column are computed from the offset when an
author is to be shown the place.
-/
import Questbook.Text.Position

namespace Questbook

/-- What is wrong. -/
inductive Fault where
  /-- Another sort of token has to stand here. -/
  | unexpectedToken (expected found : String)
  | unknownDirective (directive : String)
  /-- A block of the task table opens with another word than `task` or `event`. -/
  | unknownTaskKeyword (keyword : String)
deriving DecidableEq, Repr

/-- A fault and the offset of the token it was found at. -/
structure ParseError where
  fault : Fault
  offset : Nat
deriving DecidableEq, Repr

namespace ParseError

/-- The error in words. -/
def message (e : ParseError) : String :=
  match e.fault with
  | .unexpectedToken expected found =>
    s!"expected {expected} but found {found} (byte {e.offset})"
  | .unknownDirective directive =>
    s!"unknown directive '{directive}' (byte {e.offset})"
  | .unknownTaskKeyword keyword =>
    s!"expected 'task' or 'event' but found '{keyword}' (byte {e.offset})"

/-- The line and column of the error in its source. -/
def position (e : ParseError) (source : String) : Text.Position :=
  .ofOffset source e.offset

end ParseError

end Questbook
