/-
Questbook.Path — paths as text.

Paths are kept as they are written: joining and taking the parent work on the
text and tidy nothing up but what they cut off. A path that opens with `/` is
absolute and replaces whatever it is joined to.
-/

namespace Questbook.Path

/-- The path does not depend on a current folder. -/
def isAbsolute (path : String) : Bool :=
  path.toList.head? == some '/'

/-- The path of `path` seen from the folder `base`. -/
def join (base path : String) : String :=
  if isAbsolute path then path
  else if base.isEmpty || base.toList.getLast? == some '/' then base ++ path
  else base ++ "/" ++ path

/-- The pieces between the slashes; there is one more of them than slashes. -/
def pieces : List Char → List (List Char)
  | [] => [[]]
  | c :: cs =>
    if c = '/' then [] :: pieces cs
    else
      match pieces cs with
      | piece :: others => (c :: piece) :: others
      | [] => [[c]]

/-- An empty piece or a single dot names no component. -/
def isIdle (piece : List Char) : Bool :=
  piece == [] || piece == ['.']

/-- Cuts off the root or the dot that a path opens with. -/
def splitHead : List Char → List Char × List Char
  | '/' :: cs => (['/'], cs)
  | ['.'] => (['.'], [])
  | '.' :: '/' :: cs => (['.'], '/' :: cs)
  | cs => ([], cs)

/-- The path without its last component. The root and the empty path have no
parent; the parent of a single component is the empty path. -/
def parent? (path : String) : Option String :=
  let (head, body) := splitHead path.toList
  match (pieces body).reverse.dropWhile isIdle with
  | [] => if head = ['.'] then some "" else none
  | _ :: others =>
    some (String.ofList (head ++ ['/'].intercalate (others.dropWhile isIdle).reverse))

/-- A file's name cut at its last dot, into the stem and the extension. A dot
at the start begins no extension. -/
def splitExtension (name : String) : String × Option String :=
  let backwards := name.toList.reverse
  match backwards.dropWhile (· != '.') with
  | '.' :: c :: stem =>
    (String.ofList (c :: stem).reverse, some (String.ofList (backwards.takeWhile (· != '.')).reverse))
  | _ => (name, none)

/-! ## Small facts -/

theorem pieces_ne_nil (cs : List Char) : pieces cs ≠ [] := by
  cases cs with
  | nil => simp [pieces]
  | cons c cs =>
    unfold pieces
    split
    · simp
    · split <;> simp

theorem join_of_isAbsolute {base path : String} (h : isAbsolute path = true) :
    join base path = path := by
  simp [join, h]

end Questbook.Path
