/-
Questbook.Proofs.Bytes.Safety — no use of a scanner stops it.

Whoever has a scanner can read and look ahead, change the way of reading, take
snapshots and go back to any of them under whatever mode. In each such course
nothing is ever sliced, looked at or counted out of range, and after each operation
the position is in the source and cuts no character (`scan_safe`). The answers are
those of a reader that is used in the same way, so this is about the readers that
everything else is built on.

What carries the proof is one invariant of readers, `Reader.Within`: the offset is
the size of a whole piece of the source. It holds of the reader and of all readers
that are kept, and each operation keeps it.
-/
import Questbook.Proofs.Bytes.Tokens

namespace Questbook

open Text

/-- What can be asked of a scanner. -/
inductive Operation where
  /-- The next token. -/
  | next
  /-- The next token, looked at only. -/
  | peek
  /-- The next token in an iteration, which the end of the file ends. -/
  | item
  /-- From now on, words are read widely or narrowly. -/
  | widen (wide : Bool)
  /-- Keeps the place and the mode. -/
  | snapshot
  /-- Goes back to what was kept, by its number from zero. -/
  | restore (number : Nat)
deriving DecidableEq, Repr

/-- What an operation gives. -/
inductive Answer where
  | token (token : Token)
  | item (token? : Option Token)
  | nothing
deriving DecidableEq, Repr

/-- What can be seen of an operation: the answer, and then the position and the mode. -/
structure Step where
  answer : Answer
  position : Nat
  wide : Bool
deriving DecidableEq, Repr

/-- A token as an item of an iteration. -/
def Token.item? (token : Token) : Option Token :=
  if token.lexeme = .endOfFile then none else some token

namespace Scanner

/-- One operation on a scanner and what was kept of it. -/
def perform (source : String) (s : Scanner) (kept : List Scanner) :
    Operation → Except Halt (Answer × Scanner × List Scanner)
  | .next => do
    let (token, s) ← next source s
    return (.token token, s, kept)
  | .peek => do
    let (token, _) ← next source s
    return (.token token, s, kept)
  | .item => do
    let (token, s) ← next source s
    return (.item token.item?, s, kept)
  | .widen wide => return (.nothing, { s with wide }, kept)
  | .snapshot => return (.nothing, s, kept ++ [s])
  | .restore number => return (.nothing, kept[number]?.getD s, kept)

/-- The operations one after the other. -/
def run (source : String) (s : Scanner) (kept : List Scanner) :
    List Operation → Except Halt (List Step)
  | [] => return []
  | operation :: operations => do
    let (answer, s, kept) ← perform source s kept operation
    let steps ← run source s kept operations
    return ⟨answer, s.position, s.wide⟩ :: steps

/-- The operations on a new scanner. -/
def scan (source : String) (operations : List Operation) : Except Halt (List Step) :=
  run source ⟨0, false⟩ [] operations

end Scanner

namespace Reader

/-- One operation on a reader and the readers kept. -/
def perform (r : Reader) (kept : List Reader) : Operation → Answer × Reader × List Reader
  | .next => (.token r.next.1, r.next.2, kept)
  | .peek => (.token r.peek, r, kept)
  | .item => (.item r.next.1.item?, r.next.2, kept)
  | .widen wide => (.nothing, { r with wide }, kept)
  | .snapshot => (.nothing, r, kept ++ [r])
  | .restore number => (.nothing, kept[number]?.getD r, kept)

/-- The operations one after the other. -/
def run (r : Reader) (kept : List Reader) : List Operation → List Step
  | [] => []
  | operation :: operations =>
    let (answer, r, kept) := r.perform kept operation
    ⟨answer, r.offset, r.wide⟩ :: r.run kept operations

/-- The operations on a reader at the start of a source. -/
def scan (source : String) (operations : List Operation) : List Step :=
  (ofSource source).run [] operations

/-- The scanner at the place of a reader. -/
def toScanner (r : Reader) : Scanner :=
  ⟨r.offset, r.wide⟩

end Reader

/-! ## 1. One operation -/

namespace Reader.Within

variable {source : String} {r : Reader} {kept : List Reader}

theorem isValid (h : r.Within source.toList) : (⟨r.offset⟩ : String.Pos.Raw).IsValid source := by
  obtain ⟨front, hsource, hoffset⟩ := h
  rw [hoffset]
  exact isValid_of_append hsource

/-- What an operation keeps. -/
theorem perform (h : r.Within source.toList) (hkept : ∀ k ∈ kept, k.Within source.toList)
    (operation : Operation) :
    (r.perform kept operation).2.1.Within source.toList ∧
      ∀ k ∈ (r.perform kept operation).2.2, k.Within source.toList := by
  cases operation with
  | next => exact ⟨h.next, hkept⟩
  | peek => exact ⟨h, hkept⟩
  | item => exact ⟨h.next, hkept⟩
  | widen wide => exact ⟨h, hkept⟩
  | snapshot =>
    refine ⟨h, fun k hk => ?_⟩
    rcases List.mem_append.1 hk with hk | hk
    · exact hkept k hk
    · rwa [List.mem_singleton.1 hk]
  | restore number =>
    refine ⟨?_, hkept⟩
    show (kept[number]?.getD r).Within source.toList
    cases hk : kept[number]? with
    | none => exact h
    | some k => exact hkept k (List.mem_of_getElem? hk)

end Reader.Within

namespace Scanner

variable {source : String} {r : Reader} {kept : List Reader}

theorem next_toScanner (hsize : source.utf8ByteSize < 2 ^ 31) (h : r.Within source.toList) :
    next source r.toScanner = .ok (r.next.1, r.next.2.toScanner) :=
  next_eq hsize h

/-- An operation does to a scanner what it does to the reader. -/
theorem perform_toScanner (hsize : source.utf8ByteSize < 2 ^ 31) (h : r.Within source.toList)
    (operation : Operation) :
    perform source r.toScanner (kept.map Reader.toScanner) operation =
      .ok ((r.perform kept operation).1, (r.perform kept operation).2.1.toScanner,
        (r.perform kept operation).2.2.map Reader.toScanner) := by
  have hnext := next_toScanner hsize h
  cases operation with
  | next =>
    rw [perform, hnext]
    rfl
  | peek =>
    rw [perform, hnext]
    rfl
  | item =>
    rw [perform, hnext]
    rfl
  | widen wide => rfl
  | snapshot =>
    have hkeep : (kept ++ [r]).map Reader.toScanner =
        kept.map Reader.toScanner ++ [r.toScanner] := List.map_append
    exact congrArg (fun kept' => Except.ok (Answer.nothing, r.toScanner, kept')) hkeep.symm
  | restore number =>
    have hback : (kept.map Reader.toScanner)[number]?.getD r.toScanner =
        (kept[number]?.getD r).toScanner := by
      rw [List.getElem?_map, Option.getD_map]
    exact congrArg (fun s => Except.ok (Answer.nothing, s, kept.map Reader.toScanner)) hback

/-! ## 2. Runs -/

theorem run_toScanner (hsize : source.utf8ByteSize < 2 ^ 31) (h : r.Within source.toList)
    (hkept : ∀ k ∈ kept, k.Within source.toList) (operations : List Operation) :
    run source r.toScanner (kept.map Reader.toScanner) operations =
      .ok (r.run kept operations) := by
  induction operations generalizing r kept with
  | nil => rfl
  | cons operation operations ih =>
    obtain ⟨hbehind, hstill⟩ := h.perform hkept operation
    have hothers := ih hbehind hstill
    rw [run, perform_toScanner hsize h]
    simp only [bind, Except.bind, hothers]
    rfl

theorem isValid_of_mem_run (h : r.Within source.toList)
    (hkept : ∀ k ∈ kept, k.Within source.toList) (operations : List Operation) :
    ∀ step ∈ r.run kept operations, (⟨step.position⟩ : String.Pos.Raw).IsValid source := by
  induction operations generalizing r kept with
  | nil => exact fun step hstep => by cases hstep
  | cons operation operations ih =>
    obtain ⟨hbehind, hstill⟩ := h.perform hkept operation
    intro step hstep
    rcases List.mem_cons.1 hstep with rfl | hstep
    · exact hbehind.isValid
    · exact ih hbehind hstill step hstep

/-- **No use of a scanner stops it.** On every source of less than 2³¹ bytes and for
all operations in any order, no slice is out of range or cuts a character, no byte is
asked for that is not there, and the counter of open parentheses stays between zero
and the number of bytes passed in the word. The answers and the places are those of a
reader, and each place is in the source and cuts no character. -/
theorem scan_safe (source : String) (hsize : source.utf8ByteSize < 2 ^ 31)
    (operations : List Operation) :
    scan source operations = .ok (Reader.scan source operations) ∧
      ∀ step ∈ Reader.scan source operations, step.position ≤ source.utf8ByteSize ∧
        (⟨step.position⟩ : String.Pos.Raw).IsValid source := by
  have hstart : (Reader.ofSource source).Within source.toList := ⟨[], rfl, rfl⟩
  have hnone : ∀ k ∈ ([] : List Reader), k.Within source.toList := fun k hk => by cases hk
  refine ⟨run_toScanner hsize hstart hnone operations, fun step hstep => ?_⟩
  have hvalid := isValid_of_mem_run hstart hnone operations step hstep
  exact ⟨hvalid.le_utf8ByteSize, hvalid⟩

theorem scan_safe_span :
    scan "é (ñ\n" [.snapshot, .widen true, .item, .next, .restore 0, .next, .peek] =
        .ok [⟨.nothing, 0, false⟩, ⟨.nothing, 0, true⟩,
          ⟨.item (some ⟨.identifier "é (ñ", 0⟩), 6, true⟩, ⟨.token ⟨.lineBreaks 1, 6⟩, 7, true⟩,
          ⟨.nothing, 0, false⟩, ⟨.token ⟨.identifier "é", 0⟩, 2, false⟩,
          ⟨.token ⟨.identifier "(ñ", 3⟩, 2, false⟩] := by
  exact (scan_safe _ (by decide) _).1.trans (by decide +kernel)

end Scanner

end Questbook
