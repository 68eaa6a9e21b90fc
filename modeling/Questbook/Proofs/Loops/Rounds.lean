/-
Questbook.Proofs.Loops.Rounds — loops that may take so many rounds and no more.

A function that reads a list ends because each item takes some of the text. That argument
stands in the function's termination proof and leaves nothing in what it computes, so a
list that took a thousand rounds looks like one that took three. Here a loop is told how
many rounds it may take. If it is not left by then, there is no result, not even an error
(`Bounded`), and that is what a loop without progress comes to under any limit.

A loop is given by one round of it, and what is to be known of a loop is known of its
round: `Fits` says that a round either goes on, further down the text and with the same
outcome ahead, or ends the loop with that outcome. Then the loop has that outcome, as soon
as it may take one round more than there are bytes in front of it (`loop_eq`).
-/
import Questbook.Proofs.Bytes.Encoding
import Questbook.Proofs.Grammar.Errors

namespace Questbook

open Text

/-! ## 1. Further down the text -/

namespace Reader

/-- The second reader stands further down the text of the first, or in the same place. -/
def Reaches (r r' : Reader) : Prop :=
  ∃ piece, r.rest = piece ++ r'.rest ∧ r'.offset = r.offset + size piece

/-- The second reader stands further down the text of the first. -/
structure Passes (r r' : Reader) : Prop where
  reaches : r.Reaches r'
  lt : r.offset < r'.offset

variable {source : List Char} {r r' r'' : Reader}

theorem Reaches.refl (r : Reader) : r.Reaches r :=
  ⟨[], rfl, rfl⟩

theorem Reaches.trans (h : r.Reaches r') (h' : r'.Reaches r'') : r.Reaches r'' := by
  obtain ⟨piece, hrest, hoffset⟩ := h
  obtain ⟨piece', hrest', hoffset'⟩ := h'
  refine ⟨piece ++ piece', ?_, ?_⟩
  · rw [hrest, hrest', List.append_assoc]
  · rw [hoffset', hoffset, size_append, Nat.add_assoc]

theorem Reaches.offset_le (h : r.Reaches r') : r.offset ≤ r'.offset := by
  obtain ⟨piece, -, hoffset⟩ := h
  omega

theorem Reaches.within (h : r.Reaches r') (hr : r.Within source) : r'.Within source := by
  obtain ⟨piece, hrest, hoffset⟩ := h
  obtain ⟨front, hsource, hfront⟩ := hr
  refine ⟨front ++ piece, ?_, ?_⟩
  · rw [hsource, hrest, List.append_assoc]
  · rw [hoffset, hfront, size_append]

/-- What is passed is no longer in front. -/
theorem Reaches.size_rest (h : r.Reaches r') :
    r.offset + size r.rest = r'.offset + size r'.rest := by
  obtain ⟨piece, hrest, hoffset⟩ := h
  rw [hrest, hoffset, size_append, Nat.add_assoc]

theorem Reaches.size_rest_lt {limit : Nat} (h : r.Reaches r') (hlimit : size r.rest < limit) :
    size r'.rest < limit := by
  have hsize := h.size_rest
  have hle := h.offset_le
  omega

theorem Passes.size_rest_lt (h : r.Passes r') : size r'.rest < size r.rest := by
  have hsize := h.reaches.size_rest
  have hlt := h.lt
  omega

theorem Passes.trans (h : r.Passes r') (h' : r'.Reaches r'') : r.Passes r'' :=
  ⟨h.reaches.trans h', Nat.lt_of_lt_of_le h.lt h'.offset_le⟩

theorem Reaches.passes (h : r.Reaches r') (h' : r'.Passes r'') : r.Passes r'' :=
  ⟨h.trans h'.reaches, Nat.lt_of_le_of_lt h.offset_le h'.lt⟩

theorem reaches_next (r : Reader) : r.Reaches r.next.2 :=
  r.exists_append_next

/-- A token other than the end of the file is passed. -/
theorem passes_next (h : r.next.1.lexeme ≠ .endOfFile) : r.Passes r.next.2 := by
  obtain ⟨piece, hrest, hoffset⟩ := r.exists_append_next
  have hne : piece ≠ [] := by
    rintro rfl
    have hlt := length_next_lt h
    rw [hrest] at hlt
    exact Nat.lt_irrefl _ hlt
  refine ⟨⟨piece, hrest, hoffset⟩, ?_⟩
  have hpos := size_pos hne
  omega

/-- What is behind and what is in front make the source. -/
theorem Within.offset_add_size_rest {source : String} (h : r.Within source.toList) :
    r.offset + size r.rest = source.utf8ByteSize := by
  obtain ⟨front, hsource, hoffset⟩ := h
  rw [utf8ByteSize_eq, hsource, size_append, hoffset]

end Reader

/-! ## 2. Rounds -/

/-- A result or an error; nothing, if a loop took all the rounds it may take and was not
left. -/
abbrev Bounded : Type → Type :=
  ExceptT ParseError Option

/-- What one round of a loop comes to: the loop goes on, or it is left. -/
inductive Round (σ α : Type) where
  | again (carried : σ) (r : Reader)
  | leave (result : α) (r : Reader)

namespace Bounded

variable {α β : Type}

/-- A reading in which every loop was left. -/
def of (outcome : Except ParseError α) : Bounded α :=
  ExceptT.mk (some outcome)

theorem of_ok_bind (a : α) (f : α → Bounded β) : of (.ok a) >>= f = f a := rfl

theorem ok_bind (a : α) (f : α → Except ParseError β) : (Except.ok a >>= f) = f a := rfl

theorem of_inj {x y : Except ParseError α} (h : of x = of y) : x = y :=
  Option.some.inj h

end Bounded

namespace Round

variable {σ α : Type}

/-- The rounds of a loop, `limit` of them at most. -/
def loop (round : σ → Reader → Bounded (Round σ α)) :
    Nat → σ → Reader → Bounded (α × Reader)
  | 0, _, _ => ExceptT.mk none
  | limit + 1, carried, r => do
    match ← round carried r with
    | .again carried r => loop round limit carried r
    | .leave result last => return (result, last)

/-- A round of a loop that has the outcomes `outcome`. -/
inductive Fits (outcome : σ → Reader → Except ParseError (α × Reader)) (s : σ) (r : Reader) :
    Except ParseError (Round σ α) → Prop where
  | again {s' : σ} {r' : Reader} (hsame : outcome s r = outcome s' r') (hpasses : r.Passes r') :
      Fits outcome s r (.ok (.again s' r'))
  | leave {result : α} {last : Reader} (hout : outcome s r = .ok (result, last))
      (hreaches : r.Reaches last) : Fits outcome s r (.ok (.leave result last))
  | fail {e : ParseError} (hout : outcome s r = .error e) : Fits outcome s r (.error e)

/-- **A loop that gets on is left in time.** Where each round fits, a loop that may take
more rounds than there are bytes in front of it has its outcome, and is left no further up
the text. -/
theorem loop_eq {round : σ → Reader → Bounded (Round σ α)}
    {outcome : σ → Reader → Except ParseError (α × Reader)} {limit : Nat}
    (hround : ∀ s r, size r.rest < limit → ∃ out, round s r = .of out ∧ Fits outcome s r out)
    {rounds : Nat} {s : σ} {r : Reader} (hlimit : size r.rest < limit)
    (hrounds : size r.rest < rounds) :
    loop round rounds s r = .of (outcome s r) ∧
      ∀ result last, outcome s r = .ok (result, last) → r.Reaches last := by
  induction rounds generalizing s r with
  | zero => exact absurd hrounds (Nat.not_lt_zero _)
  | succ rounds ih =>
    obtain ⟨out, hout, hfits⟩ := hround s r hlimit
    rw [loop, hout]
    cases hfits with
    | @again s' r' hsame hpasses =>
      have hlt := hpasses.size_rest_lt
      obtain ⟨hloop, hreaches⟩ := ih (s := s') (r := r') (by omega) (by omega)
      rw [hsame]
      exact ⟨hloop, fun result last hlast => hpasses.reaches.trans (hreaches result last hlast)⟩
    | leave hleave hreaches =>
      refine ⟨by rw [hleave]; rfl, fun result last hlast => ?_⟩
      rw [hleave] at hlast
      cases hlast
      exact hreaches
    | fail hfail =>
      refine ⟨by rw [hfail]; rfl, fun result last hlast => ?_⟩
      rw [hfail] at hlast
      cases hlast

/-- Where each round fits, whatever the limit, a loop goes no way back. -/
theorem reaches_of_fits {round : Nat → σ → Reader → Bounded (Round σ α)}
    {outcome : σ → Reader → Except ParseError (α × Reader)}
    (hround : ∀ limit s r, size r.rest < limit →
      ∃ out, round limit s r = .of out ∧ Fits outcome s r out)
    {s : σ} {r last : Reader} {result : α} (hout : outcome s r = .ok (result, last)) :
    r.Reaches last :=
  (loop_eq (hround (size r.rest + 1)) (Nat.lt_succ_self _) (Nat.lt_succ_self _)).2 result last hout

end Round

end Questbook
