/-
Questbook.Proofs.Text.LineStart — lines and columns stand for offsets, and offsets
for them.

An author looks a place up the other way round: count the lines, go to the start of
the one named, and from there as many bytes on as the column says. So the lines are
cut from the bytes here, at each newline (`lineStarts`), with no regard to characters.

A position is found by going through the bytes before the offset (`pass`,
`ofOffset_eq`). At each byte it is either one column further on in the same line or
at the start of the next one, which is a line start of the bytes so far
(`locates_foldl`). The order of positions follows from the same walk: a byte never
leads back (`before_foldl`). What the walk ends with can be counted without it: the line
from the newlines before the offset, the column from the bytes behind the last of them
(`ofOffset_eq_counts`).
-/
import Mathlib.Data.List.Basic
import Mathlib.Data.List.Induction
import Questbook.Proofs.Bytes.Encoding

namespace Questbook.Text.Position

/-- The byte of a newline. -/
def newlineByte : UInt8 := '\n'.toUInt8

/-- The offsets at which lines start: the first byte, and each one behind a newline. -/
def lineStarts (bytes : List UInt8) : List Nat :=
  0 :: (bytes.idxsOf newlineByte).map (· + 1)

/-- The line and column lead to the offset: the line starts no further than there, the
column counts the bytes from its start, and no other line starts in between. -/
structure Locates (bytes : List UInt8) (offset : Nat) (p : Position) : Prop where
  line_pos : 1 ≤ p.line
  column_pos : 1 ≤ p.column
  line_le : p.line ≤ bytes.count newlineByte + 1
  exists_start : ∃ start, (lineStarts bytes)[p.line - 1]? = some start ∧
    start + (p.column - 1) = offset ∧ newlineByte ∉ (bytes.take offset).drop start

/-- The order of lines, and of columns in one line. -/
def Before (p q : Position) : Prop :=
  p.line < q.line ∨ p.line = q.line ∧ p.column < q.column

instance (p q : Position) : Decidable (p.Before q) :=
  inferInstanceAs (Decidable (_ ∨ _))

theorem Before.ne {p q : Position} (h : p.Before q) : p ≠ q := by
  rintro rfl
  rcases h with hline | ⟨-, hcolumn⟩ <;> omega

theorem Before.trans {p q r : Position} (h₁ : p.Before q) (h₂ : q.Before r) : p.Before r := by
  simp only [Before] at *
  omega

/-! ## 1. Going through bytes -/

/-- The place behind one byte. -/
def pass (here : Position) (b : UInt8) : Position :=
  if b = newlineByte then ⟨here.line + 1, 1⟩ else { here with column := here.column + 1 }

theorem foldl_pass_of_not_mem {bytes : List UInt8} (h : newlineByte ∉ bytes) (here : Position) :
    bytes.foldl pass here = { here with column := here.column + bytes.length } := by
  induction bytes generalizing here with
  | nil => rfl
  | cons b bytes ih =>
    obtain ⟨hb, hbytes⟩ := not_or.1 (List.mem_cons.not.1 h)
    rw [List.foldl_cons, ih hbytes, pass, if_neg (Ne.symm hb)]
    simp [Nat.add_assoc, Nat.add_comm 1]

/-- No byte of another character is a newline. -/
theorem newlineByte_not_mem {c : Char} (h : c ≠ '\n') :
    newlineByte ∉ String.utf8EncodeChar c := by
  intro hmem
  have heq := beq_toUInt8_of_mem (d := '\n') (by decide) hmem
  simp [newlineByte, h] at heq

/-- The position of an offset is the place behind the bytes before it. An offset inside
a character is behind some of the bytes of that character. -/
theorem advance_eq (here : Position) (cs : List Char) (offset : Nat) :
    advance here cs offset = ((encode cs).take offset).foldl pass here := by
  induction cs generalizing here offset with
  | nil => simp [advance]
  | cons c cs ih =>
    have hlength := String.length_utf8EncodeChar c
    rw [advance, encode_cons]
    split
    · next hlt =>
      have hnewline : newlineByte ∉ (String.utf8EncodeChar c).take offset := by
        by_cases hc : c = '\n'
        · subst hc
          obtain rfl : offset = 0 := Nat.lt_one_iff.1 hlt
          simp
        · exact fun hmem => newlineByte_not_mem hc (List.mem_of_mem_take hmem)
      rw [List.take_append_of_le_length (by omega), foldl_pass_of_not_mem hnewline,
        List.length_take, hlength, Nat.min_eq_left (Nat.le_of_lt hlt)]
    · next hle =>
      have htake : (String.utf8EncodeChar c ++ encode cs).take offset =
          String.utf8EncodeChar c ++ (encode cs).take (offset - c.utf8Size) := by
        rw [List.take_append, List.take_of_length_le (by omega), hlength]
      rw [htake, List.foldl_append]
      split
      · next hc =>
        subst hc
        exact ih _ _
      · next hc =>
        rw [foldl_pass_of_not_mem (newlineByte_not_mem hc), hlength]
        exact ih _ _

theorem ofOffset_eq (source : String) (offset : Nat) :
    ofOffset source offset = ((bytesOf source).take offset).foldl pass ⟨1, 1⟩ := by
  rw [ofOffset, advance_eq, bytesOf_eq]

/-! ## 2. Line starts -/

/-- Further bytes add line starts behind those there are. -/
theorem lineStarts_prefix (bytes others : List UInt8) :
    lineStarts bytes <+: lineStarts (bytes ++ others) := by
  rw [lineStarts, lineStarts, List.idxsOf_append, List.map_append, ← List.cons_append]
  exact List.prefix_append _ _

theorem lineStarts_concat_newline (bytes : List UInt8) :
    lineStarts (bytes ++ [newlineByte]) = lineStarts bytes ++ [bytes.length + 1] := by
  simp [lineStarts, List.idxsOf_append, List.idxsOf_cons]

theorem lineStarts_concat {b : UInt8} (hb : b ≠ newlineByte) (bytes : List UInt8) :
    lineStarts (bytes ++ [b]) = lineStarts bytes := by
  simp [lineStarts, List.idxsOf_append, List.idxsOf_cons, hb]

theorem length_lineStarts (bytes : List UInt8) :
    (lineStarts bytes).length = bytes.count newlineByte + 1 := by
  simp [lineStarts]

/-! ## 3. Counting bytes -/

/-- Where the line that the bytes end in starts. -/
def lastLineStart (bytes : List UInt8) : Nat :=
  (lineStarts bytes).getLast (List.cons_ne_nil _ _)

theorem lastLineStart_concat_newline (bytes : List UInt8) :
    lastLineStart (bytes ++ [newlineByte]) = bytes.length + 1 := by
  simp [lastLineStart, lineStarts_concat_newline]

theorem lastLineStart_concat {b : UInt8} (hb : b ≠ newlineByte) (bytes : List UInt8) :
    lastLineStart (bytes ++ [b]) = lastLineStart bytes := by
  simp [lastLineStart, lineStarts_concat hb]

theorem lastLineStart_le (bytes : List UInt8) : lastLineStart bytes ≤ bytes.length := by
  induction bytes using List.reverseRecOn with
  | nil => exact Nat.le_refl _
  | append_singleton bytes b ih =>
    rw [List.length_append, List.length_singleton]
    by_cases hb : b = newlineByte
    · simp only [hb, lastLineStart_concat_newline, Nat.le_refl]
    · rw [lastLineStart_concat hb]
      exact Nat.le_succ_of_le ih

/-- The place behind bytes, counted. -/
theorem foldl_pass_eq (bytes : List UInt8) : bytes.foldl pass ⟨1, 1⟩ =
    ⟨bytes.count newlineByte + 1, bytes.length - lastLineStart bytes + 1⟩ := by
  induction bytes using List.reverseRecOn with
  | nil => rfl
  | append_singleton bytes b ih =>
    rw [List.foldl_append, ih, List.foldl_cons, List.foldl_nil, pass, List.count_append,
      List.length_append, List.length_singleton]
    split
    · next hb =>
      rw [hb, lastLineStart_concat_newline, List.count_singleton_self, Nat.sub_self]
    · next hb =>
      have hle := lastLineStart_le bytes
      rw [lastLineStart_concat hb, List.count_singleton, if_neg (by simpa using hb),
        Nat.sub_add_comm hle]

/-- **Positions are counted.** The line is one more than the newlines before the offset,
and the column one more than the bytes between the start of the last line and the offset.
An offset past the end has all bytes before it. -/
theorem ofOffset_eq_counts (source : String) (offset : Nat) :
    let before := (bytesOf source).take offset
    (ofOffset source offset).line = before.count newlineByte + 1 ∧
      (ofOffset source offset).column = before.length - lastLineStart before + 1 := by
  rw [ofOffset_eq, foldl_pass_eq]
  exact ⟨rfl, rfl⟩

/-! ## 4. The way back -/

/-- Further bytes leave a place where it is. -/
theorem Locates.append {bytes : List UInt8} {offset : Nat} {p : Position}
    (h : Locates bytes offset p) (hoffset : offset ≤ bytes.length) (others : List UInt8) :
    Locates (bytes ++ others) offset p := by
  obtain ⟨start, hstart, hcolumn, hnewline⟩ := h.exists_start
  refine ⟨h.line_pos, h.column_pos, ?_, start, ?_, hcolumn, ?_⟩
  · rw [List.count_append]
    exact Nat.le_trans h.line_le (by omega)
  · obtain ⟨later, hlater⟩ := lineStarts_prefix bytes others
    rw [← hlater]
    exact List.getElem?_append_left (List.getElem?_eq_some_iff.1 hstart).1 ▸ hstart
  · rwa [List.take_append_of_le_length hoffset]

/-- A byte that is no newline is one column further on. -/
theorem Locates.concat {bytes : List UInt8} {p : Position} (h : Locates bytes bytes.length p)
    {b : UInt8} (hb : b ≠ newlineByte) :
    Locates (bytes ++ [b]) (bytes ++ [b]).length { p with column := p.column + 1 } := by
  obtain ⟨hline, hcolumn, hle, start, hstart, hoffset, hnewline⟩ := h.append (Nat.le_refl _) [b]
  refine ⟨hline, Nat.succ_pos _, hle, start, hstart, ?_, ?_⟩
  · rw [List.length_append, List.length_singleton, ← hoffset]
    show start + (p.column + 1 - 1) = _
    omega
  · rw [List.take_left] at hnewline
    rw [List.take_length, List.drop_append_of_le_length (by omega)]
    simp [hnewline, Ne.symm hb]

/-- A newline leads to the start of the next line. -/
theorem locates_newline {bytes : List UInt8} {line : Nat}
    (h : line = bytes.count newlineByte + 1) :
    Locates (bytes ++ [newlineByte]) (bytes ++ [newlineByte]).length ⟨line + 1, 1⟩ := by
  have hlength := length_lineStarts bytes
  refine ⟨Nat.succ_pos _, Nat.le_refl _, ?_, bytes.length + 1, ?_, ?_, ?_⟩
  · exact Nat.le_of_eq (by rw [List.count_append, List.count_singleton_self, h])
  · rw [lineStarts_concat_newline, Nat.add_sub_cancel, h, ← hlength]
    exact List.getElem?_concat_length
  · simp
  · simp

/-- **The place behind bytes** is where its line and column lead to. -/
theorem locates_foldl (bytes : List UInt8) :
    Locates bytes bytes.length (bytes.foldl pass ⟨1, 1⟩) := by
  induction bytes using List.reverseRecOn with
  | nil => exact ⟨Nat.le_refl _, Nat.le_refl _, Nat.le_refl _, 0, rfl, rfl, by simp⟩
  | append_singleton bytes b ih =>
    rw [List.foldl_append, List.foldl_cons, List.foldl_nil, pass]
    split
    · next hb =>
      rw [hb]
      refine locates_newline ?_
      rw [foldl_pass_eq]
    · next hb => exact ih.concat hb

/-! ## 5. The order of positions -/

theorem before_pass (here : Position) (b : UInt8) : here.Before (pass here b) := by
  unfold pass
  split
  · exact .inl (Nat.lt_succ_self _)
  · exact .inr ⟨rfl, Nat.lt_succ_self _⟩

/-- Bytes lead on. -/
theorem before_foldl (here : Position) (b : UInt8) (bytes : List UInt8) :
    here.Before ((b :: bytes).foldl pass here) := by
  induction bytes generalizing here b with
  | nil => exact before_pass here b
  | cons b' bytes ih => exact (before_pass here b).trans (ih (pass here b) b')

theorem before_ofOffset (source : String) {offset offset' : Nat} (hlt : offset < offset')
    (hle : offset' ≤ source.utf8ByteSize) :
    (ofOffset source offset).Before (ofOffset source offset') := by
  have hlength : (bytesOf source).length = source.utf8ByteSize := rfl
  have hsplit : (bytesOf source).take offset' =
      (bytesOf source).take offset ++ ((bytesOf source).take offset').drop offset := by
    have hfront := List.take_append_drop offset ((bytesOf source).take offset')
    rwa [List.take_take, Nat.min_eq_left (Nat.le_of_lt hlt), eq_comm] at hfront
  rw [ofOffset_eq, ofOffset_eq, hsplit, List.foldl_append]
  cases hmore : ((bytesOf source).take offset').drop offset with
  | nil =>
    rw [List.drop_eq_nil_iff, List.length_take, hlength] at hmore
    omega
  | cons b bytes => exact before_foldl _ b bytes

/-- **Offsets and positions determine each other.** The line and column of an offset lead
back to it, or to the end, if the offset is past the end. So two offsets within the
source have different positions, in the order of the offsets, and all that are past the
end have the same. -/
theorem ofOffset_determined (source : String) :
    (∀ offset, Locates (bytesOf source) (min offset source.utf8ByteSize)
      (ofOffset source offset)) ∧
    (∀ offset offset', offset ≤ source.utf8ByteSize → offset' ≤ source.utf8ByteSize →
      ofOffset source offset = ofOffset source offset' → offset = offset') ∧
    (∀ offset offset', offset < offset' → offset' ≤ source.utf8ByteSize →
      (ofOffset source offset).Before (ofOffset source offset')) ∧
    (∀ offset, source.utf8ByteSize ≤ offset →
      ofOffset source offset = ofOffset source source.utf8ByteSize) := by
  have hlength : (bytesOf source).length = source.utf8ByteSize := rfl
  refine ⟨?_, ?_, fun offset offset' => before_ofOffset source, ?_⟩
  · intro offset
    have hlocates := (locates_foldl ((bytesOf source).take offset)).append
      (Nat.le_refl _) ((bytesOf source).drop offset)
    rwa [List.take_append_drop, List.length_take, hlength, ← ofOffset_eq] at hlocates
  · intro offset offset' hle hle' heq
    rcases Nat.lt_trichotomy offset offset' with hlt | hsame | hlt
    · exact absurd heq (before_ofOffset source hlt hle').ne
    · exact hsame
    · exact absurd heq.symm (before_ofOffset source hlt hle).ne
  · intro offset hle
    rw [ofOffset_eq, ofOffset_eq, List.take_of_length_le (by omega),
      List.take_of_length_le (Nat.le_of_eq hlength)]

/-- The second byte of a character, and the end behind a trailing newline. -/
theorem ofOffset_determined_accent :
    ofOffset "né\n" 2 = ⟨1, 3⟩ ∧ ofOffset "né\n" 4 = ⟨2, 1⟩ ∧
      Locates (bytesOf "né\n") (min 2 4) ⟨1, 3⟩ ∧ Locates (bytesOf "né\n") (min 7 4) ⟨2, 1⟩ ∧
      Before ⟨1, 3⟩ ⟨2, 1⟩ ∧ ofOffset "né\n" 7 = ofOffset "né\n" 4 := by
  obtain ⟨hlocates, -, hbefore, hend⟩ := ofOffset_determined "né\n"
  have hsecond : ofOffset "né\n" 2 = ⟨1, 3⟩ := by decide
  have hlast : ofOffset "né\n" 4 = ⟨2, 1⟩ := by decide
  have hpast : ofOffset "né\n" 7 = ofOffset "né\n" 4 := hend 7 (by decide)
  refine ⟨hsecond, hlast, hsecond ▸ hlocates 2, ?_, ?_, hpast⟩
  · rw [← hlast, ← hpast]
    exact hlocates 7
  · rw [← hsecond, ← hlast]
    exact hbefore 2 4 (by decide) (by decide)

end Questbook.Text.Position
