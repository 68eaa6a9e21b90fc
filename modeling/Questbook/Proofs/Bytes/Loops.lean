/-
Questbook.Proofs.Bytes.Loops — where the loops of a scanner come to a halt.

Each loop starts at a place between two characters, with the text `cs` behind it,
and stops behind a piece of that text which is known from cutting the text up by
characters. The bytes before the place are of no meaning. So there is an equation
for what the loop does at one byte, and an induction over the text with that byte
the first of its first character: either the character ends the loop, or the loop
goes through all of its bytes, since they all are answered alike.
-/
import Questbook.Proofs.Bytes.Scanner

namespace Questbook.Scanner

open Text Extent

/-! ## 1. Bytes and characters -/

theorem isBlankByte_of_mem {c : Char} {b : UInt8} (hb : b ∈ String.utf8EncodeChar c) :
    isBlankByte b = isBlank c := by
  have hbeq {d : Char} (hd : d.toNat < 128) := beq_toUInt8_of_mem hd hb
  rw [isBlankByte, isBlank, hbeq (by decide), hbeq (by decide), hbeq (by decide),
    hbeq (by decide), hbeq (by decide)]

theorem endsWordByte_of_mem {c : Char} {b : UInt8} (hb : b ∈ String.utf8EncodeChar c) :
    endsWordByte b = endsWord c := by
  rw [endsWordByte, endsWord, beq_toUInt8_of_mem (by decide) hb, beq_toUInt8_of_mem (by decide) hb]

/-- A byte stops a word if its character is none of those inside a word. -/
theorem stops_of_mem {c : Char} {b : UInt8} (hb : b ∈ String.utf8EncodeChar c) (wide : Bool) :
    (endsWordByte b || (!wide && isBlankByte b)) = !inWord wide c := by
  rw [endsWordByte_of_mem hb, isBlankByte_of_mem hb, inWord, Bool.not_and, Bool.not_not,
    Bool.not_or, Bool.not_not]

/-- The byte at the place is the first of what follows. -/
theorem current_append (before bs : List UInt8) : (before ++ bs)[before.length]? = bs.head? := by
  rw [List.getElem?_append_right (Nat.le_refl _), Nat.sub_self, List.head?_eq_getElem?]

/-- A loop that goes on at each byte of a character goes on behind it. -/
theorem pass_bytes {α : Type} (loop : List UInt8 → Nat → α) {keep : UInt8 → Prop}
    (hstep : ∀ before b after, keep b →
      loop (before ++ b :: after) before.length =
        loop (before ++ [b] ++ after) (before ++ [b]).length)
    {plain : List UInt8} (hplain : ∀ b ∈ plain, keep b) (before after : List UInt8) :
    loop (before ++ (plain ++ after)) before.length =
      loop (before ++ plain ++ after) (before ++ plain).length := by
  induction plain generalizing before with
  | nil => simp
  | cons b plain ih =>
    obtain ⟨hb, hplain⟩ := List.forall_mem_cons.1 hplain
    rw [List.cons_append, hstep before b _ hb, ih hplain]
    simp

theorem exists_utf8EncodeChar_eq_cons (c : Char) : ∃ b bs, String.utf8EncodeChar c = b :: bs :=
  List.exists_cons_of_ne_nil String.utf8EncodeChar_ne_nil

/-! ## 2. Blanks -/

theorem skipBlanks_nil (before : List UInt8) :
    skipBlanks (before ++ []) before.length = before.length := by
  rw [skipBlanks]
  grind [current_append]

theorem skipBlanks_cons (before : List UInt8) (b : UInt8) (after : List UInt8) :
    skipBlanks (before ++ b :: after) before.length =
      if isBlankByte b then skipBlanks (before ++ [b] ++ after) (before ++ [b]).length
      else before.length := by
  rw [skipBlanks]
  grind [current_append]

theorem skipBlanks_pass {c : Char} (h : isBlank c = true) (before after : List UInt8) :
    skipBlanks (before ++ (String.utf8EncodeChar c ++ after)) before.length =
      skipBlanks (before ++ String.utf8EncodeChar c ++ after)
        (before ++ String.utf8EncodeChar c).length := by
  refine pass_bytes skipBlanks (fun before b after hb => ?_)
    (fun b hb => (isBlankByte_of_mem hb).trans h) before after
  rw [skipBlanks_cons, if_pos hb]

theorem skipBlanks_stop {c : Char} (h : isBlank c = false) (before after : List UInt8) :
    skipBlanks (before ++ (String.utf8EncodeChar c ++ after)) before.length = before.length := by
  obtain ⟨b, bs, hbytes⟩ := exists_utf8EncodeChar_eq_cons c
  have hb : isBlankByte b = false := by
    rw [isBlankByte_of_mem (c := c) (by simp [hbytes]), h]
  rw [hbytes, List.cons_append, skipBlanks_cons, hb, if_neg Bool.false_ne_true]

theorem skipBlanks_encode (before : List UInt8) (cs : List Char) :
    skipBlanks (before ++ encode cs) before.length =
      before.length + size (cs.takeWhile isBlank) := by
  induction cs generalizing before with
  | nil => exact skipBlanks_nil before
  | cons c cs ih =>
    cases hc : isBlank c with
    | true =>
      rw [encode_cons, skipBlanks_pass hc, ih]
      simp [hc, Nat.add_assoc]
    | false =>
      rw [encode_cons, skipBlanks_stop hc]
      simp [hc]

/-! ## 3. Comments -/

theorem skipComment_nil (before : List UInt8) :
    skipComment (before ++ []) before.length = before.length := by
  rw [skipComment]
  grind [current_append]

theorem skipComment_cons (before : List UInt8) (b : UInt8) (after : List UInt8) :
    skipComment (before ++ b :: after) before.length =
      if b == '\n'.toUInt8 then before.length + 1
      else skipComment (before ++ [b] ++ after) (before ++ [b]).length := by
  rw [skipComment]
  grind [current_append]

theorem skipComment_pass {c : Char} (h : c ≠ '\n') (before after : List UInt8) :
    skipComment (before ++ (String.utf8EncodeChar c ++ after)) before.length =
      skipComment (before ++ String.utf8EncodeChar c ++ after)
        (before ++ String.utf8EncodeChar c).length := by
  refine pass_bytes skipComment (fun before b after hb => ?_)
    (fun b hb => (beq_toUInt8_of_mem (by decide) hb).trans (beq_false_of_ne h)) before after
  rw [skipComment_cons, hb, if_neg Bool.false_ne_true]

/-- An open comment ends behind a piece of the text, and what follows is a gap again. -/
theorem skipComment_encode (before : List UInt8) (cs : List Char) :
    ∃ piece rest, cs = piece ++ rest ∧
      skipComment (before ++ encode cs) before.length = before.length + size piece ∧
      splitGap true cs = (piece ++ (splitGap false rest).1, (splitGap false rest).2) := by
  induction cs generalizing before with
  | nil => exact ⟨[], [], rfl, skipComment_nil before, rfl⟩
  | cons c cs ih =>
    by_cases hc : c = '\n'
    · subst hc
      refine ⟨['\n'], cs, rfl, ?_, rfl⟩
      rw [encode_cons, utf8EncodeChar_of_lt (by decide), List.singleton_append, skipComment_cons,
        if_pos (beq_self_eq_true _)]
      rfl
    · obtain ⟨piece, rest, rfl, hstop, hgap⟩ := ih (before ++ String.utf8EncodeChar c)
      refine ⟨c :: piece, rest, rfl, ?_, ?_⟩
      · rw [encode_cons, skipComment_pass hc, hstop]
        simp [Nat.add_assoc]
      · simp [splitGap, bne_iff_ne.2 hc, hgap]

/-! ## 4. Line breaks -/

theorem separator_nil (before : List UInt8) (count : Nat) :
    separator (before ++ []) count before.length = (count, before.length) := by
  rw [separator]
  grind [current_append]

theorem separator_cons (before : List UInt8) (b : UInt8) (after : List UInt8) (count : Nat) :
    separator (before ++ b :: after) count before.length =
      if b == '\n'.toUInt8 then
        separator (before ++ b :: after) (count + 1)
          (skipBlanks (before ++ [b] ++ after) (before ++ [b]).length)
      else (count, before.length) := by
  rw [separator]
  grind [current_append]

theorem separator_newline (before after : List UInt8) (count : Nat) :
    separator (before ++ (String.utf8EncodeChar '\n' ++ after)) count before.length =
      separator (before ++ String.utf8EncodeChar '\n' ++ after) (count + 1)
        (skipBlanks (before ++ String.utf8EncodeChar '\n' ++ after)
          (before ++ String.utf8EncodeChar '\n').length) := by
  rw [utf8EncodeChar_of_lt (by decide), List.singleton_append, separator_cons,
    if_pos (beq_self_eq_true _), List.append_assoc before, List.singleton_append]

theorem separator_stop {c : Char} (h : c ≠ '\n') (before after : List UInt8) (count : Nat) :
    separator (before ++ (String.utf8EncodeChar c ++ after)) count before.length =
      (count, before.length) := by
  obtain ⟨b, bs, hbytes⟩ := exists_utf8EncodeChar_eq_cons c
  have hb : (b == '\n'.toUInt8) = false := by
    rw [beq_toUInt8_of_mem (c := c) (by decide) (by simp [hbytes]), beq_false_of_ne h]
  rw [hbytes, List.cons_append, separator_cons, hb, if_neg Bool.false_ne_true]

/-- The blanks behind a newline belong to the run, so the induction starts at them. -/
theorem separator_skipBlanks_encode (before : List UInt8) (cs : List Char) (count : Nat) :
    separator (before ++ encode cs) count (skipBlanks (before ++ encode cs) before.length) =
      (count + (cs.takeWhile isSpacing).count '\n',
        before.length + size (cs.takeWhile isSpacing)) := by
  induction cs generalizing before count with
  | nil =>
    rw [encode_nil, skipBlanks_nil, separator_nil]
    simp
  | cons c cs ih =>
    rw [encode_cons]
    cases hblank : isBlank c with
    | true =>
      rw [skipBlanks_pass hblank, ← List.append_assoc, ih]
      simp [isSpacing, hblank, ne_newline_of_isBlank hblank, Nat.add_assoc]
    | false =>
      rw [skipBlanks_stop hblank]
      by_cases hc : c = '\n'
      · subst hc
        rw [separator_newline, ih]
        simp [isSpacing, Nat.add_assoc, Nat.add_comm 1]
      · rw [separator_stop hc]
        simp [isSpacing, hblank, hc]

theorem separator_encode (before : List UInt8) (cs : List Char) :
    separator (before ++ encode ('\n' :: cs)) 0 before.length =
      ((('\n' :: cs).takeWhile isSpacing).count '\n',
        before.length + size (('\n' :: cs).takeWhile isSpacing)) := by
  rw [encode_cons, separator_newline, separator_skipBlanks_encode]
  simp [isSpacing, Nat.add_assoc, Nat.add_comm 1]

/-! ## 5. Words -/

theorem wordEnd_nil (before : List UInt8) (wide span : Bool) (start : Nat) (depth : Int) :
    wordEnd (before ++ []) wide span start depth before.length = .ok before.length := by
  rw [wordEnd]
  grind [current_append]

theorem wordEnd_cons (before : List UInt8) (b : UInt8) (after : List UInt8) (wide span : Bool)
    (start : Nat) (depth : Int) :
    wordEnd (before ++ b :: after) wide span start depth before.length =
      if endsWordByte b || (!wide && isBlankByte b) then .ok before.length
      else if span && b == '('.toUInt8 then
        (count (before.length + 1 - start) (depth + 1)).bind fun depth =>
          wordEnd (before ++ [b] ++ after) wide span start depth (before ++ [b]).length
      else if span && b == ')'.toUInt8 then
        (count (before.length + 1 - start) (depth - 1)).bind fun depth =>
          if depth = 0 then .ok (before.length + 1)
          else wordEnd (before ++ [b] ++ after) wide span start depth (before ++ [b]).length
      else wordEnd (before ++ [b] ++ after) wide span start depth (before ++ [b]).length := by
  rw [wordEnd]
  have hb : (before ++ b :: after)[before.length]? = some b := current_append before _
  have hbytes : before ++ [b] ++ after = before ++ b :: after := by simp
  have hlength : (before ++ [b]).length = before.length + 1 := by simp
  split
  · next h => rw [hb] at h; cases h
  · next byte h =>
    obtain rfl : b = byte := Option.some.inj (hb.symm.trans h)
    rw [hbytes, hlength]
    rfl

theorem wordEnd_stop {wide : Bool} {c : Char} (h : inWord wide c = false)
    (before after : List UInt8) (span : Bool) (start : Nat) (depth : Int) :
    wordEnd (before ++ (String.utf8EncodeChar c ++ after)) wide span start depth before.length =
      .ok before.length := by
  obtain ⟨b, bs, hbytes⟩ := exists_utf8EncodeChar_eq_cons c
  have hb : (endsWordByte b || (!wide && isBlankByte b)) = true := by
    rw [stops_of_mem (c := c) (by simp [hbytes]), h, Bool.not_false]
  rw [hbytes, List.cons_append, wordEnd_cons, if_pos hb]

/-- A word goes on behind each character that is inside of it and is no parenthesis
of a span. -/
theorem wordEnd_pass {wide span : Bool} {c : Char} (h : inWord wide c = true)
    (hspan : span = true → c ≠ '(' ∧ c ≠ ')') (before after : List UInt8) (start : Nat)
    (depth : Int) :
    wordEnd (before ++ (String.utf8EncodeChar c ++ after)) wide span start depth before.length =
      wordEnd (before ++ String.utf8EncodeChar c ++ after) wide span start depth
        (before ++ String.utf8EncodeChar c).length := by
  refine pass_bytes (fun bytes position => wordEnd bytes wide span start depth position)
    (fun before b after hb => ?_) (fun b hb => hb) before after
  have hopen : (span && b == '('.toUInt8) = false := by
    rw [beq_toUInt8_of_mem (by decide) hb]
    cases span <;> simp_all
  have hclose : (span && b == ')'.toUInt8) = false := by
    rw [beq_toUInt8_of_mem (by decide) hb]
    cases span <;> simp_all
  simp only [wordEnd_cons, stops_of_mem hb, h, hopen, hclose, Bool.not_true, Bool.false_eq_true,
    if_false]

/-- The end of a word that is no span. -/
theorem wordEnd_encode (before : List UInt8) (cs : List Char) (wide : Bool) (start : Nat)
    (depth : Int) :
    wordEnd (before ++ encode cs) wide false start depth before.length =
      .ok (before.length + size (cs.takeWhile (inWord wide))) := by
  induction cs generalizing before with
  | nil => exact wordEnd_nil before wide false start depth
  | cons c cs ih =>
    rw [encode_cons]
    cases hc : inWord wide c with
    | true =>
      rw [wordEnd_pass hc (fun h => by cases h), ih]
      simp [hc, Nat.add_assoc]
    | false =>
      rw [wordEnd_stop hc]
      simp [hc]

/-! ## 6. Spans -/

theorem wordEnd_open (before after : List UInt8) {start : Nat} {depth : Int} :
    wordEnd (before ++ (String.utf8EncodeChar '(' ++ after)) true true start depth before.length =
      (count (before.length + 1 - start) (depth + 1)).bind fun depth =>
        wordEnd (before ++ String.utf8EncodeChar '(' ++ after) true true start depth
          (before ++ String.utf8EncodeChar '(').length := by
  rw [utf8EncodeChar_of_lt (by decide), List.singleton_append, wordEnd_cons]
  rfl

theorem wordEnd_close (before after : List UInt8) {start : Nat} {depth : Int} :
    wordEnd (before ++ (String.utf8EncodeChar ')' ++ after)) true true start depth before.length =
      (count (before.length + 1 - start) (depth - 1)).bind fun depth =>
        if depth = 0 then .ok (before.length + 1)
        else wordEnd (before ++ String.utf8EncodeChar ')' ++ after) true true start depth
          (before ++ String.utf8EncodeChar ')').length := by
  rw [utf8EncodeChar_of_lt (by decide), List.singleton_append, wordEnd_cons]
  rfl

theorem count_eq_ok {passed depth : Nat} (h : depth ≤ passed) (hsmall : depth < 2 ^ 31) :
    count passed depth = .ok (depth : Int) := by
  rw [count, if_pos]
  omega

/-- The end of a span that starts at `start`, where `depth` parentheses are open. At
least as many bytes have been passed, so the counter keeps in its range. -/
theorem wordEnd_span (before : List UInt8) (cs : List Char) {start depth : Nat}
    (hopen : 1 ≤ depth) (hdepth : start + depth ≤ before.length)
    (hsmall : before.length + size cs < 2 ^ 31) :
    wordEnd (before ++ encode cs) true true start depth before.length =
      .ok (before.length + size (splitSpan depth cs).1) := by
  induction cs generalizing before depth with
  | nil => exact wordEnd_nil before true true start depth
  | cons c cs ih =>
    have hpos := c.utf8Size_pos
    rw [encode_cons]
    rw [size_cons] at hsmall
    cases hends : endsWord c with
    | true =>
      rw [wordEnd_stop (by simp [inWord, hends])]
      simp [splitSpan, hends]
    | false =>
      by_cases hleft : c = '('
      · subst hleft
        have hcount : count (before.length + 1 - start) (depth + 1) =
            .ok ((depth + 1 : Nat) : Int) := by
          rw [← Int.natCast_succ]
          exact count_eq_ok (by omega) (by omega)
        rw [wordEnd_open, hcount, Except.bind, ih]
        · simp [splitSpan, hends, Nat.add_assoc]
        · omega
        · simp
          omega
        · simp
          omega
      · by_cases hright : c = ')'
        · subst hright
          obtain ⟨less, rfl⟩ := Nat.exists_eq_add_of_le' hopen
          have hcount : count (before.length + 1 - start) ((less + 1 : Nat) - 1) =
              .ok (less : Int) := by
            rw [Int.natCast_succ, Int.add_sub_cancel]
            exact count_eq_ok (by omega) (by omega)
          rw [wordEnd_close, hcount, Except.bind]
          cases less with
          | zero =>
            simp [splitSpan, hends]
            rfl
          | succ less =>
            rw [if_neg (by omega), ih]
            · simp [splitSpan, hends, Nat.add_assoc]
            · omega
            · simp
              omega
            · simp
              omega
        · rw [wordEnd_pass (by simp [inWord, hends]) (fun _ => ⟨hleft, hright⟩), ih]
          · simp [splitSpan, hends, hleft, hright, Nat.add_assoc]
          · exact hopen
          · simp
            omega
          · simp
            omega

/-! ## 7. Blanks at the end -/

theorem trimRight_concat (word : List Char) (c : Char) :
    trimRight (word ++ [c]) = if isBlank c then trimRight word else word ++ [c] := by
  cases hc : isBlank c <;> simp [trimRight, hc]

theorem utf8EncodeChar_of_isBlank {c : Char} (h : isBlank c = true) :
    String.utf8EncodeChar c = [c.toUInt8] := by
  apply utf8EncodeChar_of_lt
  simp only [isBlank, Bool.or_eq_true, beq_iff_eq] at h
  rcases h with (((rfl | rfl) | rfl) | rfl) | rfl <;> decide

theorem trimEnd_concat (before bs : List UInt8) (b : UInt8) (after : List UInt8) :
    trimEnd (before ++ (bs ++ b :: after)) before.length (before.length + (bs.length + 1)) =
      if isBlankByte b then
        trimEnd (before ++ (bs ++ b :: after)) before.length (before.length + bs.length)
      else .ok (before.length + (bs.length + 1)) := by
  have hb : byteAt (before ++ (bs ++ b :: after)) (before.length + bs.length) = .ok b := by
    rw [byteAt, ← List.append_assoc, ← List.length_append, current_append]
    rfl
  rw [trimEnd, if_pos (by omega), ← Nat.add_assoc, Nat.add_sub_cancel, hb]
  rfl

theorem trimEnd_pass {c : Char} (h : isBlank c = true) (before bs after : List UInt8) :
    trimEnd (before ++ (bs ++ (String.utf8EncodeChar c ++ after))) before.length
        (before.length + (bs.length + c.utf8Size)) =
      trimEnd (before ++ (bs ++ (String.utf8EncodeChar c ++ after))) before.length
        (before.length + bs.length) := by
  have hb : isBlankByte c.toUInt8 = true := by
    rw [isBlankByte_of_mem (c := c) (by simp [utf8EncodeChar_of_isBlank h]), h]
  rw [← String.length_utf8EncodeChar, utf8EncodeChar_of_isBlank h, List.singleton_append,
    List.length_singleton, trimEnd_concat, if_pos hb]

theorem trimEnd_stop {c : Char} (h : isBlank c = false) (before bs after : List UInt8) :
    trimEnd (before ++ (bs ++ (String.utf8EncodeChar c ++ after))) before.length
        (before.length + (bs.length + c.utf8Size)) =
      .ok (before.length + (bs.length + c.utf8Size)) := by
  obtain ⟨front, b, hbytes⟩ : ∃ front b, String.utf8EncodeChar c = front ++ [b] :=
    (List.eq_nil_or_concat' _).resolve_left String.utf8EncodeChar_ne_nil
  have hb : isBlankByte b = false := by
    rw [isBlankByte_of_mem (c := c) (by simp [hbytes]), h]
  have hstop := trimEnd_concat before (bs ++ front) b after
  rw [hb, if_neg Bool.false_ne_true] at hstop
  rw [← String.length_utf8EncodeChar, hbytes]
  simpa [Nat.add_assoc] using hstop

/-- The end of a word without the blanks at its end. -/
theorem trimEnd_encode (before : List UInt8) (word : List Char) (after : List UInt8) :
    trimEnd (before ++ (encode word ++ after)) before.length (before.length + size word) =
      .ok (before.length + size (trimRight word)) := by
  induction word using List.reverseRecOn generalizing after with
  | nil =>
    rw [trimEnd, if_neg (by simp)]
    rfl
  | append_singleton word c ih =>
    have hsize : size (word ++ [c]) = (encode word).length + c.utf8Size := by simp
    rw [trimRight_concat, encode_append, encode_cons, encode_nil, List.append_nil,
      List.append_assoc, hsize]
    cases hc : isBlank c with
    | true => rw [trimEnd_pass hc, length_encode, ih, if_pos rfl]
    | false => rw [trimEnd_stop hc, if_neg Bool.false_ne_true, hsize]

end Questbook.Scanner
