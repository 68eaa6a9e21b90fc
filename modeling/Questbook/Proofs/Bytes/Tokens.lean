/-
Questbook.Proofs.Bytes.Tokens — a scanner reads the tokens that a reader reads.

A scanner that stands where a reader stands comes to the next token of the reader
and stands behind it where the reader does (`next_eq`); in particular nothing stops
it. The loops end where the pieces of the text end, so that each slice has whole
characters before it, in it and behind it. The one condition is that the source is
short enough for its parentheses to be counted.
-/
import Questbook.Proofs.Bytes.Loops
import Questbook.Proofs.Grammar.Errors

namespace Questbook

open Text Extent

namespace Scanner

variable {source : String} {front cs : List Char}

/-! ## 1. Slices -/

theorem bytesOf_append (h : source.toList = front ++ cs) :
    bytesOf source = encode front ++ encode cs := by
  rw [bytesOf_eq, h, encode_append]

theorem current_bytesOf (h : source.toList = front ++ cs) :
    (bytesOf source)[size front]? = (encode cs).head? := by
  rw [bytesOf_append h, ← length_encode, current_append]

/-- A slice between two places of a source that cut no character. -/
theorem slice_of_append {piece rest : List Char} (h : source.toList = front ++ (piece ++ rest)) :
    slice source (size front) (size front + size piece) = .ok (String.ofList piece) := by
  have hstart := isValid_of_append h
  have hstop : (⟨size front + size piece⟩ : String.Pos.Raw).IsValid source := by
    rw [← size_append]
    exact isValid_of_append (h.trans (List.append_assoc ..).symm)
  rw [slice, dif_pos ⟨Nat.le_add_right _ _, hstart, hstop⟩, extract_of_append h]

/-! ## 2. Gaps -/

theorem splitGap_takeWhile (cs : List Char) :
    splitGap false cs =
      (cs.takeWhile isBlank ++ (splitGap false (cs.dropWhile isBlank)).1,
        (splitGap false (cs.dropWhile isBlank)).2) := by
  induction cs with
  | nil => rfl
  | cons c cs ih =>
    cases hc : isBlank c with
    | true =>
      rw [List.takeWhile_cons_of_pos hc, List.dropWhile_cons_of_pos hc]
      simp [splitGap, hc, ih]
    | false =>
      rw [List.takeWhile_cons_of_neg (by simp [hc]), List.dropWhile_cons_of_neg (by simp [hc])]
      rfl

/-- The first byte of a text tells whether it starts with an ASCII character. -/
theorem head?_encode_beq {d : Char} (hd : d.toNat < 128) (cs : List Char) :
    ((encode cs).head? == some d.toUInt8) = (cs.head? == some d) := by
  cases cs with
  | nil => rfl
  | cons c cs =>
    obtain ⟨b, bs, hbytes⟩ := exists_utf8EncodeChar_eq_cons c
    have hb := beq_toUInt8_of_mem (c := c) hd (b := b) (by simp [hbytes])
    simpa [hbytes] using hb

theorem opensComment_encode (c : Char) (cs : List Char) :
    (encode ['$', '-']).isPrefixOf (encode (c :: cs)) = (c == '$' && cs.head? == some '-') := by
  have hmarker : encode ['$', '-'] = ['$'.toUInt8, '-'.toUInt8] := by decide
  by_cases hc : c = '$'
  · subst hc
    rw [hmarker, encode_cons, utf8EncodeChar_of_lt (by decide), ← head?_encode_beq (by decide)]
    cases encode cs with
    | nil => rfl
    | cons b bs => simp [List.isPrefixOf, BEq.comm]
  · obtain ⟨b, bs, hbytes⟩ := exists_utf8EncodeChar_eq_cons c
    have hb : (b == '$'.toUInt8) = false := by
      rw [beq_toUInt8_of_mem (c := c) (by decide) (by simp [hbytes]), beq_false_of_ne hc]
    rw [hmarker, encode_cons, hbytes, List.cons_append, List.isPrefixOf, BEq.comm, hb,
      beq_false_of_ne hc]
    rfl

/-- A comment is passed over like the rest of a line that a comment has reached. -/
theorem splitGap_dollar {cs : List Char} (h : cs.head? = some '-') :
    splitGap false ('$' :: cs) = splitGap true ('$' :: cs) := by
  simp [splitGap, isBlank, h]

theorem toToken_of_none {position start : Nat}
    (hstart : skipBlanks (bytesOf source) position = start)
    (h : (bytesOf source)[start]? = none) : toToken source position = .ok start := by
  subst hstart
  rw [toToken]
  split
  · rfl
  · next hsome => rw [h] at hsome; cases hsome

theorem toToken_of_some {position start : Nat} {byte : UInt8} {rest : String}
    (hstart : skipBlanks (bytesOf source) position = start)
    (h : (bytesOf source)[start]? = some byte)
    (hrest : slice source start source.utf8ByteSize = .ok rest) :
    toToken source position =
      if (encode ['$', '-']).isPrefixOf (bytesOf rest) then
        toToken source (skipComment (bytesOf source) start)
      else .ok start := by
  subst hstart
  rw [toToken]
  split
  · next hnone => rw [h] at hnone; cases hnone
  · rw [hrest]
    rfl

/-- The rest of a source, from a place that cuts no character. -/
theorem slice_rest (h : source.toList = front ++ cs) :
    slice source (size front) source.utf8ByteSize = .ok (String.ofList cs) := by
  rw [utf8ByteSize_eq, h, size_append]
  exact slice_of_append (h.trans (by rw [List.append_nil]))

theorem skipBlanks_eq (h : source.toList = front ++ cs) :
    skipBlanks (bytesOf source) (size front) = size (front ++ cs.takeWhile isBlank) := by
  rw [bytesOf_append h, ← length_encode, skipBlanks_encode, size_append, length_encode]

theorem append_takeWhile_dropWhile (h : source.toList = front ++ cs) :
    source.toList = (front ++ cs.takeWhile isBlank) ++ cs.dropWhile isBlank := by
  rw [h, List.append_assoc, List.takeWhile_append_dropWhile]

/-- A comment takes a piece of the text, and what follows is a gap again. -/
theorem skipComment_eq {c : Char} {ds : List Char} (h : source.toList = front ++ c :: ds) :
    ∃ piece rest, c :: ds = piece ++ rest ∧ rest.length < (c :: ds).length ∧
      skipComment (bytesOf source) (size front) = size (front ++ piece) ∧
      splitGap true (c :: ds) = (piece ++ (splitGap false rest).1, (splitGap false rest).2) := by
  obtain ⟨piece, rest, hpiece, hstop, hgap⟩ := skipComment_encode (encode front) (c :: ds)
  rw [length_encode, ← bytesOf_append h, ← size_append] at hstop
  obtain ⟨b, bs, hbytes⟩ := exists_utf8EncodeChar_eq_cons c
  have hbyte : (bytesOf source)[size front]? = some b := by
    rw [current_bytesOf h, encode_cons, hbytes]
    rfl
  have hne : piece ≠ [] := by
    rintro rfl
    rw [List.append_nil] at hstop
    exact Nat.lt_irrefl _ (hstop ▸ lt_skipComment hbyte)
  refine ⟨piece, rest, hpiece, ?_, hstop, hgap⟩
  rw [hpiece, List.length_append]
  exact Nat.lt_add_of_pos_left (List.length_pos_iff.2 hne)

/-- One round of the loop: the blanks, and then a comment or the token. -/
theorem toToken_round (h : source.toList = front ++ cs) :
    toToken source (size front) =
      match cs.dropWhile isBlank with
      | [] => .ok (size (front ++ cs.takeWhile isBlank))
      | c :: ds =>
        if c == '$' && ds.head? == some '-' then
          toToken source (skipComment (bytesOf source) (size (front ++ cs.takeWhile isBlank)))
        else .ok (size (front ++ cs.takeWhile isBlank)) := by
  have hplace := append_takeWhile_dropWhile h
  cases hrest : cs.dropWhile isBlank with
  | nil =>
    rw [hrest] at hplace
    exact toToken_of_none (skipBlanks_eq h) (current_bytesOf hplace)
  | cons c ds =>
    rw [hrest] at hplace
    obtain ⟨b, bs, hbytes⟩ := exists_utf8EncodeChar_eq_cons c
    have hbyte : (bytesOf source)[size (front ++ cs.takeWhile isBlank)]? = some b := by
      rw [current_bytesOf hplace, encode_cons, hbytes]
      rfl
    rw [toToken_of_some (skipBlanks_eq h) hbyte (slice_rest hplace), bytesOf_ofList,
      opensComment_encode]

/-- The start of the next token. The induction is on the length of the text, since a
round takes all blanks and a whole comment. -/
theorem toToken_eq (h : source.toList = front ++ cs) :
    toToken source (size front) = .ok (size (front ++ (splitGap false cs).1)) := by
  generalize hlength : cs.length = length
  induction length using Nat.strongRecOn generalizing front cs with
  | ind length ih =>
    have hplace := append_takeWhile_dropWhile h
    rw [toToken_round h, splitGap_takeWhile, ← List.append_assoc]
    cases hrest : cs.dropWhile isBlank with
    | nil => simp [splitGap]
    | cons c ds =>
      have hc : isBlank c = false := by
        have hhead := List.head?_dropWhile_not isBlank cs
        rw [hrest] at hhead
        simpa using hhead
      rw [hrest] at hplace
      by_cases hopens : (c == '$' && ds.head? == some '-') = true
      · obtain ⟨piece, rest, hpiece, hshorter, hstop, hgap⟩ := skipComment_eq hplace
        rw [hpiece, ← List.append_assoc] at hplace
        have hless : rest.length < length := by
          have hle := (List.dropWhile_sublist isBlank (l := cs)).length_le
          rw [hrest] at hle
          omega
        simp only [if_pos hopens, hstop, ih _ hless hplace rfl]
        rw [Bool.and_eq_true, beq_iff_eq, beq_iff_eq] at hopens
        obtain ⟨rfl, hdash⟩ := hopens
        simp only [splitGap_dollar hdash, hgap, List.append_assoc]
      · simp only [if_neg hopens, splitGap, hc, Bool.false_eq_true, if_false, List.append_nil]

/-! ## 3. Words -/

/-- A word that is read narrowly and is no span ends in no blank. -/
theorem trimRight_takeWhile_inWord (cs : List Char) :
    trimRight (cs.takeWhile (inWord false)) = cs.takeWhile (inWord false) := by
  apply trimRight_eq_self
  intro c hc
  have hmem : c ∈ cs.takeWhile (inWord false) := List.mem_of_getLast? hc
  have hin : inWord false c = true := List.all_eq_true.1 List.all_takeWhile c hmem
  simp only [inWord, Bool.false_or, Bool.and_eq_true, Bool.not_eq_true'] at hin
  exact hin.2

/-- The end of any word. -/
theorem wordEnd_eq (before : List UInt8) (cs : List Char) (wide : Bool)
    (hsmall : before.length + size cs < 2 ^ 31) :
    wordEnd (before ++ encode cs) (wide || cs.head? == some '(') (cs.head? == some '(')
        before.length 0 before.length =
      .ok (before.length + size (splitWord wide cs).1) := by
  by_cases hspan : cs.head? = some '('
  · obtain ⟨ds, rfl⟩ := List.head?_eq_some_iff.1 hspan
    have hcount : count (before.length + 1 - before.length) (0 + 1) = .ok ((1 : Nat) : Int) := by
      rw [Nat.add_sub_cancel_left]
      rfl
    have hopens : (('(' :: ds).head? == some '(') = true := rfl
    rw [size_cons] at hsmall
    rw [hopens, Bool.or_true, encode_cons, wordEnd_open, hcount, Except.bind, wordEnd_span]
    · simp [splitWord, splitSpan, endsWord, Nat.add_assoc]
    · exact Nat.le_refl 1
    · rw [List.length_append, String.length_utf8EncodeChar]
      exact Nat.add_le_add_left (Char.utf8Size_pos '(') _
    · simpa [Nat.add_assoc] using hsmall
  · rw [beq_false_of_ne hspan, Bool.or_false, wordEnd_encode]
    cases cs with
    | nil => rfl
    | cons c cs => rw [splitWord_of_ne_open (fun h => hspan (by rw [h]; rfl))]

theorem textEnd_eq (h : source.toList = front ++ cs) (wide : Bool) :
    textEnd (bytesOf source) (wide || cs.head? == some '(') (size front)
        (size front + size (splitWord wide cs).1) =
      .ok (size front + size (trimRight (splitWord wide cs).1)) := by
  unfold textEnd
  split
  · have hbytes : bytesOf source =
        encode front ++ (encode (splitWord wide cs).1 ++ encode (splitWord wide cs).2) := by
      rw [bytesOf_append h, ← encode_append (splitWord wide cs).1, append_splitWord]
    rw [hbytes, ← length_encode front, trimEnd_encode]
  · next hno =>
    rw [Bool.or_eq_true, not_or, Bool.not_eq_true, beq_iff_eq] at hno
    obtain ⟨rfl, hspan⟩ := hno
    have hword : (splitWord false cs).1 = cs.takeWhile (inWord false) := by
      cases cs with
      | nil => rfl
      | cons c cs => rw [splitWord_of_ne_open (fun hc => hspan (by rw [hc]; rfl))]
    rw [hword, trimRight_takeWhile_inWord]

theorem word_eq_bind (source : String) (wide : Bool) (start : Nat) :
    word source wide start =
      let span := (bytesOf source)[start]? == some '('.toUInt8
      (wordEnd (bytesOf source) (wide || span) span start 0 start).bind fun stop =>
        (textEnd (bytesOf source) (wide || span) start stop).bind fun last =>
          (slice source start last).bind fun text => .ok (.ofWord text.toList, stop) := rfl

theorem word_eq (hsize : source.utf8ByteSize < 2 ^ 31) (h : source.toList = front ++ cs)
    (wide : Bool) :
    word source wide (size front) =
      .ok (.ofWord (trimRight (splitWord wide cs).1), size front + size (splitWord wide cs).1) := by
  have hspan : ((bytesOf source)[size front]? == some '('.toUInt8) = (cs.head? == some '(') := by
    rw [current_bytesOf h, head?_encode_beq (by decide)]
  have hstop : wordEnd (bytesOf source) (wide || cs.head? == some '(') (cs.head? == some '(')
      (size front) 0 (size front) = .ok (size front + size (splitWord wide cs).1) := by
    rw [utf8ByteSize_eq, h, size_append] at hsize
    rw [bytesOf_append h, ← length_encode]
    exact wordEnd_eq (encode front) cs wide (by rwa [length_encode])
  obtain ⟨blanks, -, hblanks⟩ := exists_append_trimRight (splitWord wide cs).1
  have hcut : source.toList = front ++ (trimRight (splitWord wide cs).1 ++
      (blanks ++ (splitWord wide cs).2)) := by
    rw [h, ← List.append_assoc (trimRight _), ← hblanks, append_splitWord]
  simp only [word_eq_bind, hspan, hstop, textEnd_eq h wide, slice_of_append hcut, Except.bind,
    String.toList_ofList]

/-! ## 4. Tokens -/

/-- What the first byte of a token tells, and what is cut off there. -/
theorem next_eq_bind (source : String) (s : Scanner) :
    next source s = (toToken source s.position).bind fun start =>
      match (bytesOf source)[start]? with
      | none => .ok (⟨.endOfFile, source.utf8ByteSize⟩, { s with position := start })
      | some byte =>
        if byte == ':'.toUInt8 then
          .ok (⟨.identifier scope, start⟩, { s with position := start + 1 })
        else if byte == '\n'.toUInt8 then
          .ok (⟨.lineBreaks (separator (bytesOf source) 0 start).1, start⟩,
            { s with position := (separator (bytesOf source) 0 start).2 })
        else (word source s.wide start).bind fun cut =>
          .ok (⟨cut.1, start⟩, { s with position := cut.2 }) := rfl

theorem next_eq {r : Reader} (hsize : source.utf8ByteSize < 2 ^ 31)
    (h : r.Within source.toList) :
    next source ⟨r.offset, r.wide⟩ = .ok (r.next.1, ⟨r.next.2.offset, r.next.2.wide⟩) := by
  have hstart : toToken source r.offset = .ok r.toToken.offset := by
    obtain ⟨front, hsource, hoffset⟩ := h
    rw [hoffset, toToken_eq hsource, size_append, ← hoffset]
    rfl
  obtain ⟨front, hsource, hoffset⟩ := h.toToken
  have hbyte : (bytesOf source)[r.toToken.offset]? = (encode r.toToken.rest).head? := by
    rw [hoffset, current_bytesOf hsource]
  have hwide : r.toToken.wide = r.wide := rfl
  rw [next_eq_bind, hstart, Except.bind, hbyte, Reader.next, hwide]
  cases hrest : r.toToken.rest with
  | nil =>
    have hend : source.utf8ByteSize = r.toToken.offset := by
      rw [utf8ByteSize_eq, hsource, hrest, List.append_nil, hoffset]
    rw [hend]
    rfl
  | cons c cs =>
    rw [hrest] at hsource
    obtain ⟨b, bs, hbytes⟩ := exists_utf8EncodeChar_eq_cons c
    have hb {d : Char} (hd : d.toNat < 128) : (b == d.toUInt8) = (c == d) :=
      beq_toUInt8_of_mem hd (by simp [hbytes])
    rw [encode_cons, hbytes, List.cons_append, List.head?_cons]
    simp only [hb (d := ':') (by decide), hb (d := '\n') (by decide)]
    by_cases hscope : c = ':'
    · subst hscope
      rfl
    · rw [beq_false_of_ne hscope, if_neg Bool.false_ne_true]
      by_cases hnewline : c = '\n'
      · subst hnewline
        have hseparator := separator_encode (encode front) cs
        rw [← bytesOf_append hsource, length_encode, ← hoffset] at hseparator
        rw [hseparator]
        rfl
      · rw [beq_false_of_ne hnewline, if_neg Bool.false_ne_true]
        rw [hoffset, word_eq hsize hsource, Reader.cutToken_of_ne hscope hnewline]
        simp only [Except.bind, Reader.pass, hoffset, hwide]

end Scanner

end Questbook
