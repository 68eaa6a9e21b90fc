/-
Questbook.Proofs.Reader.Line — what becomes of the characters of a line of text.

A title is not copied from the source. Its line is cut into words, at each `:`, which is
a word itself, and behind each span, and the texts of the words are put together again
with nothing between them (`LineWords`). So the blanks around a word are lost, and a word
that is a numeral comes back as the canonical numeral of the number. All else is kept:
without blanks, the title is the line with its numerals in canonical form
(`Reader.textLine_verbatim`). In particular it is the line itself, but for blanks, if and
only if no word of the line is a numeral in another form.

That no character can make up for another one is a matter of length. A canonical numeral
is shorter than any other for the same number, so a line that has another one in it loses
characters.
-/
import Mathlib.Data.List.Infix
import Questbook.Proofs.Grammar.Passed
import Questbook.Proofs.Reader.WordExtent

namespace Questbook

open Text Extent

namespace Text

/-- The text without its blanks. -/
def squeeze (cs : List Char) : List Char :=
  cs.filter (!isBlank ·)

/-- A numeral in canonical form, any other text as it is. -/
def Numeral.respell (cs : List Char) : List Char :=
  match read? cs with
  | some n => (render n).toList
  | none => cs

@[simp] theorem squeeze_append (cs ds : List Char) :
    squeeze (cs ++ ds) = squeeze cs ++ squeeze ds :=
  List.filter_append ..

theorem squeeze_of_isBlank {blanks : List Char} (h : ∀ c ∈ blanks, isBlank c = true) :
    squeeze blanks = [] :=
  List.filter_eq_nil_iff.2 (by simpa using h)

end Text

/-- The words that a line without comments falls into. -/
inductive LineWords : List Char → List (List Char) → Prop where
  | nil {blanks : List Char} (hblanks : ∀ c ∈ blanks, isBlank c = true) : LineWords blanks []
  | scope {blanks line : List Char} {words : List (List Char)}
      (hblanks : ∀ c ∈ blanks, isBlank c = true) (h : LineWords line words) :
      LineWords (blanks ++ ':' :: line) ([':'] :: words)
  | word {blanks text taken line : List Char} {words : List (List Char)}
      (hblanks : ∀ c ∈ blanks, isBlank c = true)
      (hhead : ∀ c ∈ (taken ++ line).head?, isBlank c = false ∧ endsWord c = false)
      (hextent : WordExtent true (reach (taken ++ line)) text taken) (h : LineWords line words) :
      LineWords (blanks ++ (taken ++ line)) (text :: words)

/-! ## 1. Blanks and numerals -/

/-- Only blanks are taken that are not in the text. -/
theorem WordExtent.squeeze_eq {wide : Bool} {reach text taken : List Char}
    (h : WordExtent wide reach text taken) : squeeze text = squeeze taken := by
  have hstripped {text : List Char} (h : IsStripped reach text) : squeeze text = squeeze reach := by
    obtain ⟨blanks, hblanks, rfl⟩ := h.blanks
    rw [squeeze_append, squeeze_of_isBlank hblanks, List.append_nil]
  cases h with
  | span => rfl
  | openSpan hopen hnever htext => exact hstripped htext
  | wide hopen hwide htext => exact hstripped htext
  | narrow => rfl

/-- The words are the line, but for blanks. -/
theorem LineWords.squeeze_eq {line : List Char} {words : List (List Char)}
    (h : LineWords line words) : squeeze words.flatten = squeeze line := by
  induction h with
  | nil hblanks => rw [squeeze_of_isBlank hblanks]; rfl
  | @scope blanks line words hblanks h ih =>
    have hscope : squeeze (':' :: line) = squeeze [':'] ++ squeeze line := squeeze_append [':'] line
    rw [List.flatten_cons, squeeze_append, squeeze_append, squeeze_of_isBlank hblanks, hscope, ih,
      List.nil_append]
  | word hblanks hhead hextent h ih =>
    rw [List.flatten_cons, squeeze_append, squeeze_append, squeeze_append,
      squeeze_of_isBlank hblanks, hextent.squeeze_eq, ih, List.nil_append]

theorem squeeze_of_read? {word : List Char} {n : Int64} (h : Numeral.read? word = some n) :
    squeeze word = word := by
  have hdigits {ds : List Char} (hds : ∀ d ∈ ds, d.isDigit = true) : squeeze ds = ds :=
    List.filter_eq_self.2 fun d hd => by simp [isBlank_of_isDigit (hds d hd)]
  have hsign {sign : Char} (hblank : isBlank sign = false) {ds : List Char}
      (hds : ∀ d ∈ ds, d.isDigit = true) : squeeze (sign :: ds) = sign :: ds := by
    have hcons : squeeze (sign :: ds) = sign :: squeeze ds :=
      List.filter_cons_of_pos (by simp [hblank])
    rw [hcons, hdigits hds]
  have hsigned := Numeral.signed_of_read? h
  generalize n.toInt = i at hsigned
  cases hsigned with
  | plain hne hds => exact hdigits hds
  | plus hne hds => exact hsign rfl hds
  | minus hne hds => exact hsign rfl hds

/-- A numeral in another form gets shorter. -/
theorem respell_cases (word : List Char) :
    (Numeral.respell word = word ∧
        ∀ n, Numeral.read? word = some n → word = (Numeral.render n).toList) ∨
      (squeeze (Numeral.respell word)).length < (squeeze word).length := by
  unfold Numeral.respell
  cases hn : Numeral.read? word with
  | none => exact .inl ⟨rfl, by simp⟩
  | some n =>
    rcases Numeral.eq_render_or_length_lt hn with heq | hlt
    · exact .inl ⟨heq.symm, by rintro n ⟨⟩; exact heq⟩
    · rw [squeeze_of_read? hn]
      exact .inr (Nat.lt_of_le_of_lt (List.length_filter_le _ _) hlt)

theorem length_squeeze_respell_le (words : List (List Char)) :
    (squeeze (words.map Numeral.respell).flatten).length ≤ (squeeze words.flatten).length := by
  induction words with
  | nil => exact Nat.le_refl _
  | cons word words ih =>
    have hword : (squeeze (Numeral.respell word)).length ≤ (squeeze word).length :=
      (respell_cases word).elim (fun h => by rw [h.1]) Nat.le_of_lt
    simp only [List.map_cons, List.flatten_cons, squeeze_append, List.length_append]
    omega

/-- The words in canonical form are the same texts, but for blanks, if and only if they
were in that form already. -/
theorem squeeze_respell_eq_iff (words : List (List Char)) :
    squeeze (words.map Numeral.respell).flatten = squeeze words.flatten ↔
      ∀ word ∈ words, ∀ n, Numeral.read? word = some n → word = (Numeral.render n).toList := by
  induction words with
  | nil => simp
  | cons word words ih =>
    have hle := length_squeeze_respell_le words
    rw [List.forall_mem_cons, ← ih]
    simp only [List.map_cons, List.flatten_cons, squeeze_append]
    rcases respell_cases word with ⟨hsame, hcanonical⟩ | hlt
    · rw [hsame, List.append_cancel_left_eq]
      exact ⟨fun h => ⟨hcanonical, h⟩, fun h => h.2⟩
    · constructor
      · intro h
        have hlength := congrArg List.length h
        rw [List.length_append, List.length_append] at hlength
        omega
      · rintro ⟨hcanonical, -⟩
        have hsame : Numeral.respell word = word := by
          unfold Numeral.respell
          split
          · next n hn => exact (hcanonical n hn).symm
          · rfl
        rw [hsame] at hlt
        exact absurd hlt (Nat.lt_irrefl _)

/-! ## 2. The words of a line -/

theorem word?_ofWord (cs : List Char) :
    (Lexeme.ofWord cs).word? = some (String.ofList (Numeral.respell cs)) := by
  unfold Lexeme.ofWord Numeral.respell
  cases Numeral.read? cs with
  | none => rfl
  | some n => exact congrArg some String.ofList_toList.symm

/-- What starts with a newline adds nothing to the reach. -/
theorem reach_append {cs behind : List Char} (h : ∀ c ∈ behind.head?, c = '\n') :
    reach (cs ++ behind) = reach cs := by
  induction cs with
  | nil =>
    cases behind with
    | nil => rfl
    | cons c behind => rw [h c rfl]; rfl
  | cons c cs ih =>
    cases hc : endsWord c with
    | true => simp [reach, hc]
    | false => rw [List.cons_append, reach_cons hc, reach_cons hc, ih]

namespace Reader

theorem next_blanks {blanks : List Char} (hblanks : ∀ c ∈ blanks, isBlank c = true)
    (cs : List Char) (offset : Nat) (wide : Bool) :
    (⟨blanks ++ cs, offset, wide⟩ : Reader).next =
      (⟨cs, offset + size blanks, wide⟩ : Reader).next := by
  have hgap : IsGap false blanks := by
    have hblanks' := IsGap.blanks hblanks (@IsGap.nil false)
    rwa [List.append_nil] at hblanks'
  exact next_gap hgap cs offset wide

/-- Where a word starts in a line, one is taken off the line as its rule says. -/
theorem exists_wordExtent_next {c : Char} {line behind : List Char} (hblank : isBlank c = false)
    (hends : endsWord c = false) (hcomment : ¬OpensComment (c :: line))
    (hbehind : ∀ c ∈ behind.head?, c = '\n') (offset : Nat) :
    ∃ text taken others, c :: line = taken ++ others ∧ others.length < (c :: line).length ∧
      WordExtent true (reach (c :: line)) text taken ∧
      (⟨c :: line ++ behind, offset, true⟩ : Reader).next =
        (⟨.ofWord text, offset⟩, ⟨others ++ behind, offset + size taken, true⟩) := by
  have hopen : opensWord (c :: line ++ behind) = true := by
    refine opensWord_append (by simp) ?_ hcomment ?_
    · rintro _ ⟨⟩
      exact ⟨hblank, hends⟩
    · intro hdash
      cases hbehind '-' hdash
  obtain ⟨text, taken, hextent⟩ := exists_wordExtent true (c :: line)
  obtain ⟨others, hothers⟩ := hextent.isPrefix.trans (List.takeWhile_prefix _)
  have hnext := next_of_wordExtent hopen (by rwa [reach_append hbehind]) offset
  rw [← hothers, List.append_assoc, List.drop_left, ← List.append_assoc, hothers] at hnext
  have hlt := length_next_lt (r := ⟨c :: line ++ behind, offset, true⟩)
    (by rw [hnext]; exact ofWord_ne_endOfFile text)
  rw [hnext, List.length_append, List.length_append] at hlt
  exact ⟨text, taken, others, hothers.symm, Nat.lt_of_add_lt_add_right hlt, hextent, hnext⟩

/-- The words of a reader, when a word with the text `text` comes next. -/
theorem join_words_of_next {r last : Reader} {lexeme : Lexeme} {text : List Char} {offset : Nat}
    (hnext : r.next = (⟨lexeme, offset⟩, last)) (hword : lexeme.word? = some (String.ofList text)) :
    (String.join r.words.1).toList = text ++ (String.join last.words.1).toList := by
  rw [words_of_word? (by rw [hnext]; exact hword), hnext, String.join_cons, String.toList_append,
    String.toList_ofList]

/-- A line without comments, in front of a newline or of nothing, is read word by word. -/
theorem exists_lineWords {line behind : List Char} (hline : ∀ c ∈ line, c ≠ '\n')
    (hcomment : ¬['$', '-'] <:+: line) (hbehind : ∀ c ∈ behind.head?, c = '\n') (offset : Nat) :
    ∃ words, LineWords line words ∧
      (String.join (⟨line ++ behind, offset, true⟩ : Reader).words.1).toList =
        (words.map Numeral.respell).flatten := by
  induction hn : line.length using Nat.strongRecOn generalizing line offset with
  | ind n ih =>
    obtain ⟨blanks, rest, rfl, hblanks, hrest⟩ : ∃ blanks rest, line = blanks ++ rest ∧
        (∀ c ∈ blanks, isBlank c = true) ∧ ∀ c ∈ rest.head?, isBlank c = false := by
      refine ⟨line.takeWhile isBlank, line.dropWhile isBlank,
        List.takeWhile_append_dropWhile.symm, fun c hc => List.mem_takeWhile_imp hc, ?_⟩
      intro c hc
      have hhead := List.head?_dropWhile_not isBlank line
      rw [hc] at hhead
      exact hhead
    -- The words of a shorter end of the line.
    have hshorter {front others : List Char} (h : rest = front ++ others)
        (hlt : others.length < rest.length) (offset : Nat) :=
      ih others.length (by rw [← hn, List.length_append]; omega)
        (fun d hd => hline d (by simp [h, hd]))
        (fun h' => hcomment (h'.trans (by rw [h, ← List.append_assoc]; exact
          (List.suffix_append _ _).isInfix))) offset rfl
    have hnext := next_blanks hblanks (rest ++ behind) offset true
    rw [List.append_assoc]
    cases rest with
    | nil =>
      refine ⟨[], by rw [List.append_nil]; exact .nil hblanks, ?_⟩
      rw [words_of_word?_eq_none]
      · rfl
      · rw [hnext]
        cases behind with
        | nil => rfl
        | cons c behind =>
          rw [hbehind c rfl]
          exact word?_next_newline _ _ _
    | cons c rest =>
      by_cases hscope : c = ':'
      · subst hscope
        obtain ⟨words, hwords, htext⟩ :=
          hshorter (List.singleton_append (x := ':')).symm (by simp) (offset + size blanks + 1)
        have hscope := hnext.trans (readsAs_scope true (rest ++ behind) _)
        refine ⟨[':'] :: words, .scope hblanks hwords, ?_⟩
        rw [@join_words_of_next _ _ _ [':'] _ hscope rfl, List.map_cons, List.flatten_cons]
        exact congrArg ([':'] ++ ·) htext
      · have hends : endsWord c = false := by simp [endsWord, hscope, hline c]
        have hstart : ¬OpensComment (c :: rest) := fun h =>
          hcomment (h.isInfix.trans (List.suffix_append _ _).isInfix)
        obtain ⟨text, taken, others, hothers, hlt, hextent, htoken⟩ :=
          exists_wordExtent_next (hrest c rfl) hends hstart hbehind (offset + size blanks)
        obtain ⟨words, hwords, htext⟩ := hshorter hothers hlt (offset + size blanks + size taken)
        refine ⟨text :: words, ?_, ?_⟩
        · rw [hothers] at hextent ⊢
          refine .word hblanks ?_ hextent hwords
          rw [← hothers]
          rintro _ ⟨⟩
          exact ⟨hrest c rfl, hends⟩
        · rw [join_words_of_next (hnext.trans htoken) (word?_ofWord text), htext]
          rfl

/-- The text of the words from here on starts at the next token. -/
theorem words_toToken (r : Reader) : r.toToken.words.1 = r.words.1 := by
  cases hword : r.next.1.lexeme.word? with
  | some word => rw [words_congr (r.next_toToken) hword]
  | none =>
    rw [words_of_word?_eq_none hword, words_of_word?_eq_none (by rw [next_toToken]; exact hword)]

/-- **A line of text, but for blanks and the form of numerals.** Where a text starts, let
`line` be the rest of the line, with no mark of a comment in it. The text is the words of
that line one after the other, each numeral in its canonical form and all else as it
stands. Without blanks the words are the line. So without blanks the text is the line if
and only if no word of it is a numeral in another form. -/
theorem textLine_verbatim {r : Reader} {line behind : List Char}
    (hrest : r.skipBreaks.toToken.rest = line ++ behind) (hline : ∀ c ∈ line, c ≠ '\n')
    (hbehind : ∀ c ∈ behind.head?, c = '\n') (hcomment : ¬['$', '-'] <:+: line) :
    ∃ words, LineWords line words ∧
      r.textLine.1.toList = (words.map Numeral.respell).flatten ∧
      squeeze words.flatten = squeeze line ∧
      (squeeze r.textLine.1.toList = squeeze line ↔
        ∀ word ∈ words, ∀ n, Numeral.read? word = some n → word = (Numeral.render n).toList) := by
  obtain ⟨words, hwords, hjoin⟩ :=
    exists_lineWords hline hcomment hbehind r.skipBreaks.toToken.offset
  have htext : r.textLine.1.toList = (words.map Numeral.respell).flatten := by
    have hstart : ({ r.skipBreaks with wide := true } : Reader).toToken =
        ⟨line ++ behind, r.skipBreaks.toToken.offset, true⟩ := by
      rw [← hrest]
      rfl
    rw [← hjoin, ← hstart, words_toToken]
    rfl
  refine ⟨words, hwords, htext, hwords.squeeze_eq, ?_⟩
  rw [htext, ← hwords.squeeze_eq]
  exact squeeze_respell_eq_iff words

/-- Blanks, a `:`, a span and numerals, two of them in another form. -/
theorem textLine_verbatim_time :
    ∃ words, LineWords "Meet (on the 07) 10:05 : -0".toList words ∧
      (⟨"\n Meet (on the 07) 10:05 : -0\nb".toList, 7, false⟩ : Reader).textLine.1.toList =
        (words.map Numeral.respell).flatten := by
  have hbreaks : (⟨"\n Meet (on the 07) 10:05 : -0\nb".toList, 7, false⟩ : Reader).skipBreaks =
      ⟨"Meet (on the 07) 10:05 : -0\nb".toList, 9, false⟩ :=
    (@skipBreaks_of_lineBreaks _ 1 rfl).trans (skipBreaks_of_opensWord rfl 9 false)
  have hrest : (⟨"\n Meet (on the 07) 10:05 : -0\nb".toList, 7, false⟩ :
      Reader).skipBreaks.toToken.rest = "Meet (on the 07) 10:05 : -0".toList ++ "\nb".toList := by
    rw [hbreaks]
    decide
  obtain ⟨words, hwords, htext, -⟩ :=
    textLine_verbatim hrest (by simp) (by simp) (by decide)
  exact ⟨words, hwords, htext⟩

/-- A line can be a numeral in another form, and then it is not kept. -/
theorem textLine_not_verbatim :
    ¬∀ (r : Reader) (line behind : List Char), r.skipBreaks.toToken.rest = line ++ behind →
      (∀ c ∈ line, c ≠ '\n') → (∀ c ∈ behind.head?, c = '\n') → ¬['$', '-'] <:+: line →
        squeeze r.textLine.1.toList = squeeze line := by
  intro h
  have hbreaks : (ofSource "007").skipBreaks = ofSource "007" := skipBreaks_of_opensWord rfl 0 false
  have hrest : (ofSource "007").skipBreaks.toToken.rest = "007".toList ++ [] := by
    rw [hbreaks]
    decide
  have hword : ({ ofSource "007" with wide := true } : Reader).next.1.lexeme.word? = some "7" := by
    decide
  have hend : ({ ofSource "007" with wide := true } : Reader).next.2.next.1.lexeme.word? = none := by
    decide
  have htext : (ofSource "007").textLine.1 = "7" := by
    unfold textLine
    rw [hbreaks]
    simp only [widely, words_of_word? hword, words_of_word?_eq_none hend]
    rfl
  have hkept := h (ofSource "007") "007".toList [] hrest (by simp) (by simp) (by decide)
  rw [htext] at hkept
  exact absurd hkept (by decide)

end Reader

end Questbook
