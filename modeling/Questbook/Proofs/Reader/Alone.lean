/-
Questbook.Proofs.Reader.Alone — the word of a token, read again on its own.

Where a word ends depends on its beginning only: no character that is left out can be
needed, and none that is kept can end the word sooner. So the text that was stored of
a word is one word again when nothing follows it (`splitWord_of_isPrefix`), and it is no
comment and has no blank at either end. For names of tasks and commands and for
arguments, which are read narrowly, this means that the tokens of the stored text are
that one word (`isRead_next`). The words of texts for the player are read widely, and
all that is said of them is that they are not empty, that no white space stands around
them and that they are on one line.
-/
import Questbook.Proofs.Reader.Coverage
import Questbook.Proofs.Source.Words

namespace Questbook

open Text Extent

/-! ## 1. What is said of a word -/

/-- The tokens of the text are one word with this text. -/
def IsSingleWord (text : String) : Prop :=
  ∃ t, tokenize text = [t] ∧ t.lexeme.word? = some text

/-- A single word that is no numeral. -/
structure IsName (text : String) : Prop where
  single : IsSingleWord text
  not_numeral : Numeral.read? text.toList = none

/-- No newline and no blank stands at either end. -/
structure IsTrimmed (text : List Char) : Prop where
  head : ∀ c ∈ text.head?, isSpacing c = false
  last : ∀ c ∈ text.getLast?, isSpacing c = false

/-- A word as it stands in a text for the player. -/
structure IsTextWord (text : List Char) : Prop where
  ne_nil : text ≠ []
  one_line : ∀ c ∈ text, c ≠ '\n'
  trimmed : IsTrimmed text

/-- What is known of a token that was read in this mode. -/
structure Token.IsRead (wide : Bool) (t : Token) : Prop where
  text : ∀ word, t.lexeme.word? = some word → IsTextWord word.toList
  single : wide = false → ∀ word, t.lexeme.word? = some word → IsSingleWord word
  name : wide = false → ∀ word, t.lexeme = .identifier word → IsName word

/-! ## 2. Beginnings of words -/

namespace Extent

/-- The beginning of a span ends no sooner. -/
theorem splitSpan_of_isPrefix {depth : Nat} {front cs : List Char}
    (h : front <+: (splitSpan depth cs).1) : splitSpan depth front = (front, []) := by
  induction cs generalizing depth front with
  | nil =>
    rw [List.prefix_nil.1 h]
    rfl
  | cons c cs ih =>
    cases front with
    | nil => rfl
    | cons d front =>
      rw [splitSpan] at h
      split at h
      · cases List.prefix_nil.1 h
      · next hends =>
        split at h
        · next hopen =>
          obtain ⟨rfl, hfront⟩ := List.cons_prefix_cons.1 h
          rw [splitSpan, if_neg hends, if_pos hopen, ih hfront]
        · next hopen =>
          split at h
          · next hclose =>
            split at h
            · next hlast =>
              obtain ⟨rfl, hfront⟩ := List.cons_prefix_cons.1 h
              rw [List.prefix_nil.1 hfront, splitSpan, if_neg hends, if_neg hopen, if_pos hclose,
                if_pos hlast]
            · next hlast =>
              obtain ⟨rfl, hfront⟩ := List.cons_prefix_cons.1 h
              rw [splitSpan, if_neg hends, if_neg hopen, if_pos hclose, if_neg hlast, ih hfront]
          · next hclose =>
            obtain ⟨rfl, hfront⟩ := List.cons_prefix_cons.1 h
            rw [splitSpan, if_neg hends, if_neg hopen, if_neg hclose, ih hfront]

/-- The beginning of a word, alone, goes to its end. -/
theorem splitWord_of_isPrefix {wide : Bool} {front cs : List Char}
    (h : front <+: (splitWord wide cs).1) : splitWord wide front = (front, []) := by
  have hcs : front <+: cs := h.trans ⟨_, append_splitWord wide cs⟩
  cases front with
  | nil => rfl
  | cons c front =>
    cases cs with
    | nil => cases List.prefix_nil.1 hcs
    | cons d cs =>
      obtain rfl := (List.cons_prefix_cons.1 hcs).1
      by_cases hspan : c = '('
      · subst hspan
        exact splitSpan_of_isPrefix h
      · rw [splitWord_of_ne_open hspan] at h
        have hplain : ∀ e ∈ c :: front, inWord wide e = true :=
          fun e he => List.all_eq_true.1 List.all_takeWhile e (h.subset he)
        have hsplit := @Reader.splitWord_append wide (c :: front) [] hplain (by simpa using hspan)
          (by simp) (by rintro _ ⟨⟩)
        rwa [List.append_nil] at hsplit

end Extent

/-! ## 3. The word of a token -/

namespace Text

theorem isPrefix_trimRight (cs : List Char) : trimRight cs <+: cs := by
  obtain ⟨blanks, -, htrim⟩ := exists_append_trimRight cs
  exact ⟨blanks, htrim.symm⟩

theorem isBlank_getLast_trimRight {cs : List Char} {c : Char} (h : c ∈ (trimRight cs).getLast?) :
    isBlank c = false := by
  have hlast := List.head?_dropWhile_not isBlank cs.reverse
  rw [trimRight, List.getLast?_reverse] at h
  rw [h] at hlast
  exact hlast

end Text

namespace Reader

/-- The beginning of a word opens one. -/
theorem opensWord_of_isPrefix {front cs : List Char} (hne : front ≠ []) (h : front <+: cs)
    (hopen : opensWord cs = true) : opensWord front = true := by
  cases front with
  | nil => exact absurd rfl hne
  | cons c front =>
    obtain ⟨others, rfl⟩ := h
    cases front with
    | nil => simp_all [opensWord]
    | cons d front => exact hopen

theorem ne_of_opensWord {c : Char} {cs : List Char} (h : opensWord (c :: cs) = true) :
    isBlank c = false ∧ endsWord c = false := by
  simp only [opensWord, Bool.and_eq_true, Bool.not_eq_true'] at h
  exact h.1

/-- Behind a gap is no comment, so what is neither a `:` nor a newline starts a word. -/
theorem opensWord_toToken {r : Reader} {c : Char} {cs : List Char}
    (hrest : r.toToken.rest = c :: cs) (hscope : c ≠ ':') (hnewline : c ≠ '\n') :
    opensWord (c :: cs) = true := by
  have hsplit : (splitGap false r.rest).2 = c :: cs := hrest
  have hblank := isBlank_head_splitGap false hsplit
  have hgap := splitGap_splitGap false r.rest
  rw [hsplit] at hgap
  have hcomment : (c == '$' && cs.head? == some '-') = false := by
    rw [Bool.eq_false_iff]
    intro hdollar
    rw [splitGap, if_neg Bool.false_ne_true, if_neg (by simp [hblank]), if_pos hdollar] at hgap
    cases congrArg Prod.fst hgap
  simp [opensWord, endsWord, hblank, hscope, hnewline, hcomment]

/-- A word token is a `:`, or it is cut off where a word starts. -/
theorem next_of_word? {r : Reader} {word : String} (h : r.next.1.lexeme.word? = some word) :
    r.next.1.lexeme = .identifier ":" ∨ ∃ cs, opensWord cs = true ∧
      r.next.1.lexeme = .ofWord (trimRight (splitWord r.wide cs).1) := by
  have hnext : r.next.1.lexeme = (cutToken r.wide r.toToken.rest).1 := rfl
  rw [hnext] at h ⊢
  cases hrest : r.toToken.rest with
  | nil =>
    rw [hrest] at h
    cases h
  | cons c cs =>
    rw [hrest] at h
    by_cases hscope : c = ':'
    · subst hscope
      exact .inl rfl
    by_cases hnewline : c = '\n'
    · subst hnewline
      cases h
    · exact .inr ⟨c :: cs, opensWord_toToken hrest hscope hnewline, by
        rw [cutToken_of_ne hscope hnewline]⟩

/-- Where a word starts, its text is not empty and opens a word. -/
theorem opensWord_trimRight {cs : List Char} (hopen : opensWord cs = true) (wide : Bool) :
    opensWord (trimRight (splitWord wide cs).1) = true := by
  cases cs with
  | nil => cases hopen
  | cons c cs =>
    obtain ⟨hblank, hends⟩ := ne_of_opensWord hopen
    have hin : inWord wide c = true := by simp [inWord, hblank, hends]
    obtain ⟨word, hword⟩ := exists_splitWord_eq_cons cs hin
    have hcs : trimRight (splitWord wide (c :: cs)).1 <+: c :: cs :=
      (isPrefix_trimRight _).trans ⟨_, append_splitWord wide (c :: cs)⟩
    refine opensWord_of_isPrefix ?_ hcs hopen
    rw [hword]
    exact trimRight_cons_ne_nil hblank word

/-- The text of a word that is cut off somewhere is one word on its own. -/
theorem readsAs_trimRight {cs : List Char} (hopen : opensWord cs = true) (wide : Bool) :
    ReadsAs wide (trimRight (splitWord wide cs).1) (.ofWord (trimRight (splitWord wide cs).1))
      [] := by
  refine readsAs_ofWord ?_ ?_ fun c hc => isBlank_getLast_trimRight hc
  · rw [List.append_nil]
    exact opensWord_trimRight hopen wide
  · rw [List.append_nil]
    exact splitWord_of_isPrefix (isPrefix_trimRight _)

theorem isSpacing_of_isBlank {c : Char} (hblank : isBlank c = false) (hne : c ≠ '\n') :
    isSpacing c = false := by
  simp [isSpacing, hblank, hne]

theorem isTextWord_trimRight {cs : List Char} (hopen : opensWord cs = true) (wide : Bool) :
    IsTextWord (trimRight (splitWord wide cs).1) := by
  have hopen' := opensWord_trimRight hopen wide
  have hline (c : Char) (hc : c ∈ trimRight (splitWord wide cs).1) : c ≠ '\n' := by
    rintro rfl
    cases endsWord_of_mem_splitWord ((isPrefix_trimRight _).subset hc)
  refine ⟨?_, hline, fun c hc => ?_, fun c hc => ?_⟩
  · intro hnil
    rw [hnil] at hopen'
    cases hopen'
  · obtain ⟨others, hothers⟩ := List.head?_eq_some_iff.1 hc
    rw [hothers] at hopen'
    exact isSpacing_of_isBlank (ne_of_opensWord hopen').1 (hline c (List.mem_of_mem_head? hc))
  · have hne := hline c (List.mem_of_mem_getLast? hc)
    exact isSpacing_of_isBlank (isBlank_getLast_trimRight hc) hne

/-! ## 4. Tokens -/

/-- A piece is the first of the tokens. -/
theorem tokens_of_readsAs {wide : Bool} {text cs : List Char} {lexeme : Lexeme}
    (h : ReadsAs wide text lexeme cs) (hne : lexeme ≠ .endOfFile) (offset : Nat) :
    (⟨text ++ cs, offset, wide⟩ : Reader).tokens =
      ⟨lexeme, offset⟩ :: (⟨cs, offset + size text, wide⟩ : Reader).tokens := by
  have hnext := h offset
  rw [tokens_of_ne_endOfFile (by rwa [hnext]), hnext]

/-- The tokens of a text that is one token. -/
theorem tokens_of_readsAs_nil {wide : Bool} {text : List Char} {lexeme : Lexeme}
    (h : ReadsAs wide text lexeme []) (hne : lexeme ≠ .endOfFile) (offset : Nat) :
    (⟨text, offset, wide⟩ : Reader).tokens = [⟨lexeme, offset⟩] := by
  have hend : (⟨[], offset + size text, wide⟩ : Reader).tokens = [] :=
    tokens_of_endOfFile (lexeme_next_of_rest_eq_nil rfl)
  have htokens := tokens_of_readsAs h hne offset
  rwa [List.append_nil, hend] at htokens

theorem tokenize_of_readsAs {text : String} {lexeme : Lexeme} {word : String}
    (h : ReadsAs false text.toList lexeme []) (hword : lexeme.word? = some word) :
    tokenize text = [⟨lexeme, 0⟩] := by
  refine tokens_of_readsAs_nil h ?_ 0
  rintro rfl
  cases hword

theorem isSingleWord_of_readsAs {word : String} {lexeme : Lexeme}
    (h : ReadsAs false word.toList lexeme []) (hword : lexeme.word? = some word) :
    IsSingleWord word :=
  ⟨⟨lexeme, 0⟩, tokenize_of_readsAs h hword, hword⟩

theorem isTextWord_render (n : Int64) : IsTextWord (Numeral.render n).toList := by
  have hplain (c : Char) (hc : c ∈ (Numeral.render n).toList) : isSpacing c = false ∧ c ≠ '\n' := by
    rcases Numeral.eq_minus_or_isDigit hc with rfl | hdigit
    · decide
    · have hne := ne_of_isDigit hdigit (show '\n'.isDigit = false from rfl)
      exact ⟨isSpacing_of_isBlank (isBlank_of_isDigit hdigit) hne, hne⟩
  exact ⟨Numeral.render_ne_nil n, fun c hc => (hplain c hc).2,
    fun c hc => (hplain c (List.mem_of_mem_head? hc)).1,
    fun c hc => (hplain c (List.mem_of_mem_getLast? hc)).1⟩

theorem isTextWord_scope : IsTextWord ":".toList := by
  have htext : ":".toList = [':'] := rfl
  rw [htext]
  exact ⟨by simp, by simp, by rintro c ⟨⟩; rfl, by rintro c ⟨⟩; rfl⟩

theorem isRead_identifier {t : Token} {wide : Bool} {text : String}
    (hlexeme : t.lexeme = .identifier text) (htext : IsTextWord text.toList)
    (hname : wide = false → IsName text) : t.IsRead wide := by
  refine ⟨?_, ?_, ?_⟩
  · rw [hlexeme]
    rintro word ⟨⟩
    exact htext
  · rw [hlexeme]
    rintro hwide word ⟨⟩
    exact (hname hwide).single
  · rw [hlexeme]
    rintro hwide word ⟨⟩
    exact hname hwide

theorem isRead_integer {t : Token} {value : Int64} (hlexeme : t.lexeme = .integer value)
    (wide : Bool) : t.IsRead wide := by
  refine ⟨?_, ?_, ?_⟩
  · rw [hlexeme]
    rintro word ⟨⟩
    exact isTextWord_render value
  · rw [hlexeme]
    rintro - word ⟨⟩
    exact isSingleWord_of_readsAs (readsAs_render value (by rintro _ ⟨⟩)) rfl
  · rw [hlexeme]
    rintro - word ⟨⟩

theorem isRead_of_word?_eq_none {t : Token} (h : t.lexeme.word? = none) (wide : Bool) :
    t.IsRead wide := by
  refine ⟨by simp [h], by simp [h], ?_⟩
  intro _ word hname
  rw [hname] at h
  cases h

/-- **Every token read, read again.** The text that is stored of a word is on one line,
with no white space around it, and if the word was read narrowly its text is that one
word again; the text of an identifier is no numeral. -/
theorem isRead_next (r : Reader) : r.next.1.IsRead r.wide := by
  cases hword : r.next.1.lexeme.word? with
  | none => exact isRead_of_word?_eq_none hword r.wide
  | some word =>
    obtain hscope | ⟨cs, hopen, hcut⟩ := next_of_word? hword
    · refine isRead_identifier hscope isTextWord_scope fun _ => ⟨?_, rfl⟩
      exact isSingleWord_of_readsAs (readsAs_scope false []) rfl
    · have htext := isTextWord_trimRight hopen r.wide
      have hread := readsAs_trimRight hopen r.wide
      rw [Lexeme.ofWord] at hcut hread
      split at hcut
      · exact isRead_integer hcut r.wide
      · next hnumeral =>
        refine isRead_identifier hcut (by rwa [String.toList_ofList]) fun hwide => ⟨?_, ?_⟩
        · rw [hnumeral, hwide] at hread
          rw [hwide]
          exact isSingleWord_of_readsAs (by rwa [String.toList_ofList]) rfl
        · rw [String.toList_ofList, hnumeral]

end Reader

end Questbook
