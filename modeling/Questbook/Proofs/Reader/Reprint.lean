/-
Questbook.Proofs.Reader.Reprint — tokens survive printing.

The tokens of a source, printed with a space between each two of them, are the tokens of
what is printed. Nothing is known of the source, so this is about all rows of tokens that
narrow reading can find (`Spaced`): a space ends every word but an open span, and behind
an open span stands a `:` or a run of line breaks, which end it. A space behind line
breaks becomes part of them and changes nothing.

Two runs of line breaks in a row would become one. A source can have them, with a comment
between, and so they are left out.
-/
import Mathlib
import Questbook.Proofs.Reader.BlankLine
import Questbook.Proofs.Reader.Narrow

namespace Questbook

open Text Reader

/-! ## 1. Printing -/

/-- A word as its text, line breaks as so many newlines. -/
def Lexeme.print : Lexeme → List Char
  | .identifier text => text.toList
  | .integer value => (Numeral.render value).toList
  | .lineBreaks count => List.replicate count '\n'
  | .endOfFile => []

/-- The tokens with one space between neighbours. -/
def printTokens (ts : List Token) : List Char :=
  [' '].intercalate (ts.map (·.lexeme.print))

/-- What is printed behind a token: a space and the other tokens, if there are any. -/
def printBehind : List Token → List Char
  | [] => []
  | t :: ts => ' ' :: printTokens (t :: ts)

theorem printTokens_cons (t : Token) (ts : List Token) :
    printTokens (t :: ts) = t.lexeme.print ++ printBehind ts := by
  cases ts with
  | nil => simp [printTokens, printBehind, List.intercalate]
  | cons s ts => simp [printTokens, printBehind, List.intercalate]

theorem Lexeme.print_of_word? {lexeme : Lexeme} {word : String} (h : lexeme.word? = some word) :
    lexeme.print = word.toList := by
  cases lexeme <;> cases h <;> rfl

theorem printBehind_eq (ts : List Token) :
    ∃ blanks, (∀ c ∈ blanks, isBlank c = true) ∧ printBehind ts = blanks ++ printTokens ts := by
  cases ts with
  | nil => exact ⟨[], by simp, rfl⟩
  | cons t ts => exact ⟨[' '], List.forall_mem_singleton.2 rfl, rfl⟩

/-- No two runs of line breaks stand in a row. -/
def Unbroken (ts : List Token) : Prop :=
  ts.IsChain fun s t => ¬(s.isBreaks = true ∧ t.isBreaks = true)

/-! ## 2. How a printed token starts -/

/-- A word starts with neither a newline nor a blank. -/
theorem IsNarrowWord.exists_eq_cons {text : List Char} (h : IsNarrowWord text) :
    ∃ c others, text = c :: others ∧ isSpacing c = false := by
  have hopen (hhead : text.head? = some '(') :
      ∃ c others, text = c :: others ∧ isSpacing c = false := by
    obtain ⟨others, hothers⟩ := List.head?_eq_some_iff.1 hhead
    exact ⟨'(', others, hothers, rfl⟩
  rcases h with (h | ⟨n, rfl⟩ | rfl | h) | h
  · obtain ⟨c, others, rfl⟩ := List.exists_cons_of_ne_nil h.ne_nil
    obtain ⟨hnewline, -, hblank⟩ := h.plain c List.mem_cons_self
    exact ⟨c, others, rfl, isSpacing_of_isBlank hblank hnewline⟩
  · obtain ⟨c, others, hothers⟩ := List.exists_cons_of_ne_nil (Numeral.render_ne_nil n)
    exact ⟨c, others, hothers, (isTextWord_render n).trimmed.head c (by rw [hothers]; rfl)⟩
  · exact ⟨':', [], rfl, rfl⟩
  · exact hopen h.head
  · exact hopen h.head

theorem endsBreaks_printTokens {ts : List Token} (h : Spaced ts)
    (hwords : ∀ t ∈ ts.head?, t.isWord = true) : EndsBreaks (printTokens ts) := by
  cases ts with
  | nil => exact fun c hc => by cases hc
  | cons t ts =>
    obtain ⟨word, hword⟩ := Option.isSome_iff_exists.1 (hwords t rfl)
    obtain ⟨-, hnarrow⟩ := h.words t List.mem_cons_self word hword
    obtain ⟨c, others, htext, hc⟩ := hnarrow.exists_eq_cons
    rw [printTokens_cons, Lexeme.print_of_word? hword, htext]
    rintro d ⟨⟩
    exact hc

/-- Behind an open span, the text that is printed ends every word. -/
theorem endsReach_printTokens {ts : List Token} (h : Spaced ts)
    (hend : ∀ t ∈ ts, t.lexeme ≠ .endOfFile)
    (hscope : ∀ t ∈ ts.head?, ∀ word, t.lexeme.word? = some word → word = ":") :
    EndsReach (printTokens ts) := by
  cases ts with
  | nil => exact fun c hc => by cases hc
  | cons t ts =>
    rw [printTokens_cons]
    cases hword : t.lexeme.word? with
    | some word =>
      rw [Lexeme.print_of_word? hword, hscope t rfl word hword]
      rintro c ⟨⟩
      rfl
    | none =>
      cases hlexeme : t.lexeme with
      | lineBreaks count =>
        obtain ⟨count, rfl⟩ := Nat.exists_eq_succ_of_ne_zero
          (Nat.pos_iff_ne_zero.1 (h.breaks t List.mem_cons_self count hlexeme))
        rintro c ⟨⟩
        rfl
      | endOfFile => exact absurd hlexeme (hend t List.mem_cons_self)
      | _ =>
        rw [hlexeme] at hword
        cases hword

/-! ## 3. Reading what is printed -/

/-- A printed word stands before what is printed behind it. -/
theorem Spaced.stands {t : Token} {ts : List Token} {word : String} (h : Spaced (t :: ts))
    (hend : ∀ t ∈ ts, t.lexeme ≠ .endOfFile) (hword : t.lexeme.word? = some word) :
    Stands word.toList (printBehind ts) := by
  rcases (h.words t List.mem_cons_self word hword).2 with hargument | hopen
  · refine .argument hargument ?_
    cases ts with
    | nil => exact fun c hc => by cases hc
    | cons s ts => exact endsWords_blank _
  · obtain ⟨blanks, hblanks, hprint⟩ := printBehind_eq ts
    have hends : EndsReach (printTokens ts) :=
      endsReach_printTokens h.tail hend fun s hs next hnext =>
        h.chain.rel_head? hs word next hword hopen hnext
    refine .openSpan hopen ?_
    rwa [hprint, List.dropWhile_append_of_pos hblanks, hends.dropWhile_isBlank]

/-- The space between two tokens is passed over. -/
theorem exists_tokens_printBehind (ts : List Token) (offset : Nat) :
    ∃ offset', (⟨printBehind ts, offset, false⟩ : Reader).tokens =
      (⟨printTokens ts, offset', false⟩ : Reader).tokens := by
  cases ts with
  | nil => exact ⟨offset, rfl⟩
  | cons t ts => exact ⟨_, tokens_eq_of_toToken_eq (toToken_blank rfl _ offset false)⟩

/-- Line breaks and the space behind them are one token. -/
theorem exists_tokens_lineBreaks {count : Nat} {ts : List Token} (h : Spaced ts)
    (hcount : 0 < count) (hwords : ∀ t ∈ ts.head?, t.isWord = true) (offset : Nat) :
    ∃ offset', (⟨List.replicate count '\n' ++ printBehind ts, offset, false⟩ : Reader).tokens =
      ⟨.lineBreaks count, offset⟩ :: (⟨printTokens ts, offset', false⟩ : Reader).tokens := by
  obtain ⟨blanks, hblanks, hprint⟩ := printBehind_eq ts
  have hhead : (List.replicate count '\n' ++ blanks).head? = some '\n' := by
    rw [List.head?_append, List.head?_replicate, if_neg hcount.ne', Option.some_or]
  have hspacing : ∀ c ∈ List.replicate count '\n' ++ blanks, isSpacing c = true := by
    refine List.forall_mem_append.2 ⟨fun c hc => ?_, fun c hc => ?_⟩
    · rw [List.eq_of_mem_replicate hc]
      rfl
    · simp [isSpacing, hblanks c hc]
  have hnone : blanks.count '\n' = 0 := List.count_eq_zero.2 fun hc => by cases hblanks _ hc
  have hread := readsAs_breaks hhead hspacing (endsBreaks_printTokens h hwords) false
  rw [List.count_append, List.count_replicate_self, hnone, Nat.add_zero] at hread
  rw [hprint, ← List.append_assoc]
  exact ⟨_, tokens_of_readsAs hread (by simp) offset⟩

theorem Token.isWord_of_not_isBreaks {t : Token} (hbreaks : t.isBreaks = false)
    (hend : t.lexeme ≠ .endOfFile) : t.isWord = true := by
  cases hlexeme : t.lexeme with
  | endOfFile => exact absurd hlexeme hend
  | lineBreaks count => simp [isBreaks, hlexeme] at hbreaks
  | _ => simp [isWord, hlexeme, Lexeme.word?]

theorem tokens_printTokens {ts : List Token} (h : Spaced ts)
    (hend : ∀ t ∈ ts, t.lexeme ≠ .endOfFile) (hbreaks : Unbroken ts) (offset : Nat) :
    (⟨printTokens ts, offset, false⟩ : Reader).tokens.map Token.lexeme =
      ts.map Token.lexeme := by
  induction ts generalizing offset with
  | nil => exact congrArg (List.map Token.lexeme) (tokens_of_endOfFile rfl)
  | cons t ts ih =>
    obtain ⟨hfirst, hothers⟩ := List.forall_mem_cons.1 hend
    have hrest := ih h.tail hothers hbreaks.tail
    rw [printTokens_cons]
    cases hword : t.lexeme.word? with
    | some word =>
      obtain ⟨offset', hbehind⟩ := exists_tokens_printBehind ts (offset + size word.toList)
      rw [Lexeme.print_of_word? hword, (h.stands hothers hword).tokens, hbehind, List.map_cons,
        hrest, List.map_cons, (h.words t List.mem_cons_self word hword).1]
    | none =>
      cases hlexeme : t.lexeme with
      | lineBreaks count =>
        have hcount := h.breaks t List.mem_cons_self count hlexeme
        have hwords : ∀ s ∈ ts.head?, s.isWord = true := by
          intro s hs
          have hnot := hbreaks.rel_head? hs
          refine Token.isWord_of_not_isBreaks ?_ (hothers s (List.mem_of_mem_head? hs))
          simpa [Token.isBreaks, hlexeme] using hnot
        obtain ⟨offset', htokens⟩ := exists_tokens_lineBreaks h.tail hcount hwords offset
        rw [Lexeme.print, htokens, List.map_cons, hrest, List.map_cons, hlexeme]
      | endOfFile => exact absurd hlexeme hfirst
      | _ =>
        rw [hlexeme] at hword
        cases hword

/-- **Tokens survive printing.** If no two runs of line breaks stand in a row among the
tokens of a source, then the tokens of what is printed, a space between each two, are of
the same sorts and have the same texts and values. -/
theorem tokenize_printTokens {source : String} (h : Unbroken (tokenize source)) :
    (tokenize (String.ofList (printTokens (tokenize source)))).map Token.lexeme =
      (tokenize source).map Token.lexeme := by
  have hread := tokens_printTokens (spaced_tokens rfl) (fun _ => lexeme_ne_endOfFile) h 0
  rwa [tokenize, ofSource, String.toList_ofList]

/-- A closed span with a word right behind it, an open one before a `:`, a number with a
sign and zeros, and a blank line. -/
theorem tokenize_printTokens_spans :
    printTokens (tokenize "a (b  (c))d:(e f  :+007\n \n9$-z (g") =
        "a (b  (c)) d : (e f : 7 \n\n 9$-z (g".toList ∧
      (tokenize "a (b  (c)) d : (e f : 7 \n\n 9$-z (g").map Token.lexeme =
        [.identifier "a", .identifier "(b  (c))", .identifier "d", .identifier ":",
          .identifier "(e f", .identifier ":", .integer 7, .lineBreaks 2, .identifier "9$-z",
          .identifier "(g"] := by
  have hprint : printTokens (tokenize "a (b  (c))d:(e f  :+007\n \n9$-z (g") =
      "a (b  (c)) d : (e f : 7 \n\n 9$-z (g".toList := by cbv
  have hbreaks : (tokenize "a (b  (c))d:(e f  :+007\n \n9$-z (g").map Token.isBreaks =
      [false, false, false, false, false, false, false, true, false, false] := by cbv
  have hchain : ((tokenize "a (b  (c))d:(e f  :+007\n \n9$-z (g").map Token.isBreaks).IsChain
      fun s t => ¬(s = true ∧ t = true) := by
    rw [hbreaks]
    decide
  have hread := tokenize_printTokens ((List.isChain_map Token.isBreaks).1 hchain)
  rw [hprint, String.ofList_toList] at hread
  refine ⟨hprint, hread.trans ?_⟩
  cbv

end Questbook
