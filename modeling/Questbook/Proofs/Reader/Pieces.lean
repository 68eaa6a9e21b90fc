/-
Questbook.Proofs.Reader.Pieces — a piece of text and the one token it is.

Where a token ends depends on what follows it: a word that is followed by a
letter is not that word. So a piece is looked at together with the text behind
it. `ReadsAs wide text lexeme cs` says that `text` in front of `cs` is one token
and that the reader stands before `cs` afterwards.

Blanks stand before a piece and never behind it (`next_blank`), because a
reader passes over a gap on its way to a token and not behind one.
-/
import Questbook.Proofs.Reader.Tokens

namespace Questbook

open Text Extent

namespace Reader

/-- In front of `cs`, the text is one token. -/
def ReadsAs (wide : Bool) (text : List Char) (lexeme : Lexeme) (cs : List Char) : Prop :=
  ∀ offset, (⟨text ++ cs, offset, wide⟩ : Reader).next =
    (⟨lexeme, offset⟩, ⟨cs, offset + size text, wide⟩)

/-- No character, or one that a word does not go on with. -/
def EndsWords (wide : Bool) (cs : List Char) : Prop :=
  ∀ c ∈ cs.head?, inWord wide c = false

theorem endsWords_blank (cs : List Char) : EndsWords false (' ' :: cs) := by
  rintro c ⟨⟩
  rfl

theorem endsWords_newline (wide : Bool) (cs : List Char) : EndsWords wide ('\n' :: cs) := by
  rintro c ⟨⟩
  rfl

/-- A word can start here: the text opens with no blank, no newline, no `:` and
no comment. -/
def opensWord : List Char → Bool
  | [] => false
  | c :: cs => !isBlank c && !endsWord c && !(c == '$' && cs.head? == some '-')

/-! ## 1. Gaps -/

theorem next_blank {c : Char} (hc : isBlank c = true) (cs : List Char) (offset : Nat)
    (wide : Bool) :
    (⟨c :: cs, offset, wide⟩ : Reader).next =
      (⟨cs, offset + c.utf8Size, wide⟩ : Reader).next := by
  rw [next, toToken_blank hc cs offset wide]
  rfl

/-- There is no gap where a word starts. -/
theorem toToken_of_opensWord {cs : List Char} (h : opensWord cs = true) (offset : Nat)
    (wide : Bool) : (⟨cs, offset, wide⟩ : Reader).toToken = ⟨cs, offset, wide⟩ := by
  cases cs with
  | nil => cases h
  | cons c cs =>
    simp only [opensWord, Bool.and_eq_true, Bool.not_eq_true'] at h
    simp [toToken, pass, splitGap, h.1.1, h.2]

/-! ## 2. Words -/

/-- Where a word starts, the next token is the word cut off there. -/
theorem next_of_opensWord {cs : List Char} (h : opensWord cs = true) (offset : Nat)
    (wide : Bool) :
    (⟨cs, offset, wide⟩ : Reader).next =
      (⟨.ofWord (trimRight (splitWord wide cs).1), offset⟩,
        ⟨(splitWord wide cs).2, offset + size (splitWord wide cs).1, wide⟩) := by
  have hcut : cutToken wide cs = (.ofWord (trimRight (splitWord wide cs).1), splitWord wide cs) := by
    unfold cutToken
    split
    · cases h
    · simp [opensWord, endsWord] at h
    · simp [opensWord, endsWord] at h
    · rfl
  rw [next, toToken_of_opensWord h]
  simp [hcut, pass]

/-- The token where a word starts is a word. -/
theorem word?_next_of_opensWord {cs : List Char} (h : opensWord cs = true) (offset : Nat)
    (wide : Bool) : ∃ word, (⟨cs, offset, wide⟩ : Reader).next.1.lexeme.word? = some word := by
  rw [next_of_opensWord h]
  show ∃ word, (Lexeme.ofWord _).word? = some word
  unfold Lexeme.ofWord
  split <;> simp [Lexeme.word?]

theorem skipBreaks_of_opensWord {cs : List Char} (h : opensWord cs = true) (offset : Nat)
    (wide : Bool) : (⟨cs, offset, wide⟩ : Reader).skipBreaks = ⟨cs, offset, wide⟩ := by
  obtain ⟨word, hword⟩ := word?_next_of_opensWord h offset wide
  refine skipBreaks_of_ne_lineBreaks fun count hcount => ?_
  rw [hcount] at hword
  cases hword

/-- A text without an opening parenthesis is cut off where it ends, as soon as
a character follows that ends it. -/
theorem splitWord_append {wide : Bool} {text cs : List Char}
    (hplain : ∀ c ∈ text, inWord wide c = true) (hspan : text.head? ≠ some '(')
    (hne : text ≠ []) (hcs : EndsWords wide cs) :
    splitWord wide (text ++ cs) = (text, cs) := by
  have htake : cs.takeWhile (inWord wide) = [] ∧ cs.dropWhile (inWord wide) = cs := by
    cases cs with
    | nil => exact ⟨rfl, rfl⟩
    | cons c cs => simp [hcs c rfl]
  unfold splitWord
  split
  · next ds heq =>
    cases text with
    | nil => exact absurd rfl hne
    | cons c text =>
      cases heq
      exact absurd rfl hspan
  · rw [List.takeWhile_append_of_pos hplain, List.dropWhile_append_of_pos hplain, htake.1, htake.2,
      List.append_nil]

/-- The text of a word, unless something else shows at its start. -/
theorem readsAs_ofWord {wide : Bool} {text cs : List Char}
    (hopen : opensWord (text ++ cs) = true) (hsplit : splitWord wide (text ++ cs) = (text, cs))
    (htrim : ∀ c ∈ text.getLast?, isBlank c = false) :
    ReadsAs wide text (.ofWord text) cs := by
  intro offset
  rw [next_of_opensWord hopen, hsplit, trimRight_eq_self htrim]

namespace ReadsAs

variable {wide : Bool} {text cs : List Char} {lexeme : Lexeme} {word : String}

theorem word?_next (h : ReadsAs wide text lexeme cs) (hword : lexeme.word? = some word)
    (offset : Nat) : (⟨text ++ cs, offset, wide⟩ : Reader).next.1.lexeme.word? = some word := by
  rw [h offset]
  exact hword

/-- The words from a word on. -/
theorem words (h : ReadsAs wide text lexeme cs) (hword : lexeme.word? = some word) (offset : Nat) :
    (⟨text ++ cs, offset, wide⟩ : Reader).words =
      (word :: (⟨cs, offset + size text, wide⟩ : Reader).words.1,
        (⟨cs, offset + size text, wide⟩ : Reader).words.2) := by
  rw [words_of_word? (h.word?_next hword offset), h offset]

end ReadsAs

/-! ## 3. The other tokens -/

theorem readsAs_scope (wide : Bool) (cs : List Char) :
    ReadsAs wide [':'] (.identifier ":") cs := by
  intro offset
  rfl

theorem word?_next_newline (cs : List Char) (offset : Nat) (wide : Bool) :
    (⟨'\n' :: cs, offset, wide⟩ : Reader).next.1.lexeme.word? = none := by
  rw [next_newline]
  rfl

/-- The `:` of a heading or label, behind a space. -/
theorem next_scope (cs : List Char) (offset : Nat) (wide : Bool) :
    (⟨' ' :: ':' :: cs, offset, wide⟩ : Reader).next =
      (⟨.identifier ":", offset + 1⟩, ⟨cs, offset + 2, wide⟩) := rfl

/-- No character, or one that ends a run of line breaks. -/
def EndsBreaks (cs : List Char) : Prop :=
  ∀ c ∈ cs.head?, isSpacing c = false

instance : (cs : List Char) → Decidable (EndsBreaks cs)
  | [] => isTrue (by simp [EndsBreaks])
  | c :: _ => decidable_of_iff (isSpacing c = false) (by simp [EndsBreaks])

theorem takeWhile_of_endsBreaks {cs : List Char} (h : EndsBreaks cs) :
    cs.takeWhile isSpacing = [] ∧ cs.dropWhile isSpacing = cs := by
  cases cs with
  | nil => exact ⟨rfl, rfl⟩
  | cons c cs => simp [h c rfl]

/-- A row of newlines is one token with their number. -/
theorem readsAs_lineBreaks (wide : Bool) (count : Nat) {cs : List Char} (h : EndsBreaks cs) :
    ReadsAs wide (List.replicate (count + 1) '\n') (.lineBreaks (count + 1)) cs := by
  obtain ⟨htake, hdrop⟩ := takeWhile_of_endsBreaks h
  have hrow : ∀ c ∈ List.replicate count '\n', isSpacing c = true := by
    intro c hc
    rw [List.eq_of_mem_replicate hc]
    rfl
  intro offset
  rw [List.replicate_succ, List.cons_append, next_newline, List.takeWhile_append_of_pos hrow,
    List.dropWhile_append_of_pos hrow, htake, hdrop, List.append_nil, List.count_replicate_self]
  rfl

end Reader

end Questbook
