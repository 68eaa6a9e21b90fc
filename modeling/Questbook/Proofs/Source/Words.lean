/-
Questbook.Proofs.Source.Words — texts that a source can hold as they are.

A quest can hold any string, and a source cannot: a blank separates words, `:`
and a newline end them, `(` opens a span, `$-` a comment, and a numeral comes
back as the canonical one. Each predicate here names the texts that come back
unchanged from one sort of place, and the lemma that follows it says that they
do.

* `IsWord` — a name, in narrow reading.
* `IsArgument` — an argument of a command: a word, a numeral, `:` or a span.
* `IsTextLine` — a line of text for the player, in wide reading.
* `IsText` — such lines with a newline between each two.

All conditions but one are about the characters of the text. The exception is
the numeral: a number with a plus sign or with leading zeros is an integer
token, and its text is written anew.
-/
import Questbook.Proofs.Reader.Pieces
import Questbook.Proofs.Text.Numeral

namespace Questbook

open Text Extent Reader

/-! ## 1. Spans -/

/-- A span: it opens with `(`, and its parentheses balance for the first time
at its last character. -/
structure IsSpan (text : List Char) : Prop where
  head : text.head? = some '('
  plain : ∀ c ∈ text, endsWord c = false
  balanced : text.count '(' = text.count ')'
  first : ∀ front, front <+: text → front ≠ [] → front ≠ text →
    front.count '(' ≠ front.count ')'

/-- Each front of a text is as many of its characters as it is long. -/
theorem isSpan_iff {text : List Char} :
    IsSpan text ↔ text.head? = some '(' ∧ text.all (!endsWord ·) ∧
      text.count '(' = text.count ')' ∧
      ∀ n < text.length, 0 < n → (text.take n).count '(' ≠ (text.take n).count ')' := by
  refine ⟨fun h => ⟨h.head, by simpa using h.plain, h.balanced, fun n hn hpos => ?_⟩, fun h => ?_⟩
  · refine h.first _ (List.take_prefix n text) ?_ ?_
    · intro hnil
      have := congrArg List.length hnil
      simp only [List.length_take, List.length_nil] at this
      omega
    · intro hall
      have := congrArg List.length hall
      simp only [List.length_take] at this
      omega
  · obtain ⟨hhead, hplain, hbalanced, hfirst⟩ := h
    refine ⟨hhead, by simpa using hplain, hbalanced, fun front hfront hne hall => ?_⟩
    have hle := hfront.length_le
    rw [List.prefix_iff_eq_take.1 hfront]
    refine hfirst _ (Nat.lt_of_le_of_ne hle fun heq => hall ?_) (List.length_pos_iff.2 hne)
    exact hfront.eq_of_length heq

instance (text : List Char) : Decidable (IsSpan text) :=
  decidable_of_iff' _ isSpan_iff

/-- Where `depth` parentheses are open and the text closes them at its last
character and not before, it is cut off there. -/
theorem splitSpan_append (depth : Nat) {text : List Char} (cs : List Char) (hdepth : 0 < depth)
    (hplain : ∀ c ∈ text, endsWord c = false)
    (hbalanced : depth + text.count '(' = text.count ')')
    (hfirst : ∀ front, front <+: text → front ≠ text →
      depth + front.count '(' ≠ front.count ')') :
    splitSpan depth (text ++ cs) = (text, cs) ∧ text.getLast? = some ')' := by
  induction text generalizing depth with
  | nil =>
    simp only [List.count_nil] at hbalanced
    omega
  | cons c text ih =>
    have hc := hplain c List.mem_cons_self
    have hplain' : ∀ c ∈ text, endsWord c = false :=
      fun c hc => hplain c (List.mem_cons_of_mem _ hc)
    have hfirst' : ∀ front, front <+: text → front ≠ text →
        depth + (c :: front).count '(' ≠ (c :: front).count ')' := by
      intro front hfront hne
      exact hfirst (c :: front) (List.cons_prefix_cons.2 ⟨rfl, hfront⟩) (by simpa using hne)
    have hlast (h : text.getLast? = some ')') : (c :: text).getLast? = some ')' := by
      rw [List.getLast?_cons, h]
      rfl
    by_cases hopen : c = '('
    · subst hopen
      obtain ⟨hsplit, hend⟩ := ih (depth + 1) (by omega) hplain'
        (by simp at hbalanced; omega)
        (fun front hfront hne => by
          have := hfirst' front hfront hne
          simp at this
          omega)
      exact ⟨by simp [splitSpan, hc, hsplit], hlast hend⟩
    · by_cases hclose : c = ')'
      · subst hclose
        by_cases hone : depth = 1
        · -- The one open parenthesis is closed, so nothing is left of the text.
          have hnil : text = [] := by
            by_cases h : text = []
            · exact h
            · have := hfirst' [] List.nil_prefix (Ne.symm h)
              simp [hone] at this
          simp [hnil, splitSpan, hc, hone]
        · obtain ⟨hsplit, hend⟩ := ih (depth - 1) (by omega) hplain'
            (by simp at hbalanced; omega)
            (fun front hfront hne => by
              have := hfirst' front hfront hne
              simp at this
              omega)
          refine ⟨?_, hlast hend⟩
          simp [splitSpan, hc, show ¬depth ≤ 1 by omega, hsplit]
      · obtain ⟨hsplit, hend⟩ := ih depth hdepth hplain'
          (by simpa [hopen, hclose] using hbalanced)
          (fun front hfront hne => by
            have := hfirst' front hfront hne
            simpa [hopen, hclose] using this)
        exact ⟨by simp [splitSpan, hc, hopen, hclose, hsplit], hlast hend⟩

/-- A span is no numeral. -/
theorem read?_cons_open (cs : List Char) : Numeral.read? ('(' :: cs) = none := rfl

/-- A span ends where it ends, whatever follows. -/
theorem IsSpan.readsAs {text : List Char} (h : IsSpan text) (wide : Bool) (cs : List Char) :
    ReadsAs wide text (.identifier (String.ofList text)) cs := by
  obtain ⟨text, rfl⟩ : ∃ rest, text = '(' :: rest := by
    cases text with
    | nil => cases h.head
    | cons c text => exact ⟨text, by rw [Option.some.inj h.head]⟩
  have hplain : ∀ c ∈ text, endsWord c = false :=
    fun c hc => h.plain c (List.mem_cons_of_mem _ hc)
  have hbalanced : 1 + text.count '(' = text.count ')' := by
    have := h.balanced
    simp at this
    omega
  have hfirst : ∀ front, front <+: text → front ≠ text →
      1 + front.count '(' ≠ front.count ')' := by
    intro front hfront hne
    have := h.first ('(' :: front) (List.cons_prefix_cons.2 ⟨rfl, hfront⟩) (by simp)
      (by simpa using hne)
    simp at this
    omega
  obtain ⟨hsplit, hlast⟩ := splitSpan_append 1 cs (by omega) hplain hbalanced hfirst
  have hread : ReadsAs wide ('(' :: text) (.ofWord ('(' :: text)) cs := by
    refine readsAs_ofWord rfl ?_ ?_
    · simp [splitWord, splitSpan, endsWord, hsplit]
    · intro c hc
      rw [List.getLast?_cons, hlast] at hc
      cases hc
      rfl
  rwa [Lexeme.ofWord, read?_cons_open] at hread

/-! ## 2. Words -/

/-- A text opens a comment. -/
def OpensComment (text : List Char) : Prop :=
  ['$', '-'] <+: text

instance (text : List Char) : Decidable (OpensComment text) :=
  inferInstanceAs (Decidable (_ <+: _))

/-- A text starts a word, if neither its first character nor what follows it
makes it start something else. -/
theorem opensWord_append {text cs : List Char} (hne : text ≠ [])
    (hhead : ∀ c ∈ text.head?, isBlank c = false ∧ endsWord c = false)
    (hcomment : ¬OpensComment text) (hcs : cs.head? ≠ some '-') :
    opensWord (text ++ cs) = true := by
  cases text with
  | nil => exact absurd rfl hne
  | cons c text =>
    have hdollar : (c == '$' && (text ++ cs).head? == some '-') = false := by
      rw [Bool.eq_false_iff]
      simp only [ne_eq, Bool.and_eq_true, beq_iff_eq]
      rintro ⟨rfl, hdash⟩
      cases text with
      | nil => exact hcs hdash
      | cons d text =>
        cases Option.some.inj hdash
        exact hcomment ⟨text, rfl⟩
    obtain ⟨hblank, hends⟩ := hhead c rfl
    simp only [List.cons_append, opensWord, hblank, hends, hdollar]
    rfl

theorem head?_ne_dash {wide : Bool} {cs : List Char} (h : EndsWords wide cs) :
    cs.head? ≠ some '-' := by
  intro hdash
  have := h '-' hdash
  simp [inWord, endsWord, isBlank] at this

theorem endsWord_of_inWord {wide : Bool} {c : Char} (h : inWord wide c = true) :
    endsWord c = false := by
  simp only [inWord, Bool.and_eq_true, Bool.not_eq_true'] at h
  exact h.1

/-- A word in front of a character that ends it, be it read narrowly or widely. -/
theorem readsAs_of_plain {wide : Bool} {text cs : List Char} (hne : text ≠ [])
    (hplain : ∀ c ∈ text, inWord wide c = true) (hspan : text.head? ≠ some '(')
    (hcomment : ¬OpensComment text) (hhead : ∀ c ∈ text.head?, isBlank c = false)
    (hlast : ∀ c ∈ text.getLast?, isBlank c = false) (hcs : EndsWords wide cs) :
    ReadsAs wide text (.ofWord text) cs := by
  refine readsAs_ofWord ?_ (splitWord_append hplain hspan hne hcs) hlast
  refine opensWord_append hne (fun c hc => ⟨hhead c hc, ?_⟩) hcomment (head?_ne_dash hcs)
  exact endsWord_of_inWord (hplain c (List.mem_of_mem_head? hc))

/-- A word that can stand for a name. -/
structure IsWord (text : List Char) : Prop where
  ne_nil : text ≠ []
  plain : ∀ c ∈ text, c ≠ '\n' ∧ c ≠ ':' ∧ isBlank c = false
  not_span : text.head? ≠ some '('
  not_comment : ¬OpensComment text
  not_numeral : Numeral.read? text = none

instance (text : List Char) : Decidable (IsWord text) :=
  decidable_of_iff (text ≠ [] ∧ text.all (fun c => c ≠ '\n' ∧ c ≠ ':' ∧ isBlank c = false) ∧
      text.head? ≠ some '(' ∧ ¬OpensComment text ∧ Numeral.read? text = none)
    ⟨fun ⟨h₁, h₂, h₃, h₄, h₅⟩ => ⟨h₁, by simpa using h₂, h₃, h₄, h₅⟩,
      fun ⟨h₁, h₂, h₃, h₄, h₅⟩ => ⟨h₁, by simpa using h₂, h₃, h₄, h₅⟩⟩

theorem inWord_false_iff {c : Char} :
    inWord false c = true ↔ c ≠ '\n' ∧ c ≠ ':' ∧ isBlank c = false := by
  simp [inWord, endsWord, and_assoc]

/-- A word is an identifier in front of a blank, a newline or a `:`. -/
theorem IsWord.readsAs {text cs : List Char} (h : IsWord text) (hcs : EndsWords false cs) :
    ReadsAs false text (.identifier (String.ofList text)) cs := by
  have hread := readsAs_of_plain h.ne_nil (fun c hc => inWord_false_iff.2 (h.plain c hc))
    h.not_span h.not_comment (fun c hc => (h.plain c (List.mem_of_mem_head? hc)).2.2)
    (fun c hc => (h.plain c (List.mem_of_mem_getLast? hc)).2.2) hcs
  rwa [Lexeme.ofWord, h.not_numeral] at hread

/-! ## 3. Arguments -/

theorem isBlank_of_isDigit {c : Char} (h : c.isDigit = true) : isBlank c = false := by
  rw [Bool.eq_false_iff]
  intro hblank
  simp only [isBlank, Bool.or_eq_true, beq_iff_eq] at hblank
  rcases hblank with (((rfl | rfl) | rfl) | rfl) | rfl <;> cases h

theorem ne_of_isDigit {c d : Char} (h : c.isDigit = true) (hd : d.isDigit = false) : c ≠ d := by
  rintro rfl
  rw [h] at hd
  cases hd

/-- The canonical numeral of a number is an integer, be it read narrowly or widely. -/
theorem readsAs_render (n : Int64) {wide : Bool} {cs : List Char} (hcs : EndsWords wide cs) :
    ReadsAs wide (Numeral.render n).toList (.integer n) cs := by
  have hplain (c : Char) (hc : c ∈ (Numeral.render n).toList) :
      endsWord c = false ∧ isBlank c = false ∧ c ≠ '(' ∧ c ≠ '$' := by
    rcases Numeral.eq_minus_or_isDigit hc with rfl | hdigit
    · decide
    · have hnewline := ne_of_isDigit hdigit (show '\n'.isDigit = false from rfl)
      have hscope := ne_of_isDigit hdigit (show ':'.isDigit = false from rfl)
      exact ⟨by simp [endsWord, hnewline, hscope], isBlank_of_isDigit hdigit,
        ne_of_isDigit hdigit rfl, ne_of_isDigit hdigit rfl⟩
  have hin (c : Char) (hc : c ∈ (Numeral.render n).toList) : inWord wide c = true := by
    obtain ⟨hends, hblank, -⟩ := hplain c hc
    simp [inWord, hends, hblank]
  have hread := readsAs_of_plain (Numeral.render_ne_nil n) hin
    (fun hspan => (hplain _ (List.mem_of_mem_head? hspan)).2.2.1 rfl)
    (fun hcomment => (hplain '$' (hcomment.subset List.mem_cons_self)).2.2.2 rfl)
    (fun c hc => (hplain c (List.mem_of_mem_head? hc)).2.1)
    (fun c hc => (hplain c (List.mem_of_mem_getLast? hc)).2.1) hcs
  rwa [Lexeme.ofWord, Numeral.read?_render] at hread

/-- A text that can stand for an argument of a command. -/
inductive IsArgument (text : List Char) : Prop where
  | word (h : IsWord text)
  | numeral (n : Int64) (h : text = (Numeral.render n).toList)
  | scope (h : text = [':'])
  | span (h : IsSpan text)

/-- The text of an argument is kept. -/
theorem IsArgument.word?_ofWord {text : List Char} (h : IsArgument text) :
    (Lexeme.ofWord text).word? = some (String.ofList text) := by
  cases h with
  | word h =>
    rw [Lexeme.ofWord, h.not_numeral]
    rfl
  | numeral n h =>
    rw [h, Lexeme.ofWord, Numeral.read?_render]
    exact congrArg some String.ofList_toList.symm
  | scope h =>
    rw [h]
    rfl
  | span h =>
    obtain ⟨others, rfl⟩ := List.head?_eq_some_iff.1 h.head
    rw [Lexeme.ofWord, read?_cons_open]
    rfl

/-- An argument comes back as it is. -/
theorem IsArgument.readsAs {text cs : List Char} (h : IsArgument text)
    (hcs : EndsWords false cs) : ReadsAs false text (.ofWord text) cs := by
  cases h with
  | word h =>
    rw [Lexeme.ofWord, h.not_numeral]
    exact h.readsAs hcs
  | numeral n h =>
    rw [h, Lexeme.ofWord, Numeral.read?_render]
    exact readsAs_render n hcs
  | scope h =>
    rw [h]
    exact readsAs_scope false cs
  | span h =>
    obtain ⟨others, rfl⟩ := List.head?_eq_some_iff.1 h.head
    rw [Lexeme.ofWord, read?_cons_open]
    exact h.readsAs false cs

/-! ## 4. Lines of text -/

/-- A line of text for the player. -/
structure IsTextLine (text : List Char) : Prop where
  ne_nil : text ≠ []
  plain : ∀ c ∈ text, c ≠ '\n' ∧ c ≠ ':'
  not_span : text.head? ≠ some '('
  not_comment : ¬OpensComment text
  head : ∀ c ∈ text.head?, isBlank c = false
  last : ∀ c ∈ text.getLast?, isBlank c = false
  canonical : ∀ n ∈ Numeral.read? text, text = (Numeral.render n).toList

instance (text : List Char) : Decidable (IsTextLine text) :=
  decidable_of_iff (text ≠ [] ∧ text.all (fun c => c ≠ '\n' ∧ c ≠ ':') ∧ text.head? ≠ some '(' ∧
      ¬OpensComment text ∧ text.head?.all (!isBlank ·) ∧ text.getLast?.all (!isBlank ·) ∧
      (Numeral.read? text).all fun n => text = (Numeral.render n).toList) <| by
    simp only [Option.all_eq_true]
    constructor
    · rintro ⟨h₁, h₂, h₃, h₄, h₅, h₆, h₇⟩
      exact ⟨h₁, by simpa using h₂, h₃, h₄, by simpa using h₅, by simpa using h₆, by simpa using h₇⟩
    · rintro ⟨h₁, h₂, h₃, h₄, h₅, h₆, h₇⟩
      exact ⟨h₁, by simpa using h₂, h₃, h₄, by simpa using h₅, by simpa using h₆, by simpa using h₇⟩

theorem inWord_true_iff {c : Char} : inWord true c = true ↔ c ≠ '\n' ∧ c ≠ ':' := by
  simp [inWord, endsWord]

/-- A line of text is one word in wide reading. -/
theorem IsTextLine.readsAs {text cs : List Char} (h : IsTextLine text)
    (hcs : EndsWords true cs) :
    ∃ lexeme, ReadsAs true text lexeme cs ∧ lexeme.word? = some (String.ofList text) := by
  refine ⟨.ofWord text, ?_, ?_⟩
  · exact readsAs_of_plain h.ne_nil (fun c hc => inWord_true_iff.2 (h.plain c hc)) h.not_span
      h.not_comment h.head h.last hcs
  · unfold Lexeme.ofWord
    split
    · next n hn => rw [Lexeme.word?, h.canonical n hn, String.ofList_toList]
    · rfl

theorem IsTextLine.opensWord {text cs : List Char} (h : IsTextLine text)
    (hcs : EndsWords true cs) : opensWord (text ++ cs) = true := by
  refine opensWord_append h.ne_nil (fun c hc => ⟨h.head c hc, ?_⟩) h.not_comment (head?_ne_dash hcs)
  exact endsWord_of_inWord (inWord_true_iff.2 (h.plain c (List.mem_of_mem_head? hc)))

/-- Lines of text with a newline between each two. -/
inductive IsText : List Char → Prop where
  | line {line : List Char} (h : IsTextLine line) : IsText line
  | more {line text : List Char} (h : IsTextLine line) (others : IsText text) :
      IsText (line ++ '\n' :: text)

theorem IsText.opensWord {text cs : List Char} (h : IsText text) (hcs : EndsWords true cs) :
    opensWord (text ++ cs) = true := by
  cases h with
  | line h => exact h.opensWord hcs
  | more h others =>
    rw [List.append_assoc]
    exact h.opensWord (endsWords_newline true _)

end Questbook
