/-
Questbook.Proofs.Reader.Ahead — a token does not depend on the text far behind it.

Two texts are compared that begin alike and go on differently: `front ++ back`
and `front ++ back'`. A token that is taken from the first and leaves the whole
of `back` unread is taken from the second just the same (`next_ahead`).

How far ahead the scanner looks decides what has to be asked of `back` and
`back'`. It looks at one character behind the token, and at one more where that
character is a `$`. The two backs differ where a comment starts in the first and
the line ends in the second (`Parting`). At a `$` no word ends, other than a span
that has just been closed, and a `-` stands at the start of neither; so only a
run of line breaks can end right before `back` and go on in `back'`.
-/
import Questbook.Proofs.Reader.Tokens

namespace Questbook

open Text Extent

/-- In the one text a comment comes next, in the other the line ends. -/
structure Parting (back back' : List Char) : Prop where
  dollar : back.head? = some '$'
  newline : ∀ c ∈ back'.head?, c = '\n'

namespace Parting

variable {front others back back' : List Char}

theorem head?_ne_dash (h : Parting back back') :
    back.head? ≠ some '-' ∧ back'.head? ≠ some '-' := by
  refine ⟨by rw [h.dollar]; simp, fun hdash => ?_⟩
  cases h.newline '-' hdash

theorem exists_eq_cons (h : Parting back back') : ∃ rest, back = '$' :: rest := by
  have hdollar := h.dollar
  cases back with
  | nil => cases hdollar
  | cons c rest => exact ⟨rest, by rw [Option.some.inj hdollar]⟩

/-! ## 1. Pieces of text -/

theorem splitGap_ahead (h : Parting back back') {comment : Bool} (hne : others ≠ [])
    (hcut : (splitGap comment (front ++ back)).2 = others ++ back) :
    splitGap comment (front ++ back') =
      ((splitGap comment (front ++ back)).1, others ++ back') := by
  induction front generalizing comment with
  | nil =>
    have hle := length_splitGap_le comment back
    rw [List.nil_append] at hcut
    rw [hcut, List.length_append] at hle
    exact absurd (List.length_eq_zero_iff.1 (by omega)) hne
  | cons c front ih =>
    have hdollar : ((front ++ back').head? == some '-') = ((front ++ back).head? == some '-') := by
      cases front with
      | nil =>
        rw [List.nil_append, List.nil_append, beq_eq_false_iff_ne.2 h.head?_ne_dash.1,
          beq_eq_false_iff_ne.2 h.head?_ne_dash.2]
      | cons d front => rfl
    simp only [List.cons_append, splitGap, hdollar] at hcut ⊢
    revert hcut
    split
    · intro hcut
      rw [ih hcut]
    · split
      · intro hcut
        rw [ih hcut]
      · split
        · intro hcut
          rw [ih hcut]
        · intro hcut
          rw [← List.cons_append] at hcut
          rw [← List.append_cancel_right hcut, List.cons_append]

/-- A piece that goes on as long as its characters pass a test. If it ends right
before `back`, the `$` there does not pass, and `back'` must not go on with the
piece either. -/
theorem dropWhile_ahead (h : Parting back back') {p : Char → Bool}
    (hp : others = [] → p '$' = true ∨ back' = [])
    (hcut : (front ++ back).dropWhile p = others ++ back) :
    (front ++ back').takeWhile p = (front ++ back).takeWhile p ∧
      (front ++ back').dropWhile p = others ++ back' := by
  induction front with
  | nil =>
    have hle := (List.dropWhile_sublist p (l := back)).length_le
    rw [List.nil_append] at hcut
    rw [hcut, List.length_append] at hle
    have hnil : others = [] := List.length_eq_zero_iff.1 (by omega)
    obtain ⟨rest, rfl⟩ := h.exists_eq_cons
    cases hdollar : p '$' with
    | true =>
      have hrest := (List.dropWhile_sublist p (l := rest)).length_le
      rw [List.dropWhile_cons_of_pos hdollar, hnil, List.nil_append] at hcut
      rw [hcut] at hrest
      exact absurd hrest (by simp)
    | false =>
      have hback := (hp hnil).resolve_left (by simp [hdollar])
      simp [hback, hnil, hdollar]
  | cons c front ih =>
    cases hc : p c with
    | true =>
      rw [List.cons_append, List.dropWhile_cons_of_pos hc] at hcut
      simpa [hc] using ih hcut
    | false =>
      rw [List.cons_append, List.dropWhile_cons_of_neg (by simp [hc]), ← List.cons_append] at hcut
      rw [← List.append_cancel_right hcut]
      simp [hc]

theorem length_splitSpan_le (depth : Nat) (cs : List Char) :
    (splitSpan depth cs).2.length ≤ cs.length := by
  have h := congrArg List.length (append_splitSpan depth cs)
  simp at h
  omega

theorem splitSpan_ahead (h : Parting back back') {depth : Nat}
    (hcut : (splitSpan depth (front ++ back)).2 = others ++ back) :
    splitSpan depth (front ++ back') =
      ((splitSpan depth (front ++ back)).1, others ++ back') := by
  induction front generalizing depth with
  | nil =>
    obtain ⟨rest, rfl⟩ := h.exists_eq_cons
    have hle := length_splitSpan_le depth rest
    simp only [List.nil_append, splitSpan] at hcut
    have hlength := congrArg List.length hcut
    simp [endsWord] at hlength
    omega
  | cons c front ih =>
    simp only [List.cons_append, splitSpan] at hcut ⊢
    revert hcut
    split
    · intro hcut
      rw [← List.cons_append] at hcut
      rw [← List.append_cancel_right hcut, List.cons_append]
    · split
      · intro hcut
        rw [ih hcut]
      · split
        · split
          · intro hcut
            rw [← List.append_cancel_right hcut]
          · intro hcut
            rw [ih hcut]
        · intro hcut
          rw [ih hcut]

theorem splitWord_ahead (h : Parting back back') {wide : Bool} {c : Char}
    (hcut : (splitWord wide (c :: front ++ back)).2 = others ++ back) :
    splitWord wide (c :: front ++ back') =
      ((splitWord wide (c :: front ++ back)).1, others ++ back') := by
  by_cases hspan : c = '('
  · subst hspan
    have hspan : (splitSpan 0 ('(' :: front ++ back)).2 = others ++ back := hcut
    exact splitSpan_ahead h hspan
  · rw [List.cons_append, splitWord_of_ne_open hspan] at hcut
    have hin : others = [] → inWord wide '$' = true ∨ back' = [] :=
      fun _ => .inl (by cases wide <;> rfl)
    rw [← List.cons_append] at hcut
    obtain ⟨htake, hdrop⟩ := dropWhile_ahead h hin hcut
    rw [List.cons_append, List.cons_append, splitWord_of_ne_open hspan, splitWord_of_ne_open hspan,
      ← List.cons_append, htake, hdrop]
    rfl

/-! ## 2. Tokens -/

theorem cutToken_ahead (h : Parting back back') {wide : Bool}
    (hbreaks : others = [] →
      (∀ count, (Reader.cutToken wide (front ++ back)).1 ≠ .lineBreaks count) ∨ back' = [])
    (hcut : (Reader.cutToken wide (front ++ back)).2.2 = others ++ back) :
    Reader.cutToken wide (front ++ back') =
      ((Reader.cutToken wide (front ++ back)).1, (Reader.cutToken wide (front ++ back)).2.1,
        others ++ back') := by
  cases front with
  | nil =>
    obtain ⟨rest, rfl⟩ := h.exists_eq_cons
    have hlt := Reader.length_cutToken_lt wide rest (c := '$') rfl
    rw [List.nil_append] at hcut
    rw [hcut, List.length_append] at hlt
    omega
  | cons c front =>
    by_cases hscope : c = ':'
    · subst hscope
      have hcut' : front ++ back = others ++ back := hcut
      rw [← List.append_cancel_right hcut']
      rfl
    · by_cases hnewline : c = '\n'
      · subst hnewline
        have hbreak (cs : List Char) : Reader.cutToken wide ('\n' :: cs) =
            (.lineBreaks ((('\n' :: cs).takeWhile isSpacing).count '\n'),
              ('\n' :: cs).takeWhile isSpacing, ('\n' :: cs).dropWhile isSpacing) := rfl
        rw [List.cons_append, hbreak] at hcut
        have hdollar : others = [] → isSpacing '$' = true ∨ back' = [] := by
          intro hnil
          exact .inr ((hbreaks hnil).resolve_left fun hno => hno _ rfl)
        rw [← List.cons_append] at hcut
        obtain ⟨htake, hdrop⟩ := dropWhile_ahead h hdollar hcut
        rw [List.cons_append, List.cons_append, hbreak, hbreak, ← List.cons_append, htake, hdrop]
        rfl
      · rw [List.cons_append, Reader.cutToken_of_ne hscope hnewline] at hcut
        rw [← List.cons_append] at hcut
        have hahead := splitWord_ahead h hcut
        rw [List.cons_append, List.cons_append, Reader.cutToken_of_ne hscope hnewline,
          Reader.cutToken_of_ne hscope hnewline, ← List.cons_append, hahead]
        rfl

end Parting

/-- **A token that is taken before the texts part is the same in both.** So is the
place behind it. -/
theorem Reader.next_ahead {front others back back' : List Char} (h : Parting back back')
    {r : Reader} (hfront : r.rest = front ++ back) (hrest : r.next.2.rest = others ++ back)
    (hbreaks : others = [] → (∀ count, r.next.1.lexeme ≠ .lineBreaks count) ∨ back' = []) :
    { r with rest := front ++ back' }.next =
      (r.next.1, { r.next.2 with rest := others ++ back' }) := by
  have hcut : (cutToken r.wide (splitGap false r.rest).2).2.2 = others ++ back := hrest
  obtain ⟨middle, hmiddle⟩ : ∃ middle, (splitGap false r.rest).2 = middle ++ back := by
    have happend := append_cutToken r.wide (splitGap false r.rest).2
    rw [hcut, ← List.append_assoc] at happend
    exact ⟨_, happend.symm⟩
  have hne : middle ≠ [] := by
    rintro rfl
    obtain ⟨rest, rfl⟩ := h.exists_eq_cons
    have hlt := length_cutToken_lt r.wide rest (c := '$') rfl
    rw [hmiddle, List.nil_append] at hcut
    rw [hcut, List.length_append] at hlt
    omega
  have hbreaks' : others = [] →
      (∀ count, (cutToken r.wide (middle ++ back)).1 ≠ .lineBreaks count) ∨ back' = [] := by
    rw [← hmiddle]
    exact hbreaks
  rw [hmiddle] at hcut
  have htoken := h.cutToken_ahead hbreaks' hcut
  rw [hfront] at hmiddle
  have hgap := h.splitGap_ahead hne hmiddle
  simp [next, toToken, pass, hgap, hfront, hmiddle, htoken]

end Questbook
