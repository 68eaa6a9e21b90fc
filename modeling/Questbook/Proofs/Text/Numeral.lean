/-
Questbook.Proofs.Text.Numeral — the numeral of a number reads back as it.

A numeral is written as digits with a minus sign in front if need be
(`toList_render`). Reading it takes the sign off, reads the digits, and finds
the number in range because it is a 64-bit number to begin with. The range is
not symmetric, and nothing here needs it to be: the sign is put back before
the range is looked at.

A number has many numerals, and the one that is written is the shortest of them
(`eq_render_or_length_lt`).
-/
import Questbook.Text.Numeral

namespace Questbook.Text.Numeral

theorem toList_render (n : Int64) :
    (render n).toList =
      if 0 ≤ n.toInt then Nat.toDigits 10 n.toInt.toNat
      else '-' :: Nat.toDigits 10 (-n.toInt).toNat := by
  rw [render, Int.repr_eq_if]
  split
  · exact Nat.toList_repr
  · rw [String.toList_append, Nat.toList_repr]
    rfl

theorem isDigit_of_mem_toDigits {n : Nat} {c : Char} (h : c ∈ Nat.toDigits 10 n) :
    c.isDigit = true :=
  Nat.isDigit_of_mem_toDigits (by decide) (by decide) h

/-- A numeral is made of digits and a minus sign. -/
theorem eq_minus_or_isDigit {n : Int64} {c : Char} (h : c ∈ (render n).toList) :
    c = '-' ∨ c.isDigit = true := by
  rw [toList_render] at h
  split at h
  · exact .inr (isDigit_of_mem_toDigits h)
  · rcases List.mem_cons.1 h with rfl | h
    · exact .inl rfl
    · exact .inr (isDigit_of_mem_toDigits h)

theorem render_ne_nil (n : Int64) : (render n).toList ≠ [] := by
  rw [toList_render]
  split
  · exact Nat.toDigits_ne_nil
  · simp

theorem readNat?_toDigits (n : Nat) : readNat? (Nat.toDigits 10 n) = some n := by
  have hdigits : (Nat.toDigits 10 n).all Char.isDigit = true :=
    List.all_eq_true.2 fun _ => isDigit_of_mem_toDigits
  rw [readNat?, if_pos ⟨Nat.toDigits_ne_nil, hdigits⟩, Nat.ofDigitChars_ten_toDigits]

/-- A row of digits has no sign in front. -/
theorem readInt?_toDigits (n : Nat) : readInt? (Nat.toDigits 10 n) = some (n : Int) := by
  have hhead (c : Char) (hc : c ∈ (Nat.toDigits 10 n).head?) : c.isDigit = true :=
    isDigit_of_mem_toDigits (List.mem_of_mem_head? hc)
  have hread := readNat?_toDigits n
  unfold readInt?
  split
  · next heq => cases hhead '-' (by simp [heq])
  · next heq => cases hhead '+' (by simp [heq])
  · rw [hread]
    rfl

theorem readInt?_render (n : Int64) : readInt? (render n).toList = some n.toInt := by
  rw [toList_render]
  split
  · next h => rw [readInt?_toDigits, Int.toNat_of_nonneg h]
  · next h =>
    rw [readInt?, readNat?_toDigits]
    show some (-((-n.toInt).toNat : Int)) = some n.toInt
    rw [Int.toNat_of_nonneg (by omega), Int.neg_neg]

/-- **The numeral of a number stands for it.** -/
theorem read?_render (n : Int64) : read? (render n).toList = some n := by
  rw [read?, readInt?_render, Option.bind_some, ofInt?,
    if_pos ⟨n.minValue_le_toInt, n.toInt_le⟩, Int64.ofInt_toInt]

/-! ## What reads as a number -/

/-- An optional sign and a row of digits, with the integer they stand for. -/
inductive Signed : List Char → Int → Prop where
  | plain {ds : List Char} (hne : ds ≠ []) (hds : ∀ d ∈ ds, d.isDigit = true) :
      Signed ds (Nat.ofDigitChars 10 ds 0)
  | plus {ds : List Char} (hne : ds ≠ []) (hds : ∀ d ∈ ds, d.isDigit = true) :
      Signed ('+' :: ds) (Nat.ofDigitChars 10 ds 0)
  | minus {ds : List Char} (hne : ds ≠ []) (hds : ∀ d ∈ ds, d.isDigit = true) :
      Signed ('-' :: ds) (-(Nat.ofDigitChars 10 ds 0))

theorem readNat?_eq_some {ds : List Char} {n : Nat} (h : readNat? ds = some n) :
    ds ≠ [] ∧ (∀ d ∈ ds, d.isDigit = true) ∧ n = Nat.ofDigitChars 10 ds 0 := by
  unfold readNat? at h
  split at h
  · next hds =>
    cases h
    exact ⟨hds.1, List.all_eq_true.1 hds.2, rfl⟩
  · cases h

theorem signed_of_readInt? {cs : List Char} {i : Int} (h : readInt? cs = some i) :
    Signed cs i := by
  have hdigits {ds : List Char} {n : Int}
      (hn : ((readNat? ds).bind fun n => some (n : Int)) = some n) :
      ds ≠ [] ∧ (∀ d ∈ ds, d.isDigit = true) ∧ n = Nat.ofDigitChars 10 ds 0 := by
    obtain ⟨m, hm, hmn⟩ := Option.bind_eq_some_iff.1 hn
    obtain ⟨hne, hds, rfl⟩ := readNat?_eq_some hm
    exact ⟨hne, hds, (Option.some.inj hmn).symm⟩
  unfold readInt? at h
  split at h <;> obtain ⟨n, hn, rfl⟩ := Option.map_eq_some_iff.1 h <;>
    obtain ⟨hne, hds, rfl⟩ := hdigits hn
  · exact .minus hne hds
  · exact .plus hne hds
  · exact .plain hne hds

theorem toInt_of_ofInt? {i : Int} {n : Int64} (h : ofInt? i = some n) : n.toInt = i := by
  unfold ofInt? at h
  split at h
  · next hrange =>
    cases h
    exact Int64.toInt_ofInt_of_le hrange.1 (Int.lt_of_le_of_lt hrange.2 (by decide))
  · cases h

/-- Only numerals read as numbers. -/
theorem signed_of_read? {cs : List Char} {n : Int64} (h : read? cs = some n) :
    Signed cs n.toInt := by
  obtain ⟨i, hi, hn⟩ := Option.bind_eq_some_iff.1 h
  rw [toInt_of_ofInt? hn]
  exact signed_of_readInt? hi

theorem Signed.ne_nil {cs : List Char} {i : Int} (h : Signed cs i) : cs ≠ [] := by
  cases h with
  | plain hne hds => exact hne
  | plus hne hds => exact List.cons_ne_nil _ _
  | minus hne hds => exact List.cons_ne_nil _ _

/-! ## The numeral of a number is the shortest -/

theorem toNat_of_isDigit {d : Char} (h : d.isDigit = true) :
    '0'.toNat ≤ d.toNat ∧ d.toNat - '0'.toNat < 10 := by
  have h' := Char.isDigit_iff_toNat.1 h
  have hzero : '0'.toNat = 48 := rfl
  have hnine : '9'.toNat = 57 := rfl
  omega

theorem ofDigitChars_cons_zero (d : Char) (ds : List Char) :
    Nat.ofDigitChars 10 (d :: ds) 0 =
      Nat.pow 10 ds.length * (d.toNat - '0'.toNat) + Nat.ofDigitChars 10 ds 0 := by
  rw [Nat.ofDigitChars_cons, Nat.ofDigitChars_eq_ofDigitChars_zero, Nat.mul_zero, Nat.zero_add]
  rfl

/-- A row of digits stands for a number with no more digits. -/
theorem ofDigitChars_lt {ds : List Char} (hds : ∀ d ∈ ds, d.isDigit = true) :
    Nat.ofDigitChars 10 ds 0 < Nat.pow 10 ds.length := by
  induction ds with
  | nil => decide
  | cons d ds ih =>
    obtain ⟨hd, hds⟩ := List.forall_mem_cons.1 hds
    have hdigit := (toNat_of_isDigit hd).2
    have hrest := ih hds
    have hmul := Nat.mul_le_mul_left (Nat.pow 10 ds.length) (Nat.le_of_lt_succ hdigit)
    have hpow : Nat.pow 10 (d :: ds).length = Nat.pow 10 ds.length * 10 := rfl
    rw [ofDigitChars_cons_zero, hpow]
    omega

/-- Rows of digits of one length stand for different numbers. -/
theorem eq_of_ofDigitChars_eq {ds es : List Char} (hlength : ds.length = es.length)
    (hds : ∀ d ∈ ds, d.isDigit = true) (hes : ∀ e ∈ es, e.isDigit = true)
    (h : Nat.ofDigitChars 10 ds 0 = Nat.ofDigitChars 10 es 0) : ds = es := by
  induction ds generalizing es with
  | nil => exact (List.length_eq_zero_iff.1 hlength.symm).symm
  | cons d ds ih =>
    cases es with
    | nil => cases hlength
    | cons e es =>
      obtain ⟨hd, hds⟩ := List.forall_mem_cons.1 hds
      obtain ⟨he, hes⟩ := List.forall_mem_cons.1 hes
      have hlength' : ds.length = es.length := Nat.succ.inj hlength
      rw [ofDigitChars_cons_zero, ofDigitChars_cons_zero, ← hlength'] at h
      have hpos : 0 < Nat.pow 10 ds.length := Nat.pow_pos (by decide)
      have hlt := ofDigitChars_lt hds
      have hlt' := hlength' ▸ ofDigitChars_lt hes
      have hfirst := congrArg (· / Nat.pow 10 ds.length) h
      have hothers := congrArg (· % Nat.pow 10 ds.length) h
      simp only [Nat.mul_add_div hpos, Nat.div_eq_of_lt hlt, Nat.div_eq_of_lt hlt', Nat.add_zero,
        Nat.mul_add_mod, Nat.mod_eq_of_lt hlt, Nat.mod_eq_of_lt hlt'] at hfirst hothers
      have hdigit := (toNat_of_isDigit hd).1
      have hdigit' := (toNat_of_isDigit he).1
      have hcode : d.toNat = e.toNat := by omega
      rw [ih hlength' hds hes hothers, Char.toNat_inj.1 hcode]

/-- Other digits for a number are more digits. -/
theorem eq_toDigits_or_length_lt {ds : List Char} (hne : ds ≠ [])
    (hds : ∀ d ∈ ds, d.isDigit = true) :
    ds = Nat.toDigits 10 (Nat.ofDigitChars 10 ds 0) ∨
      (Nat.toDigits 10 (Nat.ofDigitChars 10 ds 0)).length < ds.length := by
  have hle := (Nat.length_toDigits_le_iff (by decide) (List.length_pos_iff.2 hne)).2
    (ofDigitChars_lt hds)
  rcases Nat.lt_or_eq_of_le hle with hlt | heq
  · exact .inr hlt
  · exact .inl (eq_of_ofDigitChars_eq heq.symm hds (fun _ => isDigit_of_mem_toDigits)
      Nat.ofDigitChars_ten_toDigits.symm)

/-- **The numeral of a number is its shortest.** A sign or a zero more makes it longer. -/
theorem eq_render_or_length_lt {cs : List Char} {n : Int64} (h : read? cs = some n) :
    cs = (render n).toList ∨ (render n).toList.length < cs.length := by
  have hdigits {ds : List Char} (hne : ds ≠ []) (hds : ∀ d ∈ ds, d.isDigit = true) :
      (Nat.toDigits 10 (Nat.ofDigitChars 10 ds 0)).length ≤ ds.length :=
    (eq_toDigits_or_length_lt hne hds).elim (fun heq => heq ▸ Nat.le_refl _) Nat.le_of_lt
  have hsigned := signed_of_read? h
  rw [toList_render]
  generalize n.toInt = i at hsigned
  cases hsigned with
  | plain hne hds =>
    rw [if_pos (Int.natCast_nonneg _), Int.toNat_natCast]
    exact eq_toDigits_or_length_lt hne hds
  | plus hne hds =>
    rw [if_pos (Int.natCast_nonneg _), Int.toNat_natCast]
    exact .inr (Nat.lt_succ_of_le (hdigits hne hds))
  | @minus ds hne hds =>
    have hle := hdigits hne hds
    split
    · next hzero =>
      -- The numeral of zero has no sign.
      rw [show (-(Nat.ofDigitChars 10 ds 0 : Int)).toNat = 0 by omega]
      exact .inr (Nat.lt_succ_of_le (List.length_pos_iff.2 hne))
    · rw [Int.neg_neg, Int.toNat_natCast]
      rcases eq_toDigits_or_length_lt hne hds with heq | hlt
      · exact .inl (congrArg ('-' :: ·) heq)
      · exact .inr (Nat.succ_lt_succ hlt)

end Questbook.Text.Numeral
