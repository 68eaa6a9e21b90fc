/-
Questbook.Proofs.Reader.Integers — integer tokens are exact at the limits and beyond.

What number a numeral stands for is said here by the weights of its digits
(`Numeral.value`), with no word on how it is read and of any size. A word is an integer
token if it is a numeral of a number in the range of 64 bits, which has one more number
below zero than above (`InRange`). Every other word, a numeral one past a limit
included, is an identifier with its text unchanged.

The text of an integer token is written anew. That it has no plus sign, no leading zero
and no negative zero follows from its being the shortest numeral of its number
(`Numeral.isCanonical_render`): without the sign or the zero it would be shorter.
-/
import Mathlib
import Questbook.Proofs.Reader.Wide
import Questbook.Proofs.Reader.WordExtent

namespace Questbook

open Text Extent

namespace Text.Numeral

/-! ## 1. What a numeral stands for -/

/-- The number a row of digits stands for: each digit counts for its place. -/
def value (ds : List Char) : Nat :=
  Nat.ofDigits 10 (ds.reverse.map fun d => d.toNat - '0'.toNat)

/-- The text is one sign at most and at least one digit, and stands for this integer. -/
inductive Denotes : List Char → Int → Prop where
  | unsigned {ds : List Char} (hne : ds ≠ []) (hds : ∀ d ∈ ds, d.isDigit = true) :
      Denotes ds (value ds)
  | plus {ds : List Char} (hne : ds ≠ []) (hds : ∀ d ∈ ds, d.isDigit = true) :
      Denotes ('+' :: ds) (value ds)
  | minus {ds : List Char} (hne : ds ≠ []) (hds : ∀ d ∈ ds, d.isDigit = true) :
      Denotes ('-' :: ds) (-(value ds))

/-- From the least to the greatest number of 64 bits. -/
def InRange (i : Int) : Prop :=
  -2 ^ 63 ≤ i ∧ i ≤ 2 ^ 63 - 1

/-- No plus sign, no leading zero and no negative zero. -/
structure IsCanonical (text : List Char) : Prop where
  no_plus : text.head? ≠ some '+'
  no_leading_zero : ∀ ds, text = '0' :: ds ∨ text = '-' :: '0' :: ds → ds = []
  no_negative_zero : text ≠ ['-', '0']

theorem value_cons (d : Char) (ds : List Char) :
    value (d :: ds) = 10 ^ ds.length * (d.toNat - '0'.toNat) + value ds := by
  rw [value, List.reverse_cons, List.map_append, Nat.ofDigits_append, List.length_map,
    List.length_reverse, List.map_singleton, Nat.ofDigits_singleton, Nat.add_comm, value]

/-- Reading the digits from the left gives the same. -/
theorem ofDigitChars_eq_value (ds : List Char) : Nat.ofDigitChars 10 ds 0 = value ds := by
  induction ds with
  | nil => rfl
  | cons d ds ih =>
    rw [ofDigitChars_cons_zero, value_cons, ih]
    rfl

theorem readNat?_of_digits {ds : List Char} (hne : ds ≠ []) (hds : ∀ d ∈ ds, d.isDigit = true) :
    readNat? ds = some (value ds) := by
  rw [readNat?, if_pos ⟨hne, List.all_eq_true.2 hds⟩, ofDigitChars_eq_value]

/-- What is read as an integer is what stands for one. -/
theorem readInt?_eq_some_iff {cs : List Char} {i : Int} :
    readInt? cs = some i ↔ Denotes cs i := by
  constructor
  · intro h
    cases signed_of_readInt? h with
    | plain hne hds =>
      rw [ofDigitChars_eq_value]
      exact .unsigned hne hds
    | plus hne hds =>
      rw [ofDigitChars_eq_value]
      exact .plus hne hds
    | minus hne hds =>
      rw [ofDigitChars_eq_value]
      exact .minus hne hds
  · intro h
    cases h with
    | unsigned hne hds =>
      unfold readInt?
      split
      · cases hds '-' List.mem_cons_self
      · cases hds '+' List.mem_cons_self
      · rw [readNat?_of_digits hne hds]
        rfl
    | plus hne hds =>
      rw [readInt?, readNat?_of_digits hne hds]
      rfl
    | minus hne hds =>
      rw [readInt?, readNat?_of_digits hne hds]
      rfl

/-- A text stands for one integer at most. -/
theorem Denotes.unique {cs : List Char} {i j : Int} (hi : Denotes cs i) (hj : Denotes cs j) :
    i = j :=
  Option.some.inj ((readInt?_eq_some_iff.2 hi).symm.trans (readInt?_eq_some_iff.2 hj))

theorem inRange_toInt (n : Int64) : InRange n.toInt :=
  ⟨n.le_toInt, Int.le_sub_one_of_lt n.toInt_lt⟩

/-- Reading ends with a look at the range. -/
theorem read?_eq_some_iff {cs : List Char} {n : Int64} :
    read? cs = some n ↔ Denotes cs n.toInt := by
  rw [← readInt?_eq_some_iff, read?]
  constructor
  · intro h
    obtain ⟨i, hi, hn⟩ := Option.bind_eq_some_iff.1 h
    rw [toInt_of_ofInt? hn, hi]
  · intro h
    rw [h, Option.bind_some, ofInt?, if_pos ⟨n.minValue_le_toInt, n.toInt_le⟩, Int64.ofInt_toInt]

theorem exists_toInt {i : Int} (h : InRange i) : ∃ n : Int64, n.toInt = i :=
  ⟨Int64.ofInt i, Int64.toInt_ofInt_of_le h.1 (Int.lt_of_le_sub_one h.2)⟩

/-! ## 2. The canonical numeral -/

theorem value_zero_cons (ds : List Char) : value ('0' :: ds) = value ds := by
  rw [value_cons, Nat.sub_self, Nat.mul_zero, Nat.zero_add]

/-- No numeral of a number is shorter than the one that is written. -/
theorem length_render_le {cs : List Char} {n : Int64} (h : Denotes cs n.toInt) :
    (render n).toList.length ≤ cs.length := by
  rcases eq_render_or_length_lt (read?_eq_some_iff.2 h) with rfl | hlt
  · exact Nat.le_refl _
  · exact Nat.le_of_lt hlt

theorem denotes_render (n : Int64) : Denotes (render n).toList n.toInt :=
  read?_eq_some_iff.1 (read?_render n)

/-- **The numeral that is written is canonical.** -/
theorem isCanonical_render (n : Int64) : IsCanonical (render n).toList := by
  have hdenotes := denotes_render n
  have hshortest (cs : List Char) (h : Denotes cs n.toInt) := length_render_le h
  generalize (render n).toList = text at hdenotes hshortest
  generalize n.toInt = i at hdenotes hshortest
  -- Without the character in question the text would be shorter and denote the same.
  refine ⟨?_, ?_, ?_⟩
  · intro hplus
    obtain ⟨ds, rfl⟩ := List.head?_eq_some_iff.1 hplus
    cases hdenotes with
    | unsigned hne hds => cases hds '+' List.mem_cons_self
    | plus hne hds => exact Nat.not_succ_le_self _ (hshortest ds (.unsigned hne hds))
  · rintro ds (rfl | rfl)
    · by_contra hne
      cases hdenotes with
      | unsigned _ hds =>
        have hds' : ∀ d ∈ ds, d.isDigit = true := fun d hd => hds d (List.mem_cons_of_mem _ hd)
        rw [value_zero_cons] at hshortest
        exact Nat.not_succ_le_self _ (hshortest ds (.unsigned hne hds'))
    · by_contra hne
      cases hdenotes with
      | unsigned _ hds => cases hds '-' List.mem_cons_self
      | minus _ hds =>
        have hds' : ∀ d ∈ ds, d.isDigit = true := fun d hd => hds d (List.mem_cons_of_mem _ hd)
        rw [value_zero_cons] at hshortest
        exact Nat.not_succ_le_self _ (hshortest ('-' :: ds) (.minus hne hds'))
  · rintro rfl
    cases hdenotes with
    | unsigned _ hds => cases hds '-' List.mem_cons_self
    | minus hne hds => exact absurd (hshortest ['0'] (.unsigned hne hds)) (by decide)

end Text.Numeral

/-! ## 3. The token of a word -/

/-- The number that goes with a token: of an integer its value, of line breaks how many
there are. The other tokens have zero. -/
def Lexeme.value : Lexeme → Int
  | .integer n => n.toInt
  | .lineBreaks count => count
  | _ => 0

/-- The token is what a word with this text should be. -/
structure Lexeme.Exact (lexeme : Lexeme) (text : List Char) : Prop where
  /-- A numeral in the range is an integer, its text is the canonical numeral, and that
  is the same token in either mode. -/
  integer : ∀ i, Numeral.Denotes text i → Numeral.InRange i →
    lexeme.value = i ∧ ∃ n canonical, lexeme = .integer n ∧ lexeme.word? = some canonical ∧
      Numeral.Denotes canonical.toList i ∧ Numeral.IsCanonical canonical.toList ∧
      ∀ wide offset, (⟨canonical.toList, offset, wide⟩ : Reader).tokens = [⟨lexeme, offset⟩]
  /-- Everything else is an identifier. -/
  identifier : (∀ i, Numeral.Denotes text i → ¬ Numeral.InRange i) →
    lexeme = .identifier (String.ofList text) ∧ lexeme.value = 0

theorem Lexeme.exact_ofWord (text : List Char) : (Lexeme.ofWord text).Exact text where
  integer i hi hrange := by
    obtain ⟨n, rfl⟩ := Numeral.exists_toInt hrange
    have hword : Lexeme.ofWord text = .integer n := by
      rw [Lexeme.ofWord, Numeral.read?_eq_some_iff.2 hi]
    rw [hword]
    refine ⟨rfl, n, _, rfl, rfl, Numeral.denotes_render n, Numeral.isCanonical_render n, ?_⟩
    intro wide offset
    exact Reader.tokens_of_readsAs_nil (readsAs_render n (by rintro _ ⟨⟩)) (by simp) offset
  identifier h := by
    have hnone : Numeral.read? text = none := by
      rw [Option.eq_none_iff_forall_ne_some]
      intro n hn
      exact h _ (Numeral.read?_eq_some_iff.1 hn) (Numeral.inRange_toInt n)
    rw [Lexeme.ofWord, hnone]
    exact ⟨rfl, rfl⟩

namespace Reader

/-- **Integer tokens are exact.** Wherever a word is read, in either mode, its token is
an integer if the text it is cut from is a numeral of a number from -2⁶³ to 2⁶³ - 1. Its
value is that number then and its text the canonical numeral, which on its own is the
same token again. In every other case, a numeral past a limit and a lone sign included,
the token is an identifier with the text as it stands. -/
theorem integers_exact (r : Reader) :
    (r.next.1.lexeme.word? ≠ none ↔ ∃ text, r.Cuts text) ∧
    ∀ text, r.Cuts text → r.next.1.lexeme.Exact text := by
  refine ⟨⟨exists_cuts, ?_⟩, fun text h => ?_⟩
  · rintro ⟨text, h⟩
    rw [h.lexeme_eq]
    exact Option.isSome_iff_ne_none.1 (isSome_word?_ofWord text)
  · rw [h.lexeme_eq]
    exact Lexeme.exact_ofWord text

/-- The least number with zeros in front, read narrowly; one more than the greatest with
a plus sign and a blank behind it, read widely; and a lone sign. -/
theorem integers_exact_limits :
    (∃ n, (ofSource "-009223372036854775808 x").next.1.lexeme = .integer n ∧
      n.toInt = -9223372036854775808) ∧
    (⟨"+9223372036854775808 ".toList, 0, true⟩ : Reader).next.1.lexeme =
      .identifier "+9223372036854775808" ∧
    (ofSource "-").next.1.lexeme = .identifier "-" := by
  have hleast : (ofSource "-009223372036854775808 x").Cuts "-009223372036854775808".toList :=
    .word rfl (by decide) (by decide) (wordExtent_narrow (by decide))
  have hbeyond : (⟨"+9223372036854775808 ".toList, 0, true⟩ : Reader).Cuts
      "+9223372036854775808".toList :=
    .word rfl (by decide) (by decide) (.wide (by decide) rfl (isStripped_trimRight _))
  have hsign : (ofSource "-").Cuts ['-'] :=
    .word rfl (by decide) (by decide) (wordExtent_narrow (by decide))
  have hmin : Numeral.Denotes "-009223372036854775808".toList (-9223372036854775808) :=
    @Numeral.Denotes.minus "009223372036854775808".toList (by decide) (List.all_eq_true.1 rfl)
  have hmax : Numeral.Denotes "+9223372036854775808".toList 9223372036854775808 :=
    @Numeral.Denotes.plus "9223372036854775808".toList (by decide) (List.all_eq_true.1 rfl)
  obtain ⟨hvalue, n, -, hn, -⟩ := ((integers_exact _).2 _ hleast).integer _ hmin
    ⟨by decide, by decide⟩
  refine ⟨⟨n, hn, ?_⟩, ?_, ?_⟩
  · rwa [hn] at hvalue
  · refine (((integers_exact _).2 _ hbeyond).identifier fun i hi hrange => ?_).1
    rw [hi.unique hmax] at hrange
    exact absurd hrange.2 (by decide)
  · refine (((integers_exact _).2 _ hsign).identifier fun i hi => ?_).1
    cases Numeral.readInt?_eq_some_iff.2 hi

end Reader

end Questbook
