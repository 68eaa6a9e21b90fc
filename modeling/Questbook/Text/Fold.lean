/-
Questbook.Text.Fold — comparing words without regard to letter case.

Keywords, flags and command names ignore the case of the ASCII letters and of
nothing else: the Kelvin sign is not a `k`, and `É` is not an `é`.
-/

namespace Questbook.Text

/-- The text with its ASCII capitals made small. -/
def fold (s : String) : String :=
  String.ofList (s.toList.map Char.toLower)

/-- Equal but for the case of ASCII letters. -/
def sameFold (s t : String) : Bool :=
  fold s == fold t

/-! ## Small facts -/

@[simp] theorem toList_fold (s : String) : (fold s).toList = s.toList.map Char.toLower := by
  simp [fold]

theorem sameFold_iff {s t : String} : sameFold s t = true ↔ fold s = fold t := by
  simp [sameFold]

/-! ## One character -/

theorem isUpper_iff {c : Char} : c.isUpper = true ↔ 65 ≤ c.toNat ∧ c.toNat ≤ 90 := by
  show decide ('A'.val ≤ c.val ∧ c.val ≤ 'Z'.val) = true ↔ _
  rw [decide_eq_true_iff]
  exact Iff.rfl

theorem isLower_iff {c : Char} : c.isLower = true ↔ 97 ≤ c.toNat ∧ c.toNat ≤ 122 := by
  show (decide ('a'.val ≤ c.val) && decide (c.val ≤ 'z'.val)) = true ↔ _
  rw [Bool.and_eq_true, decide_eq_true_iff, decide_eq_true_iff]
  exact Iff.rfl

/-- A capital goes to the letter 32 places on. -/
theorem toNat_toLower_of_isUpper {c : Char} (h : c.isUpper = true) :
    c.toLower.toNat = c.toNat + 32 := by
  have hle := (isUpper_iff.1 h).2
  have hval : c.toLower.val = c.val + 32 := congrArg Char.val (dif_pos (isUpper_iff.1 h))
  rw [← Char.toNat_val, hval, UInt32.toNat_add]
  exact Nat.mod_eq_of_lt (by change c.toNat + 32 < _; omega)

theorem toLower_of_not_isUpper {c : Char} (h : c.isUpper = false) : c.toLower = c :=
  dif_neg (of_decide_eq_false h)

/-- No capital is left. -/
theorem isUpper_toLower (c : Char) : c.toLower.isUpper = false := by
  cases h : c.isUpper with
  | false => rw [toLower_of_not_isUpper h, h]
  | true =>
    have hn := toNat_toLower_of_isUpper h
    have hc := isUpper_iff.1 h
    rw [Bool.eq_false_iff, ne_eq, isUpper_iff]
    omega

/-- Only a small letter can come of another character. -/
theorem eq_of_toLower_eq {c d : Char} (h : c.toLower = d) (hd : d.isLower = false) : c = d := by
  cases hc : c.isUpper with
  | false => rw [← h, toLower_of_not_isUpper hc]
  | true =>
    have hn := toNat_toLower_of_isUpper hc
    have hlower : d.isLower = true := by
      have := isUpper_iff.1 hc
      rw [isLower_iff, ← h]
      omega
    rw [hd] at hlower
    cases hlower

theorem fold_fold (s : String) : fold (fold s) = fold s := by
  simp only [fold, String.toList_ofList, List.map_map]
  congr 1
  refine List.map_congr_left ?_
  intro c _
  exact toLower_of_not_isUpper (isUpper_toLower c)

/-- The only text that folds to `:` is `:` itself. -/
theorem eq_scope_of_fold_eq {s : String} (h : fold s = ":") : s = ":" := by
  have hlist : s.toList.map Char.toLower = [':'] := by
    rw [← toList_fold, h]
    rfl
  obtain ⟨c, hc, hcolon⟩ := List.map_eq_singleton_iff.1 hlist
  rw [← String.toList_inj, hc, eq_of_toLower_eq hcolon rfl]
  rfl

end Questbook.Text
