/-
Questbook.Table — finite maps with their keys in order.

A table is a list of keys with values whose keys ascend strictly. There is
one list for each map, so two tables that answer every look-up alike are equal,
and the order in which entries were put in leaves no trace. Putting a key in
twice keeps the last value.

The order of the keys is the one of `Ord`; for text this is the order of the
code points, which is also the order of the UTF-8 bytes.
-/

namespace Questbook

/-- A finite map, as the list of its entries in ascending order of the keys. -/
structure Table (κ : Type) (ν : Type) [Ord κ] where
  entries : List (κ × ν) := []
  sorted : entries.Pairwise (fun a b => compare a.1 b.1 = .lt) := by decide
deriving DecidableEq, Repr

namespace Table

variable {κ ν : Type} [Ord κ]

instance : EmptyCollection (Table κ ν) := ⟨⟨[], .nil⟩⟩

instance : Inhabited (Table κ ν) := ⟨∅⟩

/-! ## 1. The list of entries -/

/-- The value at a key. -/
def lookup (k : κ) : List (κ × ν) → Option ν
  | [] => none
  | (k', v) :: rest => if compare k k' = .eq then some v else lookup k rest

/-- The list with an entry put where its key belongs. -/
def insertEntry (k : κ) (v : ν) : List (κ × ν) → List (κ × ν)
  | [] => [(k, v)]
  | (k', v') :: rest =>
    match compare k k' with
    | .lt => (k, v) :: (k', v') :: rest
    | .eq => (k, v) :: rest
    | .gt => (k', v') :: insertEntry k v rest

theorem mem_insertEntry {k : κ} {v : ν} {e : κ × ν} {es : List (κ × ν)}
    (h : e ∈ insertEntry k v es) : e = (k, v) ∨ e ∈ es := by
  induction es with
  | nil => simpa [insertEntry] using h
  | cons d es ih => grind [insertEntry]

theorem mem_insertEntry_self (k : κ) (v : ν) (es : List (κ × ν)) : (k, v) ∈ insertEntry k v es := by
  induction es with
  | nil => simp [insertEntry]
  | cons d es ih => grind [insertEntry]

theorem pairwise_insertEntry [Std.TransOrd κ] (k : κ) (v : ν) {es : List (κ × ν)}
    (h : es.Pairwise fun a b => compare a.1 b.1 = .lt) :
    (insertEntry k v es).Pairwise fun a b => compare a.1 b.1 = .lt := by
  induction es with
  | nil => simp [insertEntry]
  | cons d es ih =>
    obtain ⟨hd, hes⟩ := List.pairwise_cons.1 h
    unfold insertEntry
    split
    · next hk =>
      refine List.pairwise_cons.2 ⟨?_, h⟩
      intro e he
      rcases List.mem_cons.1 he with rfl | he
      · exact hk
      · exact Std.TransCmp.lt_trans hk (hd e he)
    · next hk =>
      exact List.pairwise_cons.2 ⟨fun e he => Std.TransCmp.lt_of_eq_of_lt hk (hd e he), hes⟩
    · next hk =>
      refine List.pairwise_cons.2 ⟨?_, ih hes⟩
      intro e he
      rcases mem_insertEntry he with rfl | he
      · exact Std.OrientedCmp.gt_iff_lt.1 hk
      · exact hd e he

/-! ## 2. Tables -/

/-- The value at a key. -/
def get? (t : Table κ ν) (k : κ) : Option ν :=
  lookup k t.entries

/-- The key has a value. -/
def contains (t : Table κ ν) (k : κ) : Bool :=
  (t.get? k).isSome

/-- The table with a value at a key, in place of any former one. -/
def insert [Std.TransOrd κ] (t : Table κ ν) (k : κ) (v : ν) : Table κ ν :=
  ⟨insertEntry k v t.entries, pairwise_insertEntry k v t.sorted⟩

/-- The keys, ascending. -/
def keys (t : Table κ ν) : List κ :=
  t.entries.map (·.1)

/-- The number of keys. -/
def size (t : Table κ ν) : Nat :=
  t.entries.length

/-- The table of a list of entries, where a later entry replaces an earlier
one with the same key. -/
def ofList [Std.TransOrd κ] (es : List (κ × ν)) : Table κ ν :=
  es.foldl (fun t e => t.insert e.1 e.2) ∅

/-! ## 3. Looking up what was put in -/

@[simp] theorem get?_empty (k : κ) : (∅ : Table κ ν).get? k = none := rfl

theorem lookup_insertEntry [Std.TransOrd κ] [Std.LawfulEqOrd κ] (k k' : κ) (v : ν)
    (es : List (κ × ν)) :
    lookup k' (insertEntry k v es) = if compare k' k = .eq then some v else lookup k' es := by
  induction es with
  | nil => simp [insertEntry, lookup]
  | cons d es ih =>
    unfold insertEntry
    split
    · simp [lookup]
    · next hk =>
      have := Std.LawfulEqOrd.eq_of_compare hk
      subst this
      simp only [lookup]
      split <;> simp_all
    · next hk =>
      simp only [lookup, ih]
      by_cases h₁ : compare k' d.1 = .eq
      · have := Std.LawfulEqOrd.eq_of_compare h₁
        subst this
        have h₂ : compare d.1 k ≠ .eq := by
          rw [Std.OrientedCmp.gt_iff_lt.1 hk]
          simp
        simp [h₂]
      · simp [h₁]

/-- The last value put in at a key is the one found there, and other keys keep
what they had. -/
theorem get?_insert [DecidableEq κ] [Std.TransOrd κ] [Std.LawfulEqOrd κ] (t : Table κ ν)
    (k k' : κ) (v : ν) : (t.insert k v).get? k' = if k' = k then some v else t.get? k' := by
  simp [get?, insert, lookup_insertEntry]

/-- A new key makes the table one entry longer. -/
theorem length_insertEntry {k : κ} {es : List (κ × ν)} (h : lookup k es = none) (v : ν) :
    (insertEntry k v es).length = es.length + 1 := by
  induction es with
  | nil => rfl
  | cons d es ih =>
    unfold lookup at h
    unfold insertEntry
    split at h
    · cases h
    · split <;> simp_all

theorem size_insert_of_get?_eq_none [Std.TransOrd κ] {t : Table κ ν} {k : κ}
    (h : t.get? k = none) (v : ν) : (t.insert k v).size = t.size + 1 :=
  length_insertEntry h v

/-- The keys are those at which a value is found. -/
theorem mem_keys [Std.TransOrd κ] [Std.LawfulEqOrd κ] {t : Table κ ν} {k : κ} :
    k ∈ t.keys ↔ t.contains k = true := by
  rw [contains, get?, keys]
  induction t.entries with
  | nil => simp [lookup]
  | cons e es ih =>
    rw [List.map_cons, List.mem_cons, ih, lookup]
    split
    · next hk => simp [Std.LawfulEqOrd.eq_of_compare hk]
    · next hk =>
      have hne : k ≠ e.1 := fun h => hk (Std.LawfulEqOrd.compare_eq_iff_eq.2 h)
      simp [hne]

theorem keys_ascend (t : Table κ ν) : t.keys.Pairwise fun k k' => compare k k' = .lt :=
  List.pairwise_map.2 t.sorted

/-! ## 4. The table of a list -/

theorem eq_of_entries_eq {t u : Table κ ν} (h : t.entries = u.entries) : t = u := by
  cases t
  cases u
  cases h
  rfl

/-- An entry whose key is above all others goes to the end. -/
theorem insertEntry_of_forall_lt [Std.TransOrd κ] {k : κ} {es : List (κ × ν)}
    (h : ∀ e ∈ es, compare e.1 k = .lt) (v : ν) : insertEntry k v es = es ++ [(k, v)] := by
  induction es with
  | nil => rfl
  | cons d es ih =>
    have hd := Std.OrientedCmp.gt_iff_lt.2 (h d List.mem_cons_self)
    rw [insertEntry, hd, List.cons_append, ih fun e he => h e (List.mem_cons_of_mem _ he)]

theorem entries_foldl_insert [Std.TransOrd κ] (t : Table κ ν) {es : List (κ × ν)}
    (h : (t.entries ++ es).Pairwise fun a b => compare a.1 b.1 = .lt) :
    (es.foldl (fun t e => t.insert e.1 e.2) t).entries = t.entries ++ es := by
  induction es generalizing t with
  | nil => simp
  | cons e es ih =>
    have hlast : (t.insert e.1 e.2).entries = t.entries ++ [e] := by
      refine insertEntry_of_forall_lt (fun d hd => ?_) e.2
      exact (List.pairwise_append.1 h).2.2 d hd e List.mem_cons_self
    have hes : (t.insert e.1 e.2).entries ++ es = t.entries ++ e :: es := by
      rw [hlast, List.append_assoc, List.singleton_append]
    rw [List.foldl_cons, ih (t.insert e.1 e.2) (hes ▸ h), hes]

/-- The entries of a table make the table. -/
theorem ofList_entries [Std.TransOrd κ] (t : Table κ ν) : ofList t.entries = t :=
  eq_of_entries_eq (entries_foldl_insert ∅ t.sorted)

/-- The last entry of the list is in the table. -/
theorem mem_entries_ofList_append [Std.TransOrd κ] (es : List (κ × ν)) (k : κ) (v : ν) :
    (k, v) ∈ (ofList (es ++ [(k, v)])).entries := by
  rw [ofList, List.foldl_append]
  exact mem_insertEntry_self k v _

end Table

end Questbook
