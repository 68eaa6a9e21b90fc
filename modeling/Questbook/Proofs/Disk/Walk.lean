/-
Questbook.Proofs.Disk.Walk — one step further on a path.

A path with a file name behind it is walked like the path, and then one step
further (`Folder.walk_append`). The only new thing that can go wrong before that
step is the path as a whole: it may be too long now, or the name may hold a zero
character. Nothing is asked of the first part but that it is not empty; it may be
absolute, lead upwards or hold idle pieces.
-/
import Questbook.Assets
import Questbook.Disk.Folder

namespace Questbook

open Text

namespace Path

theorem pieces_append (cs ds : List Char) : pieces (cs ++ '/' :: ds) = pieces cs ++ pieces ds := by
  induction cs with
  | nil => simp [pieces]
  | cons c cs ih =>
    by_cases hc : c = '/'
    · simp [pieces, hc, ih]
    · cases hcs : pieces cs with
      | nil => exact absurd hcs (pieces_ne_nil cs)
      | cons piece others => simp [pieces, hc, ih, hcs]

theorem pieces_of_not_mem {cs : List Char} (h : '/' ∉ cs) : pieces cs = [cs] := by
  induction cs with
  | nil => rfl
  | cons c cs ih =>
    obtain ⟨hc, hcs⟩ := not_or.1 (mt List.mem_cons.2 h)
    simp [pieces, Ne.symm hc, ih hcs]

/-- What stands before the first slash is part of the first piece. -/
theorem pieces_append_of_not_mem {front cs : List Char} (h : '/' ∉ front) {piece : List Char}
    {others : List (List Char)} (hcs : pieces cs = piece :: others) :
    pieces (front ++ cs) = (front ++ piece) :: others := by
  induction front with
  | nil => exact hcs
  | cons c front ih =>
    obtain ⟨hc, hfront⟩ := not_or.1 (mt List.mem_cons.2 h)
    simp [pieces, Ne.symm hc, ih hfront]

/-- A text with more behind its last slash has more in its last piece. -/
theorem exists_pieces_append (cs : List Char) {ds : List Char} (h : '/' ∉ ds) :
    ∃ front last, pieces cs = front ++ [last] ∧ pieces (cs ++ ds) = front ++ [last ++ ds] := by
  induction cs with
  | nil => exact ⟨[], [], rfl, pieces_of_not_mem h⟩
  | cons c cs ih =>
    obtain ⟨front, last, hcs, hboth⟩ := ih
    by_cases hc : c = '/'
    · refine ⟨[] :: front, last, ?_, ?_⟩
      · simp [pieces, hc, hcs]
      · simp [pieces, hc, hboth]
    · cases front with
      | nil =>
        refine ⟨[], c :: last, ?_, ?_⟩
        · simp [pieces, hc, hcs]
        · simp [pieces, hc, hboth]
      | cons piece front =>
        refine ⟨(c :: piece) :: front, last, ?_, ?_⟩
        · simp [pieces, hc, hcs]
        · simp [pieces, hc, hboth]

/-- Whether a path is absolute is told from its first character. -/
theorem isAbsolute_append {path : String} (h : path ≠ "") (rest : String) :
    isAbsolute (path ++ rest) = isAbsolute path := by
  rw [isAbsolute, isAbsolute]
  cases hpath : path.toList with
  | nil => exact absurd (String.toList_inj.1 (hpath.trans rfl)) h
  | cons c cs => simp [hpath]

/-- A piece of more than two characters is a name. -/
theorem isIdle_eq_false {piece : List Char} (h : 2 < piece.length) : isIdle piece = false := by
  rw [isIdle, Bool.or_eq_false_iff, beq_eq_false_iff_ne, beq_eq_false_iff_ne]
  constructor
  · rintro rfl
    simp at h
  · rintro rfl
    simp at h

theorem ne_dots {piece : List Char} (h : 2 < piece.length) : piece ≠ ['.', '.'] := by
  rintro rfl
  simp at h

/-- What is below a folder is joined below it. -/
theorem join_append {base folder : String} (h : isAbsolute folder = false) (hne : folder ≠ "")
    (path : String) : join base (folder ++ "/" ++ path) = join base folder ++ "/" ++ path := by
  have hhead : isAbsolute (folder ++ "/" ++ path) = false := by
    rw [String.append_assoc, isAbsolute_append hne, h]
  simp only [join, hhead, h, Bool.false_eq_true, if_false]
  split <;> simp only [String.append_assoc]

/-- A name that is joined to a folder is the last piece. -/
theorem exists_pieces_join (base : String) {name : String} (h : '/' ∉ name.toList) :
    ∃ front, pieces (join base name).toList = front ++ [name.toList] := by
  have hname : isAbsolute name = false := by
    rw [isAbsolute, beq_eq_false_iff_ne]
    intro hhead
    exact h (List.mem_of_head? hhead)
  simp only [join, hname, Bool.false_eq_true, if_false, Bool.or_eq_true, beq_iff_eq]
  split
  · next hbase =>
    rcases hbase with hempty | hlast
    · refine ⟨[], ?_⟩
      rw [String.isEmpty_iff.1 hempty, String.empty_append, pieces_of_not_mem h]
      rfl
    · obtain ⟨front, hfront⟩ := List.getLast?_eq_some_iff.1 hlast
      refine ⟨pieces front, ?_⟩
      rw [String.toList_append, hfront, List.append_assoc, List.singleton_append, pieces_append,
        pieces_of_not_mem h]
  · refine ⟨pieces base.toList, ?_⟩
    have hlist : (base ++ "/" ++ name).toList = base.toList ++ '/' :: name.toList := by simp
    rw [hlist, pieces_append, pieces_of_not_mem h]

/-- A name with an extension is its stem, a dot and the extension. -/
theorem eq_of_splitExtension {name stem extension : String}
    (h : splitExtension name = (stem, some extension)) : name = stem ++ "." ++ extension := by
  simp only [splitExtension] at h
  have happend := List.takeWhile_append_dropWhile (p := (· != '.')) (l := name.toList.reverse)
  split at h
  · next c cs hdrop =>
    rw [hdrop] at happend
    obtain ⟨hstem, hextension⟩ := Prod.mk.inj h
    have hname := congrArg List.reverse happend
    rw [List.reverse_reverse] at hname
    rw [← hstem, ← Option.some.inj hextension, ← String.toList_inj]
    simpa using hname.symm
  · cases (Prod.mk.inj h).2

end Path

namespace Folder

variable {f : Folder}

/-- What a path that leads to a place is like, and how it leads there. -/
theorem walk_eq_ok {path : String} {here : Place} (h : f.walk path = .ok here) :
    path.toList ≠ [] ∧ '\x00' ∉ path.toList ∧ size path.toList ≤ longestPath ∧
      (Path.pieces path.toList).foldlM f.step
        (if Path.isAbsolute path then .outside else .inside []) = .ok here := by
  simp only [walk] at h
  split at h
  · cases h
  · next hne =>
    split at h
    · cases h
    · next hzero =>
      split at h
      · cases h
      · next hshort =>
        exact ⟨hne, mt List.contains_iff_mem.2 hzero, Nat.not_lt.1 hshort, h⟩

/-- **One step further.** -/
theorem walk_append {path : String} {here : Place} (h : f.walk path = .ok here) {name : String}
    (hslash : '/' ∉ name.toList) :
    f.walk (path ++ "/" ++ name) =
      if '\x00' ∈ name.toList then .error .zeroCharacter
      else if longestPath < size (path ++ "/" ++ name).toList then .error .tooLong
      else f.step here name.toList := by
  obtain ⟨hne, hzero, -, hwalk⟩ := walk_eq_ok h
  have hlist : (path ++ "/" ++ name).toList = path.toList ++ '/' :: name.toList := by simp
  have hstart : Path.isAbsolute (path ++ "/" ++ name) = Path.isAbsolute path := by
    rw [String.append_assoc]
    refine Path.isAbsolute_append ?_ _
    rintro rfl
    exact hne rfl
  have hpieces : (Path.pieces (path ++ "/" ++ name).toList).foldlM f.step
      (if Path.isAbsolute path then .outside else .inside []) = f.step here name.toList := by
    rw [hlist, Path.pieces_append, Path.pieces_of_not_mem hslash, List.foldlM_append, hwalk]
    show (f.step here name.toList >>= pure) = _
    exact bind_pure _
  have hcut : '\x00' ∈ (path ++ "/" ++ name).toList ↔ '\x00' ∈ name.toList := by
    simp [hlist, hzero]
  have hnil : (path ++ "/" ++ name).toList ≠ [] := by simp [hlist]
  simp only [walk, hnil, if_false, hstart, hpieces, List.contains_iff_mem, hcut]

end Folder

end Questbook
