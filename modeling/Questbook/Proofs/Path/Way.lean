/-
Questbook.Proofs.Path.Way — where a path leads, by its text alone.

A path is read piece by piece. A name leads down, `..` leads back up, and the pieces that
name nothing lead nowhere. What comes of it is a *way*: so many steps up from where the
path starts, and from there down through folders (`Path.way`). At the root of all folders
there is nothing above, so for a path that starts there a step up is lost.

Ways are put together like paths. What stands behind a folder can be read on its own, and
then its steps up take back as many steps down of the folder (`Way.follow_eq`). So whether
a path is below the folder that it starts with is told from the two ways: it has to come
down again through the folders that it went up from (`isBelow_append_iff`).
-/
import Questbook.Proofs.Disk.Walk

namespace Questbook.Path

/-! ## 1. Ways -/

/-- So many steps up, and then down to these names, the innermost first. -/
structure Way where
  ups : Nat := 0
  names : List (List Char) := []
deriving DecidableEq, Repr

namespace Way

/-- One piece further. A rooted way is at the root before its first step down. -/
def step (rooted : Bool) (way : Way) (piece : List Char) : Way :=
  if isIdle piece then way
  else if piece = ['.', '.'] then
    match way.names with
    | _ :: names => { way with names }
    | [] => if rooted then way else { way with ups := way.ups + 1 }
  else { way with names := piece :: way.names }

/-- The pieces one after the other. -/
def follow (rooted : Bool) (way : Way) (pieces : List (List Char)) : Way :=
  pieces.foldl (step rooted) way

/-- One way behind another. The steps up of the second take back steps down of the first,
the innermost first, and then lead further up. -/
def andThen (rooted : Bool) (way behind : Way) : Way where
  ups := if rooted then way.ups else way.ups + (behind.ups - way.names.length)
  names := behind.names ++ way.names.drop behind.ups

theorem andThen_step (rooted : Bool) (way behind : Way) (piece : List Char) :
    way.andThen rooted (behind.step false piece) =
      (way.andThen rooted behind).step rooted piece := by
  unfold step
  split
  · rfl
  · split
    · -- A step up takes back a step down, of the second way if it has one.
      cases hbehind : behind.names with
      | cons name names => simp [andThen, hbehind]
      | nil =>
        cases hdrop : way.names.drop behind.ups with
        | cons name names =>
          have hlength := congrArg List.length hdrop
          rw [List.length_drop, List.length_cons] at hlength
          have hnames : way.names.drop (behind.ups + 1) = names := by
            rw [← List.tail_drop, hdrop, List.tail_cons]
          have hups : behind.ups + 1 - way.names.length = behind.ups - way.names.length := by
            omega
          simp [andThen, hbehind, hdrop, hnames, hups]
        | nil =>
          have hlength := List.drop_eq_nil_iff.1 hdrop
          have hnames : way.names.drop (behind.ups + 1) = [] := by
            rw [← List.tail_drop, hdrop, List.tail_nil]
          have hups : behind.ups + 1 - way.names.length =
              behind.ups - way.names.length + 1 := by
            omega
          cases rooted with
          | true => simp [andThen, hbehind, hdrop, hnames]
          | false => simp [andThen, hbehind, hdrop, hnames, hups, Nat.add_assoc]
    · simp [andThen]

theorem andThen_follow (rooted : Bool) (way behind : Way) (pieces : List (List Char)) :
    way.andThen rooted (behind.follow false pieces) =
      (way.andThen rooted behind).follow rooted pieces := by
  induction pieces generalizing behind with
  | nil => rfl
  | cons piece pieces ih =>
    rw [follow, follow, List.foldl_cons, List.foldl_cons, ← andThen_step]
    exact ih (behind.step false piece)

theorem andThen_start (rooted : Bool) (way : Way) : way.andThen rooted {} = way := by
  cases rooted <;> simp [andThen]

/-- **What stands behind can be read on its own.** -/
theorem follow_eq (rooted : Bool) (way : Way) (pieces : List (List Char)) :
    way.follow rooted pieces = way.andThen rooted (follow false {} pieces) := by
  rw [andThen_follow, andThen_start]

/-- Where no piece leads up, no step up is added. -/
theorem ups_follow (way : Way) {pieces : List (List Char)} (h : ['.', '.'] ∉ pieces) :
    (way.follow false pieces).ups = way.ups := by
  induction pieces generalizing way with
  | nil => rfl
  | cons piece pieces ih =>
    obtain ⟨hpiece, hpieces⟩ := not_or.1 (mt List.mem_cons.2 h)
    have hups : (way.step false piece).ups = way.ups := by
      rw [step, if_neg (Ne.symm hpiece)]
      split <;> rfl
    rw [follow, List.foldl_cons, ← hups]
    exact ih (way.step false piece) hpieces

/-- A piece of more than two characters is a name. -/
theorem step_of_length (rooted : Bool) (way : Way) {piece : List Char} (h : 2 < piece.length) :
    way.step rooted piece = { way with names := piece :: way.names } := by
  rw [step, isIdle_eq_false h, if_neg Bool.false_ne_true, if_neg (ne_dots h)]

/-- A way that ends with a long piece ends there. -/
theorem names_follow_concat (rooted : Bool) (way : Way) (front : List (List Char))
    {last : List Char} (h : 2 < last.length) :
    ∃ above, (way.follow rooted (front ++ [last])).names = last :: above := by
  rw [follow, List.foldl_append, List.foldl_cons, List.foldl_nil, step_of_length _ _ h]
  exact ⟨_, rfl⟩

/-- What is behind a way leads up, if at all, only through folders that it comes down
again. -/
structure Returns (rooted : Bool) (way behind : Way) : Prop where
  /-- It does not lead higher than the way has come down. -/
  ups_le : rooted = true ∨ behind.ups ≤ way.names.length
  comes_down : way.names.take behind.ups <:+ behind.names

theorem Returns.of_ups_eq_zero (rooted : Bool) (way : Way) {behind : Way} (h : behind.ups = 0) :
    way.Returns rooted behind := by
  refine ⟨.inr ?_, ?_⟩
  · rw [h]
    exact Nat.zero_le _
  · rw [h, List.take_zero]
    exact List.nil_suffix

/-- The way does not lead above where it came down from. -/
theorem ups_andThen_eq_iff {rooted : Bool} {way behind : Way} :
    (way.andThen rooted behind).ups = way.ups ↔
      rooted = true ∨ behind.ups ≤ way.names.length := by
  cases rooted with
  | true => simp [andThen]
  | false =>
    simp only [andThen, Bool.false_eq_true, if_false, false_or]
    omega

end Way

/-- The way that the pieces of a text describe, from wherever it is started. -/
def wayBehind (path : String) : Way :=
  Way.follow false {} (pieces path.toList)

/-- The way of a path. -/
def way (path : String) : Way :=
  Way.follow (isAbsolute path) {} (pieces path.toList)

/-- A path leads to a place below a folder, at any depth, by what the two texts say. -/
def IsBelow (path folder : String) : Prop :=
  isAbsolute path = isAbsolute folder ∧ (way path).ups = (way folder).ups ∧
    (way folder).names <:+ (way path).names ∧ (way path).names ≠ (way folder).names

instance (path folder : String) : Decidable (IsBelow path folder) :=
  inferInstanceAs (Decidable (_ ∧ _))

/-! ## 2. Behind a folder -/

/-- A path behind a folder leads on from where the folder is. -/
theorem way_append {folder : String} (h : folder ≠ "") (path : String) :
    way (folder ++ "/" ++ path) =
      (way folder).andThen (isAbsolute folder) (wayBehind path) := by
  have hpieces : pieces (folder ++ "/" ++ path).toList =
      pieces folder.toList ++ pieces path.toList := by
    rw [← pieces_append]
    simp
  have hstart : isAbsolute (folder ++ "/" ++ path) = isAbsolute folder := by
    rw [String.append_assoc, isAbsolute_append h]
  rw [way, hstart, hpieces, Way.follow, List.foldl_append]
  exact Way.follow_eq _ _ _

/-- **What stands behind a folder is below it** if it comes back from every folder that it
leads up from, and does not end in the folder itself. -/
theorem isBelow_append_iff {folder : String} (h : folder ≠ "") (path : String) :
    IsBelow (folder ++ "/" ++ path) folder ↔
      (way folder).Returns (isAbsolute folder) (wayBehind path) ∧
        (wayBehind path).names ≠ (way folder).names.take (wayBehind path).ups := by
  have hstart : isAbsolute (folder ++ "/" ++ path) = isAbsolute folder := by
    rw [String.append_assoc, isAbsolute_append h]
  -- Both lists of names end with what is not taken back.
  obtain ⟨taken, kept, htaken, hkept⟩ : ∃ taken kept,
      taken = (way folder).names.take (wayBehind path).ups ∧
      kept = (way folder).names.drop (wayBehind path).ups := ⟨_, _, rfl, rfl⟩
  have hfolder : (way folder).names = taken ++ kept := by
    rw [htaken, hkept, List.take_append_drop]
  have hnames : (way (folder ++ "/" ++ path)).names = (wayBehind path).names ++ kept := by
    rw [way_append h, hkept]
    rfl
  have hups : (way (folder ++ "/" ++ path)).ups = (way folder).ups ↔
      isAbsolute folder = true ∨ (wayBehind path).ups ≤ (way folder).names.length := by
    rw [way_append h, Way.ups_andThen_eq_iff]
  have hdown : (way folder).names <:+ (way (folder ++ "/" ++ path)).names ↔
      taken <:+ (wayBehind path).names := by
    rw [hfolder, hnames, List.suffix_append_self_iff]
  have hne : (way (folder ++ "/" ++ path)).names ≠ (way folder).names ↔
      (wayBehind path).names ≠ taken := by
    rw [hfolder, hnames, ne_eq, List.append_cancel_right_eq]
  rw [IsBelow, hups, hdown, hne, ← htaken]
  constructor
  · rintro ⟨-, hle, hsuffix, hother⟩
    exact ⟨⟨hle, htaken ▸ hsuffix⟩, hother⟩
  · rintro ⟨⟨hle, hsuffix⟩, hother⟩
    exact ⟨hstart, hle, htaken ▸ hsuffix, hother⟩

end Questbook.Path
