/-
Questbook.Proofs.Disk.Confinement — where a request looks.

A name is put into the path of its quest as it is, slashes and dots included. So the
path can lead up, out of the folder of quests and out of the root as well, and whatever
file it leads to is read (`lookup_not_below`). When this happens is told by the name
alone, read as a way: it happens unless the name comes back down through the folders
that it leads up from (`lookup_below_iff`). A name without a piece `..` does not lead up.

Two things have to be seen for this. The name is made small before it is put into the path,
and that may change its letters, but neither its slashes nor its dots
(`Path.sameDots_lowerFrom`). And the text of a path says where the path leads: a folder is
walked piece by piece just as the way is read, as long as the walk stays in the folder
(`Folder.way_of_walk`).
-/
import Questbook.Proofs.Disk.Listing
import Questbook.Proofs.Path.Way

namespace Questbook

open Text

/-! ## 1. Names in small letters -/

namespace Path

/-- The two pieces are the same row of dots, or neither is a row of dots. -/
def SameDots (piece small : List Char) : Prop :=
  ∀ count, piece = List.replicate count '.' ↔ small = List.replicate count '.'

theorem SameDots.dot {piece small : List Char} (h : SameDots piece small) :
    SameDots ('.' :: piece) ('.' :: small) := by
  intro count
  cases count with
  | zero => simp
  | succ count => simpa [List.replicate_succ] using h count

theorem sameDots_of_ne {c d : Char} (hc : c ≠ '.') (hd : d ≠ '.') (piece small : List Char) :
    SameDots (c :: piece) (d :: small) := by
  intro count
  cases count with
  | zero => simp
  | succ count => simp [List.replicate_succ, hc, hd]

/-- Making a text small leaves its slashes where they are, and rows of dots between them. -/
theorem sameDots_lowerFrom (before cs : List Char) :
    List.Forall₂ SameDots (pieces cs) (pieces (Unicode.lowerFrom before cs)) := by
  induction cs generalizing before with
  | nil => exact .cons (fun count => Iff.rfl) .nil
  | cons c cs ih =>
    by_cases hslash : c = '/'
    · subst hslash
      rw [Unicode.lowerFrom_cons_of_lt (by decide)]
      simp only [pieces, if_true]
      exact .cons (fun count => Iff.rfl) (ih _)
    · obtain ⟨piece, others, hpieces⟩ := List.exists_cons_of_ne_nil (pieces_ne_nil cs)
      obtain ⟨small, smalls, hsmalls⟩ :=
        List.exists_cons_of_ne_nil (pieces_ne_nil (Unicode.lowerFrom (c :: before) cs))
      have hothers := ih (c :: before)
      rw [hpieces, hsmalls] at hothers
      obtain ⟨hsame, hothers⟩ := List.forall₂_cons.1 hothers
      have hwhole : pieces (c :: cs) = (c :: piece) :: others := by
        simp [pieces, hslash, hpieces]
      by_cases hdot : c = '.'
      · subst hdot
        rw [Unicode.lowerFrom_cons_of_lt (by decide), hwhole]
        have hsmall : pieces ('.' :: Unicode.lowerFrom ('.' :: before) cs) =
            ('.' :: small) :: smalls := by
          simp [pieces, hsmalls]
        rw [hsmall]
        exact .cons hsame.dot hothers
      · obtain ⟨block, hblock, hne, hmem⟩ := Unicode.exists_lowerFrom_cons before cs c
        have hfree : ∀ d ∈ block, d ≠ '/' ∧ d ≠ '.' := by
          intro d hd
          rcases hmem d hd with rfl | hle
          · exact ⟨hslash, hdot⟩
          · constructor <;> (rintro rfl; exact absurd hle (by decide))
        have hblockSlash : '/' ∉ block := fun hd => (hfree _ hd).1 rfl
        rw [hblock, hwhole, pieces_append_of_not_mem hblockSlash hsmalls]
        obtain ⟨d, ds, rfl⟩ := List.exists_cons_of_ne_nil hne
        exact .cons (sameDots_of_ne hdot (hfree d List.mem_cons_self).2 _ _) hothers

/-- Making a text small brings in no piece that leads up. -/
theorem dots_mem_of_sameDots {whole small : List (List Char)}
    (h : List.Forall₂ SameDots whole small) (hmem : ['.', '.'] ∈ small) :
    ['.', '.'] ∈ whole := by
  induction h with
  | nil => cases hmem
  | cons hsame _ ih =>
    rcases List.mem_cons.1 hmem with heq | hmem
    · rw [(hsame 2).2 heq.symm]
      exact List.mem_cons_self
    · exact List.mem_cons_of_mem _ (ih hmem)

end Path

/-! ## 2. The folder of quests and what is behind it -/

/-- The innermost folder on the way to the quests is the one of that name. -/
theorem exists_names_questFolder (root : String) :
    ∃ above, (Path.way (Path.join root questFolder)).names = questFolder.toList :: above := by
  have hplain : '/' ∉ questFolder.toList := by decide
  obtain ⟨front, hfront⟩ := Path.exists_pieces_join root hplain
  rw [Path.way, hfront]
  exact Path.Way.names_follow_concat _ _ _ (by decide)

/-- The last step behind the folder of quests goes down to a file name. -/
theorem exists_names_sourceName (name : String) :
    ∃ last above,
      (Path.wayBehind (sourceName name)).names = (last ++ ['.', 'q', 's', 't']) :: above := by
  have hplain : '/' ∉ ['.', 'q', 's', 't'] := by decide
  obtain ⟨front, last, -, hpieces⟩ := Path.exists_pieces_append name.toList hplain
  have hlong : 2 < (last ++ ['.', 'q', 's', 't']).length := by simp
  obtain ⟨above, habove⟩ := Path.Way.names_follow_concat false {} front hlong
  refine ⟨last, above, ?_⟩
  rw [Path.wayBehind, toList_sourceName, hpieces, habove]

/-- The path of a quest does not end in the folder of quests. -/
theorem names_sourceName_ne (root name : String) (count : Nat) :
    (Path.wayBehind (sourceName name)).names ≠
      (Path.way (Path.join root questFolder)).names.take count := by
  obtain ⟨above, hfolder⟩ := exists_names_questFolder root
  obtain ⟨last, behind, hname⟩ := exists_names_sourceName name
  rw [hfolder, hname]
  intro heq
  cases count with
  | zero => cases heq
  | succ count =>
    obtain ⟨hhead, -⟩ := List.cons.inj heq
    have hlast := congrArg List.getLast? hhead
    rw [List.getLast?_append] at hlast
    have hletter : some 't' = questFolder.toList.getLast? := hlast
    exact absurd hletter (by decide)

/-- Where no piece of a name leads up, nothing on the way behind the folder does. -/
theorem ups_sourceName_lower {name : String} (h : ['.', '.'] ∉ Path.pieces name.toList) :
    (Path.wayBehind (sourceName (Unicode.lower name))).ups = 0 := by
  have hplain : '/' ∉ ['.', 'q', 's', 't'] := by decide
  obtain ⟨front, last, hname, hpieces⟩ :=
    Path.exists_pieces_append (Unicode.lower name).toList hplain
  have hlower : ['.', '.'] ∉ Path.pieces (Unicode.lower name).toList := by
    rw [Unicode.lower, String.toList_ofList]
    exact mt (Path.dots_mem_of_sameDots (Path.sameDots_lowerFrom [] name.toList)) h
  refine Path.Way.ups_follow {} ?_
  rw [toList_sourceName, hpieces]
  intro hmem
  rcases List.mem_append.1 hmem with hmem | hmem
  · rw [hname] at hlower
    exact hlower (List.mem_append_left _ hmem)
  · have hlength := congrArg List.length (List.mem_singleton.1 hmem)
    simp at hlength

/-! ## 3. Walking -/

namespace Folder

variable {f : Folder}

/-- From above the folder no step leads into it. -/
theorem outside_of_step {piece : List Char} {here : Place}
    (h : f.step .outside piece = .ok here) : here = .outside := by
  unfold step at h
  split at h
  · cases h
  · split at h
    · cases h
      rfl
    · split at h
      · cases h
        rfl
      · split at h
        · cases h
        · cases h

/-- A step between two places inside is the step of the way. -/
theorem step_inside {names names' : List String} {piece : List Char}
    (h : f.step (.inside names) piece = .ok (.inside names')) :
    Path.Way.step false ⟨0, names.map String.toList⟩ piece = ⟨0, names'.map String.toList⟩ := by
  unfold step at h
  split at h
  · cases h
  · split at h
    · next hidle =>
      cases h
      rw [Path.Way.step, if_pos hidle]
    · next hidle =>
      split at h
      · next hdots =>
        cases names with
        | nil => cases h
        | cons name names =>
          cases h
          rw [Path.Way.step, if_neg hidle, if_pos hdots]
          rfl
      · next hdots =>
        split at h
        · cases h
        · simp only at h
          split at h
          · cases h
            rw [Path.Way.step, if_neg hidle, if_neg hdots, List.map_cons, String.toList_ofList]
          · cases h

theorem walk_inside {pieces : List (List Char)} {here : Place} {names' : List String}
    (h : pieces.foldlM f.step here = .ok (.inside names')) :
    ∃ names, here = .inside names ∧
      Path.Way.follow false ⟨0, names.map String.toList⟩ pieces =
        ⟨0, names'.map String.toList⟩ := by
  induction pieces generalizing here with
  | nil =>
    cases h
    exact ⟨names', rfl, rfl⟩
  | cons piece pieces ih =>
    rw [List.foldlM_cons] at h
    cases hstep : f.step here piece with
    | error e =>
      rw [hstep] at h
      cases h
    | ok next =>
      rw [hstep] at h
      obtain ⟨names, rfl, hfollow⟩ := ih h
      cases here with
      | outside =>
        cases outside_of_step hstep
      | inside above =>
        refine ⟨above, rfl, ?_⟩
        rw [Path.Way.follow, List.foldl_cons, step_inside hstep]
        exact hfollow

/-- **A folder is walked as the text says.** -/
theorem way_of_walk {path : String} {place : List String}
    (h : f.walk path = .ok (.inside place)) :
    Path.isAbsolute path = false ∧ Path.way path = ⟨0, place.map String.toList⟩ := by
  obtain ⟨-, -, -, hwalk⟩ := walk_eq_ok h
  obtain ⟨names, hstart, hfollow⟩ := walk_inside hwalk
  cases habsolute : Path.isAbsolute path with
  | true =>
    rw [habsolute] at hstart
    cases hstart
  | false =>
    rw [habsolute] at hstart
    cases hstart
    refine ⟨rfl, ?_⟩
    rw [Path.way, habsolute]
    exact hfollow

/-- The names lead to a place below the folder at a path, at any depth. -/
def LiesBelow (place : List String) (folder : String) : Prop :=
  ∃ names above, names ≠ [] ∧ place = names ++ above ∧
    Path.isAbsolute folder = false ∧ Path.way folder = ⟨0, above.map String.toList⟩

/-- What is found at a path lies below a folder if the texts of the paths say so. -/
theorem liesBelow_iff {path folder : String} {place : List String}
    (hwalk : f.walk path = .ok (.inside place)) :
    LiesBelow place folder ↔ Path.IsBelow path folder := by
  obtain ⟨habsolute, hway⟩ := way_of_walk hwalk
  rw [Path.IsBelow, habsolute, hway]
  constructor
  · rintro ⟨names, above, hne, rfl, hfolder, hplace⟩
    rw [hplace, List.map_append]
    refine ⟨hfolder.symm, rfl, List.suffix_append _ _, ?_⟩
    intro heq
    exact hne (List.map_eq_nil_iff.1 (List.append_left_eq_self.1 heq))
  · rintro ⟨hfolder, hups, ⟨front, hfront⟩, hne⟩
    obtain ⟨names, above, rfl, rfl, hnames⟩ := List.map_eq_append_iff.1 hfront.symm
    refine ⟨names, above, ?_, rfl, hfolder.symm, ?_⟩
    · rintro rfl
      exact hne hfront.symm
    · have hups' : (Path.way folder).ups = 0 := hups.symm
      rw [hnames, ← hups']

/-- A text that is read is that of a file. -/
theorem file_of_read {path text : String} (h : f.read path = .found text) :
    ∃ place content, f.walk path = .ok (.inside place) ∧
      f.item? place = some (.file content) ∧ String.fromUTF8? content = some text := by
  unfold read at h
  split at h
  · cases h
  · cases h
  · cases h
  · next place hwalk =>
    split at h
    · next content hitem =>
      split at h
      · next text' htext =>
        cases h
        exact ⟨place, content, hwalk, hitem, htext⟩
      · cases h
    · cases h

end Folder

/-! ## 4. Main statement -/

/-- The path of a quest leads up from the folder of quests, if at all, only to come down
again to it. -/
def ComesBack (root name : String) : Prop :=
  (Path.way (Path.join root questFolder)).Returns (Path.isAbsolute (Path.join root questFolder))
    (Path.wayBehind (sourceName (Unicode.lower name)))

theorem isBelow_assetPath_iff (root name : String) :
    Path.IsBelow (Path.join root (assetPath name)) (Path.join root questFolder) ↔
      ComesBack root name := by
  have hne : Path.join root questFolder ≠ "" := by
    intro hempty
    obtain ⟨above, habove⟩ := exists_names_questFolder root
    rw [hempty] at habove
    cases habove
  rw [assetPath_eq, Path.join_append rfl (by decide), Path.isBelow_append_iff hne]
  exact and_iff_left (names_sourceName_ne root _ _)

theorem lookups_request_eq (cache : Cache) (answers : Answers) (name : String) :
    (cache.perform answers (.request name)).lookups =
      if cache.contains name then [] else [assetPath name] := by
  cases hin : cache.get? name with
  | some cached =>
    rw [Cache.perform_of_get? rfl hin, Cache.contains, hin]
    rfl
  | none =>
    rw [Cache.perform, Cache.run_request_of_get?_eq_none hin, Cache.contains, hin]
    rfl

/-- **Where a request looks.** A request looks up nothing or the path of its quest. That
path is below the folder of quests, by its text, if and only if it comes back to this
folder from wherever it leads up; so it is, if no piece of the name leads up. And what is read
there is a file, which lies below the folder of quests if and only if the path comes back. -/
theorem lookup_below_iff (root name : String) :
    (∀ (cache : Cache) (answers : Answers), (cache.perform answers (.request name)).lookups =
      if cache.contains name then [] else [assetPath name]) ∧
    (Path.IsBelow (Path.join root (assetPath name)) (Path.join root questFolder) ↔
      ComesBack root name) ∧
    (['.', '.'] ∉ Path.pieces name.toList → ComesBack root name) ∧
    ∀ (f : Folder) (text : String), f.toDisk.assets root (assetPath name) = .found text →
      ∃ place content, f.item? place = some (.file content) ∧
        String.fromUTF8? content = some text ∧
        (Folder.LiesBelow place (Path.join root questFolder) ↔ ComesBack root name) := by
  refine ⟨fun cache answers => lookups_request_eq cache answers name,
    isBelow_assetPath_iff root name, ?_, ?_⟩
  · intro hdots
    exact Path.Way.Returns.of_ups_eq_zero _ _ (ups_sourceName_lower hdots)
  · intro f text hread
    rw [Folder.assets_toDisk] at hread
    obtain ⟨place, content, hwalk, hitem, htext⟩ := Folder.file_of_read hread
    refine ⟨place, content, hitem, htext, ?_⟩
    rw [Folder.liesBelow_iff hwalk, isBelow_assetPath_iff]

/-- A folder of quests with a folder in it, and a quest above all of this. -/
def coveFolder : Folder :=
  ⟨[(["cove.qst"], .file "title : Cove\n".toUTF8), (["assets"], .folder),
    (["quests", "assets"], .folder), (["isles", "quests", "assets"], .folder),
    (["tides.qst", "isles", "quests", "assets"], .file "title : Tides\n".toUTF8)]⟩

theorem lookup_below_isles :
    ['.', '.'] ∉ Path.pieces "/Isles/./Tides".toList ∧
      Path.IsBelow (Path.join "assets" (assetPath "/Isles/./Tides"))
        (Path.join "assets" questFolder) ∧
      @Eq Lookup (coveFolder.toDisk.assets "assets" (assetPath "/Isles/./Tides"))
        (.found "title : Tides\n") ∧
      ∃ place content, coveFolder.item? place = some (.file content) ∧
        String.fromUTF8? content = some "title : Tides\n" ∧
        Folder.LiesBelow place (Path.join "assets" questFolder) := by
  have hdots : ['.', '.'] ∉ Path.pieces "/Isles/./Tides".toList := by decide
  have hread : @Eq Lookup (coveFolder.toDisk.assets "assets" (assetPath "/Isles/./Tides"))
      (.found "title : Tides\n") := by
    decide +kernel
  obtain ⟨-, hbelow, hback, hfile⟩ := lookup_below_iff "assets" "/Isles/./Tides"
  obtain ⟨place, content, hitem, htext, hplace⟩ := hfile coveFolder _ hread
  exact ⟨hdots, hbelow.2 (hback hdots), hread, place, content, hitem, htext,
    hplace.2 (hback hdots)⟩

/-- A name with enough steps up leads out of the folder of quests and out of the root,
and what is there is read and handed out. -/
theorem lookup_not_below :
    ¬ Path.IsBelow (Path.join "assets" (assetPath "../../Cove")) (Path.join "assets" questFolder) ∧
      coveFolder.walk (Path.join "assets" (assetPath "../../Cove")) = .ok (.inside ["cove.qst"]) ∧
      (Cache.request (m := Id) (coveFolder.toDisk.assets "assets") {} "../../Cove").result.map
        Cached.quest = .ok { title := "Cove" } := by
  refine ⟨by decide +kernel, by decide +kernel, ?_⟩
  decide +kernel

end Questbook
