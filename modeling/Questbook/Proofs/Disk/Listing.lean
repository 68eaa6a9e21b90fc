/-
Questbook.Proofs.Disk.Listing — which of the listed quests can be read.

A listing takes the names in the folder of quests that have the extension, and
cuts it off. A request makes the name small and puts the extension on. So the way
there and back leads to the listed thing just for names in small letters, and what
it leads to has to be a file: a folder with such a name is listed like a file. The
main statement, `Folder.listed_resolve_iff`, says that nothing else can be in the
way but a path that is too long for the file system.

The other direction is the more telling one. A listed name with a capital is looked
for under another name, where there is nothing, or the source of another quest;
and then the two listed quests share one place in a cache
(`Folder.listed_not_resolved`).
-/
import Questbook.Proofs.Cache.Transparency
import Questbook.Proofs.Disk.Walk
import Questbook.Proofs.Unicode.LowerCase

namespace Questbook

open Text

/-- A name that a thing in a folder can have. -/
structure IsFileName (name : String) : Prop where
  not_idle : Path.isIdle name.toList = false
  ne_dots : name ≠ ".."
  slash : '/' ∉ name.toList
  zero : '\x00' ∉ name.toList
  size_le : size name.toList ≤ Folder.longestName

/-- The file name of the source of a quest. -/
def sourceName (name : String) : String := name ++ "." ++ questExtension

theorem assetPath_eq (name : String) :
    assetPath name = questFolder ++ "/" ++ sourceName (Unicode.lower name) := by
  simp only [assetPath, sourceName, String.append_assoc]

theorem toList_sourceName (name : String) :
    (sourceName name).toList = name.toList ++ ['.', 'q', 's', 't'] := by
  simp [sourceName, questExtension]

theorem sourceName_inj {name name' : String} (h : sourceName name = sourceName name') :
    name = name' := by
  have hlist := congrArg String.toList h
  rw [toList_sourceName, toList_sourceName] at hlist
  exact String.toList_inj.1 (List.append_cancel_right hlist)

/-- Making a name small brings no slash into the path. -/
theorem not_mem_sourceName_lower {name : String} (h : '/' ∉ (sourceName name).toList) :
    '/' ∉ (sourceName (Unicode.lower name)).toList := by
  rw [toList_sourceName] at h ⊢
  intro hmem
  rcases List.mem_append.1 hmem with hmem | hmem
  · exact h (List.mem_append_left _ (Unicode.mem_of_mem_lower hmem (by decide)))
  · exact absurd hmem (by decide)

namespace Folder

/-- All things in the folder have names that a file system allows. -/
def WellNamed (f : Folder) : Prop :=
  ∀ e ∈ f.items, ∀ name ∈ e.1, IsFileName name

/-- A file is listed under the name. -/
def ListsFile (f : Folder) (root name : String) : Prop :=
  ∃ above content, f.walk (Path.join root questFolder) = .ok (.inside above) ∧
    f.item? (sourceName name :: above) = some (.file content)

/-- A request for the name on a new cache reads the very file that is listed under
it: the path leads to that file, and its content decides the answer. -/
def Resolves (f : Folder) (root name : String) : Prop :=
  ∃ above content, f.walk (Path.join root questFolder) = .ok (.inside above) ∧
    f.item? (sourceName name :: above) = some (.file content) ∧
    f.walk (Path.join root (assetPath name)) = .ok (.inside (sourceName name :: above)) ∧
    (Cache.request (m := Id) (f.toDisk.assets root) {} name).result.map Cached.quest =
      match String.fromUTF8? content with
      | some text => (Quest.parse text).mapError (.malformed name)
      | none => .error (.unreadable (assetPath name))

variable {f : Folder} {root : String} {names : List String} {name : String} {above : List String}

/-! ## 1. What is listed -/

/-- A listed name is that of a thing in the folder of quests. -/
theorem mem_items_of_listed (hlist : f.toDisk.questNames? root = some names)
    (hname : name ∈ names) :
    ∃ above item, f.walk (Path.join root questFolder) = .ok (.inside above) ∧
      f.holds (.inside above) = true ∧ (sourceName name :: above, item) ∈ f.items := by
  have hnames? : (if f.isFolder (Path.join root questFolder) then
      (f.names? (Path.join root questFolder)).map fun names =>
        (names.filterMap Disk.questName?).mergeSort fun a b => (compare a b).isLE
      else some []) = some names := hlist
  split at hnames?
  · obtain ⟨all, hall, rfl⟩ := Option.map_eq_some_iff.1 hnames?
    obtain ⟨fileName, hfile, hquest⟩ := List.mem_filterMap.1 (List.mem_mergeSort.1 hname)
    have hsource : fileName = sourceName name := by
      unfold Disk.questName? at hquest
      split at hquest
      · next stem extension hsplit =>
        split at hquest
        · next hextension =>
          rw [Path.eq_of_splitExtension hsplit, hextension, Option.some.inj hquest]
          rfl
        · cases hquest
      · cases hquest
    unfold names? at hall
    split at hall
    · cases hall
    · cases hall
      cases hfile
    · next above hwalk =>
      split at hall
      · next hholds =>
        cases hall
        obtain ⟨⟨entry, item⟩, hmem, hentry⟩ := List.mem_filterMap.1 hfile
        cases entry with
        | nil => cases hentry
        | cons first rest =>
          simp only [Option.ite_none_right_eq_some, Option.some.injEq] at hentry
          obtain ⟨rfl, rfl⟩ := hentry
          exact ⟨rest, item, hwalk, hholds, hsource ▸ hmem⟩
      · cases hall
  · cases hnames?
    cases hname

/-! ## 2. Where a request leads -/

/-- The last step of a request, in the folder of quests. -/
theorem step_sourceName (hholds : f.holds (.inside above) = true) (name : String) :
    f.step (.inside above) (sourceName name).toList =
      if longestName < size (sourceName name).toList then .error .tooLong
      else if (f.item? (sourceName name :: above)).isSome then
        .ok (.inside (sourceName name :: above))
      else .error .missing := by
  have hlength : 2 < (sourceName name).toList.length := by simp [toList_sourceName]
  have hidle := Path.isIdle_eq_false hlength
  have hdots := Path.ne_dots hlength
  simp only [step, hholds, hidle, hdots, Bool.not_true, Bool.false_eq_true, if_false,
    String.ofList_toList]

/-- What a request for a name in the folder of quests comes to. -/
theorem walk_assetPath (hwalk : f.walk (Path.join root questFolder) = .ok (.inside above))
    (hholds : f.holds (.inside above) = true) (hslash : '/' ∉ (sourceName name).toList)
    {here : Place} (h : f.walk (Path.join root (assetPath name)) = .ok here) :
    here = .inside (sourceName (Unicode.lower name) :: above) ∧
      size (Path.join root (assetPath name)).toList ≤ longestPath := by
  have hpath : Path.join root (assetPath name) =
      Path.join root questFolder ++ "/" ++ sourceName (Unicode.lower name) := by
    rw [assetPath_eq, Path.join_append rfl (by decide)]
  rw [hpath, walk_append hwalk (not_mem_sourceName_lower hslash), step_sourceName hholds] at h
  split at h
  · cases h
  · split at h
    · cases h
    · next hshort =>
      split at h
      · cases h
      · split at h
        · cases h
          exact ⟨rfl, hpath ▸ Nat.not_lt.1 hshort⟩
        · cases h

/-- A request for a name in small letters leads to the thing listed under it. -/
theorem walk_assetPath_of_lower_eq
    (hwalk : f.walk (Path.join root questFolder) = .ok (.inside above))
    (hholds : f.holds (.inside above) = true) (hfile : IsFileName (sourceName name))
    (hitem : (f.item? (sourceName name :: above)).isSome) (hlower : Unicode.lower name = name)
    (hshort : size (Path.join root (assetPath name)).toList ≤ longestPath) :
    f.walk (Path.join root (assetPath name)) = .ok (.inside (sourceName name :: above)) := by
  have hpath : Path.join root (assetPath name) =
      Path.join root questFolder ++ "/" ++ sourceName name := by
    rw [assetPath_eq, Path.join_append rfl (by decide), hlower]
  rw [hpath] at hshort ⊢
  rw [walk_append hwalk hfile.slash, step_sourceName hholds, if_neg hfile.zero,
    if_neg (Nat.not_lt.2 hshort), if_neg (Nat.not_lt.2 hfile.size_le), if_pos hitem]

theorem read_of_walk {path : String} {place : List String} {content : ByteArray}
    (hwalk : f.walk path = .ok (.inside place)) (hitem : f.item? place = some (.file content)) :
    f.read path =
      match String.fromUTF8? content with
      | some text => .found text
      | none => .unreadable := by
  cases htext : String.fromUTF8? content with
  | none => simp only [read, hwalk, hitem, htext]
  | some text => simp only [read, hwalk, hitem, htext]

theorem assets_toDisk (f : Folder) (root path : String) :
    f.toDisk.assets root path = f.read (Path.join root path) := rfl

/-- If the path of a name leads to a file, the content of the file is the answer. -/
theorem result_request_of_walk {place : List String} {content : ByteArray}
    (hwalk : f.walk (Path.join root (assetPath name)) = .ok (.inside place))
    (hitem : f.item? place = some (.file content)) :
    (Cache.request (m := Id) (f.toDisk.assets root) {} name).result.map Cached.quest =
      match String.fromUTF8? content with
      | some text => (Quest.parse text).mapError (.malformed name)
      | none => .error (.unreadable (assetPath name)) := by
  rw [(Cache.tells_request_fixed (Cache.faithful_empty _) name).result_eq, questOf, assets_toDisk,
    read_of_walk hwalk hitem]
  cases String.fromUTF8? content <;> rfl

/-! ## 3. Main statement -/

theorem resolves_iff (hf : f.WellNamed) (hlist : f.toDisk.questNames? root = some names)
    (hname : name ∈ names) :
    f.Resolves root name ↔ Unicode.lower name = name ∧ f.ListsFile root name ∧
      size (Path.join root (assetPath name)).toList ≤ longestPath := by
  obtain ⟨above, item, hwalk, hholds, hmem⟩ := mem_items_of_listed hlist hname
  have hfile : IsFileName (sourceName name) := hf _ hmem _ List.mem_cons_self
  constructor
  · rintro ⟨above', content, hwalk', hitem, hpath, -⟩
    obtain rfl : above' = above := Place.inside.inj (Except.ok.inj (hwalk'.symm.trans hwalk))
    obtain ⟨hplace, hshort⟩ := walk_assetPath hwalk hholds hfile.slash hpath
    have hsource : sourceName name = sourceName (Unicode.lower name) :=
      (List.cons.inj (Place.inside.inj hplace)).1
    exact ⟨(sourceName_inj hsource).symm, ⟨above', content, hwalk, hitem⟩, hshort⟩
  · rintro ⟨hlower, ⟨above', content, hwalk', hitem⟩, hshort⟩
    obtain rfl : above' = above := Place.inside.inj (Except.ok.inj (hwalk'.symm.trans hwalk))
    have hpath := walk_assetPath_of_lower_eq hwalk hholds hfile (by rw [hitem]; rfl) hlower hshort
    exact ⟨above', content, hwalk, hitem, hpath, result_request_of_walk hpath hitem⟩

/-- **Which listed quests can be read.** All listed names lead to the files they are
listed for, and no two of them share a place in a cache, if and only if each is in
small letters, is the name of a file and has a path that is not too long. -/
theorem listed_resolve_iff (hf : f.WellNamed) (hlist : f.toDisk.questNames? root = some names) :
    ((∀ name ∈ names, f.Resolves root name) ∧
        ∀ name ∈ names, ∀ name' ∈ names, name ≠ name' → Cache.key name ≠ Cache.key name') ↔
      ∀ name ∈ names, Unicode.lower name = name ∧ f.ListsFile root name ∧
        size (Path.join root (assetPath name)).toList ≤ longestPath := by
  constructor
  · rintro ⟨hresolves, -⟩ name hname
    exact (resolves_iff hf hlist hname).1 (hresolves name hname)
  · intro hall
    refine ⟨fun name hname => (resolves_iff hf hlist hname).2 (hall name hname), ?_⟩
    intro name hname name' hname' hne hkey
    have hlower : Unicode.lower name = Unicode.lower name' := hkey
    rw [(hall name hname).1, (hall name' hname').1] at hlower
    exact hne hlower

/-- A folder with one quest, whose name has a dot in it. -/
def albaFolder : Folder :=
  ⟨[(["quests"], .folder), (["alba.2.qst", "quests"], .file "title : Alba\n".toUTF8)]⟩

theorem wellNamed_albaFolder : albaFolder.WellNamed := by
  have hquests : IsFileName "quests" :=
    ⟨by decide, by decide, by decide, by decide, by decide⟩
  have halba : IsFileName "alba.2.qst" :=
    ⟨by decide, by decide, by decide, by decide, by decide⟩
  intro e he name hname
  rcases List.mem_cons.1 he with rfl | he
  · obtain rfl := List.mem_singleton.1 hname
    exact hquests
  · obtain rfl := List.mem_singleton.1 he
    rcases List.mem_cons.1 hname with rfl | hname
    · exact halba
    · obtain rfl := List.mem_singleton.1 hname
      exact hquests

theorem listed_resolve_alba :
    @Eq (Option (List String)) (albaFolder.toDisk.questNames? ".") (some ["alba.2"]) ∧
      albaFolder.Resolves "." "alba.2" := by
  have hlist : @Eq (Option (List String)) (albaFolder.toDisk.questNames? ".")
      (some ["alba.2"]) := by
    decide +kernel
  have hwalk : albaFolder.walk (Path.join "." questFolder) = .ok (.inside ["quests"]) := by
    decide +kernel
  refine ⟨hlist, ((listed_resolve_iff wellNamed_albaFolder hlist).2 ?_).1 _ List.mem_cons_self⟩
  intro name hname
  obtain rfl := List.mem_singleton.1 hname
  exact ⟨by decide +kernel, ⟨_, _, hwalk, rfl⟩, by decide +kernel⟩

/-- Three ways in which a listed quest is not to be had: its name has a capital and no
quest of the small name is there, or one is there and is handed out instead, or the
thing listed is a folder. -/
def moorFolder : Folder :=
  ⟨[(["quests"], .folder), (["Fen.qst", "quests"], .file "title : Fen\n".toUTF8),
    (["Heath.qst", "quests"], .file "title : Heath\n".toUTF8),
    (["heath.qst", "quests"], .file "title : Heather\n".toUTF8),
    (["mire.qst", "quests"], .folder)]⟩

theorem listed_not_resolved :
    @Eq (Option (List String)) (moorFolder.toDisk.questNames? ".")
        (some ["Fen", "Heath", "heath", "mire"]) ∧
      (Cache.request (m := Id) (moorFolder.toDisk.assets ".") {} "Fen").result.map Cached.quest =
        .error (.notFound "Fen" "quests/fen.qst") ∧
      Cache.key "Heath" = Cache.key "heath" ∧
      (Cache.request (m := Id) (moorFolder.toDisk.assets ".") {} "mire").result.map Cached.quest =
        .error (.unreadable "quests/mire.qst") := by
  refine ⟨?_, ?_, by decide +kernel, ?_⟩
  · have hfolder : moorFolder.isFolder (Path.join "." questFolder) = true := by decide +kernel
    have hnames : @Eq (Option (List String)) ((moorFolder.names? (Path.join "." questFolder)).map
        (List.filterMap Disk.questName?)) (some ["Fen", "Heath", "heath", "mire"]) := by
      decide +kernel
    obtain ⟨all, hall, hlisted⟩ := Option.map_eq_some_iff.1 hnames
    show (if moorFolder.isFolder (Path.join "." questFolder) then
      (moorFolder.names? (Path.join "." questFolder)).map fun names =>
        (names.filterMap Disk.questName?).mergeSort fun a b => (compare a b).isLE
      else some []) = _
    rw [hfolder, if_pos rfl, hall, Option.map_some, hlisted, List.mergeSort_of_pairwise]
    decide +kernel
  · have hwalk : moorFolder.walk (Path.join "." (assetPath "Fen")) = .error .missing := by
      decide +kernel
    have hpath : assetPath "Fen" = "quests/fen.qst" := by decide +kernel
    rw [(Cache.tells_request_fixed (Cache.faithful_empty _) "Fen").result_eq, questOf,
      assets_toDisk, read, hwalk, hpath]
  · have hwalk : moorFolder.walk (Path.join "." (assetPath "mire")) =
        .ok (.inside ["mire.qst", "quests"]) := by decide +kernel
    have hpath : assetPath "mire" = "quests/mire.qst" := by decide +kernel
    have hitem : moorFolder.item? ["mire.qst", "quests"] = some .folder := rfl
    rw [(Cache.tells_request_fixed (Cache.faithful_empty _) "mire").result_eq, questOf,
      assets_toDisk, read, hwalk, hpath]
    simp only [hitem]

end Folder

end Questbook
