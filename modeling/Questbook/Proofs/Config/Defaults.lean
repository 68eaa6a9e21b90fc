/-
Questbook.Proofs.Config.Defaults — the fields that a configuration file leaves out.

A file is given by the fields that it has (`Written`). The files that can be used are those
whose entries under the three keys are of the right sort (`ofText?_eq_some_iff`), and from then
on a configuration follows from what is written and from the asset root that was detected.

A quest list or strictness that is left out is that of no file at all. An asset root that is
left out is the detected one, but seen from the folder of the file like one that is written
there. It is the same root only if it is absolute or the path of the file names no folder
(`read_defaults`).
-/
import Mathlib
import Questbook.Config

namespace Questbook

namespace Path

/-- A path is seen from a folder as it is itself only if it needs no folder or there is
none. -/
theorem join_eq_self_iff (base path : String) :
    join base path = path ↔ isAbsolute path = true ∨ base = "" := by
  have happend (front : String) : front ++ path = path ↔ front = "" := by
    rw [← String.toList_inj, String.toList_append, List.append_left_eq_self, String.toList_eq_nil_iff]
  by_cases habsolute : isAbsolute path = true
  · simp [join_of_isAbsolute habsolute, habsolute]
  · rw [join, if_neg habsolute]
    split
    · simp [happend, habsolute]
    · next hbase =>
      have hne : base ≠ "" := by
        rintro rfl
        exact hbase rfl
      simp [happend, habsolute, hne]

end Path

namespace Config

/-- The fields that a configuration file has. -/
structure Written where
  assetRoot? : Option String := none
  preload? : Option (List String) := none
  strict? : Option Bool := none
deriving DecidableEq, Repr

namespace Written

/-- The entries of a file have these fields and lack the others. Further keys do not
count. -/
structure IsIn (written : Written) (entries : Toml.Entries) : Prop where
  assetRoot : entries.lookup "asset_root" = written.assetRoot?.map .string
  preload : entries.lookup "preload" =
    written.preload?.map fun names => .array (names.map .string)
  strict : entries.lookup "strict" = written.strict?.map .boolean

/-- The text is that of a configuration file with these fields. -/
def Describes (written : Written) (text : String) : Prop :=
  ∃ entries, Toml.parse? text = some entries ∧ written.IsIn entries

/-- What is written, and the defaults for what is not. -/
def filledFrom (default : Config) (written : Written) : Config where
  assetRoot := written.assetRoot?.getD default.assetRoot
  preload := written.preload?.getD default.preload
  strict := written.strict?.getD default.strict

end Written

/-- The folder of a file, as far as its path names one. -/
def folder (path : String) : String :=
  (Path.parent? path).getD ""

/-! ## 1. Fields -/

theorem string?_eq_some_iff {value : Toml.Value} {s : String} :
    string? value = some s ↔ value = .string s := by
  cases value <;> simp [string?]

theorem boolean?_eq_some_iff {value : Toml.Value} {b : Bool} :
    boolean? value = some b ↔ value = .boolean b := by
  cases value <;> simp [boolean?]

theorem strings?_eq_some_iff {value : Toml.Value} {names : List String} :
    strings? value = some names ↔ value = .array (names.map .string) := by
  have hitems (items : List Toml.Value) :
      items.mapM string? = some names ↔ items = names.map .string := by
    induction items generalizing names with
    | nil => cases names <;> simp
    | cons item items ih =>
      simp only [List.mapM_cons, Option.bind_eq_bind, Option.bind_eq_some_iff, Option.pure_def,
        Option.some.injEq, string?_eq_some_iff, ih]
      constructor
      · rintro ⟨name, rfl, others, rfl, rfl⟩
        rfl
      · intro h
        cases names with
        | nil => cases h
        | cons name others =>
          obtain ⟨rfl, rfl⟩ := List.cons.inj h
          exact ⟨name, rfl, others, rfl, rfl⟩
  cases value with
  | array items => simpa [strings?] using hitems items
  | _ => simp [strings?]

/-- A field is written in its own form, or it is left out. -/
theorem field_eq_some_iff {α : Type} {read : Toml.Value → Option α} {form : α → Toml.Value}
    (hread : ∀ value a, read value = some a ↔ value = form a) {entries : Toml.Entries}
    {key : String} {default a : α} :
    field entries key default read = some a ↔
      ∃ written : Option α, entries.lookup key = written.map form ∧ a = written.getD default := by
  unfold field
  cases hlookup : entries.lookup key with
  | none =>
    constructor
    · rintro ⟨⟩
      exact ⟨none, rfl, rfl⟩
    · rintro ⟨written, hwritten, rfl⟩
      cases written with
      | none => rfl
      | some b => cases hwritten
  | some value =>
    rw [show _ = some a ↔ _ from hread value a]
    constructor
    · rintro rfl
      exact ⟨some a, rfl, rfl⟩
    · rintro ⟨written, hwritten, rfl⟩
      cases written with
      | none => cases hwritten
      | some b => exact Option.some.inj hwritten

theorem ofToml?_eq_some_iff {default config : Config} {entries : Toml.Entries} :
    ofToml? default entries = some config ↔
      ∃ written : Written, written.IsIn entries ∧ config = written.filledFrom default := by
  simp only [ofToml?, Option.bind_eq_bind, Option.bind_eq_some_iff, Option.pure_def,
    field_eq_some_iff fun _ _ => string?_eq_some_iff,
    field_eq_some_iff fun _ _ => strings?_eq_some_iff,
    field_eq_some_iff fun _ _ => boolean?_eq_some_iff]
  constructor
  · rintro ⟨-, ⟨assetRoot?, hroot, rfl⟩, -, ⟨preload?, hpreload, rfl⟩, -, ⟨strict?, hstrict, rfl⟩,
      hconfig⟩
    exact ⟨⟨assetRoot?, preload?, strict?⟩, ⟨hroot, hpreload, hstrict⟩, (Option.some.inj hconfig).symm⟩
  · rintro ⟨written, ⟨hroot, hpreload, hstrict⟩, rfl⟩
    exact ⟨_, ⟨_, hroot, rfl⟩, _, ⟨_, hpreload, rfl⟩, _, ⟨_, hstrict, rfl⟩, rfl⟩

/-! ## 2. Files -/

/-- What is seen from the folder of a file is joined to it, if need be. -/
theorem relativeTo_eq (path : String) (config : Config) :
    config.relativeTo path =
      { config with assetRoot := Path.join (folder path) config.assetRoot } := by
  unfold relativeTo folder
  split
  · next habsolute => rw [Path.join_of_isAbsolute habsolute]
  · split
    · next hparent => rw [hparent]; rfl
    · next hparent => rw [hparent, Option.getD_none, (Path.join_eq_self_iff _ _).2 (.inr rfl)]

theorem ofText?_eq_some_iff {root path text : String} {config : Config} :
    ofText? root path text = some config ↔
      ∃ written : Written, written.Describes text ∧
        config = (written.filledFrom (default root)).relativeTo path := by
  simp only [ofText?, Option.map_eq_some_iff, Option.bind_eq_some_iff, ofToml?_eq_some_iff]
  constructor
  · rintro ⟨-, ⟨entries, hparse, written, hwritten, rfl⟩, rfl⟩
    exact ⟨written, ⟨entries, hparse, hwritten⟩, rfl⟩
  · rintro ⟨written, ⟨entries, hparse, hwritten⟩, rfl⟩
    exact ⟨_, ⟨entries, hparse, written, hwritten, rfl⟩, rfl⟩

theorem read_eq (disk : Disk Id) (root path : String) :
    read disk root path = match (disk.read path : Lookup) with
      | .found text =>
        match ofText? root path text with
        | some config => .ok config
        | none => .error (.malformed path (disk.explain (.malformed text)))
      | .missing | .unreadable => .error (.unreadable path (disk.explain (.reading path))) := by
  simp only [read, bind]
  cases (disk.read path : Lookup) with
  | found text => cases hconfig : ofText? root path text <;> simp only [hconfig] <;> rfl
  | missing => rfl
  | unreadable => rfl

theorem load_eq (disk : Disk Id) (root path : String) :
    (load disk root path).1 = match (read disk root path : Except ConfigError Config) with
      | .ok config => config
      | .error _ => default root := by
  have hload : load disk root path = match (read disk root path : Except ConfigError Config) with
      | .ok config => (config, .configLoaded path config.assetRoot)
      | .error e => (default root, .configIgnored path e.describe) := rfl
  rw [hload]
  split <;> rfl

/-- **Which files can be used, and what comes of them.** -/
theorem read_eq_ok_iff {disk : Disk Id} {root path : String} {config : Config} :
    read disk root path = .ok config ↔
      ∃ (text : String) (written : Written), disk.read path = .found text ∧
        written.Describes text ∧ config = (written.filledFrom (default root)).relativeTo path := by
  rw [read_eq]
  constructor
  · intro h
    split at h
    · next text hfound =>
      split at h
      · next found hconfig =>
        cases h
        obtain ⟨written, hwritten, heq⟩ := ofText?_eq_some_iff.1 hconfig
        exact ⟨text, written, hfound, hwritten, heq⟩
      · cases h
    · cases h
    · cases h
  · rintro ⟨text, written, hfound, hwritten, hconfig⟩
    simp only [hfound, ofText?_eq_some_iff.2 ⟨written, hwritten, hconfig⟩]

/-- Without a file, everything is as it is by default. -/
theorem load_of_missing {disk : Disk Id} {path : String} (h : disk.read path = .missing)
    (root : String) : (load disk root path).1 = default root := by
  rw [load_eq, read_eq, h]

/-! ## 3. What is left out -/

/-- The asset root that is left out is the detected one, if the folder of the file makes no
difference to it. -/
theorem relativeTo_default_eq_iff (root path : String) :
    (default root).relativeTo path = default root ↔
      Path.isAbsolute root = true ∨ folder path = "" := by
  rw [← Path.join_eq_self_iff, relativeTo_eq]
  simp [default]

/-- **Fields that are left out keep their defaults**, the asset root only if it does not
depend on the folder of the file.

A file whose entries under the three keys are of the right sort can be used, and no other
file can. Quests to be read at the start and strictness are those that are written, or else
those of the default. An asset root that is written is seen from the folder of the file. One
that is left out is the default if and only if that root is absolute or the path of the file
names no folder; and under the same condition, a file with nothing written in it is as good
as none. -/
theorem read_defaults (disk : Disk Id) (root path : String) :
    (∀ config, read disk root path = .ok config →
      ∃ (text : String) (written : Written), disk.read path = .found text ∧
        written.Describes text) ∧
    (disk.read path = .missing → (load disk root path).1 = default root) ∧
    ∀ (text : String) (written : Written), disk.read path = .found text →
      written.Describes text →
        ∃ config, read disk root path = .ok config ∧ (load disk root path).1 = config ∧
          config.preload = written.preload?.getD (default root).preload ∧
          config.strict = written.strict?.getD (default root).strict ∧
          (∀ asked, written.assetRoot? = some asked →
            config.assetRoot = Path.join (folder path) asked) ∧
          (written.assetRoot? = none →
            (config.assetRoot = (default root).assetRoot ↔
              Path.isAbsolute root = true ∨ folder path = "")) ∧
          (written = {} →
            (config = default root ↔ Path.isAbsolute root = true ∨ folder path = "")) := by
  refine ⟨fun config h => ?_, fun h => load_of_missing h root, ?_⟩
  · obtain ⟨text, written, hfile, hwritten, -⟩ := read_eq_ok_iff.1 h
    exact ⟨text, written, hfile, hwritten⟩
  · intro text written hfile hwritten
    have hread : read disk root path = .ok ((written.filledFrom (default root)).relativeTo path) :=
      read_eq_ok_iff.2 ⟨text, written, hfile, hwritten, rfl⟩
    refine ⟨(written.filledFrom (default root)).relativeTo path, hread, by rw [load_eq, hread], ?_, ?_,
      ?_, ?_, ?_⟩
    · rw [relativeTo_eq]
      rfl
    · rw [relativeTo_eq]
      rfl
    · intro asked hasked
      rw [relativeTo_eq, Written.filledFrom, hasked]
      rfl
    · intro hnone
      rw [relativeTo_eq, Written.filledFrom, hnone]
      exact Path.join_eq_self_iff (folder path) root
    · rintro rfl
      exact relativeTo_default_eq_iff root path

/-- A disk that holds one file. -/
def oneFile (path text : String) : Disk Id where
  read asked := if asked = path then .found text else .missing
  isFolder _ := false
  names? _ := none
  explain _ := "No such file or directory (os error 2)"

/-- The root is written and strictness too, and the quests to be read are left out. -/
theorem read_defaults_content :
    ∃ config, read (oneFile "c/q.toml" "strict = true\nasset_root = \"content\"\n") "assets"
        "c/q.toml" = .ok config ∧
      config.preload = [] ∧ config.strict = true ∧ config.assetRoot = "c/content" := by
  have hdescribes : Written.Describes ⟨some "content", none, some true⟩
      "strict = true\nasset_root = \"content\"\n" := by
    exact ⟨[("strict", .boolean true), ("asset_root", .string "content")], by cbv, rfl, rfl, rfl⟩
  obtain ⟨config, hread, -, hpreload, hstrict, hroot, -⟩ :=
    (read_defaults (oneFile "c/q.toml" "strict = true\nasset_root = \"content\"\n") "assets"
      "c/q.toml").2.2 _ _ rfl hdescribes
  exact ⟨config, hread, hpreload, hstrict, hroot "content" rfl⟩

/-- An empty file is not as good as none. -/
theorem defaults_not_kept :
    ¬∀ (disk : Disk Id) (root path : String) (config : Config), disk.read path = .found "" →
      read disk root path = .ok config → config.assetRoot = (default root).assetRoot := by
  intro h
  have hread : read (oneFile "c/q.toml" "") "default_assets" "c/q.toml" =
      .ok ⟨"c/default_assets", [], false⟩ :=
    read_eq_ok_iff.2 ⟨"", {}, rfl, ⟨[], by cbv, rfl, rfl, rfl⟩, by decide⟩
  exact absurd (h _ _ _ _ rfl hread) (by decide)

end Config

end Questbook
