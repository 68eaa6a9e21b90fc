/-
Questbook.Proofs.Cache.Names — the names that a cache gives find their entries.

A cache tells its keys, not the spellings under which quests were asked for, and a name
that is handed to it is made small first. So a key that is given back is made small once
more. It finds its entry because it stays as it is: every key is the key of some name
(`key_of_mem_names`), and a text made small is in small letters. The path to look up does
not change either, though a hit looks nothing up.
-/
import Questbook.Proofs.Cache.Bookkeeping
import Questbook.Proofs.Unicode.SmallText

namespace Questbook

/-- The path of a quest is the path of its key. -/
theorem assetPath_lower (name : String) : assetPath (Unicode.lower name) = assetPath name := by
  rw [assetPath, assetPath, Unicode.lower_lower]

namespace Cache

theorem key_key (name : String) : key (key name) = key name :=
  Unicode.lower_lower name

/-- The keys in a cache that was filled by calls are keys of names, so making them
small leaves them as they are. -/
theorem key_of_mem_names {steps : List (Call × Answers)} {name : String}
    (h : name ∈ (afterAll {} steps).names) : key name = name := by
  obtain ⟨hlinked, hhonest, -⟩ := recorded_history {} steps
  rcases (hlinked.mem_names hhonest name).1 h with hno | ⟨a, -, -, hkey⟩
  · rw [names_empty] at hno
    cases hno
  · rw [← hkey, key_key]

/-- A name that is its own key finds what is in under it. -/
theorem get?_of_key_eq {cache : Cache} {name : String} (hkey : key name = name)
    (h : name ∈ cache.names) :
    ∃ cached, cache.quests.get? name = some cached ∧ cache.get? name = some cached := by
  obtain ⟨cached, hin⟩ := Option.isSome_iff_exists.1 (mem_names.1 h)
  refine ⟨cached, hin, ?_⟩
  rw [get?, hkey, hin]

/-- **A name that a cache gives finds its entry.** Making a name small twice is making it
small once, and leads to the same path. Whatever calls a cache has served, each of the
names it gives is the key of an entry, and given back as a name it hits that entry: it
counts as contained, and a request for it or a text handed in under it hands the entry
out, looks nothing up and changes nothing, whatever the assets and the text are. -/
theorem names_find_entries (steps : List (Call × Answers)) :
    (∀ name, Unicode.lower (Unicode.lower name) = Unicode.lower name ∧
      assetPath (Unicode.lower name) = assetPath name) ∧
    ∀ name ∈ (afterAll {} steps).names, ∃ cached,
      (afterAll {} steps).quests.get? name = some cached ∧
      (afterAll {} steps).contains name = true ∧
      ∀ answers,
        (afterAll {} steps).perform answers (.request name) =
            ⟨.request name, .ok (.quest cached), [], afterAll {} steps⟩ ∧
          ∀ text, (afterAll {} steps).perform answers (.insertSource name text) =
            ⟨.insertSource name text, .ok (.quest cached), [], afterAll {} steps⟩ := by
  refine ⟨?_, ?_⟩
  · intro name
    exact ⟨Unicode.lower_lower name, assetPath_lower name⟩
  · intro name hname
    obtain ⟨cached, hstored, hin⟩ := get?_of_key_eq (key_of_mem_names hname) hname
    refine ⟨cached, hstored, ?_, ?_⟩
    · rw [contains, hin]
      rfl
    · intro answers
      refine ⟨perform_of_get? rfl hin answers, ?_⟩
      intro text
      exact perform_of_get? rfl hin answers

/-- Names with a capital sigma at the end of a word, and with a letter that becomes two
characters; a request in vain in between. -/
theorem names_find_entries_sigma :
    let steps : List (Call × Answers) :=
      [(.request "ΟΔΟΣ", fun _ _ => .found "title : Road\n"),
        (.request "fog", fun _ _ => .missing),
        (.insertSource "İZMİR" "title : Smyrna\n", fun _ _ => .missing)]
    (afterAll {} steps).names = ["i\u0307zmi\u0307r", "οδος"] ∧
      (afterAll {} steps).perform (fun _ _ => .unreadable) (.request "οδος") =
        ⟨.request "οδος", .ok (.quest ⟨0, { title := "Road" }⟩), [], afterAll {} steps⟩ ∧
      (afterAll {} steps).perform (fun _ _ => .unreadable)
          (.insertSource "i\u0307zmi\u0307r" "foo : bar\n") =
        ⟨.insertSource "i\u0307zmi\u0307r" "foo : bar\n",
          .ok (.quest ⟨1, { title := "Smyrna" }⟩), [], afterAll {} steps⟩ := by
  intro steps
  have hnames : (afterAll {} steps).names = ["i\u0307zmi\u0307r", "οδος"] := by decide +kernel
  obtain ⟨-, hall⟩ := names_find_entries steps
  obtain ⟨road, hroad, -, hfirst⟩ := hall "οδος" (by rw [hnames]; decide)
  obtain ⟨smyrna, hsmyrna, -, hsecond⟩ := hall "i\u0307zmi\u0307r" (by rw [hnames]; decide)
  have hroad' : (afterAll {} steps).quests.get? "οδος" = some ⟨0, { title := "Road" }⟩ := by
    decide +kernel
  have hsmyrna' : (afterAll {} steps).quests.get? "i\u0307zmi\u0307r" =
      some ⟨1, { title := "Smyrna" }⟩ := by
    decide +kernel
  rw [hroad] at hroad'
  rw [hsmyrna] at hsmyrna'
  cases hroad'
  cases hsmyrna'
  refine ⟨hnames, (hfirst _).1, ?_⟩
  exact (hsecond _).2 "foo : bar\n"

end Cache

end Questbook
