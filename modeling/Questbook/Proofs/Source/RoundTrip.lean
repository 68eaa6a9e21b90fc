/-
Questbook.Proofs.Source.RoundTrip — the source of a quest makes the quest.

The sections of a source are read one after the other, each into the quest that
the sections before it made. `Quest.upTo` is that quest, in terms of the printed
one: its fields as far as their sections have been read, and the defaults for
the rest. A section that is left out because it is empty changes nothing, and
neither does its field: the default is what it holds.
-/
import Questbook.Proofs.Source.Sections
import Questbook.Proofs.Source.Tasks

namespace Questbook

open Text Reader

/-- What is known of a quest when these sections of its source have been read. -/
def Quest.upTo (q : Quest) (read : List Section) : Quest where
  title := if .title ∈ read then q.title else ""
  briefing := if .briefing ∈ read then q.briefing else ""
  runsInBackground := if .background ∈ read then q.runsInBackground else false
  resources := if .resources ∈ read then q.resources else ∅

/-! ## 1. One section -/

/-- A section reads the field that it prints. -/
theorem Section.leads {q : Quest} (h : q.Printable) {word : String} {cs : List Char}
    (hcs : Begins word cs) (hkind : ResourceKind.ofKeyword? word = none) (s : Section)
    (read : List Section) : Leads (q.upTo read) (s.print q) (q.upTo (s :: read)) cs := by
  cases s with
  | background =>
    cases hflag : q.runsInBackground with
    | false =>
      have hsame : q.upTo (.background :: read) = q.upTo read := by simp [Quest.upTo, hflag]
      simpa [Section.print, hflag, hsame] using leads_nil (q.upTo read) cs
    | true =>
      have hleads := leads_background hcs (q.upTo read)
      simpa [Section.print, Quest.upTo, hflag] using hleads
  | title =>
    by_cases hempty : q.title = ""
    · have hsame : q.upTo (.title :: read) = q.upTo read := by simp [Quest.upTo, hempty]
      simpa [Section.print, hempty, hsame] using leads_nil (q.upTo read) cs
    · have hleads := leads_title hcs (h.title.resolve_left hempty) (q.upTo read)
      simpa [Section.print, Quest.upTo, hempty] using hleads
  | briefing =>
    by_cases hempty : q.briefing = ""
    · have hsame : q.upTo (.briefing :: read) = q.upTo read := by simp [Quest.upTo, hempty]
      simpa [Section.print, hempty, hsame] using leads_nil (q.upTo read) cs
    · have hleads := leads_briefing hcs (h.briefing.resolve_left hempty) (q.upTo read)
      simpa [Section.print, Quest.upTo, hempty] using hleads
  | resources =>
    by_cases hempty : q.resources.entries = []
    · have htable : q.resources = ∅ := Table.eq_of_entries_eq hempty
      have hsame : q.upTo (.resources :: read) = q.upTo read := by simp [Quest.upTo, htable]
      simpa [Section.print, hempty, hsame] using leads_nil (q.upTo read) cs
    · have hleads := leads_resources hcs hkind h.resources (q.upTo read)
      simpa [Section.print, Quest.upTo, hempty] using hleads

/-- A section that is not left out begins with a word, and this is no kind of
resource. -/
theorem Section.begins (s : Section) (q : Quest) (cs : List Char) :
    s.print q = [] ∨
      ∃ word, Begins word (s.print q ++ cs) ∧ ResourceKind.ofKeyword? word = none := by
  cases s with
  | background =>
    simp only [Section.print]
    split
    · exact .inr ⟨"+background", ⟨by rintro c ⟨⟩; rfl, fun _ => rfl⟩, by decide⟩
    · exact .inl rfl
  | title =>
    simp only [Section.print]
    split
    · exact .inl rfl
    · exact .inr ⟨"title", ⟨by rintro c ⟨⟩; rfl, fun _ => rfl⟩, by decide⟩
  | briefing =>
    simp only [Section.print]
    split
    · exact .inl rfl
    · exact .inr ⟨"briefing", ⟨by rintro c ⟨⟩; rfl, fun _ => rfl⟩, by decide⟩
  | resources =>
    simp only [Section.print]
    split
    · exact .inl rfl
    · exact .inr ⟨"qrc", ⟨by rintro c ⟨⟩; rfl, fun _ => rfl⟩, by decide⟩

theorem begins_taskTable (opening : Task) (blocks : List Task) :
    Begins "qst" (TaskTable.print (opening :: blocks)) :=
  ⟨by rintro c ⟨⟩; rfl, fun _ => rfl⟩

/-! ## 2. All sections -/

/-- What is behind a section begins with a word that is no kind of resource. -/
theorem begins_sections {word : String} {table : List Char} (htable : Begins word table)
    (hkind : ResourceKind.ofKeyword? word = none) (q : Quest) (order : List Section) :
    ∃ word, Begins word (order.flatMap (Section.print q) ++ table) ∧
      ResourceKind.ofKeyword? word = none := by
  induction order with
  | nil => exact ⟨word, htable, hkind⟩
  | cons s order ih =>
    rw [List.flatMap_cons, List.append_assoc]
    rcases s.begins q (order.flatMap (Section.print q) ++ table) with hempty | hbegins
    · rw [hempty]
      exact ih
    · exact hbegins

/-- The sections are read one after the other. -/
theorem leads_sections {q : Quest} (h : q.Printable) {word : String} {table : List Char}
    (htable : Begins word table) (hkind : ResourceKind.ofKeyword? word = none)
    (order read : List Section) :
    Leads (q.upTo read) (order.flatMap (Section.print q)) (q.upTo (order.reverse ++ read))
      table := by
  induction order generalizing read with
  | nil => exact leads_nil (q.upTo read) table
  | cons s order ih =>
    intro offset
    obtain ⟨word', hbehind, hkind'⟩ := begins_sections htable hkind q order
    obtain ⟨offset₁, hs⟩ := s.leads h hbehind hkind' read offset
    obtain ⟨offset₂, hothers⟩ := ih (s :: read) offset₁
    refine ⟨offset₂, ?_⟩
    rw [List.flatMap_cons, List.append_assoc, hs, hothers, List.reverse_cons, List.append_assoc,
      List.singleton_append]

/-- With all sections and the task table read, the quest is known. -/
theorem Quest.upTo_of_forall_mem {q : Quest} {read : List Section} (h : ∀ s, s ∈ read) :
    { q.upTo read with tasks := q.tasks } = q := by
  simp [Quest.upTo, h]

/-- **Printing and reading a quest gives it back.** The sections may stand in any
order, and none may be missing. -/
theorem Quest.parse_print {order : List Section} (horder : ∀ s, s ∈ order) {q : Quest}
    (h : q.Printable) : Quest.parse (q.print order) = .ok q := by
  obtain ⟨opening, blocks, htasks, hopening, hblocks⟩ := h.tasks
  have htable := begins_taskTable (.entryPoint opening) blocks
  obtain ⟨offset, hsections⟩ := leads_sections h htable (by decide) order [] 0
  rw [Quest.parse_eq, Quest.print, Reader.ofSource, String.toList_ofList, htasks]
  refine hsections.trans ?_
  rw [quest_printTasks hopening hblocks, ← htasks,
    Quest.upTo_of_forall_mem fun s => by simp [horder s]]

/-- A quest whose texts come close to what a source cannot hold. -/
def lighthouse : Quest where
  title := "-7 $- The Keeper (again)"
  briefing := "+background\n-9223372036854775808\n9223372036854775808"
  runsInBackground := true
  resources := .ofList [(-9223372036854775808, ⟨.message, "1 stair )(\nqrc"⟩), (7, ⟨.stage, "qst"⟩)]
  tasks := [
    .entryPoint [⟨"set", ["(lamp (below) 1)", ":", "task", "-9223372036854775808"]⟩, ⟨"+", []⟩],
    ⟨"task", [⟨"title", [":", "$"]⟩], true⟩,
    ⟨"<entry-point>", [], false⟩]

theorem lighthouse_printable : lighthouse.Printable where
  title := .inr (by decide +kernel)
  briefing := .inr
    (.more (show IsTextLine "+background".toList by decide +kernel)
      (.more (show IsTextLine "-9223372036854775808".toList by decide +kernel)
        (.line (show IsTextLine "9223372036854775808".toList by decide +kernel))))
  resources := by
    have hentries : lighthouse.resources.entries =
        [(-9223372036854775808, ⟨.message, "1 stair )(\nqrc"⟩), (7, ⟨.stage, "qst"⟩)] := by
      decide +kernel
    rw [hentries]
    simp only [List.forall_mem_cons]
    refine ⟨?_, ?_, by simp⟩
    · exact .more (show IsTextLine "1 stair )(".toList by decide +kernel)
        (.line (show IsTextLine "qrc".toList by decide +kernel))
    · exact .line (by decide +kernel)
  tasks := by
    refine ⟨_, _, rfl, ?_, ?_⟩
    · simp only [List.forall_mem_cons]
      refine ⟨⟨by decide +kernel, lower_of_all (by decide), by decide, by decide, ?_⟩,
        ⟨by decide +kernel, lower_of_all (by decide), by decide, by decide, by simp⟩, by simp⟩
      simp only [List.forall_mem_cons]
      exact ⟨.span (by decide +kernel), .scope rfl, .word (by decide +kernel),
        .numeral (-9223372036854775808) (by decide +kernel), by simp⟩
    · simp only [List.forall_mem_cons]
      refine ⟨⟨by decide +kernel, ?_⟩, ⟨by decide +kernel, by simp⟩, by simp⟩
      simp only [List.forall_mem_cons]
      refine ⟨⟨by decide +kernel, lower_of_all (by decide), by decide, by decide, ?_⟩, by simp⟩
      simp only [List.forall_mem_cons]
      exact ⟨.scope rfl, .word (by decide +kernel), by simp⟩

/-- The longest way round: every section is there and the order is not the usual
one. -/
theorem parse_print_lighthouse :
    lighthouse.Printable ∧ (∀ s, s ∈ [Section.resources, .background, .briefing, .title]) ∧
      Quest.parse (lighthouse.print [.resources, .background, .briefing, .title]) =
        .ok lighthouse := by
  have horder : ∀ s, s ∈ [Section.resources, .background, .briefing, .title] := by
    intro s
    cases s <;> decide
  exact ⟨lighthouse_printable, horder, Quest.parse_print horder lighthouse_printable⟩

end Questbook
