/-
Questbook.Proofs.Source.ResourceTable — the last definition of a resource counts.

A source may define the same number again and again. Each entry is read and kept as it is
met, whatever stood before it, so reading says nothing about repetitions: they matter when
the entries are made into a table, where the last one of a number wins, and when the log
is told, which hears of each entry whose number was met before.

Both start afresh with each section. A second table takes the place of the first as a
whole, and its entries are compared among themselves only.
-/
import Mathlib
import Questbook.Proofs.Grammar.Automaton
import Questbook.Proofs.Source.Sections

namespace Questbook

open Text Reader
open Numeral (render)

/-! ## 1. The last entry of a number -/

namespace Table

variable {κ ν : Type} [DecidableEq κ]

/-- The value of the last entry with this key. -/
def lastFor? (entries : List (κ × ν)) (k : κ) : Option ν :=
  (entries.reverse.find? fun entry => entry.1 == k).map (·.2)

theorem lastFor?_cons (entry : κ × ν) (entries : List (κ × ν)) (k : κ) :
    lastFor? (entry :: entries) k =
      (lastFor? entries k).or (if entry.1 = k then some entry.2 else none) := by
  rw [lastFor?, List.reverse_cons, List.find?_append, Option.map_or]
  by_cases h : entry.1 = k <;> simp [lastFor?, h]

theorem isSome_lastFor? (entries : List (κ × ν)) (k : κ) :
    (lastFor? entries k).isSome = true ↔ k ∈ entries.map (·.1) := by
  simp [lastFor?]

theorem lastFor?_map {μ : Type} (f : ν → μ) (entries : List (κ × ν)) (k : κ) :
    lastFor? (entries.map fun entry => (entry.1, f entry.2)) k =
      (lastFor? entries k).map f := by
  induction entries with
  | nil => rfl
  | cons entry entries ih =>
    rw [List.map_cons, lastFor?_cons, ih, lastFor?_cons, Option.map_or]
    by_cases h : entry.1 = k <;> simp [h]

variable [Ord κ] [Std.TransOrd κ] [Std.LawfulEqOrd κ]

theorem get?_foldl_insert (t : Table κ ν) (entries : List (κ × ν)) (k : κ) :
    (entries.foldl (fun t entry => t.insert entry.1 entry.2) t).get? k =
      (lastFor? entries k).or (t.get? k) := by
  induction entries generalizing t with
  | nil => rfl
  | cons entry entries ih =>
    rw [List.foldl_cons, ih, get?_insert, lastFor?_cons, Option.or_assoc]
    by_cases h : k = entry.1
    · simp [h]
    · simp [h, Ne.symm h]

/-- The last entry of a key is the one found there. -/
theorem get?_ofList (entries : List (κ × ν)) (k : κ) :
    (ofList entries).get? k = lastFor? entries k := by
  rw [ofList, get?_foldl_insert, get?_empty, Option.or_none]

/-- The keys are those of the entries. -/
theorem mem_keys_ofList (entries : List (κ × ν)) (k : κ) :
    k ∈ (ofList entries).keys ↔ k ∈ entries.map (·.1) := by
  rw [mem_keys, contains, get?_ofList, isSome_lastFor?]

end Table

/-! ## 2. Repetitions -/

/-- Each number that stands earlier in the list too, as often as it does. -/
def repeatedIds (ids : List Int64) : List Int64 :=
  (ids.zipIdx.filter fun entry => entry.1 ∈ ids.take entry.2).map (·.1)

/-- The log hears of the entries whose number was met before. -/
theorem resourceNotices_eq {met : List Int64} (front : List Int64)
    (hmet : ∀ id, id ∈ met ↔ id ∈ front)
    (entries : List (Int64 × Resource)) :
    Directive.resourceNotices met entries =
      (((entries.map (·.1)).zipIdx front.length).filter fun entry =>
        entry.1 ∈ (front ++ entries.map (·.1)).take entry.2).map fun entry =>
          .repeatedResource entry.1 := by
  -- The numbers met are those of the entries in front, and the entry is one more of them.
  induction entries generalizing met front with
  | nil => rfl
  | cons entry entries ih =>
    have hmet' : ∀ id, id ∈ entry.1 :: met ↔ id ∈ front ++ [entry.1] := by
      intro id
      simp [hmet, or_comm]
    have htail := ih (front ++ [entry.1]) hmet'
    rw [List.length_append, List.length_singleton, List.append_assoc, List.singleton_append]
      at htail
    rw [Directive.resourceNotices, htail, List.map_cons, List.zipIdx_cons, List.filter_cons]
    by_cases h : entry.1 ∈ front
    · simp [h, hmet]
    · simp [h, hmet]

/-- What the log is told of a resource table. -/
theorem log_resources (entries : List (Int64 × Resource)) :
    (Directive.resources entries).notices.map (fun n => (n.level, n.message)) =
      (repeatedIds (entries.map (·.1))).map fun id => (.warn,
        s!"resource {render id} is defined more than once; keeping the last definition") := by
  rw [Directive.notices, resourceNotices_eq [] (by simp), repeatedIds, List.map_map,
    List.map_map]
  rfl

/-! ## 3. Tables one after the other -/

/-- The section of a resource table. -/
def printTable (entries : List (Int64 × Resource)) : List Char :=
  "qrc :\n".toList ++ entries.flatMap fun entry => entry.2.print entry.1

/-- A source that is one resource table after the other. -/
def printTables (tables : List (List (Int64 × Resource))) : String :=
  String.ofList (tables.flatMap printTable)

theorem settled_tables (tables : List (List (Int64 × Resource))) :
    Settled (tables.flatMap printTable) ∧
      ∀ offset, (⟨tables.flatMap printTable, offset, false⟩ : Reader).resource? = .ok none := by
  cases tables with
  | nil => exact ⟨settled_nil, fun offset => rfl⟩
  | cons entries tables =>
    have hbegins : Begins "qrc" ((entries :: tables).flatMap printTable) := by
      refine ⟨?_, fun offset => rfl⟩
      rintro c ⟨⟩
      rfl
    refine ⟨hbegins.settled, fun offset => ?_⟩
    simp only [resource?, hbegins.lexeme_next, show ResourceKind.ofKeyword? "qrc" = none by decide]

/-- Each table is read as a directive of its own. -/
theorem directives_tables {tables : List (List (Int64 × Resource))}
    (h : ∀ entries ∈ tables, ∀ entry ∈ entries, IsPlainText entry.2.content.toList)
    (offset : Nat) :
    ∃ last, (⟨tables.flatMap printTable, offset, false⟩ : Reader).directives =
      ⟨(tables.map fun entries => entries.map fun entry => (entry.1, entry.2.tidy)).map
        .resources, .ok last⟩ := by
  induction tables generalizing offset with
  | nil => exact ⟨_, directives_of_atEnd (by rw [List.flatMap_nil, settled_nil.skipBreaks]; rfl)⟩
  | cons entries tables ih =>
    obtain ⟨hsettled, hnone⟩ := settled_tables tables
    obtain ⟨hword, offset', hdirective⟩ :=
      directive_print hsettled hnone (h entries List.mem_cons_self) offset
    obtain ⟨last, htables⟩ := ih (fun es hes => h es (List.mem_cons_of_mem _ hes)) offset'
    obtain ⟨hskip, hend⟩ := skipBreaks_of_identifier (hword offset)
    refine ⟨last, ?_⟩
    rw [List.flatMap_cons, printTable, List.append_assoc,
      directives_of_ok (by rw [hskip, hend]) (by rw [hskip, hdirective]), hskip, hdirective,
      htables]
    rfl

/-- The last table counts. -/
theorem foldl_resources (tables : List (List (Int64 × Resource))) (q : Quest) :
    (tables.map Directive.resources).foldl Directive.applyTo q =
      { q with resources := (tables.getLast?.map Table.ofList).getD q.resources } := by
  induction tables generalizing q with
  | nil => rfl
  | cons entries tables ih =>
    rw [List.map_cons, List.foldl_cons, ih]
    cases tables <;> simp [Directive.applyTo, List.getLast?_cons]

/-- **The last definition of a resource counts, and each repetition is told.** Take any
resource tables one after the other, of entries whose texts are plain lines. The source is
read without an error. The quest has the resources of the last table and nothing else:
its numbers are those of that table, and at each number stands the last entry of it there,
with its text made tidy. The log is told, table by table and in the order of the entries,
of each entry whose number stands earlier in the same table, and of nothing else. -/
theorem resourceTables_last_wins (tables : List (List (Int64 × Resource)))
    (h : ∀ entries ∈ tables, ∀ entry ∈ entries, IsPlainText entry.2.content.toList) :
    ∃ table : Table Int64 Resource,
      Quest.parse (printTables tables) = .ok { resources := table } ∧
      (Quest.reading (printTables tables)).notices.map (fun n => (n.level, n.message)) =
        (tables.flatMap fun entries => (repeatedIds (entries.map (·.1))).map fun id => (.warn,
          s!"resource {render id} is defined more than once; keeping the last definition")) ∧
      (∀ id, id ∈ table.keys ↔ id ∈ (tables.getLastD []).map (·.1)) ∧
      ∀ id, table.get? id = (Table.lastFor? (tables.getLastD []) id).map Resource.tidy := by
  obtain ⟨last, hdirectives⟩ := directives_tables h 0
  have hsource : Reader.ofSource (printTables tables) = ⟨tables.flatMap printTable, 0, false⟩ := by
    rw [Reader.ofSource, printTables, String.toList_ofList]
  let tidied (entries : List (Int64 × Resource)) := entries.map fun entry => (entry.1, entry.2.tidy)
  refine ⟨.ofList (tidied (tables.getLastD [])), ?_, ?_, ?_, ?_⟩
  · rw [Quest.parse_eq, hsource, hdirectives, Run.quest, foldl_resources]
    cases tables using List.reverseRecOn <;> simp [Except.map, tidied, Table.ofList]
  · rw [Quest.reading, hsource, hdirectives]
    simp only [List.flatMap_map, List.map_flatMap]
    refine List.flatMap_congr fun entries _ => ?_
    rw [log_resources, List.map_map]
    rfl
  · intro id
    rw [Table.mem_keys_ofList, List.map_map]
    rfl
  · intro id
    rw [Table.get?_ofList, Table.lastFor?_map]

/-- Two tables of a harbour. The second has a number three times, once between entries of
another one, and one number of the first. -/
def harbour : List (List (Int64 × Resource)) := [
  [(1, ⟨.message, "Mind the tide"⟩), (2, ⟨.sound, "bell"⟩)],
  [(-3, ⟨.message, "1 2"⟩), (1, ⟨.stage, "quay"⟩), (-3, ⟨.video, "7"⟩),
    (-3, ⟨.message, "  The 007 $- \n\t+05\n 1 2"⟩)]]

theorem resourceTables_last_wins_harbour :
    ∃ table : Table Int64 Resource,
      Quest.parse (printTables harbour) = .ok { resources := table } ∧
      table.get? 1 = some ⟨.stage, "quay"⟩ ∧ table.get? 2 = none ∧
      table.get? (-3) = some ⟨.message, "The 007 $-\n5\n1 2"⟩ ∧
      (Quest.reading (printTables harbour)).notices.map (·.message) =
        ["resource -3 is defined more than once; keeping the last definition",
          "resource -3 is defined more than once; keeping the last definition"] := by
  obtain ⟨table, hparse, hlog, -, hget⟩ :=
    resourceTables_last_wins harbour (by decide)
  refine ⟨table, hparse, ?_, ?_, ?_, ?_⟩
  · rw [hget]
    decide
  · rw [hget]
    decide
  · rw [hget]
    decide
  · have hmessages := congrArg (List.map (·.2)) hlog
    rw [List.map_map] at hmessages
    exact hmessages.trans (by decide)

/-- The text of an entry can be a numeral in another form, and then it is not kept as it
stands. -/
theorem resourceTable_not_verbatim :
    ¬∀ entries : List (Int64 × Resource),
      (∀ entry ∈ entries, ∀ line ∈ lines entry.2.content.toList,
        line ≠ [] ∧ (∀ c ∈ line, c ≠ ':') ∧ line.head? ≠ some '(' ∧ ¬OpensComment line) →
      ∃ q, Quest.parse (printTables [entries]) = .ok q ∧
        ∀ id, q.resources.get? id = Table.lastFor? entries id := by
  intro h
  have hlines : lines "007".toList = ["007".toList] := by decide
  obtain ⟨q, hparse, hget⟩ := h [(1, ⟨.message, "007"⟩)] (by
    rw [List.forall_mem_singleton, hlines, List.forall_mem_singleton]
    exact ⟨by decide, by simp, by decide, by decide⟩)
  have hkept : Quest.parse (printTables [[(1, ⟨.message, "007"⟩)]]) =
      .ok { resources := .ofList [(1, ⟨.message, "7"⟩)] } :=
    Quest.parse_of_runFor (n := 20) (by cbv)
  rw [hkept] at hparse
  cases hparse
  exact absurd (hget 1) (by decide)

end Questbook
