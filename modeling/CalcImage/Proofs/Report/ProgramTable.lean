import Mathlib.Data.List.Chain
import CalcImage.Proofs.Program.Groups
import CalcImage.Proofs.Safety

/-!
# The table of programs

The rows of the table are labels and sizes (`Report.TableRow`). Read from row to row they spell the catalog, and a size
shares its row with the label before it (`Report.Spells`). The groups of a catalog have such rows, so a table with rows
shows all of the catalog; but there is none when no program has an end of its own, and then the labels before the
permanent end are not shown (`Image.programTable_iff`).
-/

namespace CalcImage

open CalcImage.Text

namespace Report

/-- A row of the table of programs: a label, a size, or a label with a size. -/
structure TableRow where
  label : Option String
  bytes : Option Int

namespace TableRow

/-- The text of a row. -/
def text (r : TableRow) : String :=
  r.label.elim "" labelCell ++ r.bytes.elim "" fun bytes => alignRight 3 (ofInt bytes) ++ " bytes"

/-- The lines of a row: its text, and a rule when it closes a program. -/
def lines (r : TableRow) : List String := r.text :: if r.bytes.isSome then [rule] else []

/-- The entries that a row shows. -/
def entries (r : TableRow) : List Entry :=
  (r.label.map fun name => Entry.label name none).toList ++ (r.bytes.map Entry.size).toList

end TableRow

/-- The rows spell the entries: each entry stands in one row, in the order of the entries, no row is empty, and a size
stands beside the label before it unless that label has its program closed already. -/
structure Spells (rows : List TableRow) (entries : List Entry) : Prop where
  all : rows.flatMap TableRow.entries = entries.map Entry.unkeyed
  filled : ∀ r ∈ rows, r.label.isSome ∨ r.bytes.isSome
  beside : rows.IsChain fun r next => r.bytes = none → next.label.isSome

/-- The lines of a table with these rows. -/
def tableLines : List TableRow → List String
  | [] => ["  No programs found in memory."]
  | r :: rows => "  Programs                              Size" :: rule :: (r :: rows).flatMap TableRow.lines

/-- The rows of the labels of a program, the last one with its size. -/
def rowsOf : List String → Option Int → List TableRow
  | [], none => []
  | [], some bytes => [⟨none, some bytes⟩]
  | [name], size => [⟨some name, size⟩]
  | name :: next :: names, size => ⟨some name, none⟩ :: rowsOf (next :: names) size

section Group

theorem lines_rowsOf (names : List String) (size : Option Int) :
    (rowsOf names size).flatMap TableRow.lines = groupRows ⟨names, size⟩ := by
  fun_induction rowsOf names size with
  | case1 => rfl
  | case2 bytes => simp [TableRow.lines, TableRow.text, groupRows]
  | case3 name size =>
    cases size with
    | none => simp [TableRow.lines, TableRow.text, groupRows]
    | some bytes => simp [TableRow.lines, TableRow.text, groupRows, String.append_assoc]
  | case4 name next names size ih =>
    rw [List.flatMap_cons, ih]
    cases size with
    | none => simp [TableRow.lines, TableRow.text, groupRows]
    | some bytes => simp [TableRow.lines, TableRow.text, groupRows]

theorem entries_rowsOf (names : List String) (size : Option Int) :
    (rowsOf names size).flatMap TableRow.entries = Group.entries ⟨names, size⟩ := by
  fun_induction rowsOf names size with
  | case1 => rfl
  | case2 bytes => rfl
  | case3 name size => simp [TableRow.entries, Group.entries]
  | case4 name next names size ih =>
    rw [List.flatMap_cons, ih]
    rfl

theorem filled_rowsOf (names : List String) (size : Option Int) :
    ∀ r ∈ rowsOf names size, r.label.isSome ∨ r.bytes.isSome := by
  fun_induction rowsOf names size with
  | case1 => simp
  | case2 bytes => simp
  | case3 name size => simp
  | case4 name next names size ih =>
    intro r member
    rcases List.mem_cons.1 member with rfl | member
    · exact .inl rfl
    · exact ih r member

/-- The first label of a program opens its first row. -/
theorem exists_rowsOf_cons (name : String) (names : List String) (size : Option Int) :
    ∃ bytes rows, rowsOf (name :: names) size = ⟨some name, bytes⟩ :: rows := by
  cases names with
  | nil => exact ⟨size, [], rfl⟩
  | cons next names => exact ⟨none, rowsOf (next :: names) size, rfl⟩

theorem beside_rowsOf (names : List String) (size : Option Int) :
    (rowsOf names size).IsChain fun r next => r.bytes = none → next.label.isSome := by
  fun_induction rowsOf names size with
  | case1 => exact .nil
  | case2 bytes => exact .singleton _
  | case3 name size => exact .singleton _
  | case4 name next names size ih =>
    obtain ⟨bytes, rows, opens⟩ := exists_rowsOf_cons next names size
    rw [opens] at ih ⊢
    exact ih.cons_cons fun _ => rfl

/-- The size of a program stands in its last row. -/
theorem bytes_last_rowsOf {names : List String} {size : Option Int} {r : TableRow}
    (last : r ∈ (rowsOf names size).getLast?) : r.bytes = size := by
  fun_induction rowsOf names size with
  | case1 => cases last
  | case2 bytes =>
    cases last
    rfl
  | case3 name size =>
    cases last
    rfl
  | case4 name next names size ih =>
    obtain ⟨bytes, rows, opens⟩ := exists_rowsOf_cons next names size
    rw [opens] at ih last
    rw [List.getLast?_cons_cons] at last
    exact ih last

end Group

section Groups

open Catalog

/-- The rows of all programs. -/
def rowsOfAll (groups : List Group) : List TableRow := groups.flatMap fun g => rowsOf g.labels g.size

theorem lines_rowsOfAll (groups : List Group) :
    (rowsOfAll groups).flatMap TableRow.lines = groups.flatMap groupRows := by
  rw [rowsOfAll, List.flatMap_assoc]
  congr 1
  funext g
  exact lines_rowsOf g.labels g.size

theorem filled_rowsOfAll (groups : List Group) : ∀ r ∈ rowsOfAll groups, r.label.isSome ∨ r.bytes.isSome := by
  intro r member
  obtain ⟨g, -, row⟩ := List.mem_flatMap.1 member
  exact filled_rowsOf g.labels g.size r row

theorem rowsOfAll_cons (g : Group) (groups : List Group) :
    rowsOfAll (g :: groups) = rowsOf g.labels g.size ++ rowsOfAll groups := List.flatMap_cons

theorem entries_rowsOfAll (groups : List Group) :
    (rowsOfAll groups).flatMap TableRow.entries = groups.flatMap Group.entries := by
  rw [rowsOfAll, List.flatMap_assoc]
  congr 1
  funext g
  exact entries_rowsOf g.labels g.size

/-- Only the last group has no size, so a row without a size has a label after it. -/
theorem beside_rowsOfAll (pending : List String) (es : List Entry) :
    (rowsOfAll (groupsFrom pending es)).IsChain fun r next => r.bytes = none → next.label.isSome := by
  fun_induction groupsFrom pending es with
  | case1 pending empty => exact .nil
  | case2 pending nonempty =>
    rw [rowsOfAll_cons, rowsOfAll, List.flatMap_nil, List.append_nil]
    exact beside_rowsOf _ _
  | case3 pending name key es ih => exact ih
  | case4 pending bytes es ih =>
    rw [rowsOfAll_cons]
    refine (beside_rowsOf _ _).append ih ?_
    intro r last next _ unsized
    rw [bytes_last_rowsOf last] at unsized
    cases unsized

/-- The rows of the groups of a catalog spell it. -/
theorem spells_rowsOfAll (c : Catalog) : Spells (rowsOfAll c.groups) c.entries where
  all := (entries_rowsOfAll c.groups).trans (grouping_groups c).written
  filled := filled_rowsOfAll c.groups
  beside := beside_rowsOfAll [] c.entries

end Groups

/-- The table of programs shows the whole catalog. -/
def ShowsAll (c : Catalog) : Prop := ∃ rows, Spells rows c.entries ∧ programTable c = tableLines rows

/-- Rows that spell an entry make a table with rows. -/
theorem Spells.exists_cons {rows : List TableRow} {es : List Entry} (spells : Spells rows es) (nonempty : es ≠ []) :
    ∃ r rest, rows = r :: rest := by
  apply List.exists_cons_of_ne_nil
  rintro rfl
  have noEntries : [] = es.map Entry.unkeyed := spells.all
  exact nonempty (List.map_eq_nil_iff.1 noEntries.symm)

theorem programTable_of_pos {c : Catalog} (counted : 0 < c.programCount) (nonempty : c.entries ≠ []) :
    programTable c = tableLines (rowsOfAll c.groups) := by
  obtain ⟨r, rest, rows⟩ := (spells_rowsOfAll c).exists_cons nonempty
  rw [programTable, if_pos counted, ← lines_rowsOfAll, rows, tableLines]

/-- The table shows everything unless there are labels, and no size after any of them. -/
theorem showsAll_iff {c : Catalog} (counted : c.programCount = c.entries.countP Entry.isSize) :
    ShowsAll c ↔ c.entries = [] ∨ ∃ bytes, Entry.size bytes ∈ c.entries := by
  have sized : 0 < c.programCount ↔ ∃ bytes, Entry.size bytes ∈ c.entries := by
    rw [counted, Int.natCast_pos, List.countP_pos_iff]
    constructor
    · rintro ⟨e, member, size⟩
      cases e with
      | label name key => cases size
      | size bytes => exact ⟨bytes, member⟩
    · rintro ⟨bytes, member⟩
      exact ⟨_, member, rfl⟩
  by_cases empty : c.entries = []
  · have uncounted : ¬0 < c.programCount := by
      rw [sized, empty]
      simp
    have blank : Spells [] c.entries := by
      rw [empty]
      exact ⟨rfl, by simp, .nil⟩
    refine ⟨fun _ => .inl empty, fun _ => ⟨[], blank, ?_⟩⟩
    rw [programTable, if_neg uncounted, tableLines]
  · rw [← sized]
    constructor
    · rintro ⟨rows, spells, table⟩
      refine .inr (Decidable.byContradiction fun uncounted => ?_)
      obtain ⟨r, rest, rfl⟩ := spells.exists_cons empty
      rw [programTable, if_neg uncounted, tableLines] at table
      exact absurd (List.cons.inj table).2 (List.cons_ne_nil _ _).symm
    · rintro (noEntries | counted)
      · exact absurd noEntries empty
      · exact ⟨_, spells_rowsOfAll c, programTable_of_pos counted empty⟩

theorem exists_of_summary {east : Int} {s : Summary} {lines : List String} (written : summary east s = .ok lines) :
    ∃ rest, lines = "" :: programTable s.catalog ++ "" :: rest := by
  unfold summary at written
  cases alarms : alarmTable east s.alarms with
  | error f =>
    rw [alarms] at written
    cases written
  | ok alarmLines =>
    cases counts : countTable s with
    | error f =>
      rw [alarms, counts] at written
      cases written
    | ok countLines =>
      rw [alarms, counts] at written
      refine ⟨alarmLines ++ "" :: countLines ++ [""], ?_⟩
      rw [← Except.ok.inj written, List.append_assoc, List.append_assoc]
      simp

end Report

namespace Image

open Catalog

variable {img : Image} {tz east : Int}

/-- A summary begins with the table of the programs in the catalog. -/
theorem catalog_of_summary {lines : List String} (summed : (img.summary tz east).outcome.1 = .ok lines) :
    ∃ c rest, img.catalog = .ok c ∧ lines = "" :: Report.programTable c ++ "" :: rest := by
  have ran : (img.summary tz east).on [] = (.ok lines, (img.summary tz east).outcome.2) :=
    Prod.ext summed rfl
  obtain ⟨s, between, counted, written⟩ := Traced.ok_of_bind ran
  rw [Summary.ofImage, Summary.ofAlarms] at counted
  obtain ⟨c, _, cataloged, counted⟩ := Traced.ok_of_bind counted
  obtain ⟨as, _, _, counted⟩ := Traced.ok_of_bind counted
  obtain ⟨bottom, _, _, counted⟩ := Traced.ok_of_bind counted
  rw [Traced.on_lift] at cataloged
  rw [Traced.on_pure] at counted
  rw [Traced.on_lift] at written
  obtain ⟨rest, lines_eq⟩ := Report.exists_of_summary (congrArg Prod.fst written)
  cases counted
  exact ⟨c, rest, congrArg Prod.fst cataloged, lines_eq⟩

/-- Without an alarm partition an image with a catalog is summed up. -/
theorem exists_summary_of_unmarked {c : Catalog} (limit : img.status.programLimit ≤ registerCount)
    (unmarked : ∀ k, partitionBase ≤ k → k < img.status.programLimit → img.byte (7 * k) ≠ Alarm.partitionMark)
    (cataloged : img.catalog = .ok c) : ∃ lines, (img.summary 0 0).outcome.1 = .ok lines := by
  rw [Traced.outcome_eq]
  have here : (0 : Int).natAbs ≤ 86400 := by decide
  rcases summary_cases limit here here [] with ⟨lines, log, written⟩ | ⟨f, uncataloged, -⟩ | ⟨⟨p, k, partition, -⟩, -⟩
  · exact ⟨lines, by rw [written]⟩
  · rw [cataloged] at uncataloged
    cases uncataloged
  · have noPartition : img.alarmPartition = .ok none := by
      simp only [partitionBase, registerCount] at limit unmarked
      apply alarmPartitionFrom_of_none
      · simp only [partitionBase, registerCount]
        omega
      · intro k low high
        simp only [partitionBase] at low high
        exact unmarked k low (by omega)
    rw [noPartition] at partition
    cases partition

/-- An image that holds nothing but a program down to its limit is summed up. -/
theorem exists_summary_holding {packed program : List UInt8} {top count : Nat} {c : Catalog}
    (held : img = holding packed top program) (size : program.length = 7 * count) (long : packed.length = 7 * 1)
    (high : top < registerCount) (limit : img.status.programLimit + count = top + 1) (cataloged : img.catalog = .ok c) :
    ∃ lines, (img.summary 0 0).outcome.1 = .ok lines := by
  apply exists_summary_of_unmarked _ _ cataloged
  · simp only [registerCount] at high ⊢
    omega
  · intro k base below
    simp only [partitionBase] at base
    rw [held, byte_holding size long (by omega) (by omega) (by omega)]
    decide

/-- **What the table of programs shows.** A summary begins with the table of the programs in the catalog. It shows the
whole catalog, each label and each size in one row, when some program has an end of its own or there is no label at all;
otherwise it says that there is no program, and leaves out the labels before the permanent end. -/
theorem programTable_iff {lines : List String} (summed : (img.summary tz east).outcome.1 = .ok lines) :
    ∃ c rest, img.catalog = .ok c ∧ lines = "" :: Report.programTable c ++ "" :: rest ∧
      (Report.ShowsAll c ↔ c.entries = [] ∨ ∃ bytes, Entry.size bytes ∈ c.entries) := by
  obtain ⟨c, rest, cataloged, lines_eq⟩ := catalog_of_summary summed
  exact ⟨c, rest, cataloged, lines_eq, Report.showsAll_iff (tallied_catalog cataloged).2⟩

/-- The table of two programs, one with an end of its own and one before the permanent end. -/
theorem programTable_twoPrograms :
    ∃ lines, (twoPrograms.summary 0 0).outcome.1 = .ok lines ∧
      ∃ c rest, twoPrograms.catalog = .ok c ∧ lines = "" :: Report.programTable c ++ "" :: rest ∧
        (Report.ShowsAll c ↔ c.entries = [] ∨ ∃ bytes, Entry.size bytes ∈ c.entries) ∧
        Report.programTable c =
          ["  Programs                              Size", Report.rule, Report.labelCell "AB" ++ " 12 bytes", Report.rule,
            Report.labelCell "C"] := by
  have limit : twoPrograms.status.programLimit + 3 = 300 + 1 := by rw [status_twoPrograms]
  obtain ⟨lines, summed⟩ : ∃ lines, (twoPrograms.summary 0 0).outcome.1 = .ok lines :=
    exists_summary_holding rfl length_programs rfl (by decide) limit catalog_twoPrograms
  obtain ⟨c, rest, cataloged, lines_eq, shows⟩ := programTable_iff summed
  refine ⟨lines, summed, c, rest, cataloged, lines_eq, shows, ?_⟩
  rw [catalog_twoPrograms] at cataloged
  cases cataloged
  rfl

/-- The program with the label A, which the permanent end closes. -/
def unendedPassages : List Passage :=
  [⟨⟨0xC0, 0x00, 0xF2, [0x00, 0x41]⟩, [0x85, 0x00, 0x00, 0x00, 0x00, 0x00]⟩, ⟨⟨0xC4, 0x01, 0x29, []⟩, []⟩]

/-- An image with this program alone, between the program top 300 and the program limit 299. -/
def unended : Image :=
  holding [0x00, 0x00, 0x01, 0x69, 0x12, 0xD1, 0x2B] 300 (unendedPassages.flatMap Passage.bytes)

theorem length_unendedPassages : (unendedPassages.flatMap Passage.bytes).length = 7 * 2 := rfl

theorem status_unended : unended.status = ⟨361, 300, 299⟩ := by
  have packed : unended.status = _ := status_holding length_unendedPassages rfl (by decide)
  rw [packed]
  decide

theorem catalog_unended : unended.catalog = .ok ⟨1, 0, [.label "A" (some 0x00)]⟩ := by
  have top_eq : unended.status.programTop = (300 : Nat) := by
    rw [status_unended]
    rfl
  have tape : unended.tape (7 * 300 + 6) =
      unendedPassages.flatMap Passage.bytes ++ unended.tape (7 * (300 - 2) + 6) := by
    have inside : 300 < registerCount := by decide
    unfold unended
    exact tape_holding inside length_unendedPassages (by decide)
  rw [catalog_of_passages top_eq (by rw [status_unended]; decide) (by decide) (by decide) tape
    (by rw [status_unended]; rfl) (by rw [length_tape]; decide)]
  rfl

/-- The label A is in the catalog, and the summary says that there is no program. -/
theorem unended_unlisted :
    unended.catalog = .ok ⟨1, 0, [.label "A" (some 0x00)]⟩ ∧
      (∃ lines rest, (unended.summary 0 0).outcome.1 = .ok lines ∧
        lines = "" :: "  No programs found in memory." :: "" :: rest) ∧
      ¬Report.ShowsAll ⟨1, 0, [.label "A" (some 0x00)]⟩ := by
  have limit : unended.status.programLimit + 2 = 300 + 1 := by rw [status_unended]
  refine ⟨catalog_unended, ?_, ?_⟩
  · obtain ⟨lines, summed⟩ : ∃ lines, (unended.summary 0 0).outcome.1 = .ok lines :=
      exists_summary_holding rfl length_unendedPassages rfl (by decide) limit catalog_unended
    obtain ⟨c, rest, cataloged, lines_eq⟩ := catalog_of_summary summed
    rw [catalog_unended] at cataloged
    cases cataloged
    exact ⟨lines, rest, summed, lines_eq⟩
  · rw [Report.showsAll_iff rfl]
    simp

end Image

end CalcImage
