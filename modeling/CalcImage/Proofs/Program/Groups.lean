import CalcImage.Proofs.Program.Kept

/-!
# The books of a catalog

A scan counts the labels and the ends apart from the entries that it adds, and after each step the counts are those of
the entries (`Catalog.Scan.Tallied`). Grouping the entries loses nothing: written out again the groups are the entries,
and no other groups are, if each but the last one is closed by a size (`Catalog.Grouping.eq_groups`).
-/

namespace CalcImage

namespace Entry

/-- The entry is a size. -/
def isSize : Entry → Bool
  | label _ _ => false
  | size _ => true

/-- The entry is a label. -/
def isLabel : Entry → Bool
  | label _ _ => true
  | size _ => false

/-- The entry without the key that a label is assigned to. -/
def unkeyed : Entry → Entry
  | label name _ => label name none
  | size bytes => size bytes

end Entry

/-- A group written out: its labels and then its size, when it has one. -/
def Group.entries (g : Group) : List Entry :=
  g.labels.map (fun name => Entry.label name none) ++ (g.size.map Entry.size).toList

namespace Catalog

/-- The groups are the entries in their order, each group but the last one has a size, and one without a size has a
label. -/
structure Grouping (gs : List Group) (es : List Entry) : Prop where
  written : gs.flatMap Group.entries = es.map Entry.unkeyed
  closed : ∀ g ∈ gs.dropLast, g.size.isSome
  labelled : ∀ g ∈ gs, g.size = none → g.labels ≠ []

section Grouping

variable {pending : List String} {es : List Entry} {gs : List Group}

theorem flatMap_groupsFrom (pending : List String) (es : List Entry) :
    (groupsFrom pending es).flatMap Group.entries =
      pending.map (fun name => Entry.label name none) ++ es.map Entry.unkeyed := by
  fun_induction groupsFrom pending es with
  | case1 pending empty => simp_all
  | case2 pending nonempty => simp [Group.entries]
  | case3 pending name key es ih => simp [ih, Entry.unkeyed]
  | case4 pending bytes es ih => simp [ih, Group.entries, Entry.unkeyed]

theorem closed_groupsFrom (pending : List String) (es : List Entry) :
    ∀ g ∈ (groupsFrom pending es).dropLast, g.size.isSome := by
  fun_induction groupsFrom pending es with
  | case1 pending empty => simp
  | case2 pending nonempty => simp
  | case3 pending name key es ih => exact ih
  | case4 pending bytes es ih =>
    cases later : groupsFrom [] es with
    | nil => simp
    | cons g gs =>
      rw [later] at ih
      rw [List.dropLast_cons_cons]
      exact List.forall_mem_cons.2 ⟨rfl, ih⟩

theorem labelled_groupsFrom (pending : List String) (es : List Entry) :
    ∀ g ∈ groupsFrom pending es, g.size = none → g.labels ≠ [] := by
  fun_induction groupsFrom pending es with
  | case1 pending empty => simp
  | case2 pending nonempty =>
    rintro g member -
    rw [List.mem_singleton.1 member]
    rintro rfl
    exact nonempty rfl
  | case3 pending name key es ih => exact ih
  | case4 pending bytes es ih =>
    refine List.forall_mem_cons.2 ⟨?_, ih⟩
    rintro ⟨⟩

theorem grouping_groups (c : Catalog) : Grouping c.groups c.entries where
  written := flatMap_groupsFrom [] c.entries
  closed := closed_groupsFrom [] c.entries
  labelled := labelled_groupsFrom [] c.entries

/-- Keys do not matter for the groups. -/
theorem groupsFrom_unkeyed (pending : List String) (es : List Entry) :
    groupsFrom pending (es.map Entry.unkeyed) = groupsFrom pending es := by
  induction es generalizing pending with
  | nil => rfl
  | cons e es ih =>
    cases e with
    | label name key => exact ih (pending ++ [name])
    | size bytes => exact congrArg (⟨pending, some bytes⟩ :: ·) (ih [])

/-- Labels wait for the size that closes their group. -/
theorem groupsFrom_labels (names : List String) :
    groupsFrom pending (names.map (fun name => Entry.label name none) ++ es) = groupsFrom (pending ++ names) es := by
  induction names generalizing pending with
  | nil => rw [List.map_nil, List.nil_append, List.append_nil]
  | cons name names ih => rw [List.map_cons, List.cons_append, groupsFrom, ih, List.append_assoc, List.singleton_append]

/-- Groups that have been written out are found again. -/
theorem groupsFrom_flatMap (closed : ∀ g ∈ gs.dropLast, g.size.isSome)
    (labelled : ∀ g ∈ gs, g.size = none → g.labels ≠ []) : groupsFrom [] (gs.flatMap Group.entries) = gs := by
  induction gs with
  | nil => rfl
  | cons g gs ih =>
    obtain ⟨here, later⟩ := List.forall_mem_cons.1 labelled
    rw [List.flatMap_cons, Group.entries, List.append_assoc, groupsFrom_labels, List.nil_append]
    obtain ⟨names, size⟩ := g
    cases size with
    | none =>
      -- A group without a size is the last one.
      have last : gs = [] := by
        cases gs with
        | nil => rfl
        | cons g gs =>
          rw [List.dropLast_cons_cons] at closed
          cases closed _ List.mem_cons_self
      subst last
      have hasNames : ¬names.isEmpty := by
        rw [List.isEmpty_iff]
        exact here rfl
      exact if_neg hasNames
    | some bytes =>
      have closed' : ∀ g ∈ gs.dropLast, g.size.isSome := by
        intro g member
        cases gs with
        | nil => cases member
        | cons g' gs =>
          rw [List.dropLast_cons_cons] at closed
          exact closed g (List.mem_cons_of_mem _ member)
      exact congrArg (⟨names, some bytes⟩ :: ·) (ih closed' later)

/-- There is one way to group entries. -/
theorem Grouping.eq_groups {c : Catalog} (grouping : Grouping gs c.entries) : gs = c.groups := by
  calc gs
    _ = groupsFrom [] (gs.flatMap Group.entries) := (groupsFrom_flatMap grouping.closed grouping.labelled).symm
    _ = groupsFrom [] (c.entries.map Entry.unkeyed) := by rw [grouping.written]
    _ = c.groups := groupsFrom_unkeyed [] c.entries

end Grouping

section Tally

variable {s s' : Scan}

/-- The labels and the sizes among the entries have been counted. -/
structure Scan.Tallied (s : Scan) : Prop where
  labels : s.labels = s.entries.countP Entry.isLabel
  programs : s.programs = s.entries.countP Entry.isSize

theorem tallied_start : Scan.start.Tallied := ⟨rfl, rfl⟩

/-- A marker is counted where its entry is added. -/
theorem tallied_mark (tallied : s.Tallied) (m : Marker) : (s.mark m).Tallied := by
  obtain ⟨labels, programs⟩ := tallied
  unfold Scan.mark
  cases m.kind with
  | label => constructor <;> simp [labels, programs, Entry.isLabel, Entry.isSize]
  | programEnd => constructor <;> simp [labels, programs, Entry.isLabel, Entry.isSize]
  | terminal => exact ⟨labels, programs⟩

theorem tallied_scan {room : Nat} {t : Tape} (tallied : s.Tallied) (done : scan room t s = .ok s') : s'.Tallied := by
  fun_induction scan room t s with
  | case1 =>
    cases done
    exact tallied
  | case2 => cases done
  | case3 => cases done
  | case4 => cases done
  | case5 room s _ b t _ found _ marked t' _ ih =>
    have step : marked.Tallied := by
      cases found with
      | none => exact tallied
      | some p => exact tallied_mark tallied p.1
    exact ih ⟨step.labels, step.programs⟩ done
  | case6 => cases done
  | case7 room s _ b t _ t' _ ih => exact ih tallied done

end Tally

end Catalog

namespace Image

open Catalog

variable {img : Image} {c : Catalog}

/-- The counts of a catalog are those of its entries. -/
theorem tallied_catalog (cataloged : img.catalog = .ok c) :
    c.labelCount = c.entries.countP Entry.isLabel ∧ c.programCount = c.entries.countP Entry.isSize := by
  obtain ⟨t, room, s, -, scanned, rfl⟩ := exists_scan_of_catalog cataloged
  obtain ⟨labels, programs⟩ := tallied_scan tallied_start scanned
  exact ⟨congrArg Int.ofNat labels, congrArg Int.ofNat programs⟩

/-- **The books of a catalog.** The catalog of an image counts just the labels and the sizes that it has entries for.
The groups of any catalog are its entries again, in their order and with every size at the end of a group, and no other
groups are. -/
theorem catalog_lossless :
    (∀ (img : Image) (c : Catalog), img.catalog = .ok c →
      c.labelCount = c.entries.countP Entry.isLabel ∧ c.programCount = c.entries.countP Entry.isSize) ∧
    ∀ (c : Catalog) (gs : List Group), Grouping gs c.entries ↔ gs = c.groups := by
  refine ⟨fun img c => tallied_catalog, fun c gs => ⟨Grouping.eq_groups, ?_⟩⟩
  rintro rfl
  exact grouping_groups c

/-- The books of two programs, of which the second one is closed by the permanent end. -/
theorem catalog_lossless_twoPrograms :
    ∃ c, twoPrograms.catalog = .ok c ∧ c.labelCount = c.entries.countP Entry.isLabel ∧
      c.programCount = c.entries.countP Entry.isSize ∧ Grouping [⟨["AB"], some 12⟩, ⟨["C"], none⟩] c.entries := by
  obtain ⟨labels, programs⟩ := catalog_lossless.1 twoPrograms _ catalog_twoPrograms
  exact ⟨_, catalog_twoPrograms, labels, programs, (catalog_lossless.2 _ _).2 rfl⟩

end Image

end CalcImage
