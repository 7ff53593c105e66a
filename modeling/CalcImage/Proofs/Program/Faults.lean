import CalcImage.Proofs.Fault
import CalcImage.Proofs.Program.Search
import CalcImage.Proofs.Traced

/-!
# What can go wrong with programs

Whoever reads along the walk has no fault but the one that the walk comes to its end (`Tape.ranOut`). So the catalog,
the search for a label and a listing have no faults but those of the walk, and with room for a marker below the limit
the catalog and the search have none.
-/

namespace CalcImage

open Walk

namespace Tape

theorem faults_take (count : Nat) (t : Tape) : Faults (· = ranOut) (take count t) := by
  unfold take
  dsimp only
  split
  · exact .ok _
  · exact .error rfl

theorem faults_standing (t : Tape) : Faults (· = ranOut) (standing t) := by
  unfold standing
  split
  · exact .error rfl
  · exact .ok _

end Tape

/-- That a walk comes to its end is one of the tool's own faults. -/
theorem reports_of_ranOut {α : Type} {e : Except Fault α} (faults : Faults (· = Tape.ranOut) e) : Reports e := by
  refine faults.mono ?_
  rintro f rfl
  rfl

theorem Marker.faults_read (t : Tape) : Faults (· = Tape.ranOut) (read t) := by
  unfold read
  split
  · exact .error rfl
  · split
    · exact .ok _
    · split
      · split
        case h_1 f failed => exact .error (Tape.faults_take _ _ f failed)
        case h_2 rest _ =>
          cases standing : Tape.standing rest with
          | error f => exact .error (Tape.faults_standing _ f standing)
          | ok rest => exact .ok _
      · exact .error rfl

theorem Instruction.faults_read (t : Tape) : Faults (· = Tape.ranOut) (read t) := by
  by_cases long : ∃ size, t.span = some size ∧ size < t.length
  · obtain ⟨size, span, long⟩ := long
    obtain ⟨i, taken, -⟩ := read_of_span span long
    rw [taken]
    exact .ok _
  · rw [read_of_short fun size span => Nat.le_of_not_lt fun inside => long ⟨size, span, inside⟩]
    exact .error rfl

theorem Listing.faults_disassemble (t : Tape) : Faults (· = Tape.ranOut) (disassemble t) := by
  fun_induction disassemble t with
  | case1 t f failed => exact .error (Instruction.faults_read t f failed)
  | case2 => exact .ok _
  | case3 t i rest taken goesOn f failed ih => exact .error (ih f failed)
  | case4 => exact .ok _

theorem FoundLabel.faults_search (name : String) (room : Nat) (t : Tape) :
    Faults (· = Tape.ranOut) (search name room t) := by
  fun_induction search name room t with
  | case1 => exact .ok _
  | case2 room t f failed => exact .error (Marker.faults_read t f failed)
  | case3 => exact .ok _
  | case4 room t found read other f failed => exact .error (Tape.faults_standing _ f failed)
  | case5 room t found read other t' standing ih => exact ih

namespace Catalog

theorem faults_scan (room : Nat) (t : Tape) (s : Scan) : Faults (· = Tape.ranOut) (scan room t s) := by
  fun_induction scan room t s with
  | case1 => exact .ok _
  | case2 => exact .error rfl
  | case3 room s _ b t _ f failed => exact .error (Marker.faults_read _ f failed)
  | case4 room s _ b t _ found _ f failed => exact .error (Tape.faults_standing _ f failed)
  | case5 room s _ b t _ found _ marked t' _ ih => exact ih
  | case6 room s _ b t _ f failed => exact .error (Tape.faults_standing _ f failed)
  | case7 room s _ b t _ t' _ ih => exact ih

/-- A marker is counted once at most. -/
theorem counts_mark (s : Scan) (m : Marker) : (s.mark m).labels + (s.mark m).programs ≤ s.labels + s.programs + 1 := by
  unfold Scan.mark
  cases m.kind <;> dsimp only <;> omega

/-- A scan counts no more markers than it has locations to stand on. -/
theorem counts_scan {room : Nat} {t : Tape} {s s' : Scan} (done : scan room t s = .ok s') :
    s'.labels + s'.programs ≤ s.labels + s.programs + room := by
  fun_induction scan room t s with
  | case1 =>
    cases done
    omega
  | case2 => cases done
  | case3 => cases done
  | case4 => cases done
  | case5 room s _ b t _ found _ marked t' _ ih =>
    have step : marked.labels + marked.programs ≤ s.labels + s.programs + 1 := by
      cases found with
      | none => exact Nat.le_succ _
      | some p => exact counts_mark s p.1
    have rest := ih done
    dsimp only at rest
    omega
  | case6 => cases done
  | case7 room s _ b t _ t' _ ih =>
    have rest := ih done
    omega

end Catalog

namespace Image

variable {img : Image}

theorem reports_location (loc : Int) : Reports (location loc) := by
  unfold location
  split
  · exact .ok _
  · exact .error rfl

theorem reports_programTape (img : Image) : Reports img.programTape := by
  unfold programTape
  dsimp only
  split
  · exact .ok _
  · exact (reports_location _).bind fun loc _ => .ok _

theorem reports_catalog (img : Image) : Reports img.catalog := by
  apply (reports_programTape img).bind
  rintro ⟨t, room⟩ _
  exact (reports_of_ranOut (Catalog.faults_scan room t _)).bind fun s _ => .ok _

theorem reports_findLabel (img : Image) (name : String) : Reports (img.findLabel name) := by
  apply (reports_programTape img).bind
  rintro ⟨t, room⟩ _
  exact reports_of_ranOut (FoundLabel.faults_search name room t)

theorem reports_listing (img : Image) (name : String) : Reports (img.listing name).outcome.1 := by
  rw [Traced.outcome_eq, listing]
  cases searched : img.findLabel name with
  | error f => exact .error (reports_findLabel img name f searched)
  | ok found =>
    rw [Traced.on_bind_of_ok (Traced.on_lift _)]
    cases found with
    | none => exact .ok _
    | some f =>
      dsimp only
      cases listed : Listing.disassemble f.rest with
      | error f' => exact .error (reports_of_ranOut (Listing.faults_disassemble f.rest) f' listed)
      | ok is => exact .ok _

theorem room_programTape {t : Tape} {room : Nat} (taken : img.programTape = .ok (t, room)) : room ≤ memorySize := by
  unfold programTape location at taken
  dsimp only at taken
  simp only [memorySize]
  split at taken
  · cases taken
    omega
  · split at taken
    · cases taken
      omega
    · cases taken

/-- The catalog counts no more labels and programs than there are locations. -/
theorem counts_catalog {c : Catalog} (cataloged : img.catalog = .ok c) :
    0 ≤ c.labelCount ∧ 0 ≤ c.programCount ∧ c.labelCount + c.programCount ≤ memorySize := by
  obtain ⟨t, room, s, tape, scanned, rfl⟩ := exists_scan_of_catalog cataloged
  have inside := room_programTape tape
  have counts : s.labels + s.programs ≤ 0 + 0 + room := Catalog.counts_scan scanned
  simp only [Catalog.Scan.report]
  omega

/-- With room for a marker below the limit the catalog has no fault. -/
theorem exists_catalog (enough : 3 ≤ img.status.programLimit) (high : img.status.programTop ≤ 1111) :
    ∃ c, img.catalog = .ok c := by
  rcases programMemory_cases high with empty | ⟨top, top_eq, low, inside⟩
  · exact ⟨_, catalog_of_empty empty⟩
  · exact ⟨_, catalog_of_le top_eq low (by simp only [registerCount]; omega) enough⟩

/-- With room for a marker below the limit the search for a label has no fault. -/
theorem exists_findLabel (name : String) (enough : 3 ≤ img.status.programLimit) (high : img.status.programTop ≤ 1111) :
    ∃ found, img.findLabel name = .ok found := by
  rcases programMemory_cases high with empty | ⟨top, top_eq, low, inside⟩
  · exact ⟨none, findLabel_of_empty empty name⟩
  · obtain ⟨found, searched, -⟩ := exists_findLabel_tells name enough top_eq low inside
    exact ⟨found, searched⟩

end Image

end CalcImage
