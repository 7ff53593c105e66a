import CalcImage.Program.Catalog
import CalcImage.Proofs.Instruction.Marker

/-!
# The scan of program memory as a fold

A scan looks at one location after the other. `Catalog.visited` lists them, each as the tape from there on, and
`Catalog.look` is what one look makes of the state. No look fails while the tape is long enough for a marker, so the
scan is the fold of its looks (`scan_eq_foldl`), and so is the catalog (`Image.catalog_of_le`). What a scan reports are
the markers that it sights: each leaves one entry (`length_entries_foldl`), and no entry is taken back
(`entries_prefix_foldl`).
-/

namespace CalcImage

namespace Catalog

/-- The tapes that a scan of the next `room` locations looks at, `skip` of them being still stepped beyond. -/
def visited : Nat → Nat → Tape → List Tape
  | 0, _, _ => []
  | _ + 1, _, [] => []
  | room + 1, skip + 1, _ :: t => visited room skip t
  | room + 1, 0, b :: t => (b :: t) :: visited room (stride b - 1) t

/-- The marker that a scan reports at the head of a tape, and the tape after it. -/
def sighting (t : Tape) : Option (Marker × Tape) :=
  match Marker.read t with
  | .ok (some (m, rest)) => if m.kind = .terminal then none else some (m, rest)
  | _ => none

/-- What a scan makes of the tape that it looks at. -/
def look (s : Scan) : Tape → Scan
  | [] => s
  | b :: t =>
    let seen := match sighting (b :: t) with
      | none => s
      | some (m, _) => s.mark m
    if stride b = 1 then { seen with steps := seen.steps + 1 } else seen

/-- The catalog of a scan that has come to its end. -/
def Scan.report (s : Scan) : Catalog := ⟨s.labels, s.programs, s.entries⟩

section Stride

theorem stride_pos (b : UInt8) : 0 < stride b := by
  unfold stride
  dsimp only
  split
  · omega
  · split <;> omega

theorem stride_le (b : UInt8) : stride b ≤ 3 := by
  unfold stride
  dsimp only
  split
  · omega
  · split <;> omega

/-- No global instruction is stepped beyond. -/
theorem stride_of_global {b : UInt8} (global : Shape.ofOpcode b = .global) : stride b = 1 := by
  revert b
  apply forall_byte
  decide +kernel

end Stride

section Visited

/-- What is stepped beyond is left out of the tape and of the room. -/
theorem visited_skip (room skip : Nat) (t : Tape) : visited room skip t = visited (room - skip) 0 (t.drop skip) := by
  induction skip generalizing room t with
  | zero => rfl
  | succ skip ih =>
    cases room with
    | zero => rw [visited, Nat.zero_sub, visited]
    | succ room =>
      cases t with
      | nil =>
        rw [visited, List.drop_nil]
        cases room + 1 - (skip + 1) <;> rfl
      | cons b t => rw [visited, ih, Nat.add_sub_add_right, List.drop_succ_cons]

theorem visited_cons {room : Nat} (pos : 0 < room) (b : UInt8) (t : Tape) :
    visited room 0 (b :: t) = (b :: t) :: visited (room - stride b) 0 ((b :: t).drop (stride b)) := by
  obtain ⟨room, rfl⟩ : ∃ r, room = r + 1 := ⟨room - 1, by omega⟩
  obtain ⟨skip, step⟩ : ∃ k, stride b = k + 1 := ⟨stride b - 1, by have := stride_pos b; omega⟩
  rw [visited, visited_skip, step, Nat.add_sub_cancel, Nat.add_sub_add_right, List.drop_succ_cons]

/-- Each tape that is looked at is what is left of the whole one inside the room. -/
theorem mem_visited {room skip : Nat} {t u : Tape} (member : u ∈ visited room skip t) :
    ∃ passed, passed < room ∧ u = t.drop passed ∧ u ≠ [] := by
  induction t generalizing room skip with
  | nil => cases room <;> cases member
  | cons b t ih =>
    cases room with
    | zero => cases member
    | succ room =>
      have later {skip : Nat} (member : u ∈ visited room skip t) :
          ∃ passed, passed < room + 1 ∧ u = (b :: t).drop passed ∧ u ≠ [] := by
        obtain ⟨passed, inside, rest, more⟩ := ih member
        exact ⟨passed + 1, by omega, rest, more⟩
      cases skip with
      | zero =>
        rcases List.mem_cons.1 member with rfl | member
        · exact ⟨0, Nat.succ_pos room, rfl, List.cons_ne_nil b t⟩
        · exact later member
      | succ skip => exact later member

/-- Tapes that begin with the heads and all go on with the same rest. -/
def continued (heads : List Tape) (rest : Tape) : List Tape := heads.map (· ++ rest)

theorem continued_append (heads : List Tape) (t rest : Tape) :
    continued heads (t ++ rest) = continued (continued heads t) rest := by
  rw [continued, continued, continued, List.map_map]
  congr 1
  funext head
  exact (List.append_assoc _ _ _).symm

/-- The locations that a scan looks at in the first part of a tape are settled by that part, and so are the bytes of the
second part that it steps over. -/
theorem visited_append (skip : Nat) (t : Tape) :
    ∃ beyond, ∀ (rest : Tape) (room : Nat), visited (t.length + room) skip (t ++ rest) =
      continued (visited t.length skip t) rest ++ visited room beyond rest := by
  induction t generalizing skip with
  | nil => exact ⟨skip, fun rest room => by rw [List.length_nil, Nat.zero_add, visited]; rfl⟩
  | cons b t ih =>
    cases skip with
    | zero =>
      obtain ⟨beyond, parts⟩ := ih (stride b - 1)
      refine ⟨beyond, fun rest room => ?_⟩
      rw [List.length_cons, Nat.succ_add, List.cons_append, visited, parts, visited]
      rfl
    | succ skip =>
      obtain ⟨beyond, parts⟩ := ih skip
      refine ⟨beyond, fun rest room => ?_⟩
      rw [List.length_cons, Nat.succ_add, List.cons_append, visited, parts, visited]

end Visited

section Sighting

/-- Whether a tape shows a marker is settled by its first three bytes. -/
theorem sighting_header {opcode second third : UInt8} {t : Tape} (long : Marker.bodyLength third < t.length) :
    sighting (opcode :: second :: third :: t) =
      if Shape.ofOpcode opcode = .global ∧ (⟨opcode, second, third, []⟩ : Marker).kind ≠ .terminal then
        some (⟨opcode, second, third, List.take (Marker.bodyLength third) t⟩, List.drop (Marker.bodyLength third) t)
      else none := by
  -- The body has no part in what a marker is.
  have kind (body : List UInt8) : (⟨opcode, second, third, body⟩ : Marker).kind =
      (⟨opcode, second, third, []⟩ : Marker).kind := rfl
  unfold sighting
  by_cases global : Shape.ofOpcode opcode = .global
  · rw [Marker.read_of_global global long]
    dsimp only
    rw [kind]
    by_cases terminal : (⟨opcode, second, third, []⟩ : Marker).kind = .terminal
    · rw [if_pos terminal, if_neg fun both => both.2 terminal]
    · rw [if_neg terminal, if_pos ⟨global, terminal⟩]
  · rw [Marker.read_of_ne_global global, if_neg fun both => global both.1]

/-- A marker that is reported leaves what follows its body. -/
theorem length_of_sighting {opcode second third : UInt8} {t after : Tape} {m : Marker}
    (long : Marker.bodyLength third < t.length) (seen : sighting (opcode :: second :: third :: t) = some (m, after)) :
    after.length = t.length - Marker.bodyLength third := by
  rw [sighting_header long] at seen
  split at seen
  · cases seen
    exact List.length_drop
  · cases seen

/-- What is reported is no permanent end, and stands at the head of the tape. -/
theorem eq_append_of_sighting {t rest : Tape} {m : Marker} (seen : sighting t = some (m, rest)) :
    t = m.bytes ++ rest ∧ m.kind ≠ .terminal := by
  unfold sighting at seen
  split at seen
  · rename_i m' rest' read
    split at seen
    · cases seen
    · rename_i kind
      cases seen
      exact ⟨(Marker.eq_append_of_read read).1, kind⟩
  · cases seen

/-- The permanent end is not reported. -/
theorem sighting_of_terminal {opcode second third : UInt8} {t : Tape}
    (terminal : (⟨opcode, second, third, []⟩ : Marker).kind = .terminal) :
    sighting (opcode :: second :: third :: t) = none := by
  cases seen : sighting (opcode :: second :: third :: t) with
  | none => rfl
  | some found =>
    obtain ⟨m, rest⟩ := found
    obtain ⟨parts, kind⟩ := eq_append_of_sighting seen
    simp only [Marker.bytes, List.cons_append, List.cons.injEq] at parts
    obtain ⟨rfl, rfl, rfl, -⟩ := parts
    exact absurd terminal kind

theorem sighting_of_ne_global {opcode : UInt8} {t : Tape} (other : Shape.ofOpcode opcode ≠ .global) :
    sighting (opcode :: t) = none := by
  rw [sighting, Marker.read_of_ne_global other]

end Sighting

section Look

variable {s : Scan} {t : Tape}

theorem entries_look_of_none (quiet : sighting t = none) : (look s t).entries = s.entries := by
  cases t with
  | nil => rfl
  | cons b t =>
    rw [look, quiet]
    dsimp only
    split <;> rfl

/-- Each marker that is reported leaves one entry, and only a label leaves a name and a key, which are its own. -/
theorem entries_look_of_some {m : Marker} {rest : Tape} (seen : sighting t = some (m, rest)) :
    ∃ e, (look s t).entries = s.entries ++ [e] ∧
      ∀ name key, e = .label name key ↔ m.kind = .label ∧ m.name = name ∧ m.key = key := by
  have kind := (eq_append_of_sighting seen).2
  have marked : ∃ e, (s.mark m).entries = s.entries ++ [e] ∧
      ∀ name key, e = .label name key ↔ m.kind = .label ∧ m.name = name ∧ m.key = key := by
    unfold Scan.mark
    split
    · rename_i label
      exact ⟨_, rfl, fun name key => by simp [label]⟩
    · rename_i ends
      exact ⟨_, rfl, fun name key => by simp [ends]⟩
    · rename_i terminal
      exact absurd terminal kind
  cases t with
  | nil => cases seen
  | cons b t =>
    obtain ⟨e, entries, label⟩ := marked
    refine ⟨e, ?_, label⟩
    rw [look, seen]
    dsimp only
    split
    · exact entries
    · exact entries

/-- A look depends on the byte that it stands on and on the marker there. -/
theorem look_congr {b : UInt8} {t t' : Tape}
    (same : (sighting (b :: t')).map Prod.fst = (sighting (b :: t)).map Prod.fst) :
    look s (b :: t') = look s (b :: t) := by
  rw [look, look]
  cases seen : sighting (b :: t) with
  | none =>
    rw [seen, Option.map_none, Option.map_eq_none_iff] at same
    rw [same]
  | some found =>
    rw [seen, Option.map_some, Option.map_eq_some_iff] at same
    obtain ⟨found', seen', marker⟩ := same
    rw [seen']
    dsimp only
    rw [marker]

theorem entries_prefix_look : s.entries <+: (look s t).entries := by
  cases seen : sighting t with
  | none =>
    simp [entries_look_of_none seen]
  | some found =>
    obtain ⟨e, entries, -⟩ := entries_look_of_some (s := s) seen
    rw [entries]
    exact List.prefix_append _ _

end Look

section Fold

/-- A scan takes no entry back. -/
theorem entries_prefix_foldl (s : Scan) (ts : List Tape) : s.entries <+: (ts.foldl look s).entries := by
  induction ts generalizing s with
  | nil => exact List.prefix_refl _
  | cons t ts ih => exact entries_prefix_look.trans (ih (look s t))

/-- A scan finds as many entries as it reports markers. -/
theorem length_entries_foldl (s : Scan) (ts : List Tape) :
    (ts.foldl look s).entries.length = s.entries.length + (ts.filterMap sighting).length := by
  induction ts generalizing s with
  | nil => rfl
  | cons t ts ih =>
    rw [List.foldl_cons, ih]
    cases seen : sighting t with
    | none => rw [entries_look_of_none seen, List.filterMap_cons_none seen]
    | some found =>
      obtain ⟨e, entries, -⟩ := entries_look_of_some (s := s) seen
      rw [entries, List.filterMap_cons_some seen, List.length_append, List.length_cons, List.length_cons,
        List.length_nil]
      omega

/-- Where nothing is reported the entries stay as they are. -/
theorem entries_foldl_of_quiet {ts : List Tape} (quiet : ∀ t ∈ ts, sighting t = none) (s : Scan) :
    (ts.foldl look s).entries = s.entries := by
  have unseen : ts.filterMap sighting = [] := List.filterMap_eq_nil_iff.2 quiet
  refine ((entries_prefix_foldl s ts).eq_of_length ?_).symm
  rw [length_entries_foldl, unseen]
  rfl

/-- One step of a scan: look at the tape and go on after the stride. -/
theorem scan_step {room : Nat} {b : UInt8} {t : Tape} (pos : 0 < room) (long : 18 < (b :: t).length) (s : Scan) :
    scan room (b :: t) s = scan (room - stride b) ((b :: t).drop (stride b)) (look s (b :: t)) := by
  have wide := stride_le b
  have more : (b :: t).drop (stride b) ≠ [] := by
    rw [← List.length_pos_iff, List.length_drop]
    omega
  rw [scan, if_neg (by omega)]
  by_cases single : stride b = 1
  · obtain ⟨found, read⟩ := Marker.read_of_length long
    rw [if_pos single, read, look, sighting, read, if_pos single]
    rw [single] at more ⊢
    rw [List.drop_succ_cons, List.drop_zero] at more ⊢
    dsimp only
    rw [Tape.standing_of_ne_nil more]
    cases found with
    | none => rfl
    | some found =>
      by_cases terminal : found.1.kind = .terminal
      · have unmarked : s.mark found.1 = s := by rw [Scan.mark, terminal]
        simp only [terminal, if_pos, unmarked]
      · simp only [terminal, if_neg, not_false_eq_true]
  · have other : Shape.ofOpcode b ≠ .global := fun global => single (stride_of_global global)
    rw [if_neg single, Tape.standing_of_ne_nil more, look, sighting_of_ne_global other, if_neg single]

/-- Bytes that stand alone and begin no marker are only counted. -/
theorem scan_quiet {bs : List UInt8} {room : Nat} {t : Tape}
    (quiet : ∀ b ∈ bs, stride b = 1 ∧ Shape.ofOpcode b ≠ .global) (long : 18 ≤ t.length) (s : Scan) :
    scan (bs.length + room) (bs ++ t) s = scan room t { s with steps := s.steps + bs.length } := by
  induction bs generalizing s with
  | nil => rw [List.length_nil, Nat.zero_add, List.nil_append, Nat.add_zero]
  | cons b bs ih =>
    obtain ⟨single, other⟩ := quiet b List.mem_cons_self
    rw [List.cons_append, List.length_cons,
      scan_step (by omega) (by simp only [List.length_cons, List.length_append]; omega), look,
      sighting_of_ne_global other, if_pos single, single, List.drop_succ_cons, List.drop_zero,
      show bs.length + 1 + room - 1 = bs.length + room by omega,
      ih fun c member => quiet c (List.mem_cons_of_mem b member)]
    dsimp only
    rw [Nat.add_assoc, Nat.add_comm 1]

/-- The scan is the fold of its looks while a whole marker fits on the tape after its last location. -/
theorem scan_eq_foldl {room : Nat} {t : Tape} (long : room + 18 ≤ t.length) (s : Scan) :
    scan room t s = .ok ((visited room 0 t).foldl look s) := by
  induction room using Nat.strongRecOn generalizing t s with
  | ind room ih =>
    rcases Nat.eq_zero_or_pos room with rfl | pos
    · unfold scan
      rfl
    · cases t with
      | nil =>
        simp only [List.length_nil] at long
        omega
      | cons b t =>
        have step := stride_pos b
        rw [scan_step pos (by omega), visited_cons pos, List.foldl_cons]
        rcases Nat.lt_or_ge (stride b) room with inside | past
        · exact ih _ (by omega) (by simp only [List.length_drop]; omega) _
        · rw [Nat.sub_eq_zero_of_le past]
          unfold scan
          rfl

end Fold

section Passage

/-- A marker with instructions after it that the scan goes beyond byte by byte. -/
structure Passage where
  marker : Marker
  code : List UInt8

namespace Passage

/-- The bytes of a passage. -/
def bytes (p : Passage) : List UInt8 := p.marker.bytes ++ p.code

/-- The marker is a global instruction with the body that it announces, and no other byte begins one or a longer
stride. -/
structure Plain (p : Passage) : Prop where
  global : Shape.ofOpcode p.marker.opcode = .global
  body : p.marker.body.length = Marker.bodyLength p.marker.third
  quiet : ∀ b ∈ p.marker.second :: p.marker.third :: (p.marker.body ++ p.code),
    stride b = 1 ∧ Shape.ofOpcode b ≠ .global

instance (p : Passage) : Decidable p.Plain :=
  have : Decidable (∀ b ∈ p.marker.second :: p.marker.third :: (p.marker.body ++ p.code),
      stride b = 1 ∧ Shape.ofOpcode b ≠ .global) := List.decidableBAll _ _
  decidable_of_iff (_ ∧ _ ∧ _) ⟨fun ⟨g, b, q⟩ => ⟨g, b, q⟩, fun ⟨g, b, q⟩ => ⟨g, b, q⟩⟩

end Passage

/-- The state after a passage: its marker marked, and its bytes counted. -/
def Scan.pass (s : Scan) (p : Passage) : Scan :=
  { s.mark p.marker with steps := (s.mark p.marker).steps + p.bytes.length }

theorem look_marker {m : Marker} {t : Tape} (global : Shape.ofOpcode m.opcode = .global)
    (body : m.body.length = Marker.bodyLength m.third) (more : t ≠ []) (s : Scan) :
    look s (m.bytes ++ t) = { s.mark m with steps := (s.mark m).steps + 1 } := by
  have read := Marker.read_append global body more
  rw [Marker.bytes, List.cons_append] at read ⊢
  rw [look, sighting, read, if_pos (stride_of_global global)]
  dsimp only
  by_cases terminal : m.kind = .terminal
  · have unmarked : s.mark m = s := by rw [Scan.mark, terminal]
    rw [if_pos terminal, unmarked]
  · rw [if_neg terminal]

theorem scan_passage {p : Passage} (plain : p.Plain) {room : Nat} {t : Tape} (long : 18 ≤ t.length) (s : Scan) :
    scan (p.bytes.length + room) (p.bytes ++ t) s = scan room t (s.pass p) := by
  have more : p.code ++ t ≠ [] := by
    rw [← List.length_pos_iff, List.length_append]
    omega
  have parts : p.bytes ++ t = p.marker.bytes ++ (p.code ++ t) := List.append_assoc _ _ _
  have opens : p.marker.bytes ++ (p.code ++ t) =
      p.marker.opcode :: (p.marker.second :: p.marker.third :: (p.marker.body ++ p.code) ++ t) := by
    simp [Marker.bytes]
  have size : p.bytes.length = (p.marker.second :: p.marker.third :: (p.marker.body ++ p.code)).length + 1 := by
    simp [Passage.bytes, Marker.bytes]
  have first := look_marker plain.global plain.body more s
  rw [opens] at first
  rw [parts, opens, scan_step (by omega) (by simp only [List.length_cons, List.length_append]; omega), first,
    stride_of_global plain.global, List.drop_succ_cons, List.drop_zero, size,
    show ∀ n : Nat, n + 1 + room - 1 = n + room by omega, scan_quiet plain.quiet long, Scan.pass, size]
  dsimp only
  rw [Nat.add_assoc, Nat.add_comm 1]

/-- Passages one after the other. -/
theorem scan_passages {ps : List Passage} (plain : ∀ p ∈ ps, p.Plain) {room : Nat} {t : Tape} (long : 18 ≤ t.length)
    (s : Scan) :
    scan ((ps.flatMap Passage.bytes).length + room) (ps.flatMap Passage.bytes ++ t) s =
      scan room t (ps.foldl Scan.pass s) := by
  induction ps generalizing s with
  | nil => rw [List.flatMap_nil, List.length_nil, Nat.zero_add, List.nil_append, List.foldl_nil]
  | cons p ps ih =>
    rw [List.flatMap_cons, List.length_append, Nat.add_assoc, List.append_assoc,
      scan_passage (plain p List.mem_cons_self) (by simp only [List.length_append]; omega),
      ih fun q member => plain q (List.mem_cons_of_mem p member)]
    rfl

end Passage

end Catalog

namespace Image

open Catalog

variable {img : Image} {top : Nat}

theorem programTape_of_le (top_eq : img.status.programTop = top) (low : img.status.programLimit ≤ top)
    (high : top < registerCount) :
    img.programTape = .ok (img.tape (7 * top + 6), 7 * (top - img.status.programLimit) + 7) := by
  simp only [registerCount] at high
  unfold programTape location
  rw [if_neg (by omega), if_pos (by omega)]
  change Except.ok (img.tape _, _) = _
  congr 2
  · congr 1
    omega
  · omega

/-- The catalog is the state of the scan at its end, since below the limit there is room for a whole marker. -/
theorem catalog_of_le (top_eq : img.status.programTop = top) (low : img.status.programLimit ≤ top)
    (high : top < registerCount) (room : 3 ≤ img.status.programLimit) :
    img.catalog = .ok ((visited (7 * (top - img.status.programLimit) + 7) 0 (img.tape (7 * top + 6))).foldl look
      Scan.start).report := by
  unfold catalog
  rw [programTape_of_le top_eq low high]
  change (scan _ _ _ >>= _) = _
  rw [scan_eq_foldl (by simp only [length_tape]; omega)]
  rfl

/-- The catalog is what a scan of program memory reports at its end. -/
theorem exists_scan_of_catalog {c : Catalog} (cataloged : img.catalog = .ok c) :
    ∃ t room s, img.programTape = .ok (t, room) ∧ scan room t Scan.start = .ok s ∧ c = s.report := by
  unfold catalog at cataloged
  cases tape : img.programTape with
  | error f =>
    rw [tape] at cataloged
    cases cataloged
  | ok p =>
    obtain ⟨t, room⟩ := p
    rw [tape] at cataloged
    change (scan room t Scan.start >>= _) = _ at cataloged
    cases scanned : scan room t Scan.start with
    | error f =>
      rw [scanned] at cataloged
      cases cataloged
    | ok s =>
      rw [scanned] at cataloged
      cases cataloged
      exact ⟨t, room, s, rfl, scanned, rfl⟩

end Image

end CalcImage
