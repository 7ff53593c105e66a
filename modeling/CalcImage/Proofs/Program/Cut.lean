import CalcImage.Proofs.Injection.Effect
import CalcImage.Proofs.Program.Faults
import CalcImage.Proofs.Program.Listing

/-!
# Listings as cuts of memory

From the end of a label instructions are decoded one after the other, each where the one before it ends, up to the first
end (`Image.UpToEnd`). A listing exists exactly when there is such an end before the walk runs out, and then it is a cut
of memory from the label to that end, without a gap (`Image.listing_cut`).
-/

namespace CalcImage

open CalcImage.Text

namespace Image

/-- Instructions that are decoded one after the other from a location on, each where the one before it ends. The last
one is an end, and no earlier one is. -/
inductive UpToEnd (img : Image) : Nat → List (Placed Instruction) → Prop where
  | last {loc : Nat} {p : Placed Instruction} (decoded : img.decode loc = .ok p) (ends : p.item.isEnd = true) :
      UpToEnd img loc [p]
  | onward {loc : Nat} {p : Placed Instruction} {ps : List (Placed Instruction)} (decoded : img.decode loc = .ok p)
      (goesOn : p.item.isEnd = false) (others : UpToEnd img p.following ps) : UpToEnd img loc (p :: ps)

end Image

/-- A listing shows the label of its name that stands at a location and the instructions that follow it, in rows that
are numbered from 1 on. Its bytes are those that are read at that location, and they end with the first end. -/
structure Listing.Cuts (img : Image) (loc : Nat) (f : FoundLabel) (ps : List (Placed Instruction)) (l : Listing) :
    Prop where
  start : l.start = f.start
  numbers : l.rows.map Row.number = (List.range l.rows.length).map fun k : Nat => (k : Int) + 1
  cells : l.rows.map Row.cells = (f.marker.text, f.hex) :: ps.map fun p => p.item.cells
  last : ∃ before p, ps = before ++ [p] ∧ (p.item.text = "END" ∨ p.item.text = ".END.") ∧ p.item.isEnd = true ∧
    ∀ q ∈ before, q.item.isEnd = false
  bytes : ∃ bs, img.read loc l.size = .ok bs ∧ l.hex = String.ofList (Hex.ofBytes bs) ∧ l.size = bs.length

theorem Text.Hex.ofBytes_append (xs ys : List UInt8) :
    Hex.ofBytes (xs ++ ys) = Hex.ofBytes xs ++ Hex.ofBytes ys := by
  induction xs with
  | nil => rfl
  | cons x xs ih =>
    rw [List.cons_append, Hex.ofBytes, Hex.ofBytes, ih]
    rfl

namespace Listing

/-- Bytes that are written piece by piece are written as a whole. -/
theorem joined_hex (bss : List (List UInt8)) :
    joined "" (bss.map fun bs => String.ofList (Hex.ofBytes bs)) = String.ofList (Hex.ofBytes bss.flatten) := by
  unfold joined
  induction bss with
  | nil => rfl
  | cons bs bss ih =>
    rw [List.map_cons, List.flatten_cons, Hex.ofBytes_append, String.ofList_append, ← ih]
    cases bss with
    | nil => simp
    | cons cs bss => rw [String.intercalate_cons_of_ne_nil (by simp), String.append_empty]

/-- A listing shows the bytes of its label and of its instructions. -/
theorem hex_of_cells {l : Listing} {text : String} {bs : List UInt8} {is : List Instruction}
    (cells : l.rows.map Row.cells = (text, String.ofList (Hex.ofBytes bs)) :: is.map Instruction.cells) :
    l.hex = String.ofList (Hex.ofBytes (bs ++ is.flatMap Instruction.bytes)) ∧
      l.size = (bs ++ is.flatMap Instruction.bytes).length := by
  have column : l.rows.map Row.hex =
      (bs :: is.map Instruction.bytes).map fun bs => String.ofList (Hex.ofBytes bs) := by
    have second := congrArg (List.map Prod.snd) cells
    rw [List.map_map, List.map_cons, List.map_map] at second
    rw [List.map_cons, List.map_map]
    exact second
  have hex : l.hex = String.ofList (Hex.ofBytes (bs ++ is.flatMap Instruction.bytes)) := by
    rw [Listing.hex, column, joined_hex, List.flatten_cons, List.flatMap_def]
  refine ⟨hex, ?_⟩
  rw [size, hex, String.length_ofList, Hex.length_ofBytes]
  omega

end Listing

/-- What a search finds is a label of the name, read where some bytes of the tape have been passed. -/
theorem FoundLabel.read_of_search {name : String} {room : Nat} {t : Tape} {f : FoundLabel}
    (searched : search name room t = .ok (some f)) :
    ∃ passed, Marker.read (t.drop passed) = .ok (some (f.marker, f.rest)) ∧ f.marker.isLabel = true ∧
      f.marker.name = name := by
  fun_induction search name room t with
  | case1 => cases searched
  | case2 => cases searched
  | case3 room t found read m rest here =>
    cases searched
    rw [Option.filter_eq_some_iff, Bool.and_eq_true, beq_iff_eq] at here
    obtain ⟨rfl, label, named⟩ := here
    exact ⟨0, read, label, named⟩
  | case4 => cases searched
  | case5 room t found read other t' standing ih =>
    obtain ⟨rfl, -⟩ := Tape.eq_of_standing standing
    obtain ⟨passed, here⟩ := ih searched
    rw [← List.drop_one, List.drop_drop] at here
    exact ⟨_, here⟩

/-- The text of an end. -/
theorem Instruction.text_of_isEnd {i : Instruction} (ends : i.isEnd = true) : i.text = "END" ∨ i.text = ".END." := by
  rw [isEnd, Bool.and_eq_true, beq_iff_eq, Bool.not_eq_true'] at ends
  obtain ⟨global, other⟩ := ends
  have text : i.text = i.marker.text := by
    unfold text
    rw [global]
  rw [text, Marker.text]
  cases kind : i.marker.kind with
  | label =>
    rw [Marker.isLabel, kind] at other
    cases other
  | programEnd => exact .inl rfl
  | terminal => exact .inr rfl

namespace Image

open Walk

variable {img : Image} {loc : Nat}

/-- Program memory is a part of the tape of all memory. -/
theorem tape_of_programTape {t : Tape} {room : Nat} (taken : img.programTape = .ok (t, room)) :
    t = [] ∨ ∃ r < memorySize, t = img.tape r := by
  unfold programTape at taken
  dsimp only at taken
  split at taken
  · cases taken
    exact .inl rfl
  · cases place : location (7 * img.status.programTop) with
    | error f =>
      rw [place] at taken
      cases taken
    | ok first =>
      rw [place] at taken
      cases taken
      obtain ⟨same, inside⟩ := eq_of_location place
      simp only [memorySize] at inside
      exact .inr ⟨first + 6, by simp only [memorySize]; omega, rfl⟩

/-- The label that is found stands in memory, and the tape goes on after it. -/
theorem marker_of_findLabel {name : String} {f : FoundLabel} (found : img.findLabel name = .ok (some f)) :
    ∃ loc : Nat, loc < memorySize ∧ img.marker loc = .ok (some ⟨loc, f.start, f.marker⟩) ∧
      f.marker.isLabel = true ∧ f.marker.name = name ∧ img.tapeAt loc = f.marker.bytes ++ img.tapeAt f.start ∧
      f.rest = img.tapeAt f.start ∧ f.start < memorySize := by
  unfold findLabel at found
  cases taken : img.programTape with
  | error f' =>
    rw [taken] at found
    cases found
  | ok p =>
    obtain ⟨t, room⟩ := p
    rw [taken] at found
    obtain ⟨passed, read, label, named⟩ := FoundLabel.read_of_search found
    obtain rfl | ⟨r, inside, rfl⟩ := tape_of_programTape taken
    · rw [List.drop_nil] at read
      cases read
    · have fits : passed ≤ r := by
        apply Nat.le_of_not_lt
        intro past
        rw [List.drop_eq_nil_of_le (by rw [length_tape]; exact past)] at read
        cases read
      have here : img.tapeAt (locationOfRank (r - passed)) = (img.tape r).drop passed := by
        rw [tapeAt_locationOfRank, drop_tape img fits]
      have inMemory : locationOfRank (r - passed) < memorySize :=
        locationOfRank_lt (Nat.lt_of_le_of_lt (Nat.sub_le _ _) inside)
      rw [← here] at read
      obtain ⟨marker, rest, within⟩ := marker_of_read inMemory read
      exact ⟨_, inMemory, marker, label, named, rest ▸ (Marker.eq_append_of_read read).1, rest, within⟩

/-- What is decoded is read off the tape, and leaves the tape from the location after it. -/
theorem taken_of_decode {p : Placed Instruction} (decoded : img.decode loc = .ok p) :
    Instruction.read (img.tapeAt loc) = .ok (p.item, img.tapeAt p.following) := by
  obtain ⟨inside, rest, taken⟩ := read_of_decoded decoded
  obtain ⟨-, left⟩ := rest_of_read taken
  rw [decode_eq inside, taken] at decoded
  have following : stepsAfter loc p.item.size = p.following := congrArg Placed.following (Except.ok.inj decoded)
  rw [taken, left, ← following, stepsAfter, tapeAt_locationOfRank]

/-- What is read off the tape is decoded, and the walk goes on inside memory. -/
theorem decode_of_read {i : Instruction} {rest : Tape} (inside : loc < memorySize)
    (taken : Instruction.read (img.tapeAt loc) = .ok (i, rest)) :
    ∃ p, img.decode loc = .ok p ∧ p.item = i ∧ p.following < memorySize ∧ img.tapeAt p.following = rest := by
  have decoded : img.decode loc = .ok ⟨loc, stepsAfter loc i.size, i⟩ := by
    rw [decode_eq inside, taken]
    rfl
  refine ⟨_, decoded, rfl, stepsAfter_lt inside, ?_⟩
  have left := taken_of_decode decoded
  rw [taken] at left
  cases left
  rfl

namespace UpToEnd

variable {ps : List (Placed Instruction)}

/-- These instructions are what a listing goes through. -/
theorem disassemble (walk : img.UpToEnd loc ps) :
    Listing.disassemble (img.tapeAt loc) = .ok (ps.map Placed.item) := by
  induction walk with
  | last decoded ends => exact Listing.disassemble_of_end (taken_of_decode decoded) ends
  | onward decoded goesOn others ih =>
    rw [Listing.disassemble_of_open (taken_of_decode decoded) goesOn, ih]
    rfl

/-- These instructions lie on the tape without a gap. -/
theorem tape (walk : img.UpToEnd loc ps) : ∃ rest, img.tapeAt loc = (ps.flatMap fun p => p.item.bytes) ++ rest := by
  induction walk with
  | @last loc p decoded ends =>
    refine ⟨img.tapeAt p.following, ?_⟩
    rw [List.flatMap_cons, List.flatMap_nil, List.append_nil]
    exact (Instruction.eq_append_of_read (taken_of_decode decoded)).1
  | @onward loc p ps decoded goesOn others ih =>
    obtain ⟨rest, tape⟩ := ih
    refine ⟨rest, ?_⟩
    rw [List.flatMap_cons, List.append_assoc, ← tape]
    exact (Instruction.eq_append_of_read (taken_of_decode decoded)).1

/-- The last one of these instructions is the only end. -/
theorem ends (walk : img.UpToEnd loc ps) :
    ∃ before p, ps = before ++ [p] ∧ p.item.isEnd = true ∧ ∀ q ∈ before, q.item.isEnd = false := by
  induction walk with
  | @last loc p decoded ends => exact ⟨[], p, rfl, ends, fun q member => absurd member List.not_mem_nil⟩
  | @onward loc p ps decoded goesOn others ih =>
    obtain ⟨before, last, rfl, ends, earlier⟩ := ih
    exact ⟨p :: before, last, rfl, ends, List.forall_mem_cons.2 ⟨goesOn, earlier⟩⟩

end UpToEnd

/-- A listing that comes to its end goes through such instructions. -/
theorem exists_upToEnd {is : List Instruction} (inside : loc < memorySize)
    (listed : Listing.disassemble (img.tapeAt loc) = .ok is) : ∃ ps, img.UpToEnd loc ps := by
  generalize start : img.tapeAt loc = t at listed
  fun_induction Listing.disassemble t generalizing loc is with
  | case1 => cases listed
  | case2 t i rest taken ends =>
    subst start
    obtain ⟨p, decoded, rfl, -⟩ := decode_of_read inside taken
    exact ⟨[p], .last decoded ends⟩
  | case3 => cases listed
  | case4 t i rest taken goesOn is' others ih =>
    subst start
    obtain ⟨p, decoded, rfl, within, after⟩ := decode_of_read inside taken
    obtain ⟨ps, walk⟩ := ih within after others
    exact ⟨p :: ps, .onward decoded (by simpa using goesOn) walk⟩

/-- **Listings are cuts of memory.** Where the instructions after a label come to an end, the listing of its program
shows the label and these instructions, whose bytes lie side by side on the walk. Where the walk runs out before, there
is no listing. -/
theorem listing_cut {name : String} {f : FoundLabel} (found : img.findLabel name = .ok (some f)) :
    ∃ loc : Nat, img.marker loc = .ok (some ⟨loc, f.start, f.marker⟩) ∧ f.marker.isLabel = true ∧
      f.marker.name = name ∧
      ((∃ ps l log, img.UpToEnd f.start ps ∧ (img.listing name).outcome = (.ok (some l), log) ∧ l.name = name ∧
          l.Cuts img loc f ps) ∨
        (¬∃ ps, img.UpToEnd f.start ps) ∧ ∃ log, (img.listing name).outcome = (.error (.walkEnded 6), log)) := by
  obtain ⟨loc, inside, marker, label, named, tape, rest, within⟩ := marker_of_findLabel found
  refine ⟨loc, marker, label, named, ?_⟩
  cases listed : Listing.disassemble f.rest with
  | error f' =>
    refine .inr ⟨?_, ?_⟩
    · rintro ⟨ps, walk⟩
      rw [rest, walk.disassemble] at listed
      cases listed
    · obtain rfl : f' = .walkEnded 6 := Listing.faults_disassemble f.rest f' listed
      rw [Traced.outcome_eq, listing, found, Traced.on_bind_of_ok (Traced.on_lift _)]
      dsimp only
      rw [listed]
      exact ⟨_, rfl⟩
  | ok is =>
    obtain ⟨ps, walk⟩ := exists_upToEnd within (rest ▸ listed)
    obtain rfl : ps.map Placed.item = is := by
      rw [rest, walk.disassemble] at listed
      exact Except.ok.inj listed
    obtain ⟨l, log, ran, titled, start, shows⟩ := listing_of_found found listed
    obtain ⟨hex, size⟩ := Listing.hex_of_cells shows.cells
    obtain ⟨after, gapless⟩ := walk.tape
    obtain ⟨before, p, parts, ends, earlier⟩ := walk.ends
    rw [List.flatMap_map] at hex size
    have text : Marker.labelText name = f.marker.text := by
      rw [Marker.isLabel, beq_iff_eq] at label
      rw [Marker.text, label, named]
    refine .inl ⟨ps, l, log, walk, ran, titled, ?_⟩
    constructor
    case start => exact start
    case numbers => exact shows.numbers
    case cells =>
      rw [shows.cells, text, List.map_map]
      rfl
    case last => exact ⟨before, p, parts, Instruction.text_of_isEnd ends, ends, earlier⟩
    case bytes =>
      refine ⟨_, ?_, hex, size⟩
      have whole : img.tapeAt loc = (f.marker.bytes ++ ps.flatMap fun p => p.item.bytes) ++ after := by
        rw [tape, gapless, List.append_assoc]
      have fits := congrArg List.length whole
      rw [length_tapeAt, List.length_append] at fits
      rw [size, read_eq_take inside (by omega), whole, List.take_left]

/-- The second of two programs is found behind the first one. -/
theorem findLabel_programC :
    twoPrograms.findLabel "C" = .ok (some ⟨⟨0xC0, 0x00, 0xF2, [0x00, 0x43]⟩,
      0x85 :: 0xC4 :: 0x01 :: 0x29 :: twoPrograms.tape (7 * (300 - 3) + 6)⟩) := by
  have top_eq : twoPrograms.status.programTop = (300 : Nat) := by rw [status_twoPrograms]; rfl
  have limit : twoPrograms.status.programLimit = 298 := by rw [status_twoPrograms]
  unfold findLabel
  rw [programTape_of_le top_eq (by rw [limit]; decide) (by decide), limit, tape_twoPrograms]
  rfl

/-- After its label there are a return and the permanent end. -/
theorem disassemble_programC :
    Listing.disassemble (0x85 :: 0xC4 :: 0x01 :: 0x29 :: twoPrograms.tape (7 * (300 - 3) + 6)) =
      .ok [⟨0x85, []⟩, Instruction.terminal] := by
  have more : twoPrograms.tape (7 * (300 - 3) + 6) ≠ [] := by
    rw [← List.length_pos_iff, length_tape]
    decide
  have back : Instruction.read ([0x85] ++ 0xC4 :: 0x01 :: 0x29 :: twoPrograms.tape (7 * (300 - 3) + 6)) = _ :=
    Instruction.read_append (i := ⟨0x85, []⟩) rfl (List.cons_ne_nil _ _)
  have ending := Listing.disassemble_of_end (Instruction.read_terminal more) Instruction.isEnd_terminal
  refine (Listing.disassemble_of_open back (by decide)).trans ?_
  rw [ending]
  rfl

/-- The listing of the program with the label C, which the permanent end closes. -/
theorem listing_cut_twoPrograms :
    ∃ f, twoPrograms.findLabel "C" = .ok (some f) ∧ ∃ (loc : Nat) (ps : List (Placed Instruction)) (l : Listing)
      (log : List Log.Record),
      twoPrograms.marker loc = .ok (some ⟨loc, f.start, f.marker⟩) ∧ f.marker.isLabel = true ∧ f.marker.name = "C" ∧
        twoPrograms.UpToEnd f.start ps ∧ (twoPrograms.listing "C").outcome = (.ok (some l), log) ∧ l.name = "C" ∧
        l.Cuts twoPrograms loc f ps ∧
        l.rows.map Row.cells = [("LBL \"C\"", "c000f20043"), ("RTN", "85"), (".END.", "c40129")] := by
  obtain ⟨loc, marker, label, named, cut⟩ := listing_cut findLabel_programC
  obtain ⟨l, log, listed, -, -, shows⟩ := listing_of_found findLabel_programC disassemble_programC
  rcases cut with ⟨ps, l', log', walk, listed', named', cuts⟩ | ⟨-, log', failed⟩
  · rw [listed] at listed'
    cases listed'
    refine ⟨_, findLabel_programC, loc, ps, l, log, marker, label, named, walk, listed, named', cuts, ?_⟩
    rw [shows.cells]
    rfl
  · rw [listed] at failed
    cases failed

end Image

end CalcImage
