import CalcImage.Program.Listing
import CalcImage.Proofs.Instruction.Span
import CalcImage.Proofs.Program.Kept

/-!
# The search for a label

A search tries every location of program memory (`FoundLabel.search_spec`), while the catalog goes by strides. So what
the catalog names is found, and a label that is found without being named begins with an operand that the catalog has
stepped over (`Image.findLabel_catalog`): each location of program memory is visited, or it comes one or two steps after
a visited one with a longer stride (`Image.visits_or_skipped`).
-/

namespace CalcImage

/-- A label of this name stands at the head of the tape. -/
def Marker.Labels (name : String) (t : Tape) : Prop :=
  ∃ m rest, Marker.read t = .ok (some (m, rest)) ∧ m.isLabel = true ∧ m.name = name

/-- The third byte of a label tells how long its name is. -/
theorem Marker.third_of_labels {name : String} {t : Tape} (labels : Labels name t) (named : name ≠ "") :
    ∃ third, t[2]? = some third ∧ third.toNat = 0xF1 + name.length := by
  obtain ⟨m, rest, read, -, rfl⟩ := labels
  obtain ⟨rfl, -⟩ := eq_append_of_read read
  have body := length_body_of_read read
  refine ⟨m.third, rfl, ?_⟩
  have length : m.name.length = m.body.length - 1 := by
    simp [Marker.name, Glyph.text, nameBytes]
  have nonempty : m.body ≠ [] := by
    intro bare
    apply named
    rw [Marker.name, nameBytes, bare]
    rfl
  have pos := List.length_pos_iff.2 nonempty
  unfold bodyLength at body
  omega

/-- The catalog has a label of this name. -/
def Catalog.Names (c : Catalog) (name : String) : Prop := ∃ key, Entry.label name key ∈ c.entries

namespace Image

/-- The location lies in program memory. -/
def InProgram (img : Image) (loc : Nat) : Prop :=
  7 * img.status.programLimit ≤ loc ∧ (loc : Int) < 7 * img.status.programTop + 7

/-- The locations that the catalog is taken from: the program top, and from each of them the one after its stride. -/
inductive Visits (img : Image) : Nat → Prop where
  | first {loc : Nat} (top : (loc : Int) = 7 * img.status.programTop) (inside : img.InProgram loc) : Visits img loc
  | onward {loc next : Nat} (visited : Visits img loc)
      (walked : Walk.advance loc (Catalog.stride (img.byte loc)) = .ok (next : Int)) (inside : img.InProgram next) :
      Visits img next

/-- A label of this name stands at the location. -/
def LabelAt (img : Image) (name : String) (loc : Nat) : Prop :=
  ∃ p, img.marker loc = .ok (some p) ∧ p.item.isLabel = true ∧ p.item.name = name

/-- The label is the first one of this name in program memory, and it stands at the location. -/
structure FirstLabel (img : Image) (name : String) (loc : Nat) (f : FoundLabel) : Prop where
  inside : img.InProgram loc
  marker : img.marker loc = .ok (some ⟨loc, f.start, f.marker⟩)
  label : f.marker.isLabel = true
  named : f.marker.name = name
  first : ∀ earlier steps : Nat, 0 < steps → Walk.advance earlier steps = .ok (loc : Int) → img.InProgram earlier →
    ¬img.LabelAt name earlier

/-- The location is one of the operands that the catalog steps over with the visited opcode before them. -/
def SteppedOver (img : Image) (loc : Nat) : Prop :=
  ¬img.Visits loc ∧ ∃ opcode, img.Visits opcode ∧
    (Walk.advance opcode 1 = .ok (loc : Int) ∧
        (0x9 ≤ (img.byte opcode).toNat / 16 ∧ (img.byte opcode).toNat / 16 ≤ 0xB ∨
          0xD ≤ (img.byte opcode).toNat / 16 ∧ (img.byte opcode).toNat / 16 ≤ 0xE) ∨
      Walk.advance opcode 2 = .ok (loc : Int) ∧
        0xD ≤ (img.byte opcode).toNat / 16 ∧ (img.byte opcode).toNat / 16 ≤ 0xE)

end Image

namespace Catalog

section Names

variable {name : String} {s : Scan} {t : Tape}

/-- A label at the head of a tape is reported. -/
theorem labels_iff :
    Marker.Labels name t ↔ ∃ m rest, sighting t = some (m, rest) ∧ m.kind = .label ∧ m.name = name := by
  unfold Marker.Labels sighting Marker.isLabel
  constructor
  · rintro ⟨m, rest, read, label, named⟩
    rw [beq_iff_eq] at label
    refine ⟨m, rest, ?_, label, named⟩
    simp [read, label]
  · rintro ⟨m, rest, seen, label, named⟩
    split at seen
    · split at seen
      · cases seen
      · cases seen
        exact ⟨m, rest, ‹_›, by rw [label]; rfl, named⟩
    · cases seen

/-- A look adds the name of the label at the head of the tape. -/
theorem names_look : (look s t).report.Names name ↔ s.report.Names name ∨ Marker.Labels name t := by
  unfold Names Scan.report
  rw [labels_iff]
  dsimp only
  cases seen : sighting t with
  | none => simp [entries_look_of_none seen]
  | some found =>
    obtain ⟨m, rest⟩ := found
    obtain ⟨e, entries, label⟩ := entries_look_of_some (s := s) seen
    simp only [entries, List.mem_append, List.mem_singleton, exists_or, eq_comm (b := e), label]
    simp

/-- A scan names the labels at which it has looked. -/
theorem names_foldl (ts : List Tape) :
    (ts.foldl look s).report.Names name ↔ s.report.Names name ∨ ∃ t ∈ ts, Marker.Labels name t := by
  induction ts generalizing s with
  | nil => simp
  | cons t ts ih => simp [ih, names_look, or_assoc]

end Names

/-- From each tape that a scan looks at it goes on to the one after the stride, while that lies inside the room. -/
theorem visited_onward {room : Nat} {b : UInt8} {t u : Tape} (long : room ≤ t.length)
    (member : b :: u ∈ visited room 0 t) (inside : t.length < room + ((b :: u).drop (stride b)).length) :
    (b :: u).drop (stride b) ∈ visited room 0 t := by
  induction room using Nat.strongRecOn generalizing t with
  | ind room ih =>
    cases t with
    | nil => cases room <;> cases member
    | cons c t =>
      have step := stride_pos c
      have pos : 0 < room := by
        apply Nat.pos_of_ne_zero
        rintro rfl
        cases member
      rw [visited_cons pos] at member ⊢
      apply List.mem_cons_of_mem
      rcases List.mem_cons.1 member with head | later
      · cases head
        rw [List.length_drop] at inside
        cases after : (b :: u).drop (stride b) with
        | nil =>
          rw [List.drop_eq_nil_iff] at after
          omega
        | cons d v =>
          rw [visited_cons (by omega)]
          exact List.mem_cons_self
      · have more : stride c < room := by
          apply Nat.lt_of_not_le
          intro past
          rw [Nat.sub_eq_zero_of_le past] at later
          cases later
        exact ih _ (by omega) (by rw [List.length_drop]; omega) later (by rw [List.length_drop (l := c :: t)]; omega)

end Catalog

namespace FoundLabel

/-- What a search for a name at the next `room` locations of a tape tells. -/
def Tells (name : String) (room : Nat) (t : Tape) : Option FoundLabel → Prop
  | none => ∀ passed < room, ¬Marker.Labels name (t.drop passed)
  | some f => ∃ passed < room, Marker.read (t.drop passed) = .ok (some (f.marker, f.rest)) ∧
      f.marker.isLabel = true ∧ f.marker.name = name ∧ ∀ before < passed, ¬Marker.Labels name (t.drop before)

/-- A search that goes on from a location without such a label tells the same about it. -/
theorem Tells.later {name : String} {room : Nat} {b : UInt8} {t : Tape} {found : Option FoundLabel}
    (told : Tells name room t found) (other : ¬Marker.Labels name (b :: t)) : Tells name (room + 1) (b :: t) found := by
  cases found with
  | none =>
    intro passed inside
    cases passed with
    | zero => exact other
    | succ passed => exact told passed (by omega)
  | some f =>
    obtain ⟨passed, inside, read, label, named, first⟩ := told
    refine ⟨passed + 1, by omega, read, label, named, ?_⟩
    intro before earlier
    cases before with
    | zero => exact other
    | succ before => exact first before (by omega)

/-- While the tape is long enough for a marker a search comes to its end, and tells the first label of the name. -/
theorem search_spec (name : String) {room : Nat} {t : Tape} (long : room + 18 ≤ t.length) :
    ∃ found, search name room t = .ok found ∧ Tells name room t found := by
  induction room generalizing t with
  | zero => exact ⟨none, rfl, fun passed inside => absurd inside (Nat.not_lt_zero passed)⟩
  | succ room ih =>
    cases t with
    | nil => cases long
    | cons b t =>
      rw [List.length_cons] at long
      obtain ⟨found, read⟩ := Marker.read_of_length (t := b :: t) (by rw [List.length_cons]; omega)
      have more : t ≠ [] := List.length_pos_iff.1 (by omega)
      rw [search, read]
      dsimp only
      cases here : found.filter fun p => p.1.isLabel && p.1.name == name with
      | some p =>
        obtain ⟨m, rest⟩ := p
        rw [Option.filter_eq_some_iff, Bool.and_eq_true, beq_iff_eq] at here
        obtain ⟨rfl, label, named⟩ := here
        refine ⟨_, rfl, 0, Nat.succ_pos room, read, label, named, ?_⟩
        intro before earlier
        exact absurd earlier (Nat.not_lt_zero before)
      | none =>
        have other : ¬Marker.Labels name (b :: t) := by
          rintro ⟨m, rest, read', label, named⟩
          rw [read] at read'
          cases read'
          simp [label, named] at here
        rw [List.tail_cons, Tape.standing_of_ne_nil more]
        obtain ⟨found, searched, told⟩ := ih (t := t) (by omega)
        exact ⟨found, searched, told.later other⟩

/-- The first label of the name is the one that a search finds. -/
theorem search_of_first {name : String} {room passed : Nat} {t rest : Tape} {m : Marker} (long : room + 18 ≤ t.length)
    (inside : passed < room) (read : Marker.read (t.drop passed) = .ok (some (m, rest))) (label : m.isLabel = true)
    (named : m.name = name) (first : ∀ before < passed, ¬Marker.Labels name (t.drop before)) :
    search name room t = .ok (some ⟨m, rest⟩) := by
  obtain ⟨found, searched, told⟩ := search_spec name long
  have labelled : Marker.Labels name (t.drop passed) := ⟨m, rest, read, label, named⟩
  cases found with
  | none => exact absurd labelled (told passed inside)
  | some f =>
    obtain ⟨passed', -, read', label', named', first'⟩ := told
    rcases Nat.lt_trichotomy passed' passed with earlier | rfl | later
    · exact absurd ⟨_, _, read', label', named'⟩ (first passed' earlier)
    · rw [read] at read'
      cases read'
      exact searched
    · exact absurd labelled (first' passed later)

end FoundLabel

namespace Image

open Catalog Walk

variable {img : Image} {name : String} {loc next r : Nat}

theorem inProgram_locationOfRank :
    img.InProgram (locationOfRank r) ↔ 7 * img.status.programLimit ≤ r ∧ (r : Int) < 7 * img.status.programTop + 7 := by
  unfold InProgram locationOfRank
  omega

/-- The tape from a location some steps on is what is left of the tape after so many bytes. -/
theorem drop_tapeAt (img : Image) {steps : Nat} (walked : advance loc steps = .ok (next : Int)) :
    (img.tapeAt loc).drop steps = img.tapeAt next := by
  obtain ⟨fits, following⟩ := advance_eq_ok_iff.1 walked
  obtain rfl : next = locationOfRank (locationOfRank loc - steps) := by omega
  rw [tapeAt_locationOfRank, tapeAt, toNat_rank, drop_tape img fits]

theorem labelAt_iff (inside : loc < memorySize) : img.LabelAt name loc ↔ Marker.Labels name (img.tapeAt loc) := by
  unfold LabelAt Marker.Labels
  rw [marker_eq inside]
  constructor
  · rintro ⟨p, marker, label, named⟩
    cases read : Marker.read (img.tapeAt loc) with
    | error f => rw [read] at marker; cases marker
    | ok found =>
      rw [read] at marker
      cases found with
      | none => cases marker
      | some found =>
        cases marker
        exact ⟨_, _, rfl, label, named⟩
  · rintro ⟨m, rest, read, label, named⟩
    exact ⟨_, by rw [read]; rfl, label, named⟩

/-- A marker that is read off the tape from a location stands there, and the tape goes on after it. -/
theorem marker_of_read {f : FoundLabel} (inside : loc < memorySize)
    (read : Marker.read (img.tapeAt loc) = .ok (some (f.marker, f.rest))) :
    img.marker loc = .ok (some ⟨loc, f.start, f.marker⟩) ∧ f.rest = img.tapeAt f.start ∧ f.start < memorySize := by
  obtain ⟨parts, more⟩ := Marker.eq_append_of_read read
  have length := congrArg List.length parts
  have positive := List.length_pos_iff.2 more
  rw [length_tapeAt, List.length_append] at length
  have start : f.start = stepsAfter loc f.marker.bytes.length := by
    rw [FoundLabel.start, stepsAfter, toNat_rank]
    congr 1
    omega
  refine ⟨?_, ?_, ?_⟩
  · rw [marker_eq inside, read, start]
    rfl
  · rw [start, tapeAt_stepsAfter img (by omega), parts, List.drop_left]
  · rw [start]
    exact stepsAfter_lt inside

theorem Visits.step (steps : Nat) (visited : img.Visits (locationOfRank (r + steps)))
    (length : stride (img.byte (locationOfRank (r + steps))) = steps) (inside : img.InProgram (locationOfRank r)) :
    img.Visits (locationOfRank r) := by
  refine Visits.onward visited ?_ inside
  rw [length, advance_locationOfRank (Nat.le_add_left steps r), Nat.add_sub_cancel]

/-- Each location of program memory is visited, or it comes one or two steps after a visited one with a longer
stride. -/
theorem visits_or_skipped (inside : img.InProgram (locationOfRank r)) :
    img.Visits (locationOfRank r) ∨
      (img.Visits (locationOfRank (r + 1)) ∧ stride (img.byte (locationOfRank (r + 1))) ≠ 1) ∨
      img.Visits (locationOfRank (r + 2)) ∧ stride (img.byte (locationOfRank (r + 2))) = 3 := by
  -- By induction on the number of locations of program memory before this one.
  obtain ⟨before, position⟩ : ∃ before : Nat, (r + before : Int) = 7 * img.status.programTop + 6 := by
    have := (inProgram_locationOfRank.1 inside).2
    exact ⟨(7 * img.status.programTop + 6 - r).toNat, by omega⟩
  induction before generalizing r with
  | zero =>
    refine Or.inl (Visits.first ?_ inside)
    unfold locationOfRank
    omega
  | succ before ih =>
    have above : img.InProgram (locationOfRank (r + 1)) := by
      rw [inProgram_locationOfRank] at inside ⊢
      omega
    rcases ih above (by omega) with visited | ⟨visited, long⟩ | ⟨visited, longest⟩
    · by_cases single : stride (img.byte (locationOfRank (r + 1))) = 1
      · exact Or.inl (visited.step 1 single inside)
      · exact Or.inr (Or.inl ⟨visited, single⟩)
    · have pos := stride_pos (img.byte (locationOfRank (r + 1 + 1)))
      have short := stride_le (img.byte (locationOfRank (r + 1 + 1)))
      by_cases double : stride (img.byte (locationOfRank (r + 1 + 1))) = 2
      · exact Or.inl (visited.step 2 double inside)
      · have triple : stride (img.byte (locationOfRank (r + 1 + 1))) = 3 := by omega
        exact Or.inr (Or.inr ⟨visited, triple⟩)
    · exact Or.inl (visited.step 3 longest inside)

/-- The scan for the catalog looks at the tapes from the visited locations on. -/
theorem Visits.mem_visited {top : Nat} (top_eq : img.status.programTop = top) (low : img.status.programLimit ≤ top)
    (visits : img.Visits loc) :
    img.tapeAt loc ∈ visited (7 * (top - img.status.programLimit) + 7) 0 (img.tape (7 * top + 6)) := by
  induction visits with
  | @first loc start =>
    obtain rfl : loc = locationOfRank (7 * top + 6) := by
      unfold locationOfRank
      omega
    obtain ⟨t, tape⟩ := tapeAt_cons img (locationOfRank (7 * top + 6))
    rw [← tapeAt_locationOfRank, tape, visited_cons (by omega)]
    exact List.mem_cons_self
  | @onward loc next visited walked inside ih =>
    obtain ⟨t, tape⟩ := tapeAt_cons img loc
    have after := drop_tapeAt img walked
    rw [tape] at ih after
    rw [← after]
    refine visited_onward (by rw [length_tape]; omega) ih ?_
    rw [after, length_tape, length_tapeAt]
    have := inside.1
    unfold locationOfRank
    omega

theorem stride_ne_one {b : UInt8} (long : stride b ≠ 1) :
    0x9 ≤ b.toNat / 16 ∧ b.toNat / 16 ≤ 0xB ∨ 0xD ≤ b.toNat / 16 ∧ b.toNat / 16 ≤ 0xE := by
  unfold stride at long
  dsimp only at long
  split at long
  · exact Or.inl ‹_›
  · split at long
    · exact Or.inr ‹_›
    · exact absurd rfl long

theorem stride_eq_three {b : UInt8} (longest : stride b = 3) : 0xD ≤ b.toNat / 16 ∧ b.toNat / 16 ≤ 0xE := by
  rcases stride_ne_one (b := b) (by omega) with double | triple
  · rw [stride, if_pos double] at longest
    cases longest
  · exact triple

/-- A location of program memory that is not visited is an operand that is stepped over. -/
theorem steppedOver_of_not_visits (inside : img.InProgram loc) (other : ¬img.Visits loc) : img.SteppedOver loc := by
  obtain ⟨r, rfl⟩ := exists_rank loc
  refine ⟨other, ?_⟩
  rcases visits_or_skipped inside with visited | ⟨visited, long⟩ | ⟨visited, longest⟩
  · exact absurd visited other
  · refine ⟨_, visited, Or.inl ⟨?_, stride_ne_one long⟩⟩
    rw [advance_locationOfRank (Nat.le_add_left 1 r), Nat.add_sub_cancel]
  · refine ⟨_, visited, Or.inr ⟨?_, stride_eq_three longest⟩⟩
    rw [advance_locationOfRank (Nat.le_add_left 2 r), Nat.add_sub_cancel]

section Found

variable {top : Nat}

/-- No location of program memory comes before the program top. -/
theorem rank_le_of_inProgram (top_eq : img.status.programTop = top) (inside : img.InProgram loc) :
    locationOfRank loc ≤ 7 * top + 6 := by
  have := inside.2
  unfold locationOfRank
  omega

/-- The tape from a location of program memory is what is left of the one from the program top on. -/
theorem tapeAt_of_inProgram (top_eq : img.status.programTop = top) (inside : img.InProgram loc) :
    img.tapeAt loc = (img.tape (7 * top + 6)).drop (7 * top + 6 - locationOfRank loc) := by
  rw [drop_tape img (Nat.sub_le _ _), Nat.sub_sub_self (rank_le_of_inProgram top_eq inside), tapeAt, toNat_rank]

theorem lt_memorySize_of_inProgram (top_eq : img.status.programTop = top) (high : top ≤ 1111)
    (inside : img.InProgram loc) : loc < memorySize := by
  have := inside.2
  simp only [memorySize]
  omega

/-- A label that a search of program memory tells is the first one of its name. -/
theorem firstLabel_of_tells (top_eq : img.status.programTop = top) (high : top ≤ 1111)
    (low : img.status.programLimit ≤ top) {f : FoundLabel}
    (told : FoundLabel.Tells name (7 * (top - img.status.programLimit) + 7) (img.tape (7 * top + 6)) (some f)) :
    ∃ loc, img.FirstLabel name loc f := by
  obtain ⟨passed, within, read, label, named, first⟩ := told
  have inside : img.InProgram (locationOfRank (7 * top + 6 - passed)) := by
    rw [inProgram_locationOfRank]
    omega
  have inMemory := lt_memorySize_of_inProgram top_eq high inside
  have here : img.tapeAt (locationOfRank (7 * top + 6 - passed)) = (img.tape (7 * top + 6)).drop passed := by
    rw [tapeAt_of_inProgram top_eq inside, locationOfRank_locationOfRank, Nat.sub_sub_self (by omega)]
  refine ⟨locationOfRank (7 * top + 6 - passed), inside, ?_, label, named, ?_⟩
  · rw [← here] at read
    exact (marker_of_read inMemory read).1
  · intro earlier steps pos walked inside' labelled
    rw [labelAt_iff (lt_memorySize_of_inProgram top_eq high inside'), tapeAt_of_inProgram top_eq inside'] at labelled
    refine first _ ?_ labelled
    obtain ⟨fits, reached⟩ := advance_eq_ok_iff.1 walked
    have same := locationOfRank_inj.1 (Int.ofNat.inj reached)
    have := rank_le_of_inProgram top_eq inside'
    omega

theorem not_labelAt_of_tells (top_eq : img.status.programTop = top) (high : top ≤ 1111)
    (told : FoundLabel.Tells name (7 * (top - img.status.programLimit) + 7) (img.tape (7 * top + 6)) none)
    (inside : img.InProgram loc) : ¬img.LabelAt name loc := by
  rw [labelAt_iff (lt_memorySize_of_inProgram top_eq high inside), tapeAt_of_inProgram top_eq inside]
  apply told
  have low := inside.1
  unfold locationOfRank
  omega

/-- With room for a marker below the limit a search of program memory comes to its end. -/
theorem exists_findLabel_tells (name : String) (enough : 3 ≤ img.status.programLimit)
    (top_eq : img.status.programTop = top) (low : img.status.programLimit ≤ top) (high : top ≤ 1111) :
    ∃ found, img.findLabel name = .ok found ∧
      FoundLabel.Tells name (7 * (top - img.status.programLimit) + 7) (img.tape (7 * top + 6)) found := by
  have long : 7 * (top - img.status.programLimit) + 7 + 18 ≤ (img.tape (7 * top + 6)).length := by
    rw [length_tape]
    omega
  obtain ⟨found, searched, told⟩ := FoundLabel.search_spec name long
  refine ⟨found, ?_, told⟩
  unfold findLabel
  rw [programTape_of_le top_eq low (by simp only [registerCount]; omega)]
  exact searched

/-- A label of the name is found when none stands before it in program memory. -/
theorem findLabel_of_first {loc : Nat} {m : Marker} {rest : Tape} (enough : 3 ≤ img.status.programLimit)
    (high : img.status.programTop ≤ 1111) (inside : img.InProgram loc)
    (read : Marker.read (img.tapeAt loc) = .ok (some (m, rest))) (label : m.isLabel = true) (named : m.name = name)
    (first : ∀ earlier, img.InProgram earlier → locationOfRank loc < locationOfRank earlier →
      ¬img.LabelAt name earlier) : img.findLabel name = .ok (some ⟨m, rest⟩) := by
  obtain ⟨top, top_eq⟩ : ∃ top : Nat, img.status.programTop = top := by
    obtain ⟨above, below⟩ := inside
    exact ⟨img.status.programTop.toNat, by omega⟩
  have within := inside
  unfold InProgram at within
  rw [top_eq] at high within
  have rank := rank_le_of_inProgram top_eq inside
  have low : 7 * img.status.programLimit ≤ locationOfRank loc := by
    unfold locationOfRank
    omega
  unfold findLabel
  rw [programTape_of_le top_eq (by omega) (by simp only [registerCount]; omega)]
  change FoundLabel.search name _ _ = _
  rw [tapeAt_of_inProgram top_eq inside] at read
  apply FoundLabel.search_of_first _ _ read label named
  · intro before earlier labelled
    have position : locationOfRank (locationOfRank (7 * top + 6 - before)) = 7 * top + 6 - before := by simp
    have inside' : img.InProgram (locationOfRank (7 * top + 6 - before)) := by
      rw [inProgram_locationOfRank]
      omega
    refine first _ inside' (by omega) ?_
    rw [labelAt_iff (lt_memorySize_of_inProgram top_eq (by omega) inside'), tapeAt_of_inProgram top_eq inside', position,
      Nat.sub_sub_self (by omega)]
    exact labelled
  · rw [length_tape]
    omega
  · omega

end Found

/-- There is no program memory, or it begins at a register of the calculator. -/
theorem programMemory_cases (high : img.status.programTop ≤ 1111) :
    img.status.programTop < img.status.programLimit ∨
      ∃ top : Nat, img.status.programTop = top ∧ img.status.programLimit ≤ top ∧ top ≤ 1111 := by
  rcases Int.lt_or_le img.status.programTop img.status.programLimit with empty | low
  · exact .inl empty
  · exact .inr ⟨img.status.programTop.toNat, by omega⟩

section Empty

variable (empty : img.status.programTop < img.status.programLimit)
include empty

/-- Without program memory the scan has nothing to look at. -/
theorem catalog_of_empty : img.catalog = .ok Scan.start.report := by
  have tape : img.programTape = .ok ([], 0) := if_pos empty
  unfold catalog
  rw [tape]
  change (scan 0 [] Scan.start >>= _) = _
  rw [scan]
  rfl

theorem findLabel_of_empty (name : String) : img.findLabel name = .ok none := by
  have tape : img.programTape = .ok ([], 0) := if_pos empty
  unfold findLabel
  rw [tape]
  rfl

end Empty

/-- **The catalog and the search for a label.** Both come to their end. What the catalog names is found, and what is
found is the first label of its name in program memory; when the catalog does not name it, it begins with an operand that
the catalog steps over. -/
theorem findLabel_catalog (img : Image) (name : String) (enough : 3 ≤ img.status.programLimit)
    (high : img.status.programTop ≤ 1111) :
    ∃ c found, img.catalog = .ok c ∧ img.findLabel name = .ok found ∧
      (c.Names name → found ≠ none) ∧
      (found = none → ∀ loc, img.InProgram loc → ¬img.LabelAt name loc) ∧
      ∀ f, found = some f → ∃ loc, img.FirstLabel name loc f ∧ (¬c.Names name → img.SteppedOver loc) := by
  rcases Int.lt_or_le img.status.programTop img.status.programLimit with empty | low
  · refine ⟨Scan.start.report, none, catalog_of_empty empty, findLabel_of_empty empty name, ?_, ?_, ?_⟩
    · rintro ⟨key, member⟩
      cases member
    · rintro - loc ⟨above, below⟩
      omega
    · rintro f ⟨⟩
  · obtain ⟨top, top_eq⟩ : ∃ top : Nat, img.status.programTop = top := ⟨img.status.programTop.toNat, by omega⟩
    rw [top_eq] at low high
    have inside : top < registerCount := by simp only [registerCount]; omega
    have long : 7 * (top - img.status.programLimit) + 7 + 18 ≤ (img.tape (7 * top + 6)).length := by
      rw [length_tape]
      omega
    obtain ⟨found, searched, told⟩ := FoundLabel.search_spec name long
    refine ⟨_, found, catalog_of_le top_eq (by omega) inside enough, ?_, ?_, ?_, ?_⟩
    · unfold findLabel
      rw [programTape_of_le top_eq (by omega) inside]
      exact searched
    · rintro names rfl
      rw [names_foldl] at names
      rcases names with ⟨key, member⟩ | ⟨u, looked, labels⟩
      · cases member
      · obtain ⟨passed, within, rfl, -⟩ := mem_visited looked
        exact told passed within labels
    · rintro rfl loc inside
      exact not_labelAt_of_tells top_eq (by omega) told inside
    · rintro f rfl
      obtain ⟨loc, first⟩ := firstLabel_of_tells top_eq (by omega) (by omega) told
      refine ⟨loc, first, ?_⟩
      intro unnamed
      apply steppedOver_of_not_visits first.inside
      intro visits
      apply unnamed
      rw [names_foldl]
      have labelled : img.LabelAt name loc := ⟨_, first.marker, first.label, first.named⟩
      rw [labelAt_iff (lt_memorySize_of_inProgram top_eq (by omega) first.inside)] at labelled
      exact Or.inr ⟨_, visits.mem_visited top_eq (by omega), labelled⟩

/-- Among the two programs the label AB is named and found. -/
theorem findLabel_twoPrograms :
    twoPrograms.status.programLimit = 298 ∧ twoPrograms.status.programTop = 300 ∧
      ∃ found, twoPrograms.findLabel "AB" = .ok found ∧
        ∃ f, found = some f ∧ ∃ loc, twoPrograms.FirstLabel "AB" loc f := by
  have limit : twoPrograms.status.programLimit = 298 := by rw [status_twoPrograms]
  have top : twoPrograms.status.programTop = 300 := by rw [status_twoPrograms]
  obtain ⟨c, found, catalog, searched, named, -, first⟩ :=
    findLabel_catalog twoPrograms "AB" (by rw [limit]; decide) (by rw [top]; decide)
  rw [catalog_twoPrograms] at catalog
  cases catalog
  refine ⟨limit, top, found, searched, ?_⟩
  have isFound : found ≠ none := named ⟨some 0x00, List.mem_cons_self⟩
  obtain ⟨f, rfl⟩ := Option.ne_none_iff_exists'.1 isFound
  obtain ⟨loc, here, -⟩ := first f rfl
  exact ⟨f, rfl, loc, here⟩

end Image

end CalcImage
