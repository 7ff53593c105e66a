import Mathlib.Data.List.DropRight
import CalcImage.Proofs.Instruction.Span
import CalcImage.Proofs.Program.Kept

/-!
# The catalog of a stream of instructions

The catalog is taken byte by byte, without decoding instructions. Still it is the one that the decoded instructions tell
(`catalog_of_decoded`), as long as no operand byte of an instruction that is gone through byte by byte can be taken for
a marker or for an instruction with operands. `Catalog.ofInstructions` reads the catalog off a stream of instructions:
labels and ends leave one entry each, and the size of a program is that of its instructions from its start to its end,
those that are stepped over left out. The step from one instruction to the next is `scan_whole`, and what the scan has
counted by then is `Counted`.
-/

namespace CalcImage

namespace Instruction

/-- The instruction is a label. -/
def isLabel (i : Instruction) : Bool := i.shape == .global && i.marker.kind == .label

/-- The instruction is the end of a program other than the permanent end. -/
def isProgramEnd (i : Instruction) : Bool := i.shape == .global && i.marker.kind == .programEnd

/-- The opcodes that are stepped over with their operands when programs are catalogued. -/
def steppedOver (opcode : UInt8) : Bool := (0x90 ≤ opcode && opcode ≤ 0xBF) || (0xD0 ≤ opcode && opcode ≤ 0xEF)

/-- The bytes of an instruction that count for the size of its program. -/
def counted (i : Instruction) : Nat := if steppedOver i.opcode then 0 else i.size

/-- The bytes of instructions that count. -/
def countedAll : List Instruction → Nat
  | [] => 0
  | i :: is => i.counted + countedAll is

@[simp] theorem countedAll_nil : countedAll [] = 0 := rfl

@[simp] theorem countedAll_cons (i : Instruction) (is : List Instruction) :
    countedAll (i :: is) = i.counted + countedAll is := rfl

@[simp] theorem countedAll_append (is js : List Instruction) :
    countedAll (is ++ js) = countedAll is + countedAll js := by
  induction is with
  | nil => simp
  | cons i is ih => simp [ih, Nat.add_assoc]

/-- The operands are stepped over, or none of them can be taken for the opcode of a marker or of an instruction that is
stepped over. -/
def Tame (i : Instruction) : Prop := steppedOver i.opcode = true ∨ ∀ b ∈ i.operands, b < 0x90 ∨ 0xF0 ≤ b

instance (i : Instruction) : Decidable i.Tame :=
  have : Decidable (∀ b ∈ i.operands, b < 0x90 ∨ 0xF0 ≤ b) := List.decidableBAll _ _
  inferInstanceAs (Decidable (_ ∨ _))

end Instruction

namespace Catalog

/-- The instructions of the program that is open after the given ones: it starts at the first label of all when no end
stands after that label, and else after the last end. -/
def openProgram (before : List Instruction) : List Instruction :=
  let labelled := before.dropWhile fun i => !i.isLabel
  if labelled.isEmpty || labelled.any Instruction.isProgramEnd then
    before.rtakeWhile fun i => !i.isProgramEnd
  else labelled

/-- The size of the program that an end closes after the given instructions. An end with neither a label nor an end
before it closes no program, and is not counted itself. -/
def sizeAfter (before : List Instruction) (i : Instruction) : Nat :=
  (if before.any fun i => i.isLabel || i.isProgramEnd then i.size else 0) +
    Instruction.countedAll (openProgram before)

/-- The entry that an instruction leaves after the given ones. -/
def entryAfter (before : List Instruction) (i : Instruction) : Option Entry :=
  if i.isLabel then some (.label i.marker.name i.marker.key)
  else if i.isProgramEnd then some (.size (sizeAfter before i))
  else none

/-- The entries that instructions leave after the given ones. -/
def entriesAfter (before : List Instruction) : List Instruction → List Entry
  | [] => []
  | i :: is => (entryAfter before i).toList ++ entriesAfter (before ++ [i]) is

/-- The catalog of a stream of instructions. -/
def ofInstructions (is : List Instruction) : Catalog where
  labelCount := is.countP Instruction.isLabel
  programCount := is.countP Instruction.isProgramEnd
  entries := entriesAfter [] is

end Catalog

/-- The instructions that are decoded one after the other from a location on, down to the first one below the floor. -/
inductive Image.Decoded (img : Image) (floor : Int) : Int → List Instruction → Prop where
  | left {loc : Int} (below : loc < floor) : Decoded img floor loc []
  | step {loc : Int} {p : Placed Instruction} {is : List Instruction} (inside : floor ≤ loc)
      (decoded : img.decode loc = .ok p) (rest : Decoded img floor p.following is) :
      Decoded img floor loc (p.item :: is)

namespace Catalog

open Instruction (steppedOver)

section Kinds

variable {b : UInt8} {i : Instruction}

theorem not_isProgramEnd_of_isLabel (label : i.isLabel = true) : i.isProgramEnd = false := by
  simp only [Instruction.isLabel, Bool.and_eq_true, beq_iff_eq] at label
  simp [Instruction.isProgramEnd, label.2]

/-- The bytes at which a scan neither finds a marker nor steps over operands. -/
theorem quiet_of_tame (tame : b < 0x90 ∨ 0xF0 ≤ b) : stride b = 1 ∧ Shape.ofOpcode b ≠ .global := by
  revert b
  apply forall_byte
  decide +kernel

theorem stride_of_not_steppedOver (other : steppedOver b = false) : stride b = 1 := by
  revert b
  apply forall_byte
  decide +kernel

theorem layout_of_steppedOver (skipped : steppedOver b = true) :
    (Shape.ofOpcode b).layout = .bytes (stride b - 1) ∧ stride b ≠ 1 := by
  revert b
  apply forall_byte
  decide +kernel

theorem ne_global_of_steppedOver (skipped : steppedOver b = true) : Shape.ofOpcode b ≠ .global := by
  intro global
  exact (layout_of_steppedOver skipped).2 (stride_of_global global)

/-- An instruction that is stepped over has as many bytes as the stride of its opcode. -/
theorem stride_of_steppedOver {t rest : Tape} (taken : Instruction.read t = .ok (i, rest))
    (skipped : steppedOver i.opcode = true) : stride i.opcode = i.size := by
  obtain ⟨layout, -⟩ := layout_of_steppedOver skipped
  obtain ⟨parts, -⟩ := Instruction.eq_append_of_read taken
  have positive := stride_pos i.opcode
  have span := Instruction.span_of_read taken
  rw [parts, Instruction.bytes, List.cons_append, Tape.span_cons, layout, Layout.extent, Option.map_some,
    Option.some.injEq] at span
  omega

/-- An end has nothing after its third byte. -/
theorem size_of_isProgramEnd {t rest : Tape} (taken : Instruction.read t = .ok (i, rest))
    (ends : i.isProgramEnd = true) : i.size = 3 := by
  obtain ⟨rfl, -⟩ := Instruction.eq_append_of_read taken
  simp only [Instruction.isProgramEnd, Bool.and_eq_true, beq_iff_eq] at ends
  obtain ⟨bytes, body⟩ := Instruction.bytes_marker taken ends.1
  have bare : ¬ 0 < Marker.bodyLength i.marker.third := by
    intro pos
    rw [Marker.kind_of_bodyLength_pos pos] at ends
    cases ends.2
  have size : i.size = i.bytes.length := rfl
  rw [size, ← bytes, Marker.bytes]
  simp only [List.length_cons]
  omega

theorem counted_of_isProgramEnd (ends : i.isProgramEnd = true) : i.counted = i.size := by
  simp only [Instruction.isProgramEnd, Bool.and_eq_true, beq_iff_eq] at ends
  apply if_neg
  intro skipped
  exact ne_global_of_steppedOver skipped ends.1

end Kinds

section Open

variable {before : List Instruction} {i : Instruction}

/-- After an end no program is open. -/
theorem openProgram_end (ends : i.isProgramEnd = true) : openProgram (before ++ [i]) = [] := by
  have noLabel : i.isLabel = false := by
    cases label : i.isLabel with
    | false => rfl
    | true => rw [not_isProgramEnd_of_isLabel label] at ends; cases ends
  unfold openProgram
  dsimp only
  rw [if_pos]
  · simp [ends]
  · rw [List.dropWhile_append]
    split
    · simp [noLabel]
    · simp [ends]

/-- The first label of all opens a program. -/
theorem openProgram_first (label : i.isLabel = true) (first : ∀ j ∈ before, j.isLabel = false) :
    openProgram (before ++ [i]) = [i] := by
  have dropped : (before.dropWhile fun i => !i.isLabel) = [] := by
    simpa [List.dropWhile_eq_nil_iff] using first
  unfold openProgram
  simp [List.dropWhile_append, dropped, label, not_isProgramEnd_of_isLabel label]

/-- Every other instruction belongs to the program that is open. -/
theorem openProgram_other (inside : i.isProgramEnd = false)
    (other : i.isLabel = true → ∃ j ∈ before, j.isLabel = true) :
    openProgram (before ++ [i]) = openProgram before ++ [i] := by
  unfold openProgram
  dsimp only
  rw [List.dropWhile_append, List.rtakeWhile_concat]
  cases labelled : before.dropWhile fun i => !i.isLabel with
  | nil =>
    have noLabel : i.isLabel = false := by
      cases label : i.isLabel with
      | false => rfl
      | true =>
        obtain ⟨j, member, labelled'⟩ := other label
        have := List.dropWhile_eq_nil_iff.1 labelled j member
        simp [labelled'] at this
    simp [noLabel, inside]
  | cons j js =>
    by_cases ended : j.isProgramEnd = true ∨ ∃ k ∈ js, k.isProgramEnd = true
    · simp [ended, inside]
    · simp [ended, inside]

end Open

/-- The state after the marker that an instruction is, if it is one. -/
def Scan.meet (s : Scan) (i : Instruction) : Scan := if i.shape = .global then s.mark i.marker else s

/-- The state after so many steps. -/
def Scan.count (s : Scan) (steps : Nat) : Scan := { s with steps := s.steps + steps }

section Step

variable {i : Instruction} {rest : Tape} {room : Nat}

theorem scan_zero (t : Tape) (s : Scan) : scan 0 t s = .ok s := by
  unfold scan
  rfl

/-- A look at an instruction that is not stepped over marks the marker that it is. -/
theorem look_instruction (taken : Instruction.read (i.bytes ++ rest) = .ok (i, rest))
    (other : steppedOver i.opcode = false) (s : Scan) : look s (i.bytes ++ rest) = (s.meet i).count 1 := by
  unfold Scan.meet
  by_cases global : i.shape = .global
  · obtain ⟨bytes, body⟩ := Instruction.bytes_marker taken global
    have more := (Instruction.eq_append_of_read taken).2
    rw [← bytes, look_marker (m := i.marker) global body more, if_pos global, Scan.count]
  · rw [if_neg global, Instruction.bytes, List.cons_append, look, sighting_of_ne_global global,
      if_pos (stride_of_not_steppedOver other), Scan.count]

theorem meet_of_steppedOver (skipped : steppedOver i.opcode = true) (s : Scan) : s.meet i = s :=
  if_neg (ne_global_of_steppedOver skipped)

theorem look_of_steppedOver {b : UInt8} (skipped : steppedOver b = true) (t : Tape) (s : Scan) :
    look s (b :: t) = s := by
  rw [look, sighting_of_ne_global (ne_global_of_steppedOver skipped), if_neg (layout_of_steppedOver skipped).2]

/-- Byte by byte a scan goes through the first operands of an instruction that it does not step over. -/
theorem scan_bytes (taken : Instruction.read (i.bytes ++ rest) = .ok (i, rest)) (other : steppedOver i.opcode = false)
    (tame : i.Tame) (passed room : Nat) (inside : passed ≤ i.operands.length)
    (long : passed + room + 18 ≤ (i.operands ++ rest).length) (s : Scan) :
    scan (passed + 1 + room) (i.bytes ++ rest) s =
      scan room ((i.operands ++ rest).drop passed) ((s.meet i).count (passed + 1)) := by
  have quiet : ∀ b ∈ List.take passed i.operands, stride b = 1 ∧ Shape.ofOpcode b ≠ .global := by
    intro b member
    rcases tame with skipped | tame
    · rw [other] at skipped
      cases skipped
    · exact quiet_of_tame (tame b (List.mem_of_mem_take member))
  have size : (List.take passed i.operands).length = passed := List.length_take_of_le inside
  have split : i.operands ++ rest = List.take passed i.operands ++ (i.operands ++ rest).drop passed := by
    rw [List.drop_append_of_le_length inside, ← List.append_assoc, List.take_append_drop]
  have first := look_instruction taken other s
  have onward := @scan_quiet (List.take passed i.operands) room ((i.operands ++ rest).drop passed) quiet
    (by rw [List.length_drop]; omega) ((s.meet i).count 1)
  rw [← split, size] at onward
  rw [Instruction.bytes, List.cons_append] at first ⊢
  rw [scan_step (by omega) (by simp only [List.length_cons]; omega), first, stride_of_not_steppedOver other,
    List.drop_succ_cons, List.drop_zero, show passed + 1 + room - 1 = passed + room by omega, onward]
  unfold Scan.count
  dsimp only
  rw [Nat.add_assoc, Nat.add_comm 1]

/-- A scan comes from one instruction to the next. -/
theorem scan_whole (taken : Instruction.read (i.bytes ++ rest) = .ok (i, rest)) (tame : i.Tame)
    (inside : i.size ≤ room) (long : room + 18 ≤ (i.bytes ++ rest).length) (s : Scan) :
    scan room (i.bytes ++ rest) s = scan (room - i.size) rest ((s.meet i).count i.counted) := by
  have size : i.size = i.operands.length + 1 := rfl
  cases skipped : steppedOver i.opcode with
  | true =>
    have after : (i.bytes ++ rest).drop i.size = rest := List.drop_left' rfl
    rw [meet_of_steppedOver skipped, Instruction.counted, if_pos skipped]
    rw [Instruction.bytes, List.cons_append] at long after ⊢
    rw [scan_step (by omega) (by omega), stride_of_steppedOver taken skipped, after, look_of_steppedOver skipped]
    rfl
  | false =>
    have through := scan_bytes taken skipped tame i.operands.length (room - i.size) (Nat.le_refl _)
      (by rw [Instruction.bytes, List.cons_append, List.length_cons] at long; omega) s
    rw [List.drop_left, show i.operands.length + 1 + (room - i.size) = room by omega] at through
    rw [through, Instruction.counted, skipped, size]
    rfl

/-- A scan that comes to its end inside an instruction has met it. -/
theorem scan_cut (taken : Instruction.read (i.bytes ++ rest) = .ok (i, rest)) (tame : i.Tame)
    (pos : 0 < room) (cut : room < i.size) (long : room + 18 ≤ (i.bytes ++ rest).length) (s : Scan) :
    ∃ steps, scan room (i.bytes ++ rest) s = .ok ((s.meet i).count steps) := by
  have size : i.size = i.operands.length + 1 := rfl
  cases skipped : steppedOver i.opcode with
  | true =>
    refine ⟨0, ?_⟩
    rw [meet_of_steppedOver skipped]
    rw [Instruction.bytes, List.cons_append] at long ⊢
    rw [scan_step (by omega) (by omega), stride_of_steppedOver taken skipped, Nat.sub_eq_zero_of_le (Nat.le_of_lt cut),
      look_of_steppedOver skipped, scan_zero]
    rfl
  | false =>
    refine ⟨room, ?_⟩
    have through := scan_bytes taken skipped tame (room - 1) 0 (by omega)
      (by rw [Instruction.bytes, List.cons_append, List.length_cons] at long; omega) s
    rw [scan_zero, show room - 1 + 1 = room by omega] at through
    exact through

end Step

/-- What a scan has found after the instructions that it has gone through. -/
structure Found (is : List Instruction) (s : Scan) : Prop where
  labels : s.labels = is.countP Instruction.isLabel
  programs : s.programs = is.countP Instruction.isProgramEnd
  entries : s.entries = entriesAfter [] is

/-- What a scan has found and counted after the instructions that it has gone through. -/
structure Counted (is : List Instruction) (s : Scan) : Prop extends Found is s where
  steps : s.steps = (if is.any fun i => i.isLabel || i.isProgramEnd then 3 else 0) +
    Instruction.countedAll (openProgram is)

section Invariant

variable {is : List Instruction} {i : Instruction} {s : Scan}

theorem entriesAfter_append (before is js : List Instruction) :
    entriesAfter before (is ++ js) = entriesAfter before is ++ entriesAfter (before ++ is) js := by
  induction is generalizing before with
  | nil => simp [entriesAfter]
  | cons i is ih => simp [entriesAfter, ih]

/-- What is found does not depend on the count. -/
theorem Found.recount {counted : Nat} (found : Found is (s.count counted)) (steps : Nat) : Found is (s.count steps) :=
  ⟨found.labels, found.programs, found.entries⟩

theorem Counted.start : Counted [] Scan.start := ⟨⟨rfl, rfl, rfl⟩, rfl⟩

/-- A label sets the steps to three when it is the first of all. -/
theorem meet_label (label : i.isLabel = true) (s : Scan) :
    s.meet i = ⟨if s.labels = 0 then 3 else s.steps, s.labels + 1, s.programs,
      s.entries ++ [.label i.marker.name i.marker.key]⟩ := by
  simp only [Instruction.isLabel, Bool.and_eq_true, beq_iff_eq] at label
  rw [Scan.meet, if_pos label.1, Scan.mark, label.2]

/-- An end starts the count anew. -/
theorem meet_programEnd (ends : i.isProgramEnd = true) (s : Scan) :
    s.meet i = ⟨0, s.labels, s.programs + 1, s.entries ++ [.size s.steps]⟩ := by
  simp only [Instruction.isProgramEnd, Bool.and_eq_true, beq_iff_eq] at ends
  rw [Scan.meet, if_pos ends.1, Scan.mark, ends.2]

theorem meet_other (noLabel : i.isLabel = false) (noEnd : i.isProgramEnd = false) (s : Scan) : s.meet i = s := by
  by_cases global : i.shape = .global
  · simp only [Instruction.isLabel, Instruction.isProgramEnd, global, beq_self_eq_true, Bool.true_and,
      beq_eq_false_iff_ne] at noLabel noEnd
    rw [Scan.meet, if_pos global, Scan.mark]
    split
    · exact absurd ‹_› noLabel
    · exact absurd ‹_› noEnd
    · rfl
  · exact if_neg global

/-- What is found and counted goes on from one instruction to the next. -/
theorem Counted.meet (counted : Counted is s) {t rest : Tape} (taken : Instruction.read t = .ok (i, rest)) :
    Counted (is ++ [i]) ((s.meet i).count i.counted) := by
  have entries : entriesAfter [] (is ++ [i]) = s.entries ++ (entryAfter is i).toList := by
    simp [entriesAfter_append, entriesAfter, counted.entries]
  have labels := counted.labels
  have programs := counted.programs
  have steps := counted.steps
  cases label : i.isLabel with
  | true =>
    have noEnd := not_isProgramEnd_of_isLabel label
    rw [meet_label label, Scan.count]
    refine ⟨⟨?_, ?_, ?_⟩, ?_⟩
    · simp [label, labels]
    · simp [noEnd, programs]
    · simp [entries, entryAfter, label]
    · dsimp only
      by_cases first : s.labels = 0
      · have unlabelled : ∀ j ∈ is, j.isLabel = false := by
          rw [labels, List.countP_eq_zero] at first
          simpa using first
        simp [openProgram_first label unlabelled, first, label]
      · have labelled : ∃ j ∈ is, j.isLabel = true := by
          rw [← List.countP_pos_iff, ← labels]
          omega
        have closed : (is.any fun i => i.isLabel || i.isProgramEnd) = true := by
          obtain ⟨j, member, isLabel⟩ := labelled
          exact List.any_eq_true.2 ⟨j, member, by simp [isLabel]⟩
        simp [openProgram_other noEnd fun _ => labelled, first, label, closed, steps, Nat.add_assoc]
  | false =>
    cases ends : i.isProgramEnd with
    | true =>
      have size := size_of_isProgramEnd taken ends
      rw [meet_programEnd ends, Scan.count]
      refine ⟨⟨?_, ?_, ?_⟩, ?_⟩
      · simp [label, labels]
      · simp [ends, programs]
      · simp [entries, entryAfter, label, ends, sizeAfter, size, steps]
      · have whole : i.counted = 3 := by rw [counted_of_isProgramEnd ends, size]
        simp [openProgram_end ends, ends, whole]
    | false =>
      rw [meet_other label ends, Scan.count]
      refine ⟨⟨?_, ?_, ?_⟩, ?_⟩
      · simp [label, labels]
      · simp [ends, programs]
      · simp [entries, entryAfter, label, ends]
      · simp [openProgram_other ends, label, ends, steps, Nat.add_assoc]

end Invariant

end Catalog

namespace Image

open Catalog Walk

variable {img : Image}

/-- What is decoded at a location is read off the tape there, and the walk goes on with the rest of it. -/
theorem read_of_decode {r : Nat} (inside : r < memorySize) {p : Placed Instruction}
    (decoded : img.decode (locationOfRank r : Nat) = .ok p) :
    p.item.size ≤ r ∧ p.following = locationOfRank (r - p.item.size) ∧
      img.tape r = p.item.bytes ++ img.tape (r - p.item.size) ∧
      Instruction.read (img.tape r) = .ok (p.item, img.tape (r - p.item.size)) := by
  rw [decode_eq (locationOfRank_lt inside), tapeAt_locationOfRank] at decoded
  cases taken : Instruction.read (img.tape r) with
  | error f => rw [taken] at decoded; cases decoded
  | ok found =>
    obtain ⟨i, rest⟩ := found
    rw [taken] at decoded
    cases decoded
    obtain ⟨fits, rfl⟩ := rest_of_read taken
    refine ⟨fits, ?_, (Instruction.eq_append_of_read taken).1, rfl⟩
    simp [stepsAfter]

/-- From an instruction on the scan finds what the instructions that are decoded from there on tell. -/
theorem scan_decoded {limit : Nat} (enough : 3 ≤ limit) {loc : Int} {is : List Instruction}
    (decoded : img.Decoded (7 * limit) loc is) (tame : ∀ i ∈ is, i.Tame) {r : Nat} (inMemory : r < memorySize)
    (start : loc = locationOfRank r) {before : List Instruction} {s : Scan} (counted : Counted before s) :
    ∃ s', scan (r + 1 - 7 * limit) (img.tape r) s = .ok s' ∧ Found (before ++ is) s' := by
  induction decoded generalizing r before s with
  | left below =>
    refine ⟨s, ?_, ?_⟩
    · have passed : r + 1 - 7 * limit = 0 := by
        unfold locationOfRank at start
        omega
      rw [passed, scan_zero]
    · rw [List.append_nil]
      exact counted.toFound
  | @step _ p is inside decoded rest ih =>
    subst start
    obtain ⟨fits, following, parts, taken⟩ := read_of_decode inMemory decoded
    have onward := counted.meet taken
    have wild := tame p.item List.mem_cons_self
    have long := length_tape img r
    have room : 0 < r + 1 - 7 * limit := by
      unfold locationOfRank at inside
      omega
    rw [List.append_cons]
    rw [parts] at taken long ⊢
    rcases Nat.lt_or_ge (r + 1 - 7 * limit) p.item.size with cut | whole
    · -- The scan ends inside this instruction, so no other one begins in program memory.
      obtain ⟨steps, scanned⟩ := scan_cut taken wild room cut (by omega) s
      refine ⟨_, scanned, ?_⟩
      cases rest with
      | left below =>
        rw [List.append_nil]
        exact onward.toFound.recount steps
      | step inside =>
        rw [following] at inside
        unfold locationOfRank at inside
        omega
    · have left : r + 1 - 7 * limit - p.item.size = r - p.item.size + 1 - 7 * limit := by omega
      rw [scan_whole taken wild whole (by omega), left]
      exact ih (fun i member => tame i (List.mem_cons_of_mem p.item member)) (by omega) (by rw [following]) onward

/-- Instructions whose own bytes tell their length are decoded where these bytes are all of program memory. -/
theorem decoded_of_tape (limit : Nat) {r : Nat} (inMemory : r < memorySize) {is : List Instruction} {after : Tape}
    (tape : img.tape r = is.flatMap Instruction.bytes ++ after) (more : after ≠ [])
    (span : ∀ i ∈ is, ∀ rest, Tape.span (i.bytes ++ rest) = some i.size)
    (size : (is.flatMap Instruction.bytes).length = r + 1 - 7 * limit) :
    img.Decoded (7 * limit) (locationOfRank r : Nat) is := by
  induction is generalizing r with
  | nil =>
    apply Decoded.left
    simp only [List.flatMap_nil, List.length_nil] at size
    unfold locationOfRank
    omega
  | cons i is ih =>
    have rest : is.flatMap Instruction.bytes ++ after ≠ [] := List.append_ne_nil_of_right_ne_nil _ more
    rw [List.flatMap_cons, List.append_assoc] at tape
    rw [List.flatMap_cons, List.length_append] at size
    have positive : 0 < i.bytes.length := Nat.succ_pos _
    obtain ⟨fits, decoded⟩ := decode_of_tape inMemory tape (span i List.mem_cons_self _) rest
    rw [Instruction.size] at fits decoded
    refine Decoded.step ?_ decoded (ih (by omega) ?_ (fun j member => span j (List.mem_cons_of_mem i member)) ?_)
    · unfold locationOfRank
      omega
    · rw [← drop_tape img fits, tape, List.drop_left]
    · omega

/-- **The catalog is that of the instruction stream.** When the instructions that are decoded one after the other from
the program top on leave program memory, and no operand of those that the scan goes through byte by byte misleads it,
the catalog is the one that they tell. -/
theorem catalog_of_decoded {is : List Instruction} (enough : 3 ≤ img.status.programLimit)
    (low : img.status.programLimit ≤ img.status.programTop) (high : img.status.programTop ≤ 1111)
    (decoded : img.Decoded (7 * img.status.programLimit) (7 * img.status.programTop) is) (tame : ∀ i ∈ is, i.Tame) :
    img.catalog = .ok (Catalog.ofInstructions is) := by
  obtain ⟨top, top_eq⟩ : ∃ top : Nat, img.status.programTop = top := ⟨img.status.programTop.toNat, by omega⟩
  rw [top_eq] at low high decoded
  have start : (7 * top : Int) = locationOfRank (7 * top + 6) := by
    unfold locationOfRank
    omega
  have room : 7 * (top - img.status.programLimit) + 7 = 7 * top + 6 + 1 - 7 * img.status.programLimit := by omega
  obtain ⟨s, scanned, found⟩ := scan_decoded enough decoded tame (by simp only [memorySize]; omega) start Counted.start
  unfold catalog
  rw [programTape_of_le top_eq (by omega) (by simp only [registerCount]; omega), room]
  change (scan _ _ _ >>= _) = _
  rw [scanned]
  change Except.ok s.report = _
  rw [List.nil_append] at found
  rw [Scan.report, found.labels, found.programs, found.entries]
  rfl

/-- A program with the label A in which a byte C0 is an operand of an instruction that is stepped over. -/
def programA : List Instruction :=
  [⟨0xC0, [0x00, 0xF2, 0x00, 0x41]⟩, ⟨0x91, [0xC0]⟩, ⟨0x85, []⟩, ⟨0xC0, [0x00, 0x0D]⟩, ⟨0xC4, [0x01, 0x29]⟩]

/-- An image with this program in its registers 300 and 299. -/
def oneProgram : Image :=
  holding [0x00, 0x00, 0x01, 0x69, 0x12, 0xD1, 0x2B] 300 (programA.flatMap Instruction.bytes)

/-- The two bytes that are stepped over have no part in the size of the program. -/
theorem catalog_oneProgram :
    oneProgram.status.programTop = 300 ∧ oneProgram.status.programLimit = 299 ∧
      oneProgram.Decoded (7 * 299) (7 * 300) programA ∧ (∀ i ∈ programA, i.Tame) ∧
      oneProgram.catalog = .ok ⟨1, 1, [.label "A" (some 0x00), .size 9]⟩ := by
  have size : (programA.flatMap Instruction.bytes).length = 7 * 2 := rfl
  have status : oneProgram.status = ⟨361, 300, 299⟩ := by
    have packed : oneProgram.status = _ := status_holding size rfl (by decide)
    rw [packed]
    decide
  have top : oneProgram.status.programTop = 300 := by rw [status]
  have limit : oneProgram.status.programLimit = 299 := by rw [status]
  have tape : oneProgram.tape (7 * 300 + 6) =
      programA.flatMap Instruction.bytes ++ oneProgram.tape (7 * (300 - 2) + 6) := by
    have inside : 300 < registerCount := by decide
    unfold oneProgram
    exact tape_holding inside size (by decide)
  have more : oneProgram.tape (7 * (300 - 2) + 6) ≠ [] := by
    rw [← List.length_pos_iff, length_tape]
    decide
  have span : ∀ i ∈ programA, ∀ rest, Tape.span (i.bytes ++ rest) = some i.size := by
    intro i member rest
    simp only [programA, List.mem_cons, List.not_mem_nil, or_false] at member
    rcases member with rfl | rfl | rfl | rfl | rfl <;> rfl
  have decoded : oneProgram.Decoded (7 * 299) (7 * 300) programA :=
    decoded_of_tape 299 (r := 7 * 300 + 6) (by decide) tape more span rfl
  have tame : ∀ i ∈ programA, i.Tame := by decide
  refine ⟨top, limit, decoded, tame, ?_⟩
  have floor : 7 * (oneProgram.status.programLimit : Int) = 7 * 299 := by
    rw [limit]
    rfl
  rw [catalog_of_decoded (by rw [limit]; decide) (by rw [limit, top]; decide) (by rw [top]; decide)
    (by rw [floor, top]; exact decoded) tame]
  rfl

end Image

end CalcImage
