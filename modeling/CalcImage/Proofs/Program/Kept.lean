import CalcImage.Proofs.Program.Append

/-!
# Programs that an injection keeps

Injections go over the register of the permanent end from its first byte on, whether a program still has bytes there or
not. The images that lose nothing by that are those with a clear register at their limit (`ClearAtLimit`), such as
`keptProgram`; `twoPrograms` is one that loses a label.
-/

namespace CalcImage.Image

open Catalog Walk
open Injection (padded registersFor endRegister)

/-- Whatever is injected, the entries of the catalog are the first entries of the catalog afterwards. -/
def KeepsCatalog (img : Image) : Prop :=
  ∀ offer log i d', (Edit.inject offer).on ⟨img, log⟩ = (.ok i, d') →
    ∃ c c', img.catalog = .ok c ∧ d'.image.catalog = .ok c' ∧ c.entries <+: c'.entries

/-- **What an injection leaves of the catalog.** Every injection keeps the entries that were there exactly when none
can be made, or when no marker that the catalog reports has a byte in the register of the program limit. -/
theorem keepsCatalog_iff {img : Image} (low : img.status.programLimit ≤ img.status.programTop)
    (high : img.status.programTop ≤ 1111) :
    img.KeepsCatalog ↔ (img.bottom < img.status.programLimit → img.ClearAtLimit) := by
  have inside : img.status.programTop < registerCount := by
    simp only [registerCount]
    omega
  have limit : img.status.programLimit < registerCount := by omega
  constructor
  · intro keeps room
    obtain ⟨filler, choice, other⟩ : ∃ filler : UInt8, (filler = 0x20 ∨ filler = 0x21) ∧
        (img.tape (7 * img.status.programLimit + 6)).head? ≠ some filler := by
      by_cases first : (img.tape (7 * img.status.programLimit + 6)).head? = some 0x20
      · exact ⟨0x21, .inr rfl, by rw [first]; decide⟩
      · exact ⟨0x20, .inl rfl, first⟩
    have admits : img.Admits (List.replicate 7 filler) :=
      ⟨List.cons_ne_nil _ _, limit, by rw [Injection.registersFor_seven]; omega⟩
    obtain ⟨log, success⟩ := Edit.inject_of_admits (d := ⟨img, []⟩) (Payload.bytes_ofBytes _) admits
    obtain ⟨c, c', before, after, kept⟩ := keeps _ _ _ _ success
    obtain ⟨heads, last, beyond, parts⟩ := scanParts low inside (Nat.le_trans admits.base_le (Nat.le_of_lt room))
    exact parts.clear_of_prefix choice other admits before after kept
  · intro clear offer log i d' success
    rcases Edit.inject_cases offer ⟨img, log⟩ with ⟨bs, log', -, admits, injected⟩ | ⟨f, log', -, refused⟩
    · obtain ⟨-, rfl⟩ : img.account bs = i ∧ ⟨img.appended bs, log'⟩ = d' := by
        simpa [injected] using success
      have room : img.bottom + registersFor bs.length ≤ img.status.programLimit := admits.room
      have used := Injection.registersFor_pos admits.nonempty
      have base : partitionBase ≤ img.bottom := admits.base_le
      obtain ⟨heads, last, beyond, parts⟩ := scanParts low inside (by omega)
      exact parts.entries_prefix (clear (by omega)) admits
    · simp [refused] at success

/-- An image of zeros but for its status register and a program that fills registers from `top` downwards. -/
def holding (packed : List UInt8) (top : Nat) (program : List UInt8) : Image :=
  (zero.lay (7 * 13 + 6) packed).lay (7 * top + 6) program

section Holding

variable {packed program : List UInt8} {top count : Nat}

theorem tape_holding (inside : top < registerCount) (size : program.length = 7 * count) (room : count ≤ top) :
    (holding packed top program).tape (7 * top + 6) =
      program ++ (holding packed top program).tape (7 * (top - count) + 6) := by
  simp only [registerCount] at inside
  have whole : (holding packed top program).tape (7 * top + 6) = _ :=
    tape_lay (zero.lay (7 * 13 + 6) packed) (by simp only [memorySize]; omega) (by omega)
  have split := tape_split (holding packed top program) (Nat.sub_le top count)
  rw [show 7 * (top - (top - count)) = program.length by omega] at split
  rw [split]
  congr 1
  rw [whole, List.take_left]

/-- The registers between the status register and the program are zero. -/
theorem byte_holding (size : program.length = 7 * count) (long : packed.length = 7 * 1) (room : count ≤ top)
    {index : Nat} (above : 13 < index) (below : index + count ≤ top) :
    (holding packed top program).byte (7 * index) = 0 := by
  rw [holding, byte_lay_register _ size (by omega) (by omega), byte_lay_register _ long (by omega) (by omega),
    byte_zero]

theorem statusByte_holding (size : program.length = 7 * count) (long : packed.length = 7 * 1) (room : 13 + count ≤ top)
    {loc : Nat} (low : 91 ≤ loc) (high : loc ≤ 97) :
    (holding packed top program).byte loc = packed.getD (loc - 91) 0 := by
  have whole : (zero.lay (7 * 13 + 6) packed).tape (7 * 13 + 6) = _ := tape_lay zero (by decide) (by omega)
  have here := getElem?_tape (zero.lay (7 * 13 + 6) packed) (7 * 13 + 6) (loc - 91)
  rw [whole, if_pos (by omega), List.getElem?_append_left (by omega), locationOfRank_register (by omega),
    show 7 * 13 + (loc - 91) = loc by omega] at here
  rw [holding, byte_lay_register _ size (by omega) (by omega), List.getD_eq_getElem?_getD, here]
  rfl

/-- The status register holds what was packed into it. -/
theorem status_holding (size : program.length = 7 * count) (long : packed.length = 7 * 1) (room : 13 + count ≤ top) :
    (holding packed top program).status =
      ⟨(packed.getD 2 0).toNat % 16 * 256 + (packed.getD 3 0).toNat,
        ((packed.getD 4 0).toNat * 16 + (packed.getD 5 0).toNat / 16 : Nat) - 1,
        (packed.getD 5 0).toNat % 16 * 256 + (packed.getD 6 0).toNat⟩ := by
  have bytes (loc : Nat) (low : 91 ≤ loc) (high : loc ≤ 97) : (holding packed top program).byte loc = _ :=
    statusByte_holding size long room low high
  rw [status, bytes 93 (by decide) (by decide), bytes 94 (by decide) (by decide), bytes 95 (by decide) (by decide),
    bytes 96 (by decide) (by decide), bytes 97 (by decide) (by decide)]

/-- Between the base of the partitions and the program everything is free. -/
theorem bottom_holding (size : program.length = 7 * count) (long : packed.length = 7 * 1) (room : count ≤ top)
    {limit : Nat} (limit_eq : (holding packed top program).status.programLimit = limit) (base : partitionBase ≤ limit)
    (above : limit + count ≤ top + 1) : (holding packed top program).bottom = partitionBase := by
  rw [bottom, limit_eq]
  apply bottomBelow_eq_base base
  intro index low high
  simp only [partitionBase] at low
  rw [byte_holding size long room (by omega) (by omega)]
  decide

end Holding

/-- The program with the label AB, which has an end of its own. -/
def programAb : List Passage :=
  [⟨⟨0xC0, 0x00, 0xF3, [0x00, 0x41, 0x42]⟩, [0x11, 0x12, 0x85]⟩, ⟨⟨0xC0, 0x00, 0x0D, []⟩, []⟩]

/-- The program with the label C, which the permanent end closes. -/
def programC : List Passage := [⟨⟨0xC0, 0x00, 0xF2, [0x00, 0x43]⟩, [0x85]⟩, ⟨⟨0xC4, 0x01, 0x29, []⟩, []⟩]

/-- What an injection of one byte leaves of it: its first two bytes, now completed to an end. -/
def overwrittenC : List Passage := [⟨⟨0xC0, 0x00, 0x85, []⟩, List.replicate 10 0x00⟩, ⟨⟨0xC4, 0x01, 0x29, []⟩, []⟩]

/-- An image with two programs between the program top 300 and the program limit 298. The last four bytes of the second
one share a register with the permanent end. -/
def twoPrograms : Image :=
  holding [0x00, 0x00, 0x01, 0x69, 0x12, 0xD1, 0x2A] 300 ((programAb ++ programC).flatMap Passage.bytes)

theorem length_programs : ((programAb ++ programC).flatMap Passage.bytes).length = 7 * 3 := rfl

theorem status_twoPrograms : twoPrograms.status = ⟨361, 300, 298⟩ := by
  have packed : twoPrograms.status = _ := status_holding length_programs rfl (by decide)
  rw [packed]
  decide

theorem tape_twoPrograms : twoPrograms.tape (7 * 300 + 6) =
    (programAb ++ programC).flatMap Passage.bytes ++ twoPrograms.tape (7 * (300 - 3) + 6) := by
  have inside : 300 < registerCount := by decide
  unfold twoPrograms
  exact tape_holding inside length_programs (by decide)

theorem bottom_twoPrograms : twoPrograms.bottom = partitionBase := by
  have limit : twoPrograms.status.programLimit = 298 := by rw [status_twoPrograms]
  exact bottom_holding length_programs rfl (by decide) limit (by decide) (by decide)

/-- Below the two programs 106 registers are free. -/
theorem admits_twoPrograms {bs : List UInt8} (nonempty : bs ≠ []) (few : Injection.registersFor bs.length ≤ 106) :
    twoPrograms.Admits bs := by
  have limit : twoPrograms.status.programLimit = 298 := by rw [status_twoPrograms]
  constructor
  case nonempty => exact nonempty
  case inside =>
    rw [limit]
    decide
  case room =>
    rw [bottom_twoPrograms, limit]
    simp only [partitionBase]
    omega

/-- The catalog when the tape begins with plain passages down to the program limit. -/
theorem catalog_of_passages {img : Image} {top : Nat} {ps : List Passage} {t : Tape}
    (top_eq : img.status.programTop = top) (low : img.status.programLimit ≤ top) (high : top < registerCount)
    (plain : ∀ p ∈ ps, p.Plain)
    (tape : img.tape (7 * top + 6) = ps.flatMap Passage.bytes ++ t)
    (size : (ps.flatMap Passage.bytes).length = 7 * (top - img.status.programLimit) + 7) (long : 18 ≤ t.length) :
    img.catalog = .ok (ps.foldl Scan.pass Scan.start).report := by
  unfold catalog
  rw [programTape_of_le top_eq low high]
  change (scan (7 * (top - img.status.programLimit) + 7) (img.tape (7 * top + 6)) _ >>= _) = _
  rw [tape, ← size, ← Nat.add_zero (ps.flatMap Passage.bytes).length, scan_passages plain long]
  unfold scan
  rfl

theorem catalog_twoPrograms :
    twoPrograms.catalog = .ok ⟨2, 1, [.label "AB" (some 0x00), .size 12, .label "C" (some 0x00)]⟩ := by
  have top_eq : twoPrograms.status.programTop = (300 : Nat) := by rw [status_twoPrograms]; rfl
  rw [catalog_of_passages top_eq (by rw [status_twoPrograms]; decide) (by decide) (by decide) tape_twoPrograms
    (by rw [status_twoPrograms]; rfl) (by rw [length_tape]; decide)]
  rfl

/-- One byte more leaves the label of the second program without its name. -/
theorem catalog_appended_twoPrograms :
    (twoPrograms.appended [0x85]).catalog = .ok ⟨1, 2, [.label "AB" (some 0x00), .size 12, .size 3]⟩ := by
  have limit : twoPrograms.status.programLimit = 298 := by rw [status_twoPrograms]
  have admits : twoPrograms.Admits [0x85] := admits_twoPrograms (List.cons_ne_nil _ _) (by decide)
  have status : (twoPrograms.appended [0x85]).status = ⟨361, 300, 297⟩ := by
    rw [admits.status_appended, status_twoPrograms]
    rfl
  have tape : (twoPrograms.appended [0x85]).tape (7 * 300 + 6) =
      (programAb ++ overwrittenC).flatMap Passage.bytes ++
        (twoPrograms.appended [0x85]).tape (7 * (298 - 1) - 1) := by
    have above : ((twoPrograms.appended [0x85]).tape (7 * 300 + 6)).take _ = _ := admits.take_tape_appended
    have below := admits.tape_appended
    rw [limit, show registersFor [(0x85 : UInt8)].length = 1 from rfl] at below
    rw [limit] at above
    rw [tape_split _ (show 298 ≤ 300 by decide), above, below, tape_twoPrograms,
      List.take_append_of_le_length (by decide), ← List.append_assoc]
    congr 1
  have top_eq : (twoPrograms.appended [0x85]).status.programTop = (300 : Nat) := by rw [status]; rfl
  rw [catalog_of_passages top_eq (by rw [status]; decide) (by decide) (by decide) tape (by rw [status]; rfl)
    (by rw [length_tape]; decide)]
  rfl

theorem inject_twoPrograms : ∃ log, (Edit.inject (.text "85")).on ⟨twoPrograms, []⟩ =
    (.ok (twoPrograms.account [0x85]), ⟨twoPrograms.appended [0x85], log⟩) :=
  Edit.inject_of_admits rfl (admits_twoPrograms (List.cons_ne_nil _ _) (by decide))

theorem not_keepsCatalog_twoPrograms : ¬twoPrograms.KeepsCatalog := by
  intro keeps
  obtain ⟨log, success⟩ := inject_twoPrograms
  obtain ⟨c, c', before, after, kept⟩ := keeps (.text "85") [] _ _ success
  rw [catalog_twoPrograms] at before
  rw [catalog_appended_twoPrograms] at after
  cases before
  cases after
  revert kept
  decide

/-- One byte is injected at the limit of the two programs, and the second label is gone. -/
theorem twoPrograms_lost :
    (twoPrograms.registerAt 298).drop 4 = [0xC4, 0x01, 0x29] ∧ twoPrograms.status = ⟨361, 300, 298⟩ ∧
      twoPrograms.catalog = .ok ⟨2, 1, [.label "AB" (some 0x00), .size 12, .label "C" (some 0x00)]⟩ ∧
      (∃ i d', (Edit.inject (.text "85")).on ⟨twoPrograms, []⟩ = (.ok i, d') ∧
        d'.image.catalog = .ok ⟨1, 2, [.label "AB" (some 0x00), .size 12, .size 3]⟩) ∧
      ¬twoPrograms.KeepsCatalog := by
  obtain ⟨log, success⟩ := inject_twoPrograms
  refine ⟨?_, status_twoPrograms, catalog_twoPrograms, ⟨_, _, success, catalog_appended_twoPrograms⟩,
    not_keepsCatalog_twoPrograms⟩
  rw [registerAt_eq_take, ← drop_tape_register _ (show 298 ≤ 300 by decide), tape_twoPrograms]
  rfl

/-- The program with the label AB, and zeros up to the permanent end. -/
def programPadded : List Passage :=
  [⟨⟨0xC0, 0x00, 0xF3, [0x00, 0x41, 0x42]⟩, [0x11, 0x12, 0x85]⟩, ⟨⟨0xC0, 0x00, 0x0D, []⟩, List.replicate 6 0x00⟩,
    ⟨⟨0xC4, 0x01, 0x29, []⟩, []⟩]

/-- An image with one program, which ends above the register of the permanent end. -/
def keptProgram : Image :=
  holding [0x00, 0x00, 0x01, 0x69, 0x12, 0xD1, 0x2A] 300 (programPadded.flatMap Passage.bytes)

section KeptProgram

theorem length_programPadded : (programPadded.flatMap Passage.bytes).length = 7 * 3 := rfl

theorem status_keptProgram : keptProgram.status = ⟨361, 300, 298⟩ := by
  have packed : keptProgram.status = _ := status_holding length_programPadded rfl (by decide)
  rw [packed]
  decide

theorem bottom_keptProgram : keptProgram.bottom = partitionBase := by
  have limit : keptProgram.status.programLimit = 298 := by rw [status_keptProgram]
  exact bottom_holding length_programPadded rfl (by decide) limit (by decide) (by decide)

theorem tape_keptProgram : keptProgram.tape (7 * 300 + 6) =
    programPadded.flatMap Passage.bytes ++ keptProgram.tape (7 * (300 - 3) + 6) := by
  have inside : 300 < registerCount := by decide
  unfold keptProgram
  exact tape_holding inside length_programPadded (by decide)

/-- Where a byte of the program begins a global instruction: its label, its end and the permanent end. -/
theorem global_programPadded : ∀ k, k < 21 → Shape.ofOpcode ((programPadded.flatMap Passage.bytes).getD k 0) = .global →
    k = 0 ∨ k = 9 ∨ k = 18 := by
  decide

/-- Both markers of the program end above the register of the limit. -/
theorem clearAtLimit_keptProgram : keptProgram.ClearAtLimit := by
  have limit : keptProgram.status.programLimit = 298 := by rw [status_keptProgram]
  have top_eq : keptProgram.status.programTop = (300 : Nat) := by rw [status_keptProgram]; rfl
  intro m after member
  rw [reported_of_le top_eq (by rw [limit]; decide) (by decide), limit, tape_keptProgram] at member
  obtain ⟨t, seen, found⟩ := List.mem_filterMap.1 member
  obtain ⟨passed, inside, rfl, -⟩ := mem_visited seen
  have here : passed < (programPadded.flatMap Passage.bytes).length := inside
  have begins : passed = 0 ∨ passed = 9 ∨ passed = 18 := by
    apply global_programPadded passed inside
    apply Classical.byContradiction
    intro other
    rw [← List.getElem_eq_getD (h := here)] at other
    rw [List.drop_eq_getElem_cons (by rw [List.length_append]; omega), List.getElem_append_left here,
      sighting_of_ne_global other] at found
    cases found
  have long : (keptProgram.tape (7 * (300 - 3) + 6)).length = 7 * 298 := length_tape _ _
  rw [limit]
  rcases begins with rfl | rfl | rfl
  · change sighting (0xC0 :: 0x00 :: 0xF3 :: (_ ++ _)) = _ at found
    rw [length_of_sighting (by rw [List.length_append, long]; decide) found, List.length_append, long]
    decide
  · change sighting (0xC0 :: 0x00 :: 0x0D :: (_ ++ _)) = _ at found
    rw [length_of_sighting (by rw [List.length_append, long]; decide) found, List.length_append, long]
    decide
  · change sighting (0xC4 :: 0x01 :: 0x29 :: _) = _ at found
    rw [sighting_of_terminal (by decide)] at found
    cases found

end KeptProgram

/-- The condition tells an image that loses a label from one that loses nothing; in both of them registers are free. -/
theorem keepsCatalog_iff_twoPrograms :
    twoPrograms.status.programLimit ≤ twoPrograms.status.programTop ∧ twoPrograms.status.programTop ≤ 1111 ∧
      twoPrograms.bottom < twoPrograms.status.programLimit ∧ ¬twoPrograms.ClearAtLimit ∧ ¬twoPrograms.KeepsCatalog ∧
      keptProgram.status.programLimit ≤ keptProgram.status.programTop ∧ keptProgram.status.programTop ≤ 1111 ∧
      keptProgram.bottom < keptProgram.status.programLimit ∧ keptProgram.ClearAtLimit ∧ keptProgram.KeepsCatalog := by
  have low : twoPrograms.status.programLimit ≤ twoPrograms.status.programTop := by rw [status_twoPrograms]; decide
  have high : twoPrograms.status.programTop ≤ 1111 := by rw [status_twoPrograms]; decide
  have low' : keptProgram.status.programLimit ≤ keptProgram.status.programTop := by rw [status_keptProgram]; decide
  have high' : keptProgram.status.programTop ≤ 1111 := by rw [status_keptProgram]; decide
  have unclear : ¬twoPrograms.ClearAtLimit := by
    intro clear
    exact not_keepsCatalog_twoPrograms ((keepsCatalog_iff low high).2 fun _ => clear)
  have keeps : keptProgram.KeepsCatalog := (keepsCatalog_iff low' high').2 fun _ => clearAtLimit_keptProgram
  refine ⟨low, high, ?_, unclear, not_keepsCatalog_twoPrograms, low', high', ?_, clearAtLimit_keptProgram, keeps⟩
  · rw [bottom_twoPrograms, status_twoPrograms]
    decide
  · rw [bottom_keptProgram, status_keptProgram]
    decide

end CalcImage.Image
