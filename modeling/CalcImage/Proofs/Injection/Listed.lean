import CalcImage.Proofs.Injection.Effect
import CalcImage.Proofs.Program.Listing
import CalcImage.Proofs.Program.Search
import CalcImage.Proofs.Program.Stream

/-!
# Listing what was injected

Program bytes that are a row of whole instructions are the same instructions in memory, since nothing but zeros comes
after them up to the permanent end (`Admits.reads_program`). So the listing of an injected program shows just these
instructions, and after them, unless the program has an end of its own, the zeros and the permanent end
(`listing_of_injected`).
-/

namespace CalcImage

open Walk
open Injection (padded registersFor endRegister padded_eq)

/-- The cells of the listing of an injected program: those of its label and of its other instructions, and, unless the
last one is an end, those of the zeros that fill up its registers, of the four zeros in the register of the permanent
end, and of the permanent end. -/
def Injection.listedCells (name : String) (label : Instruction) (is : List Instruction) (zeros : Nat) :
    List (String × String) :=
  ("LBL \"" ++ name ++ "\"", label.hex) :: is.map Instruction.cells ++
    if is.getLast?.any Instruction.isEnd then []
    else List.replicate (zeros + 4) ("UNKNOWN BYTE: 00", "00") ++ [(".END.", "c40129")]

/-- The instructions that come after program bytes: the zeros, and the permanent end. -/
def Injection.closingCode (zeros : Nat) : List Instruction :=
  List.replicate (zeros + 4) ⟨0x00, []⟩ ++ [Instruction.terminal]

theorem Injection.cells_closingCode (zeros : Nat) : (closingCode zeros).map Instruction.cells =
    List.replicate (zeros + 4) ("UNKNOWN BYTE: 00", "00") ++ [(".END.", "c40129")] := by
  rw [closingCode, List.map_append, List.map_replicate]
  rfl

namespace Image

variable {img : Image} {bs : List UInt8} {is : List Instruction} {n : Nat}

/-- The zeros and the permanent end that come after the program bytes. -/
def closing (img : Image) (bs : List UInt8) : Tape :=
  List.replicate (7 * registersFor bs.length - bs.length + 4) 0x00 ++ 0xC4 :: 0x01 :: 0x29 ::
    (img.appended bs).tape (7 * (img.status.programLimit - registersFor bs.length) - 1)

theorem Admits.tape_program (h : img.Admits bs) :
    (img.appended bs).tape (7 * img.status.programLimit + 6) = bs ++ img.closing bs := by
  rw [h.tape_appended, padded_eq, closing, List.replicate_add, endRegister]
  simp [List.replicate]

/-- Instructions that the program bytes hold when zeros follow are the instructions in memory. -/
theorem Admits.reads_program (h : img.Admits bs)
    (code : Instruction.Reads (bs ++ List.replicate n 0x00) is (List.replicate n 0x00)) (nonempty : is ≠ []) :
    Instruction.Reads ((img.appended bs).tape (7 * img.status.programLimit + 6)) is (img.closing bs) := by
  obtain ⟨n, rfl⟩ : ∃ k, n = k + 1 := by
    have more := code.ne_nil nonempty
    cases n with
    | zero => exact absurd rfl more
    | succ k => exact ⟨k, rfl⟩
  obtain rfl : bs = is.flatMap Instruction.bytes := List.append_cancel_right code.eq_append
  rw [h.tape_program]
  exact code.before rfl

/-- After the program bytes a listing comes to the permanent end. -/
theorem Admits.disassemble_closing (h : img.Admits bs) :
    Listing.disassemble (img.closing bs) =
      .ok (Injection.closingCode (7 * registersFor bs.length - bs.length)) := by
  have fits := h.fits
  have more : (img.appended bs).tape (7 * (img.status.programLimit - registersFor bs.length) - 1) ≠ [] := by
    rw [← List.length_pos_iff, length_tape]
    omega
  have zeros := Instruction.Reads.zeros (7 * registersFor bs.length - bs.length + 4)
    (List.cons_ne_nil 0xC4 (0x01 :: 0x29 :: (img.appended bs).tape
      (7 * (img.status.programLimit - registersFor bs.length) - 1)))
  rw [closing, Listing.disassemble_of_reads zeros,
    Listing.disassemble_of_end (Instruction.read_terminal more) Instruction.isEnd_terminal]
  · rfl
  · intro i member
    rw [(List.mem_replicate.1 member).2]
    decide

/-- The label that the program bytes begin with is found, unless a label of its name stands before it. -/
theorem Admits.findLabel_program (h : img.Admits bs) {name : String} {label : Instruction} {after : Tape}
    (low : img.status.programLimit ≤ img.status.programTop) (high : img.status.programTop ≤ 1111)
    (taken : Instruction.read ((img.appended bs).tape (7 * img.status.programLimit + 6)) = .ok (label, after))
    (labels : label.isLabel = true) (named : label.marker.name = name)
    (first : ∀ loc : Nat, img.status.programLimit < loc / 7 → (loc / 7 : Nat) ≤ img.status.programTop →
      ¬(img.appended bs).LabelAt name loc) :
    (img.appended bs).findLabel name = .ok (some ⟨label.marker, after⟩) := by
  have fits := h.fits
  have status := h.status_appended
  rw [Instruction.isLabel, Bool.and_eq_true, beq_iff_eq] at labels
  have here : locationOfRank (7 * img.status.programLimit) = 7 * img.status.programLimit + 6 := by
    unfold locationOfRank
    omega
  have read : Marker.read ((img.appended bs).tapeAt (7 * img.status.programLimit)) =
      .ok (some (label.marker, after)) := by
    rw [tapeAt, toNat_rank, here]
    exact Instruction.marker_read_of_read taken labels.1
  refine findLabel_of_first ?enough ?high ?inside read labels.2 named ?first
  case enough =>
    rw [status]
    dsimp only
    omega
  case high =>
    rw [status]
    exact high
  case inside =>
    unfold InProgram
    rw [status]
    dsimp only
    omega
  case first =>
    intro earlier inside above
    have below := inside.2
    rw [status] at below
    dsimp only at below
    apply first earlier
    · unfold locationOfRank at above
      omega
    · omega

theorem start_of_read {index : Nat} {label : Instruction} {after : Tape}
    (taken : Instruction.read (img.tape (7 * index + 6)) = .ok (label, after)) :
    Walk.advance (7 * index : Nat) label.size = .ok ((⟨label.marker, after⟩ : FoundLabel).start : Int) := by
  obtain ⟨fits, rfl⟩ := rest_of_read taken
  have here : locationOfRank (7 * index) = 7 * index + 6 := by
    unfold locationOfRank
    omega
  rw [advance_eq_ok_iff, here, FoundLabel.start, length_tape]
  exact ⟨fits, rfl⟩

/-- What is listed of the program bytes after their label: their other instructions up to the only end that there may
be, or all of them and what comes after them. -/
theorem Admits.cells_disassemble (h : img.Admits bs) {t : Tape} (code : Instruction.Reads t is (img.closing bs))
    (ends : ∀ i ∈ is.dropLast, i.isEnd = false) :
    ∃ listed, Listing.disassemble t = .ok listed ∧
      listed.map Instruction.cells = is.map Instruction.cells ++
        if is.getLast?.any Instruction.isEnd then []
        else List.replicate (7 * registersFor bs.length - bs.length + 4) ("UNKNOWN BYTE: 00", "00") ++
          [(".END.", "c40129")] := by
  have whole (goesOn : ∀ i ∈ is, i.isEnd = false) :
      Listing.disassemble t = .ok (is ++ Injection.closingCode (7 * registersFor bs.length - bs.length)) := by
    rw [Listing.disassemble_of_reads code goesOn, h.disassemble_closing]
    rfl
  rcases List.eq_nil_or_concat' is with rfl | ⟨init, e, rfl⟩
  · refine ⟨_, whole (by simp), ?_⟩
    rw [List.map_append, Injection.cells_closingCode]
    rfl
  · rw [List.dropLast_concat] at ends
    rw [List.getLast?_concat, Option.any_some]
    cases isEnd : e.isEnd with
    | true =>
      obtain ⟨before, first, last⟩ := code.split
      cases last with
      | cons taken _ =>
        refine ⟨init ++ [e], ?_, ?_⟩
        · rw [Listing.disassemble_of_reads first ends, Listing.disassemble_of_end taken isEnd]
          rfl
        · rw [if_pos rfl, List.append_nil]
    | false =>
      refine ⟨_, whole ?_, ?_⟩
      · intro i member
        rcases List.mem_append.1 member with inside | last
        · exact ends i inside
        · rw [List.mem_singleton.1 last, isEnd]
      · rw [List.map_append, Injection.cells_closingCode, if_neg Bool.false_ne_true]

end Image

/-- **The listing of an injected program.** Program bytes that are whole instructions, the first one a label and only
the last one perhaps an end, are listed by the name of the label, unless a label of this name stands before them. The
listing begins after the label at the limit before the injection, and its rows show the instructions one after the
other, and what comes after them when they have no end of their own. -/
theorem listing_of_injected {d d' : Desk} {payload : Payload} {i : Injection} {bs : List UInt8} {name : String}
    {label : Instruction} {is : List Instruction} {zeros : Nat}
    (low : d.image.status.programLimit ≤ d.image.status.programTop) (high : d.image.status.programTop ≤ 1111)
    (read : payload.bytes = .ok bs)
    (code : Instruction.Reads (bs ++ List.replicate zeros 0x00) (label :: is) (List.replicate zeros 0x00))
    (labels : label.isLabel = true) (named : label.marker.name = name) (ends : ∀ e ∈ is.dropLast, e.isEnd = false)
    (success : (Edit.inject payload).on d = (.ok i, d'))
    (first : ∀ loc : Nat, d.image.status.programLimit < loc / 7 → (loc / 7 : Nat) ≤ d.image.status.programTop →
      ¬d'.image.LabelAt name loc) :
    ∃ l log, (d'.image.listing name).outcome = (.ok (some l), log) ∧ l.name = name ∧
      Walk.advance (7 * i.limitBefore) label.size = .ok l.start ∧
      l.Shows (Injection.listedCells name label is (7 * i.registersUsed - i.byteCount)) := by
  rcases Edit.inject_cases payload d with ⟨bs', log, read', admits, injected⟩ | ⟨f, log, -, refused⟩
  · obtain rfl : bs' = bs := Except.ok.inj (read'.symm.trans read)
    obtain ⟨rfl, rfl⟩ : d.image.account bs' = i ∧ ⟨d.image.appended bs', log⟩ = d' := by
      simpa [injected] using success
    cases admits.reads_program code (List.cons_ne_nil label is) with
    | @cons _ after _ _ _ taken others =>
      have found := admits.findLabel_program low high taken labels named first
      obtain ⟨listed, disassembled, cells⟩ := admits.cells_disassemble others ends
      obtain ⟨l, log', ran, name_eq, start, shows⟩ := Image.listing_of_found found disassembled
      refine ⟨l, log', ran, name_eq, ?_, ?_⟩
      · rw [start]
        exact Image.start_of_read taken
      · rw [Instruction.isLabel, Bool.and_eq_true, beq_iff_eq] at labels
        have hex : (⟨label.marker, after⟩ : FoundLabel).hex = label.hex := by
          rw [FoundLabel.hex, Instruction.hex, (Instruction.bytes_marker taken labels.1).1]
        rw [cells, hex] at shows
        exact shows
  · rw [refused] at success
    cases success

namespace Image

/-- A program with the label B, an instruction whose operand could be taken for a marker, and a digit entry. -/
def programB : List Instruction := [⟨0xC0, [0x00, 0xF2, 0x00, 0x42]⟩, ⟨0x91, [0xC0]⟩, ⟨0x11, [0x12]⟩]

theorem reads_programB :
    Instruction.Reads (programB.flatMap Instruction.bytes ++ List.replicate 1 0x00) programB
      (List.replicate 1 0x00) := by
  have label : Instruction.read ([0xC0, 0x00, 0xF2, 0x00, 0x42] ++ [0x91, 0xC0, 0x11, 0x12, 0x00]) = _ :=
    Instruction.read_append (i := ⟨0xC0, [0x00, 0xF2, 0x00, 0x42]⟩) rfl (List.cons_ne_nil _ _)
  have store : Instruction.read ([0x91, 0xC0] ++ [0x11, 0x12, 0x00]) = _ :=
    Instruction.read_append (i := ⟨0x91, [0xC0]⟩) rfl (List.cons_ne_nil _ _)
  have digits : Instruction.read ([0x11, 0x12] ++ [0x00]) = _ :=
    Instruction.read_append (i := ⟨0x11, [0x12]⟩) rfl (List.cons_ne_nil _ _)
  exact .cons label (.cons store (.cons digits (.nil _)))

theorem admits_programB : twoPrograms.Admits (programB.flatMap Instruction.bytes) :=
  admits_twoPrograms (List.cons_ne_nil _ _) (by decide)

/-- The two registers above the limit hold the label AB and no label B. -/
theorem not_labels_above {loc : Nat} (low : 298 < loc / 7) (high : loc / 7 ≤ 300) :
    ¬(twoPrograms.appended (programB.flatMap Instruction.bytes)).LabelAt "B" loc := by
  have limit : twoPrograms.status.programLimit = 298 := by rw [status_twoPrograms]
  have tape : (twoPrograms.appended (programB.flatMap Instruction.bytes)).tape (7 * 300 + 6) =
      [0xC0, 0x00, 0xF3, 0x00, 0x41, 0x42, 0x11, 0x12, 0x85, 0xC0, 0x00, 0x0D, 0xC0, 0x00] ++
        (programB.flatMap Instruction.bytes ++ twoPrograms.closing (programB.flatMap Instruction.bytes)) := by
    have above : ((twoPrograms.appended (programB.flatMap Instruction.bytes)).tape (7 * 300 + 6)).take _ = _ :=
      admits_programB.take_tape_appended
    have below := admits_programB.tape_program
    rw [limit] at above below
    rw [tape_split _ (show 298 ≤ 300 by decide), above, below, tape_twoPrograms]
    rfl
  rw [labelAt_iff (by simp only [memorySize]; omega)]
  intro labels
  obtain ⟨third, here, length⟩ := Marker.third_of_labels labels (by decide)
  rw [tapeAt, toNat_rank] at here
  -- A label B would have its third byte among those that follow the first two bytes of the registers.
  obtain ⟨k, inside, rank⟩ : ∃ k < 14, locationOfRank loc = 7 * 300 + 6 - k := by
    refine ⟨7 * 300 + 6 - locationOfRank loc, ?_, ?_⟩
    · unfold locationOfRank
      omega
    · unfold locationOfRank
      omega
  rw [rank, ← drop_tape _ (by omega), tape, List.getElem?_drop] at here
  have other : ∀ k < 14, ([0xC0, 0x00, 0xF3, 0x00, 0x41, 0x42, 0x11, 0x12, 0x85, 0xC0, 0x00, 0x0D, 0xC0, 0x00] ++
      programB.flatMap Instruction.bytes)[k + 2]? ≠ some 0xF2 := by decide
  apply other k inside
  rw [← List.append_assoc, List.getElem?_append_left] at here
  · rw [← UInt8.ofNat_toNat (x := third), length] at here
    exact here
  · simp only [programB, List.flatMap_cons, List.flatMap_nil, Instruction.bytes, List.length_append, List.length_cons,
      List.length_nil]
    omega

/-- The program is injected below two others, and listed with the five zeros that fill up its second register and with
what the register of the permanent end holds. -/
theorem listing_programB :
    twoPrograms.status.programLimit ≤ twoPrograms.status.programTop ∧ twoPrograms.status.programTop ≤ 1111 ∧
      (Payload.text "C000F20042 91C0 1112").bytes = .ok (programB.flatMap Instruction.bytes) ∧
      ∃ i d', (Edit.inject (.text "C000F20042 91C0 1112")).on ⟨twoPrograms, []⟩ = (.ok i, d') ∧
        ∃ l log, (d'.image.listing "B").outcome = (.ok (some l), log) ∧ Walk.advance (7 * 298) 5 = .ok l.start ∧
          l.rows.map Row.cells = [("LBL \"B\"", "c000f20042"), ("STO IND 64", "91c0"), ("12", "1112")] ++
            List.replicate 9 ("UNKNOWN BYTE: 00", "00") ++ [(".END.", "c40129")] := by
  have limit : twoPrograms.status.programLimit = 298 := by rw [status_twoPrograms]
  have top : twoPrograms.status.programTop = 300 := by rw [status_twoPrograms]
  have low : twoPrograms.status.programLimit ≤ twoPrograms.status.programTop := by rw [limit, top]; decide
  have high : twoPrograms.status.programTop ≤ 1111 := by rw [top]; decide
  have read : (Payload.text "C000F20042 91C0 1112").bytes = .ok (programB.flatMap Instruction.bytes) := by decide
  have named : (⟨0xC0, [0x00, 0xF2, 0x00, 0x42]⟩ : Instruction).marker.name = "B" := by decide
  have ends : ∀ e ∈ [(⟨0x91, [0xC0]⟩ : Instruction), ⟨0x11, [0x12]⟩].dropLast, e.isEnd = false := by decide
  obtain ⟨log, success⟩ := Edit.inject_of_admits (d := ⟨twoPrograms, []⟩) read admits_programB
  have first : ∀ loc : Nat, twoPrograms.status.programLimit < loc / 7 →
      (loc / 7 : Nat) ≤ twoPrograms.status.programTop →
      ¬(twoPrograms.appended (programB.flatMap Instruction.bytes)).LabelAt "B" loc := by
    intro loc above below
    rw [limit] at above
    rw [top] at below
    exact not_labels_above above (by omega)
  have listed := listing_of_injected (d := ⟨twoPrograms, []⟩) low high read reads_programB rfl named ends success
  dsimp only at listed
  obtain ⟨l, log', ran, -, start, shows⟩ := listed first
  have before : (twoPrograms.account (programB.flatMap Instruction.bytes)).limitBefore = 298 := by
    change (twoPrograms.status.programLimit : Int) = 298
    rw [limit]
    rfl
  rw [before] at start
  have cells : Injection.listedCells "B" ⟨0xC0, [0x00, 0xF2, 0x00, 0x42]⟩ [⟨0x91, [0xC0]⟩, ⟨0x11, [0x12]⟩] 5 =
      [("LBL \"B\"", "c000f20042"), ("STO IND 64", "91c0"), ("12", "1112")] ++
        List.replicate 9 ("UNKNOWN BYTE: 00", "00") ++ [(".END.", "c40129")] := by decide +kernel
  refine ⟨low, high, read, _, _, success, l, log', ?_, start, ?_⟩
  · dsimp only
    exact ran
  · rw [shows.cells]
    exact cells

end Image

end CalcImage
