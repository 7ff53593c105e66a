import CalcImage.Proofs.Instruction.Span
import CalcImage.Proofs.Memory.Lay

/-!
# Decoding is local

The bytes of an instruction tell what it is, wherever they stand. Only a run of digit bytes is ended by the byte after
it (`Tape.EndsRun`). So an instruction that was read off one tape is read off every other tape that begins with its
bytes (`Instruction.read_local`), and what decoding gives depends neither on the place of these bytes in memory nor on
any other byte (`Image.decode_local`). A stream of instructions (`Instruction.Reads`) is read again before every rest
that begins with the same byte.
-/

namespace CalcImage

/-- A run of digit bytes is over where this tape begins. -/
def Tape.EndsRun (t : Tape) : Prop := ∀ b, t.head? = some b → Instruction.isDigitByte b = false

namespace Instruction

theorem isDigitByte_iff {b : UInt8} : isDigitByte b = true ↔ 0x10 ≤ b.toNat ∧ b.toNat ≤ 0x1A := by
  simp only [isDigitByte, Bool.and_eq_true, decide_eq_true_eq, UInt8.le_iff_toNat_le]
  rfl

/-- The digit bytes are the opcodes of digit entries. -/
theorem ofOpcode_eq_digits_iff (opcode : UInt8) : Shape.ofOpcode opcode = .digits ↔ isDigitByte opcode = true := by
  revert opcode
  apply forall_byte
  decide +kernel

end Instruction

namespace Layout

open Instruction (isDigitByte)

variable {layout : Layout} {opcode : UInt8} {operands rest rest' : Tape}

/-- Bytes that are a whole run of digit bytes are digit bytes, and the run is over after them. -/
theorem digits_of_extent (extent : Layout.digits.extent opcode (operands ++ rest) = some operands.length) :
    (∀ b ∈ operands, isDigitByte b = true) ∧ rest.EndsRun := by
  simp only [Layout.extent, Option.some.injEq] at extent
  have whole : (operands ++ rest).takeWhile isDigitByte = operands := by
    have first := List.takeWhile_prefix (l := operands ++ rest) isDigitByte
    exact (List.prefix_of_prefix_length_le first (List.prefix_append operands rest) (Nat.le_of_eq extent)).eq_of_length
      extent
  have all : ∀ b ∈ operands, isDigitByte b = true := by
    intro b member
    rw [← whole] at member
    exact List.all_eq_true.1 List.all_takeWhile b member
  refine ⟨all, ?_⟩
  intro b head
  rw [List.takeWhile_append_of_pos all, List.append_right_eq_self] at whole
  cases rest with
  | nil => cases head
  | cons c rest =>
    cases head
    rw [List.takeWhile_cons] at whole
    simpa using whole

/-- Operands are told by the opcode and by themselves, whatever follows them; a run of digit bytes has to be over. -/
theorem extent_append (extent : layout.extent opcode (operands ++ rest) = some operands.length)
    (header_pos : ∀ header, layout = .counted header → 0 < header) (runEnds : layout = .digits → rest'.EndsRun) :
    layout.extent opcode (operands ++ rest') = some operands.length := by
  cases layout with
  | bytes count => exact extent
  | announced => exact extent
  | digits =>
    obtain ⟨all, -⟩ := digits_of_extent extent
    have ended : rest'.takeWhile isDigitByte = [] := by
      cases rest' with
      | nil => rfl
      | cons b rest' =>
        rw [List.takeWhile_cons, runEnds rfl b rfl]
        rfl
    simp only [Layout.extent, List.takeWhile_append_of_pos all, ended, List.append_nil]
  | counted header =>
    have pos := header_pos header rfl
    simp only [Layout.extent, Option.map_eq_some_iff] at extent ⊢
    obtain ⟨last, here, count⟩ := extent
    -- The byte that announces the others is itself one of the operands.
    have inside : header - 1 < operands.length := by omega
    refine ⟨last, ?_, count⟩
    rw [List.getElem?_append_left inside] at here ⊢
    exact here

end Layout

namespace Instruction

variable {i : Instruction} {rest rest' : Tape}

/-- The operands of an instruction that was read are those that its layout tells. -/
theorem extent_of_read (taken : read (i.bytes ++ rest) = .ok (i, rest)) :
    i.shape.layout.extent i.opcode (i.operands ++ rest) = some i.operands.length := by
  have span := span_of_read taken
  rw [bytes, List.cons_append, Tape.span_cons, Option.map_eq_some_iff] at span
  obtain ⟨count, extent, size⟩ := span
  obtain rfl : count = i.operands.length := Nat.succ.inj size
  exact extent

/-- After a digit entry no digit byte follows. -/
theorem endsRun_of_read (taken : read (i.bytes ++ rest) = .ok (i, rest)) (digits : i.shape = .digits) :
    rest.EndsRun := by
  have extent := extent_of_read taken
  rw [digits] at extent
  exact (Layout.digits_of_extent extent).2

/-- All bytes of a digit entry are digit bytes. -/
theorem isDigitByte_of_read (taken : read (i.bytes ++ rest) = .ok (i, rest)) (digits : i.shape = .digits) :
    ∀ b ∈ i.bytes, isDigitByte b = true := by
  have extent := extent_of_read taken
  rw [digits] at extent
  intro b member
  rcases List.mem_cons.1 member with rfl | operand
  · exact (ofOpcode_eq_digits_iff i.opcode).1 digits
  · exact (Layout.digits_of_extent extent).1 b operand

/-- **Reading is local.** An instruction that was read off one tape is read off every other one that begins with its
bytes. -/
theorem read_local (taken : read (i.bytes ++ rest) = .ok (i, rest)) (more : rest' ≠ [])
    (runEnds : i.shape = .digits → rest'.EndsRun) : read (i.bytes ++ rest') = .ok (i, rest') := by
  apply read_append _ more
  have told : i.shape.layout.extent i.opcode (i.operands ++ rest') = some i.operands.length := by
    apply Layout.extent_append (extent_of_read taken)
    · intro header
      exact Shape.header_pos
    · intro layout
      apply runEnds
      exact (Shape.layout_eq_digits_iff i.shape).1 layout
  rw [bytes, List.cons_append, Tape.span_cons]
  change Option.map _ (i.shape.layout.extent _ _) = _
  rw [told]
  rfl

/-- Instructions that are read off a tape one after the other, and what they leave of it. -/
inductive Reads : Tape → List Instruction → Tape → Prop where
  | nil (t : Tape) : Reads t [] t
  | cons {t after rest : Tape} {i : Instruction} {is : List Instruction} (first : read t = .ok (i, after))
      (others : Reads after is rest) : Reads t (i :: is) rest

namespace Reads

variable {t : Tape} {is js : List Instruction}

/-- What is read and what is left are the tape. -/
theorem eq_append (reads : Reads t is rest) : t = is.flatMap bytes ++ rest := by
  induction reads with
  | nil t => rfl
  | cons first others ih =>
    rw [List.flatMap_cons, List.append_assoc, ← ih]
    exact (eq_append_of_read first).1

/-- The tape between two parts of what is read. -/
theorem split (reads : Reads t (is ++ js) rest) :
    ∃ after, Reads t is after ∧ Reads after js rest := by
  induction is generalizing t with
  | nil => exact ⟨t, .nil t, reads⟩
  | cons i is ih =>
    cases reads with
    | cons first others =>
      obtain ⟨after, before, rest⟩ := ih others
      exact ⟨after, .cons first before, rest⟩

/-- A tape goes on after each instruction that is read off it. -/
theorem ne_nil (reads : Reads t is rest) (nonempty : is ≠ []) : rest ≠ [] := by
  induction reads with
  | nil t => exact absurd rfl nonempty
  | @cons t after rest i is first others ih =>
    cases is with
    | nil =>
      cases others
      exact (eq_append_of_read first).2
    | cons j js => exact ih (List.cons_ne_nil j js)

/-- Instructions are read again before every rest that begins with the same byte. -/
theorem before (reads : Reads (is.flatMap bytes ++ rest) is rest) (head : rest'.head? = rest.head?) :
    Reads (is.flatMap bytes ++ rest') is rest' := by
  induction is with
  | nil => exact .nil rest'
  | cons i is ih =>
    have same : (is.flatMap bytes ++ rest').head? = (is.flatMap bytes ++ rest).head? := by
      rw [List.head?_append, List.head?_append, head]
    cases reads with
    | @cons _ after _ _ _ first others =>
      obtain rfl := others.eq_append
      rw [List.flatMap_cons, List.append_assoc] at first ⊢
      have more := (eq_append_of_read first).2
      refine .cons (read_local first ?_ ?_) (ih others)
      · intro ended
        rw [ended, List.head?_nil, eq_comm, List.head?_eq_none_iff] at same
        exact more same
      · intro digits b here
        exact endsRun_of_read first digits b (same ▸ here)

/-- Each zero before something else is an instruction of its own. -/
theorem zeros (count : Nat) (more : rest ≠ []) :
    Reads (List.replicate count 0x00 ++ rest) (List.replicate count ⟨0x00, []⟩) rest := by
  induction count with
  | zero => exact .nil rest
  | succ count ih =>
    rw [List.replicate_succ, List.replicate_succ]
    refine .cons (read_append (i := ⟨0x00, []⟩) rfl ?_) ih
    exact List.append_ne_nil_of_right_ne_nil _ more

end Reads

end Instruction

namespace Image

open Walk

variable {img img' : Image}

theorem eq_of_location {loc : Int} {place : Nat} (found : location loc = .ok place) :
    loc = place ∧ place < memorySize := by
  unfold location at found
  split at found
  · cases found
    simp only [memorySize]
    omega
  · cases found

theorem inside_of_decode {loc : Int} {p : Placed Instruction} (decoded : img.decode loc = .ok p) :
    ∃ place : Nat, loc = place ∧ place < memorySize := by
  cases found : location loc with
  | error f =>
    unfold decode at decoded
    rw [found] at decoded
    cases decoded
  | ok place => exact ⟨place, eq_of_location found⟩

theorem inside_of_read {loc : Int} {count : Nat} {bs : List UInt8} (pos : 0 < count)
    (read : img.read loc count = .ok bs) : ∃ place : Nat, loc = place ∧ place < memorySize := by
  cases found : location loc with
  | error f =>
    have outside : img.get loc = .error f := by
      unfold get
      rw [found]
      rfl
    match count, pos with
    | 1, _ | count + 2, _ =>
      rw [Image.read, outside] at read
      cases read
  | ok place => exact ⟨place, eq_of_location found⟩

/-- What is decoded is read off the tape. -/
theorem read_of_decoded {place : Nat} {p : Placed Instruction} (decoded : img.decode place = .ok p) :
    place < memorySize ∧ ∃ rest, Instruction.read (img.tapeAt place) = .ok (p.item, rest) := by
  obtain ⟨_, same, inside⟩ := inside_of_decode decoded
  obtain rfl := Int.ofNat.inj same
  refine ⟨inside, ?_⟩
  rw [decode_eq inside] at decoded
  cases taken : Instruction.read (img.tapeAt place) with
  | error f =>
    rw [taken] at decoded
    cases decoded
  | ok found =>
    rw [taken] at decoded
    cases decoded
    exact ⟨found.2, rfl⟩

/-- The bytes that stand at a location are the head of the tape there, and what follows them is the tape from the
location after them. -/
theorem tapeAt_of_read {loc following : Nat} {bs : List UInt8} (inside : loc < memorySize)
    (read : img.read loc bs.length = .ok bs) (walked : advance loc bs.length = .ok (following : Int)) :
    img.tapeAt loc = bs ++ img.tapeAt following := by
  obtain ⟨fits, reached⟩ := advance_eq_ok_iff.1 walked
  rw [read_eq_take inside (by omega)] at read
  have head : List.take bs.length (img.tapeAt loc) = bs := Except.ok.inj read
  have after : (img.tapeAt loc).drop bs.length = img.tapeAt following := by
    rw [Int.ofNat.inj reached, tapeAt, tapeAt, toNat_rank, toNat_rank, locationOfRank_locationOfRank,
      drop_tape img fits]
  rw [← after]
  conv => lhs; rw [← List.take_append_drop bs.length (img.tapeAt loc), head]

/-- **Decoding is local.** Where the walk can step over the bytes of an instruction that was decoded somewhere, in this
image or another one, the same instruction is decoded; after a digit entry no digit byte may follow there. -/
theorem decode_local {loc loc' following : Int} {p : Placed Instruction} (decoded : img.decode loc = .ok p)
    (same : img'.read loc' p.item.size = img.read loc p.item.size)
    (walked : Walk.advance loc' p.item.size = .ok following)
    (runEnds : 0x10 ≤ p.item.opcode.toNat → p.item.opcode.toNat ≤ 0x1A →
      ∀ b, img'.get following = .ok b → b.toNat < 0x10 ∨ 0x1A < b.toNat) :
    ∃ q, img'.decode loc' = .ok q ∧ (q.location : Int) = loc' ∧ (q.following : Int) = following ∧ q.item = p.item := by
  obtain ⟨place, rfl, -⟩ := inside_of_decode decoded
  obtain ⟨inside, rest, taken⟩ := read_of_decoded decoded
  obtain ⟨parts, -⟩ := Instruction.eq_append_of_read taken
  rw [(decodes_of_read inside taken).bytes] at same
  obtain ⟨place', rfl, inside'⟩ := inside_of_read (Nat.succ_pos _) same
  obtain ⟨fits, reached⟩ := advance_eq_ok_iff.1 walked
  obtain ⟨after, rfl⟩ : ∃ after : Nat, following = after := ⟨_, reached⟩
  have parts' : img'.tapeAt place' = p.item.bytes ++ img'.tapeAt after := tapeAt_of_read inside' same walked
  obtain ⟨t, head⟩ := tapeAt_cons img' after
  have taken' : Instruction.read (img'.tapeAt place') = .ok (p.item, img'.tapeAt after) := by
    rw [parts] at taken
    rw [parts']
    apply Instruction.read_local taken
    · rw [head]
      exact List.cons_ne_nil _ _
    · intro digits b first
      have digit := Instruction.isDigitByte_iff.1 ((Instruction.ofOpcode_eq_digits_iff _).1 digits)
      have afterInside : after < memorySize := by
        rw [Int.ofNat.inj reached]
        exact locationOfRank_lt (Nat.lt_of_le_of_lt (Nat.sub_le _ _) (locationOfRank_lt inside'))
      have here : img'.get after = .ok b := by
        rw [head] at first
        cases first
        exact get_of_lt img' afterInside
      have apart := runEnds digit.1 digit.2 b here
      rw [← Bool.not_eq_true, Instruction.isDigitByte_iff]
      omega
  refine ⟨⟨place', stepsAfter place' p.item.size, p.item⟩, ?_, rfl, ?_, rfl⟩
  · rw [decode_eq inside', taken']
    rfl
  · rw [stepsAfter, toNat_rank]
    exact reached.symm

/-- An image of zeros with the digits 1 and 2 at the last byte of register 1 and the first byte of register 0. -/
def digitsAcross : Image := zero.lay 7 [0x11, 0x12, 0x85]

/-- An image of zeros with the same digits inside register 14. -/
def digitsInside : Image := zero.lay 100 [0x11, 0x12, 0x40]

/-- The two digits are the same instruction, whether a register ends between them or not, and whatever ends them. -/
theorem decode_local_digits :
    ∃ p, digitsAcross.decode 13 = .ok p ∧ p.item.text = "12" ∧
      digitsInside.read 102 p.item.size = digitsAcross.read 13 p.item.size ∧
      Walk.advance 102 p.item.size = .ok 104 ∧ digitsInside.get 104 = .ok 0x40 ∧
      ∃ q, digitsInside.decode 102 = .ok q ∧ (q.location : Int) = 102 ∧ (q.following : Int) = 104 ∧
        q.item = p.item := by
  have across : digitsAcross.tape 7 = _ := tape_lay zero (by decide) (by decide)
  have inside : digitsInside.tape 100 = _ := tape_lay zero (by decide) (by decide)
  obtain ⟨-, decoded⟩ := decode_of_tape (i := ⟨0x11, [0x12]⟩) (by decide) across rfl (List.cons_ne_nil _ _)
  have first : digitsAcross.read 13 2 = .ok [0x11, 0x12] := by
    have read : digitsAcross.read (locationOfRank 7 : Nat) 2 = _ := read_locationOfRank _ (by decide) (by decide)
    rw [across] at read
    exact read
  have second : digitsInside.read 102 2 = .ok [0x11, 0x12] := by
    have read : digitsInside.read (locationOfRank 100 : Nat) 2 = _ := read_locationOfRank _ (by decide) (by decide)
    rw [inside] at read
    exact read
  have ends : digitsInside.get 104 = .ok 0x40 := by
    have get : digitsInside.get (locationOfRank 98 : Nat) = _ := get_locationOfRank _ (by decide)
    have byte := getElem?_tape digitsInside 100 2
    rw [inside] at byte
    have same : digitsInside.byte (locationOfRank 98) = 0x40 := (Option.some.inj byte).symm
    rw [same] at get
    exact get
  have same : digitsInside.read 102 2 = digitsAcross.read 13 2 := by rw [first, second]
  have walked : Walk.advance 102 2 = .ok 104 := rfl
  refine ⟨_, decoded, rfl, same, walked, ends, ?_⟩
  apply decode_local decoded same walked
  intro _ _ b after
  rw [ends] at after
  cases after
  decide

end Image

end CalcImage
