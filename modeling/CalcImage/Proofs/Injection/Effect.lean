import CalcImage.Instruction.Decode
import CalcImage.Proofs.Injection.Outcome

/-!
# What an injection does to memory

`Injected` says of two images, in terms of the limits before and after, that one arose from the other by an injection:
where the program bytes, their padding and the end marker stand, what the status register holds, and that nothing else
changed. Every successful injection is of that kind.
-/

namespace CalcImage

open Walk
open Injection (padded registersFor endRegister length_padded length_written padded_eq registersFor_pos)

/-- The permanent end marker as an instruction. -/
def Instruction.terminal : Instruction := ⟨0xC4, [0x01, 0x29]⟩

/-- The effect of an injection of program bytes at the limit `limit`, which takes `used` registers and leaves the limit
`lower`. -/
structure Injected (before after : Image) (bs : List UInt8) (i : Injection) (limit used lower : Nat) : Prop where
  limit_eq : limit = before.status.programLimit
  used_eq : used = (bs.length + 6) / 7
  lower_eq : lower + used = limit
  byteCount : i.byteCount = bs.length
  registersUsed : i.registersUsed = used
  limitBefore : i.limitBefore = limit
  limitAfter : i.limitAfter = lower
  program : after.read (7 * limit) bs.length = .ok bs
  padding : after.read (7 * limit) (7 * used) = .ok (bs ++ List.replicate (7 * used - bs.length) 0)
  endRegister : after.registerAt lower = [0x00, 0x00, 0x00, 0x00, 0xC4, 0x01, 0x29]
  endMarker : ∃ placed, after.decode i.endMarker = .ok placed ∧ placed.item.bytes = [0xC4, 0x01, 0x29] ∧
    placed.item.text = ".END." ∧ placed.item.isEnd = true
  status : after.status = { before.status with programLimit := lower }
  highNibble : (after.byte 96).toNat / 16 = (before.byte 96).toNat / 16
  registers : ∀ index, index ≠ 13 → index < lower ∨ limit < index → after.registerAt index = before.registerAt index
  statusBytes : ∀ loc, 91 ≤ loc → loc ≤ 95 → after.byte loc = before.byte loc
  cpu : after.cpu = before.cpu
  bottom : ∃ bottom : Nat, before.programBottom limit = .ok (bottom : Int) ∧ 192 ≤ bottom ∧ bottom ≤ lower

namespace Instruction

theorem text_terminal : terminal.text = ".END." := rfl

theorem isEnd_terminal : terminal.isEnd = true := rfl

/-- The end marker is read off three bytes that something follows. -/
theorem read_terminal {t : Tape} (more : t ≠ []) : read (0xC4 :: 0x01 :: 0x29 :: t) = .ok (terminal, t) := by
  have layout : (Shape.ofOpcode 0xC4).layout = .counted 2 := by decide
  have header : Tape.take 2 (0x01 :: 0x29 :: t) = .ok ([0x01, 0x29], t) := Tape.take_append [0x01, 0x29] t
  have body : Tape.take (textLength (([0x01, 0x29] : Tape).getLastD 0)) t = .ok ([], t) := Tape.take_append [] t
  rw [read, readOperands, layout]
  dsimp only
  rw [takeCounted, header]
  dsimp only
  rw [body]
  dsimp only
  rw [Tape.standing_of_ne_nil more]
  rfl

end Instruction

namespace Image

variable {img : Image} {bs : List UInt8}

theorem read_register (img : Image) {index count : Nat} (inside : index < registerCount)
    (fits : count ≤ 7 * index + 7) :
    img.read (7 * index) count = .ok ((img.tape (7 * index + 6)).take count) := by
  simp only [registerCount] at inside
  rw [← read_locationOfRank img (by simp only [memorySize]; omega) fits]
  congr 1
  unfold locationOfRank
  omega

theorem Admits.tape_lower (h : img.Admits bs) :
    (img.appended bs).tape (7 * (img.status.programLimit - registersFor bs.length) + 6) =
      endRegister ++ (img.appended bs).tape (7 * (img.status.programLimit - registersFor bs.length) - 1) := by
  have fits := h.fits
  rw [show 7 * (img.status.programLimit - registersFor bs.length) + 6 =
      7 * img.status.programLimit + 6 - (padded bs).length by simp only [length_padded]; omega,
    ← drop_tape _ (by simp only [length_padded]; omega), h.tape_appended, List.append_assoc, List.drop_left]

/-- The end marker stands at the end of the register that is the new limit. -/
theorem Admits.decode_endMarker (h : img.Admits bs) :
    ∃ following, (img.appended bs).decode (img.account bs).endMarker =
      .ok ⟨7 * (img.status.programLimit - registersFor bs.length) + 4, following, Instruction.terminal⟩ := by
  have fits := h.fits
  have inside : img.status.programLimit < 1112 := h.inside
  have place : location (img.account bs).endMarker =
      .ok (7 * (img.status.programLimit - registersFor bs.length) + 4) := by
    unfold location Injection.endMarker account
    rw [if_pos (by dsimp only; omega)]
    congr 1
    dsimp only
    omega
  have tape : (img.appended bs).tapeAt (7 * (img.status.programLimit - registersFor bs.length) + 4) =
      0xC4 :: 0x01 :: 0x29 :: (img.appended bs).tape (7 * (img.status.programLimit - registersFor bs.length) - 1) := by
    rw [tapeAt, toNat_rank, show locationOfRank (7 * (img.status.programLimit - registersFor bs.length) + 4) =
      7 * (img.status.programLimit - registersFor bs.length) + 6 - 4 by unfold locationOfRank; omega,
      ← drop_tape _ (by omega), h.tape_lower]
    rfl
  have more : (img.appended bs).tape (7 * (img.status.programLimit - registersFor bs.length) - 1) ≠ [] := by
    rw [← List.length_pos_iff, length_tape]
    omega
  unfold decode
  rw [place]
  change ∃ following, (Instruction.read (tapeAt _ _) >>= _) = _
  rw [tape, Instruction.read_terminal more]
  exact ⟨_, rfl⟩

theorem Admits.highNibble_appended (h : img.Admits bs) :
    ((img.appended bs).byte 96).toNat / 16 = (img.byte 96).toNat / 16 := by
  have fits := h.fits
  have small := img.programLimit_lt
  rw [appended, byte_withLimit_high _ (by omega),
    byte_lay_register img (length_written bs) (by omega) (by omega)]
  omega

/-- An injection that the image admits has the effect. -/
theorem Admits.injected (h : img.Admits bs) :
    Injected img (img.appended bs) bs (img.account bs) img.status.programLimit (registersFor bs.length)
      (img.status.programLimit - registersFor bs.length) := by
  have fits := h.fits
  have room := h.room
  have inside := h.inside
  have size := length_padded bs
  have tape := h.tape_appended
  constructor
  case limit_eq => rfl
  case used_eq => rfl
  case lower_eq => omega
  case byteCount => rfl
  case registersUsed => rfl
  case limitBefore => rfl
  case limitAfter => rfl
  case program =>
    rw [padded, List.length_append] at size
    rw [read_register _ inside (by omega), tape, padded, List.append_assoc, List.append_assoc, List.take_left]
  case padding =>
    rw [read_register _ inside (by omega), tape, List.append_assoc, ← padded_eq]
    congr 1
    exact List.take_left' size
  case endRegister =>
    rw [registerAt_eq_take, h.tape_lower]
    rfl
  case endMarker =>
    obtain ⟨following, decoded⟩ := h.decode_endMarker
    exact ⟨_, decoded, rfl, Instruction.text_terminal, Instruction.isEnd_terminal⟩
  case status => exact h.status_appended
  case highNibble => exact h.highNibble_appended
  case registers =>
    intro index other outside
    apply registerAt_congr
    intro k hk
    exact h.byte_appended (by omega) (by omega) (by omega)
  case statusBytes =>
    intro loc low high
    exact h.byte_appended (by omega) (by omega) (by omega)
  case cpu => exact cpu_appended
  case bottom => exact ⟨img.bottom, programBottom_of_le (by omega), h.base_le, by omega⟩

end Image

/-- **The effect of an injection.** Every successful injection writes its program bytes, their padding and the end
marker from the old limit down to the new one, stores the new limit, and changes nothing else. -/
theorem injected_of_inject {p : Payload} {d d' : Desk} {i : Injection}
    (success : (Edit.inject p).on d = (.ok i, d')) :
    ∃ bs limit used lower, p.bytes = .ok bs ∧ bs ≠ [] ∧ Injected d.image d'.image bs i limit used lower := by
  rcases Edit.inject_cases p d with ⟨bs, log, read, admits, injected⟩ | ⟨f, log, -, refused⟩
  · obtain ⟨rfl, rfl⟩ : d.image.account bs = i ∧ ⟨d.image.appended bs, log⟩ = d' := by
      simpa [injected] using success
    exact ⟨bs, _, _, _, read, admits.nonempty, admits.injected⟩
  · simp [refused] at success

/-- Nine bytes go into two registers of an image of zeros that has three of them free. -/
theorem injected_nine_bytes :
    ∃ i d', (Edit.inject (.ofBytes [0xC0, 0x00, 0xF2, 0x00, 0x42, 0x85, 0xC0, 0x00, 0x0D])).on ⟨Image.emptyTo 195, []⟩ =
      (.ok i, d') ∧
      ∃ bs limit used lower, (Payload.ofBytes [0xC0, 0x00, 0xF2, 0x00, 0x42, 0x85, 0xC0, 0x00, 0x0D]).bytes = .ok bs ∧
        bs ≠ [] ∧ Injected (Image.emptyTo 195) d'.image bs i limit used lower := by
  have limit : (Image.emptyTo 195).status.programLimit = 195 := Image.programLimit_emptyTo (by decide)
  have admits : (Image.emptyTo 195).Admits [0xC0, 0x00, 0xF2, 0x00, 0x42, 0x85, 0xC0, 0x00, 0x0D] := by
    constructor
    case nonempty => exact List.cons_ne_nil _ _
    case inside => rw [limit, registerCount]; omega
    case room => rw [Image.bottom, limit, Image.bottomBelow_emptyTo (by decide)]; decide
  obtain ⟨log, success⟩ := Edit.inject_of_admits (d := ⟨Image.emptyTo 195, []⟩) (Payload.bytes_ofBytes _) admits
  have effect := injected_of_inject success
  exact ⟨_, _, success, effect⟩

end CalcImage
