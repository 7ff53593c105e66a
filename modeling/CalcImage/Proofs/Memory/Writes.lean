import CalcImage.Proofs.Injection.Payload
import CalcImage.Proofs.Memory.Copy
import CalcImage.Proofs.Memory.Edit

/-!
# Writes to single cells

Memory is written in two ways, a register by its text or a byte by its value, and both write the same bytes. A run of
such writes is accepted exactly when each of them is valid (`Write.Valid`), and then it leaves at every location what was
written there last (`Write.last?`), or else the byte that was there (`Edit.Leaves`). So a register reads back as the
digits of its seven bytes, whichever way they were written, and one that no write goes to is as it was. The limit is a
cell of its own too, although it shares a byte with the program top: storing it changes no other number of the status
register (`cells_apart`).
-/

namespace CalcImage

open CalcImage.Text

namespace Text.Hex

/-- The byte that the pair of digits number `k` spells. -/
def pairAt (cs : List Char) (k : Nat) : UInt8 := UInt8.ofNat (toNat ((cs.drop (2 * k)).take 2))

/-- The bytes that a text spells are those of its pairs. -/
theorem getElem?_of_toBytes? {cs : List Char} {bs : List UInt8} (spelled : toBytes? cs = some bs) {k : Nat}
    (inside : k < bs.length) : bs[k]? = some (pairAt cs k) := by
  fun_induction toBytes? cs generalizing bs k with
  | case1 =>
    cases spelled
    cases inside
  | case2 => cases spelled
  | case3 h l cs high low rest read lowRead highRead ih =>
    cases spelled
    cases k with
    | zero => simp [pairAt, toNat, highRead, lowRead]
    | succ k =>
      rw [List.getElem?_cons_succ, ih read (Nat.lt_of_succ_lt_succ inside)]
      rfl
  | case4 => cases spelled

end Text.Hex

/-- A write to memory: the text of a register, or the value of a byte. -/
inductive Write where
  | register (index : Int) (text : String)
  | byte (loc value : Int)

namespace Write

/-- The edit that makes the write. -/
def edit : Write → Edit Unit
  | register index text => Edit.storeRegister index text
  | byte loc value => Edit.setByte loc value

/-- The place is one of memory, and what is to be written is fourteen hexadecimal digits or the value of a byte. -/
def Valid : Write → Prop
  | register index text =>
    (0 ≤ index ∧ index < 1112) ∧ text.toList.length = 14 ∧ ∀ c ∈ text.toList, c ∈ Hex.digits
  | byte loc value => (0 ≤ loc ∧ loc < 7784) ∧ 0 ≤ value ∧ value ≤ 255

/-- The register that is written, as a whole or in part. -/
def target : Write → Int
  | register index _ => index
  | byte loc _ => loc / 7

/-- What is written at a location: of a register the byte that the digits of this place spell. -/
def value? : Write → Nat → Option UInt8
  | register index text, place => if (place / 7 : Nat) = index then some (Hex.pairAt text.toList (place % 7)) else none
  | byte loc value, place => if place = loc then some (UInt8.ofNat value.toNat) else none

/-- What is written last at a location. -/
def last? (writes : List Write) (place : Nat) : Option UInt8 := writes.reverse.findSome? (·.value? place)

theorem last?_cons (w : Write) (ws : List Write) (place : Nat) :
    last? (w :: ws) place = (last? ws place).or (w.value? place) := by
  rw [last?, List.reverse_cons, List.findSome?_append, List.findSome?_singleton, last?]

/-- A write to another register writes nothing here. -/
theorem value?_eq_none {w : Write} {place : Nat} (apart : w.target ≠ (place / 7 : Nat)) : w.value? place = none := by
  cases w with
  | register index text => exact if_neg fun same => apart same.symm
  | byte loc value =>
    apply if_neg
    rintro rfl
    exact apart (Int.natCast_ediv place 7).symm

theorem last?_eq_none {ws : List Write} {place : Nat} (apart : ∀ w ∈ ws, w.target ≠ (place / 7 : Nat)) :
    last? ws place = none := by
  rw [last?, List.findSome?_eq_none_iff]
  intro w member
  exact value?_eq_none (apart w (List.mem_reverse.1 member))

end Write

namespace Edit

/-- Make writes one after the other, up to the first that is refused. -/
def writeAll : List Write → Edit Unit
  | [] => return ()
  | w :: ws => do
    w.edit
    writeAll ws

/-- An image differs from an earlier one by the values that were written over it. -/
structure Leaves (values : Nat → Option UInt8) (before after : Image) : Prop where
  bytes : ∀ place, place < memorySize → after.byte place = (values place).getD (before.byte place)
  cpu : after.cpu = before.cpu

theorem Leaves.trans {first second : Nat → Option UInt8} {a b c : Image} (earlier : Leaves first a b)
    (later : Leaves second b c) : Leaves (fun place => (second place).or (first place)) a c where
  bytes place inside := by
    rw [later.bytes place inside, earlier.bytes place inside]
    cases second place <;> rfl
  cpu := later.cpu.trans earlier.cpu

section Step

variable {w : Write} {d : Desk}

/-- A text is read as a register when it is fourteen digits. -/
theorem exists_registerBytes?_iff {text : String} : (∃ bs, Image.registerBytes? text = some bs) ↔
    text.toList.length = 14 ∧ ∀ c ∈ text.toList, c ∈ Hex.digits := by
  simp only [Image.registerBytes?_eq_some_iff, exists_and_left, Hex.isSome_toBytes?_iff]
  constructor
  · rintro ⟨length, digits, -⟩
    exact ⟨length, digits⟩
  · rintro ⟨length, digits⟩
    exact ⟨length, digits, by rw [length]; decide⟩

/-- The bytes of a register that are stored are the pairs of its text. -/
theorem leaves_register {img : Image} {index : Int} {text : String} {bs : List UInt8} (low : 0 ≤ index)
    (spelled : Hex.toBytes? text.toList = some bs) (size : bs.length = 7) :
    Leaves (Write.register index text).value? img (img.putAll (7 * index.toNat) bs) := by
  refine ⟨?_, Image.cpu_putAll _ _ _⟩
  intro place inside
  rw [Image.byte_putAll _ inside, Write.value?]
  by_cases here : (place / 7 : Nat) = index
  · rw [if_pos here, if_pos (by omega), show place - 7 * index.toNat = place % 7 by omega,
      Hex.getElem?_of_toBytes? spelled (by omega)]
  · rw [if_neg here]
    split
    · rw [List.getElem?_eq_none (by omega)]
    · rfl

theorem leaves_byte {img : Image} {loc value : Int} (low : 0 ≤ loc) (high : loc < 7784) :
    Leaves (Write.byte loc value).value? img (img.put loc.toNat (UInt8.ofNat value.toNat)) := by
  refine ⟨?_, rfl⟩
  intro place inside
  rw [Image.byte_put, Write.value?]
  by_cases here : place = loc
  · rw [if_pos (by omega), if_pos here]
    rfl
  · rw [if_neg (by omega), if_neg here]
    rfl

/-- A valid write leaves its values. -/
theorem on_edit_of_valid (valid : w.Valid) :
    ∃ img, w.edit.on d = (.ok (), withImage d img) ∧ Leaves w.value? d.image img := by
  cases w with
  | register index text =>
    obtain ⟨inside, digits⟩ := valid
    obtain ⟨bs, read⟩ := exists_registerBytes?_iff.2 digits
    obtain ⟨length, spelled⟩ := Image.registerBytes?_eq_some_iff.1 read
    have size := Hex.length_of_toBytes? spelled
    have place : Image.registerIndex index = .ok index.toNat := if_pos inside
    refine ⟨_, ?_, leaves_register inside.1 spelled (by omega)⟩
    rw [Write.edit, storeRegister, place, on_bind_of_ok (on_ofExcept _ d), read]
    rfl
  | byte loc value =>
    obtain ⟨inside, small⟩ := valid
    have place : Image.location loc = .ok loc.toNat := if_pos inside
    refine ⟨_, ?_, leaves_byte inside.1 inside.2⟩
    rw [Write.edit, setByte, place, on_bind_of_ok (on_ofExcept _ d), if_pos small]
    rfl

/-- Any other write is refused, and the desk is as it was. -/
theorem on_edit_of_not_valid (invalid : ¬w.Valid) : ∃ f, w.edit.on d = (.error f, d) := by
  cases w with
  | register index text =>
    by_cases inside : 0 ≤ index ∧ index < 1112
    · have place : Image.registerIndex index = .ok index.toNat := if_pos inside
      have unread : Image.registerBytes? text = none := by
        cases read : Image.registerBytes? text with
        | none => rfl
        | some bs => exact absurd ⟨inside, exists_registerBytes?_iff.1 ⟨bs, read⟩⟩ invalid
      refine ⟨.registerText index.toNat text, ?_⟩
      rw [Write.edit, storeRegister, place, on_bind_of_ok (on_ofExcept _ d), unread]
      rfl
    · have outside : Image.registerIndex index = .error (.registerOutside index) := if_neg inside
      refine ⟨.registerOutside index, ?_⟩
      rw [Write.edit, storeRegister, outside, on_bind_of_error (on_ofExcept _ d)]
  | byte loc value =>
    by_cases inside : 0 ≤ loc ∧ loc < 7784
    · have place : Image.location loc = .ok loc.toNat := if_pos inside
      refine ⟨.byteValue value loc, ?_⟩
      rw [Write.edit, setByte, place, on_bind_of_ok (on_ofExcept _ d), if_neg fun small => invalid ⟨inside, small⟩]
      rfl
    · have outside : Image.location loc = .error (.locationOutside loc) := if_neg inside
      refine ⟨.locationOutside loc, ?_⟩
      rw [Write.edit, setByte, outside, on_bind_of_error (on_ofExcept _ d)]

end Step

variable {writes : List Write} {d d' : Desk}

/-- A run of valid writes leaves at every location what was written there last. -/
theorem on_writeAll_of_valid (valid : ∀ w ∈ writes, w.Valid) :
    ∃ img, (writeAll writes).on d = (.ok (), withImage d img) ∧ Leaves (Write.last? writes) d.image img := by
  induction writes generalizing d with
  | nil => exact ⟨d.image, rfl, fun _ _ => rfl, rfl⟩
  | cons w ws ih =>
    obtain ⟨here, later⟩ := List.forall_mem_cons.1 valid
    obtain ⟨between, written, first⟩ := on_edit_of_valid (d := d) here
    obtain ⟨img, ran, rest⟩ := ih (d := withImage d between) later
    refine ⟨img, ?_, ?_⟩
    · rw [writeAll, on_bind_of_ok written, ran]
    · -- What the later writes leave counts before what this one leaves.
      rw [show Write.last? (w :: ws) = _ from funext (Write.last?_cons w ws)]
      exact first.trans rest

/-- A run that is accepted consists of valid writes. -/
theorem valid_of_on_writeAll (ran : (writeAll writes).on d = (.ok (), d')) : ∀ w ∈ writes, w.Valid := by
  induction writes generalizing d with
  | nil =>
    rintro w ⟨⟩
  | cons w ws ih =>
    rw [writeAll] at ran
    by_cases valid : w.Valid
    · obtain ⟨between, written, -⟩ := on_edit_of_valid (d := d) valid
      rw [on_bind_of_ok written] at ran
      exact List.forall_mem_cons.2 ⟨valid, ih ran⟩
    · obtain ⟨f, refused⟩ := on_edit_of_not_valid (d := d) valid
      rw [on_bind_of_error refused] at ran
      cases ran

theorem leaves_of_on_writeAll (ran : (writeAll writes).on d = (.ok (), d')) :
    Leaves (Write.last? writes) d.image d'.image ∧ d'.log = d.log := by
  obtain ⟨img, ran', leaves⟩ := on_writeAll_of_valid (d := d) (valid_of_on_writeAll ran)
  rw [ran'] at ran
  cases ran
  exact ⟨leaves, rfl⟩

/-- The digits of a register that has values written over it. -/
def digitsOver (values : Nat → Option UInt8) (img : Image) (index : Nat) : String :=
  String.ofList (Hex.ofBytes ((List.range 7).map fun k => (values (7 * index + k)).getD (img.byte (7 * index + k))))

theorem Leaves.registerHex {values : Nat → Option UInt8} {before after : Image} (leaves : Leaves values before after)
    {index : Nat} (inside : index < registerCount) : after.registerHex index = .ok (digitsOver values before index) := by
  have bytes : after.registerAt index =
      (List.range 7).map fun k => (values (7 * index + k)).getD (before.byte (7 * index + k)) := by
    apply List.map_congr_left
    intro k member
    rw [List.mem_range] at member
    simp only [registerCount] at inside
    exact leaves.bytes _ (by simp only [memorySize]; omega)
  rw [Image.registerHex_of_lt after inside, bytes, digitsOver]

/-- A register that no write goes to is as it was. -/
theorem Leaves.registerHex_of_apart {before after : Image} (leaves : Leaves (Write.last? writes) before after)
    {index : Int} (apart : ∀ w ∈ writes, w.target ≠ index) : after.registerHex index = before.registerHex index := by
  by_cases place : 0 ≤ index ∧ index < 1112
  · obtain ⟨i, rfl⟩ := Int.eq_ofNat_of_zero_le place.1
    have inside : i < registerCount := by
      simp only [registerCount]
      omega
    have same : after.registerAt i = before.registerAt i := by
      apply Image.registerAt_congr
      intro k small
      have here : (7 * i + k) / 7 = i := by omega
      rw [leaves.bytes _ (by simp only [memorySize]; omega), Write.last?_eq_none (by rwa [here])]
      rfl
    rw [Image.registerHex_of_lt after inside, Image.registerHex_of_lt before inside, same]
  · have outside : Image.registerIndex index = .error (.registerOutside index) := if_neg place
    rw [Image.registerHex, Image.registerHex, Image.register, Image.register, outside]
    rfl

/-- The limit is a cell of its own: one that does not fit in twelve bits is refused and nothing changes, and any other
is stored and changes no other number of the status register and no byte outside its two. -/
structure LimitApart (limit : Int) (d : Desk) : Prop where
  refused : limit < 0 ∨ 4095 < limit → ∃ f, (setLimit limit).on d = (.error f, d) ∧ f.kind = .memory
  stored : 0 ≤ limit → limit ≤ 4095 → ∃ img, (setLimit limit).on d = (.ok (), withImage d img) ∧
    img.status.programLimit = limit ∧ img.status.programTop = d.image.status.programTop ∧
    img.status.watchdog = d.image.status.watchdog ∧
    (∀ place, place ≠ 96 → place ≠ 97 → img.byte place = d.image.byte place) ∧ img.cpu = d.image.cpu

theorem limitApart (limit : Int) (d : Desk) : LimitApart limit d where
  refused wide := by
    refine ⟨.limitWidth limit, ?_, rfl⟩
    rw [setLimit, if_neg (by omega), on_throw]
  stored low high := by
    obtain ⟨n, rfl⟩ := Int.eq_ofNat_of_zero_le low
    have small : n < 4096 := by omega
    have status := Image.status_withLimit d.image small
    refine ⟨d.image.withLimit n, on_setLimit small d, ?_, ?_, ?_, ?_, rfl⟩
    · rw [status]
    · rw [status]
    · rw [status]
    · intro place high low
      exact Image.byte_withLimit_of_ne d.image high low

/-- Registers and their bytes are cells of their own: a run of writes is accepted when all of them are valid, and then a
register reads as the digits of what was written last over each of its bytes, or of the byte it had. -/
structure RegistersApart (writes : List Write) (d : Desk) : Prop where
  accepted : (∃ d', (writeAll writes).on d = (.ok (), d')) ↔ ∀ w ∈ writes, w.Valid
  spelled : ∀ d', (writeAll writes).on d = (.ok (), d') → ∀ index : Nat, index < 1112 →
    d'.image.registerHex index = .ok (digitsOver (Write.last? writes) d.image index)
  others : ∀ d', (writeAll writes).on d = (.ok (), d') → ∀ index : Int, (∀ w ∈ writes, w.target ≠ index) →
    d'.image.registerHex index = d.image.registerHex index
  kept : ∀ d', (writeAll writes).on d = (.ok (), d') → d'.image.cpu = d.image.cpu ∧ d'.log = d.log

/-- **Cells of memory.** Storing a limit leaves everything but the limit as it was. After any run of writes to registers
and to bytes, each register spells in lower case what was written last over its bytes, by either way, and a register that
none of them goes to is as it was. -/
theorem cells_apart (d : Desk) (limit : Int) (writes : List Write) : LimitApart limit d ∧ RegistersApart writes d := by
  refine ⟨limitApart limit d, ?_⟩
  constructor
  case accepted =>
    constructor
    · rintro ⟨d', ran⟩
      exact valid_of_on_writeAll ran
    · intro valid
      obtain ⟨img, ran, -⟩ := on_writeAll_of_valid (d := d) valid
      exact ⟨_, ran⟩
  case spelled =>
    intro d' ran index inside
    exact (leaves_of_on_writeAll ran).1.registerHex (by simpa only [registerCount] using inside)
  case others =>
    intro d' ran index apart
    exact (leaves_of_on_writeAll ran).1.registerHex_of_apart apart
  case kept =>
    intro d' ran
    obtain ⟨leaves, log⟩ := leaves_of_on_writeAll ran
    exact ⟨leaves.cpu, log⟩

/-- A byte of register 13, then the text of this register, then another byte of it. -/
def interleaved : List Write := [.byte 91 0xFF, .register 13 "1A70016919C19B", .byte 97 0xF4]

theorem valid_interleaved : ∀ w ∈ interleaved, w.Valid := by
  have digits : "1A70016919C19B".toList.all Hex.isDigit = true := by decide
  have text : (Write.register 13 "1A70016919C19B").Valid :=
    ⟨by decide, by decide, fun c member => Hex.isDigit_iff_mem.1 (List.all_eq_true.1 digits c member)⟩
  have first : (Write.byte 91 0xFF).Valid := ⟨by decide, by decide⟩
  have last : (Write.byte 97 0xF4).Valid := ⟨by decide, by decide⟩
  simp only [interleaved, List.forall_mem_cons, List.not_mem_nil, false_implies, implies_true, and_true]
  exact ⟨first, text, last⟩

/-- The text of register 13 is written over one of its bytes, and another byte over the text. -/
theorem cells_apart_interleaved :
    ∃ d', (writeAll interleaved).on ⟨Image.zero, []⟩ = (.ok (), d') ∧
      d'.image.registerHex (13 : Nat) = .ok "1a70016919c1f4" ∧ d'.image.registerHex 14 = Image.zero.registerHex 14 ∧
      ∃ f, (setLimit 4096).on d' = (.error f, d') := by
  have cells := (cells_apart ⟨Image.zero, []⟩ 0 interleaved).2
  obtain ⟨d', ran⟩ := cells.accepted.2 valid_interleaved
  obtain ⟨f, refused, -⟩ := (cells_apart d' 4096 []).1.refused (by decide)
  have apart : ∀ w ∈ interleaved, w.target ≠ 14 := by decide
  refine ⟨d', ran, ?_, cells.others d' ran 14 apart, f, refused⟩
  rw [cells.spelled d' ran 13 (by decide)]
  rfl

end Edit

end CalcImage
