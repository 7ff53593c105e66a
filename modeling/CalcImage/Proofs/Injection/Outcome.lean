import CalcImage.Proofs.Memory.Edit

/-!
# The outcome of an injection

An image admits program bytes when there are some, its limit lies inside memory, and the registers that the bytes need
are free. `inject_of_admits` gives the image and the accounts of an injection that is admitted; `inject_cases` says that
every other one is refused for one of the causes in `Image.Refuses` and leaves the image as it was.
-/

namespace CalcImage

open Walk

/-- The offer of bytes as they are. -/
def Payload.ofBytes (bs : List UInt8) : Payload := .values (bs.map fun b => (b.toNat : Int))

@[simp] theorem Payload.bytes_ofBytes (bs : List UInt8) : (ofBytes bs).bytes = .ok bs := by
  change ofValues (bs.map fun b => (b.toNat : Int)) = .ok bs
  induction bs with
  | nil => rfl
  | cons b bs ih =>
    have := b.toNat_lt
    rw [List.map_cons, ofValues, if_pos (by omega), ih, Int.toNat_natCast, UInt8.ofNat_toNat]
    rfl

namespace Injection

/-- Program bytes, filled up with zeros to whole registers. -/
def padded (bs : List UInt8) : List UInt8 := bs ++ List.replicate ((7 - bs.length % 7) % 7) 0

@[simp] theorem length_padded (bs : List UInt8) : (padded bs).length = 7 * registersFor bs.length := by
  simp only [padded, List.length_append, List.length_replicate, registersFor]
  omega

/-- All that an injection writes: its own registers and the one of the end marker. -/
theorem length_written (bs : List UInt8) : (padded bs ++ endRegister).length = 7 * (registersFor bs.length + 1) := by
  rw [List.length_append, length_padded]
  rfl

theorem padded_eq (bs : List UInt8) :
    padded bs = bs ++ List.replicate (7 * registersFor bs.length - bs.length) 0 := by
  rw [padded, registersFor]
  congr 2
  omega

theorem registersFor_pos {bs : List UInt8} (h : bs ≠ []) : 0 < registersFor bs.length := by
  have := List.length_pos_iff.2 h
  unfold registersFor
  omega

end Injection

open Injection (padded registersFor endRegister length_padded length_written registersFor_pos)

namespace Image

/-- The program bottom below the limit in force. -/
def bottom (img : Image) : Nat := img.bottomBelow img.status.programLimit

/-- The image takes the program bytes. -/
structure Admits (img : Image) (bs : List UInt8) : Prop where
  nonempty : bs ≠ []
  inside : img.status.programLimit < registerCount
  room : img.bottom + registersFor bs.length ≤ img.status.programLimit

/-- Why an image does not take an offer. -/
inductive Refuses (img : Image) (payload : Payload) : Fault → Prop where
  | unread {f : Fault} (unread : payload.bytes = .error f) : Refuses img payload f
  | empty (read : payload.bytes = .ok []) : Refuses img payload .payloadEmpty
  | outside {bs : List UInt8} (read : payload.bytes = .ok bs) (nonempty : bs ≠ [])
      (limit : registerCount < img.status.programLimit) : Refuses img payload .scanOutside
  | noRoom {bs : List UInt8} (read : payload.bytes = .ok bs) (nonempty : bs ≠ [])
      (limit : img.status.programLimit ≤ registerCount)
      (room : img.status.programLimit < img.bottom + registersFor bs.length) :
      Refuses img payload (.noRoom (registersFor bs.length) (img.status.programLimit - img.bottom : Int))
  | limitOutside {bs : List UInt8} (read : payload.bytes = .ok bs) (nonempty : bs ≠ [])
      (limit : img.status.programLimit = registerCount)
      (room : img.bottom + registersFor bs.length ≤ img.status.programLimit) :
      Refuses img payload (.registerOutside registerCount)

/-- The image after program bytes that it admits. -/
def appended (img : Image) (bs : List UInt8) : Image :=
  let limit := img.status.programLimit
  (img.lay (7 * limit + 6) (padded bs ++ endRegister)).withLimit (limit - registersFor bs.length)

/-- The accounts of program bytes that the image admits. -/
def account (img : Image) (bs : List UInt8) : Injection where
  byteCount := bs.length
  registersUsed := registersFor bs.length
  limitBefore := img.status.programLimit
  limitAfter := (img.status.programLimit - registersFor bs.length : Nat)
  freeBefore := img.status.programLimit - img.bottom
  freeAfter := (img.status.programLimit - registersFor bs.length : Nat) - img.bottom

section Admitted

variable {img : Image} {bs : List UInt8}

/-- A limit above its bottom lies above the base of the partitions. -/
theorem Admits.base_le (h : img.Admits bs) : partitionBase ≤ img.bottom := by
  by_cases low : partitionBase ≤ img.status.programLimit
  · exact base_le_bottomBelow low
  · have pos := registersFor_pos h.nonempty
    have room := h.room
    unfold bottom at room
    rw [bottomBelow_of_le_base (by omega)] at room
    omega

/-- The writes end above the base of the partitions. -/
theorem Admits.fits (h : img.Admits bs) : 192 + registersFor bs.length ≤ img.status.programLimit := by
  have base := h.base_le
  have room := h.room
  simp only [partitionBase] at base
  omega

@[simp] theorem cpu_appended : (img.appended bs).cpu = img.cpu := by
  simp [appended]

/-- Bytes 96 and 97 apart, only the registers from the new limit up to the old one are written. -/
theorem Admits.byte_appended (h : img.Admits bs) {loc : Nat} (high : loc ≠ 96) (low : loc ≠ 97)
    (outside : loc / 7 < img.status.programLimit - registersFor bs.length ∨ img.status.programLimit < loc / 7) :
    (img.appended bs).byte loc = img.byte loc := by
  have fits := h.fits
  rw [appended, byte_withLimit_of_ne _ high low]
  exact byte_lay_register _ (length_written bs) (by omega) (by omega)

/-- The limit is stored below the registers that were needed, and the status register keeps its other numbers. -/
theorem Admits.status_appended (h : img.Admits bs) :
    (img.appended bs).status =
      { img.status with programLimit := img.status.programLimit - registersFor bs.length } := by
  have fits := h.fits
  have small := img.programLimit_lt
  have same : (img.lay (7 * img.status.programLimit + 6) (padded bs ++ endRegister)).status = img.status := by
    apply status_congr
    intro loc low high
    exact byte_lay_register _ (length_written bs) (by omega) (by omega)
  rw [appended, status_withLimit _ (by omega), same]

/-- The bottom stays where it was. -/
theorem Admits.bottomBelow_appended (h : img.Admits bs) :
    (img.appended bs).bottomBelow (img.status.programLimit - registersFor bs.length) = img.bottom := by
  have room := h.room
  have same : (img.appended bs).bottomBelow (img.status.programLimit - registersFor bs.length) =
      img.bottomBelow (img.status.programLimit - registersFor bs.length) := by
    apply bottomBelow_congr
    intro index low high
    simp only [partitionBase] at low
    exact h.byte_appended (by omega) (by omega) (by omega)
  rw [same]
  exact bottomBelow_stable (by change img.bottom ≤ _; omega) (Nat.sub_le _ _)

/-- From the old limit on the walk meets the bytes, their zeros and the end marker, and then what is left below. -/
theorem Admits.tape_appended (h : img.Admits bs) :
    (img.appended bs).tape (7 * img.status.programLimit + 6) = padded bs ++ endRegister ++
      (img.appended bs).tape (7 * (img.status.programLimit - registersFor bs.length) - 1) := by
  have fits := h.fits
  have inside : img.status.programLimit < 1112 := h.inside
  have size := length_written bs
  have head : ((img.appended bs).tape (7 * img.status.programLimit + 6)).take (7 * (registersFor bs.length + 1)) =
      padded bs ++ endRegister := by
    have same : ((img.appended bs).tape (7 * img.status.programLimit + 6)).take (7 * (registersFor bs.length + 1)) =
        ((img.lay (7 * img.status.programLimit + 6) (padded bs ++ endRegister)).tape
          (7 * img.status.programLimit + 6)).take (7 * (registersFor bs.length + 1)) := by
      apply take_tape_congr
      intro s high low
      exact byte_withLimit_of_ne _ (by unfold locationOfRank; omega) (by unfold locationOfRank; omega)
    rw [same, tape_lay img (by simp only [memorySize]; omega) (by omega), ← size, List.take_left]
  rw [← List.take_append_drop (7 * (registersFor bs.length + 1)) ((img.appended bs).tape _), head,
    drop_tape _ (by omega)]
  congr 2
  omega

end Admitted

end Image

namespace Edit

/-- Appending lays down the bytes, their zeros and the end marker in one run, and stores the limit below them. -/
theorem on_append {limit : Nat} {bs : List UInt8} (inside : limit < registerCount)
    (fits : registersFor bs.length ≤ limit) (d : Desk) :
    (append limit bs).on d =
      (.ok ((limit - registersFor bs.length : Nat) : Int),
        withImage d ((d.image.lay (7 * limit + 6) (padded bs ++ endRegister)).withLimit
          (limit - registersFor bs.length))) := by
  have size := length_padded bs
  simp only [padded, List.length_append, List.length_replicate] at size
  simp only [registerCount] at inside
  have small : 7 * limit + 6 < memorySize := by
    simp only [memorySize]
    omega
  have first : ((limit : Int) * 7) = (locationOfRank (7 * limit + 6) : Nat) := by
    unfold locationOfRank
    omega
  have zeros : ((7 - (locationOfRank (7 * limit + 6 - bs.length) : Int) % 7) % 7).toNat = (7 - bs.length % 7) % 7 := by
    unfold locationOfRank
    omega
  have last : 7 * limit + 6 - bs.length - (7 - bs.length % 7) % 7 = 7 * (limit - registersFor bs.length) + 6 := by
    omega
  have lower : (locationOfRank (7 * (limit - registersFor bs.length) + 6) : Int) / 7 =
      ((limit - registersFor bs.length : Nat) : Int) := by
    unfold locationOfRank
    omega
  rw [append, first, on_bind_of_ok (on_writeThrough small (by omega) d), zeros,
    on_bind_of_ok (on_writeThrough (by omega) (by simp only [List.length_replicate]; omega) _),
    List.length_replicate, last, on_bind_of_ok (on_writeRun (by omega) (by change 7 ≤ _; omega) _), lower,
    on_bind_of_ok (on_setLimit (by omega) _), on_pure, padded, Image.lay_append, Image.lay_append,
    List.length_append, List.length_replicate, Nat.sub_add_eq, last]

section Judge

variable {p : Payload} {d : Desk} {bs : List UInt8}

/-- What is left to judge once the bytes are read and the limit has a bottom. -/
theorem judge_of_read (read : p.bytes = .ok bs) (nonempty : bs ≠ [])
    (within : d.image.status.programLimit ≤ registerCount) :
    ∃ log, (judge p).on d =
      if d.image.status.programLimit < d.image.bottom + registersFor bs.length then
        (.error (.noRoom (registersFor bs.length) (d.image.status.programLimit - d.image.bottom)), ⟨d.image, log⟩)
      else (ofExcept (d.image.registerHex d.image.status.programLimit) >>= fun old => do
        record .debug .injector (".END. register contents were: " ++ old)
        pure (bs, (d.image.status.programLimit - d.image.bottom : Int))).on ⟨d.image, log⟩ := by
  have notEmpty : ¬bs.isEmpty = true := by simpa using nonempty
  rw [judge, read, on_bind_of_ok (on_ofExcept _ _)]
  dsimp only
  rw [if_neg notEmpty, on_bind_of_ok (on_image d), Image.programBottom_of_le within, on_bind_of_ok (on_ofExcept _ _),
    on_bind_of_ok (on_record _ _ _ _), on_bind_of_ok (on_record _ _ _ _)]
  by_cases full : d.image.status.programLimit < d.image.bottom + registersFor bs.length
  · simp only [if_pos full]
    rw [if_pos (by unfold Image.bottom at full; omega), on_bind_of_error (on_throw _ _)]
    exact ⟨_, rfl⟩
  · simp only [if_neg full]
    rw [if_neg (by unfold Image.bottom at full; omega)]
    exact ⟨_, rfl⟩

theorem judge_of_admits (read : p.bytes = .ok bs) (h : d.image.Admits bs) :
    ∃ log, (judge p).on d =
      (.ok (bs, (d.image.status.programLimit - d.image.bottom : Int)), ⟨d.image, log⟩) := by
  have inside := h.inside
  have room := h.room
  obtain ⟨log, judged⟩ := judge_of_read read h.nonempty (d := d) (by omega)
  rw [judged, if_neg (by omega), Image.registerHex_of_lt _ inside, on_bind_of_ok (on_ofExcept _ _),
    on_bind_of_ok (on_record _ _ _ _), on_pure]
  exact ⟨_, rfl⟩

/-- An offer is admitted, or it is refused for one of the causes and the image stays as it was. -/
theorem judge_cases (p : Payload) (d : Desk) :
    (∃ bs, p.bytes = .ok bs ∧ d.image.Admits bs) ∨
      ∃ f log, d.image.Refuses p f ∧ (judge p).on d = (.error f, ⟨d.image, log⟩) := by
  cases read : p.bytes with
  | error f =>
    refine .inr ⟨f, d.log, .unread read, ?_⟩
    rw [judge, read, on_bind_of_error (on_ofExcept _ _)]
  | ok bs =>
    by_cases empty : bs = []
    · subst empty
      exact .inr ⟨.payloadEmpty, d.log, .empty read, by rw [judge, read]; rfl⟩
    rcases Nat.lt_or_ge registerCount d.image.status.programLimit with outside | within
    · refine .inr ⟨.scanOutside, d.log, .outside read empty outside, ?_⟩
      rw [judge, read, on_bind_of_ok (on_ofExcept _ _)]
      dsimp only
      rw [if_neg (by simpa using empty), on_bind_of_ok (on_image d),
        Image.programBottom_of_lt outside d.image.programLimit_lt, on_bind_of_error (on_ofExcept _ _)]
    · obtain ⟨log, judged⟩ := judge_of_read read empty within
      by_cases full : d.image.status.programLimit < d.image.bottom + registersFor bs.length
      · exact .inr ⟨_, log, .noRoom read empty within full, by rw [judged, if_pos full]⟩
      · rcases Nat.lt_or_ge d.image.status.programLimit registerCount with inside | last
        · exact .inl ⟨bs, rfl, empty, inside, by omega⟩
        · have limit : d.image.status.programLimit = registerCount := by omega
          refine .inr ⟨_, log, .limitOutside read empty limit (by omega), ?_⟩
          rw [judged, if_neg full, limit]
          rfl

end Judge

/-- Program bytes that the image admits are appended and accounted for. -/
theorem inject_of_admits {p : Payload} {d : Desk} {bs : List UInt8} (read : p.bytes = .ok bs)
    (h : d.image.Admits bs) :
    ∃ log, (inject p).on d = (.ok (d.image.account bs), ⟨d.image.appended bs, log⟩) := by
  have inside := h.inside
  have room := h.room
  obtain ⟨log, judged⟩ := judge_of_admits read h
  rw [inject, on_bind_of_ok judged, on_bind_of_ok (on_image _), on_bind_of_ok (on_append inside (by omega) _),
    on_bind_of_ok (on_image _)]
  change ∃ log, (ofExcept ((d.image.appended bs).programBottom _) >>= _).on _ = _
  rw [Image.programBottom_of_le (by omega), h.bottomBelow_appended, on_bind_of_ok (on_ofExcept _ _),
    on_bind_of_ok (on_record _ _ _ _), on_bind_of_ok (on_record _ _ _ _), on_pure]
  exact ⟨_, rfl⟩

/-- An injection is admitted and appends its bytes, or it is refused and leaves the image as it was. -/
theorem inject_cases (p : Payload) (d : Desk) :
    (∃ bs log, p.bytes = .ok bs ∧ d.image.Admits bs ∧
      (inject p).on d = (.ok (d.image.account bs), ⟨d.image.appended bs, log⟩)) ∨
    ∃ f log, d.image.Refuses p f ∧ (inject p).on d = (.error f, ⟨d.image, log⟩) := by
  rcases judge_cases p d with ⟨bs, read, admits⟩ | ⟨f, log, refused, judged⟩
  · obtain ⟨log, injected⟩ := inject_of_admits read admits
    exact .inl ⟨bs, log, read, admits, injected⟩
  · exact .inr ⟨f, log, refused, by rw [inject, on_bind_of_error judged]⟩

end Edit

end CalcImage
