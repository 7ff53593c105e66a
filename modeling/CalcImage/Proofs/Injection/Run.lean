import Mathlib.Algebra.Ring.Nat
import CalcImage.Proofs.Injection.Effect

/-!
# Runs of injections

A run injects one offer after the other into the same image, going on whether an injection succeeds or not. `Kept` is
what one injection, and so a whole run, leaves of an image as it was: it holds of one call (`inject_kept`), and it
composes (`Kept.trans`). What was injected lies above the limit from then on, where no later injection writes
(`Kept.read`).
-/

namespace CalcImage

open Walk
open Injection (registersFor endRegister padded length_padded)

/-- An offer of a run and what came of it. -/
structure Call where
  offer : Payload
  result : Except Fault Injection

namespace Call

/-- The registers that a call has used: none when it failed. -/
def used (c : Call) : Nat :=
  match c.result with
  | .ok i => i.registersUsed
  | .error _ => 0

/-- The call has injected its offer. -/
def succeeded (c : Call) : Prop := ∃ i, c.result = .ok i

end Call

/-- Inject offers one after the other, the failing ones included. -/
def Edit.injectAll : List Payload → Desk → List Call × Desk
  | [], d => ([], d)
  | offer :: offers, d =>
    let (result, d) := (inject offer).on d
    let (calls, d) := injectAll offers d
    (⟨offer, result⟩ :: calls, d)

/-- What injections leave as it was. The registers that they may write lie between the limits before and after. -/
structure Kept (before after : Image) : Prop where
  status : after.status = { before.status with programLimit := after.status.programLimit }
  highNibble : (after.byte 96).toNat / 16 = (before.byte 96).toNat / 16
  cpu : after.cpu = before.cpu
  bytes : ∀ loc, loc ≠ 96 → loc ≠ 97 → loc / 7 < after.status.programLimit ∨ before.status.programLimit < loc / 7 →
    after.byte loc = before.byte loc
  limit_le : after.status.programLimit ≤ before.status.programLimit
  bottom : after.bottom = before.bottom

namespace Kept

variable {a b c : Image}

theorem refl (a : Image) : Kept a a :=
  ⟨rfl, rfl, rfl, fun _ _ _ _ => rfl, Nat.le_refl _, rfl⟩

theorem trans (first : Kept a b) (second : Kept b c) : Kept a c where
  status := by rw [second.status, first.status]
  highNibble := second.highNibble.trans first.highNibble
  cpu := second.cpu.trans first.cpu
  bytes loc high low outside := by
    have := first.limit_le
    have := second.limit_le
    rw [second.bytes loc high low (by omega), first.bytes loc high low (by omega)]
  limit_le := Nat.le_trans second.limit_le first.limit_le
  bottom := second.bottom.trans first.bottom

theorem registerAt (kept : Kept a b) {index : Nat} (other : index ≠ 13)
    (outside : index < b.status.programLimit ∨ a.status.programLimit < index) :
    b.registerAt index = a.registerAt index := by
  apply Image.registerAt_congr
  intro k hk
  exact kept.bytes _ (by omega) (by omega) (by omega)

/-- Bytes that are read above the limit stay the same. -/
theorem read (kept : Kept a b) {index count : Nat} (base : partitionBase ≤ a.status.programLimit)
    (inside : index < registerCount) (above : count + 7 * a.status.programLimit ≤ 7 * index) :
    b.read (7 * index) count = a.read (7 * index) count := by
  simp only [partitionBase] at base
  rw [Image.read_register b inside (by omega), Image.read_register a inside (by omega)]
  congr 1
  apply Image.take_tape_congr
  intro s high low
  exact kept.bytes _ (by unfold locationOfRank; omega) (by unfold locationOfRank; omega)
    (by unfold locationOfRank; omega)

end Kept

/-- An injection that the image admits keeps what injections leave as it was. -/
theorem Image.Admits.kept {img : Image} {bs : List UInt8} (h : img.Admits bs) : Kept img (img.appended bs) where
  status := by rw [h.status_appended]
  highNibble := h.highNibble_appended
  cpu := cpu_appended
  bytes loc high low outside := by
    rw [h.status_appended] at outside
    exact h.byte_appended high low outside
  limit_le := by
    rw [h.status_appended]
    exact Nat.sub_le _ _
  bottom := by
    rw [bottom, h.status_appended]
    exact h.bottomBelow_appended

/-- After an injection other program bytes are admitted when there is room for both. -/
theorem Image.Admits.admits_appended {img : Image} {bs more : List UInt8} (h : img.Admits bs) (nonempty : more ≠ [])
    (room : img.bottom + registersFor bs.length + registersFor more.length ≤ img.status.programLimit) :
    (img.appended bs).Admits more := by
  have inside := h.inside
  constructor
  case nonempty => exact nonempty
  case inside => exact Nat.lt_of_le_of_lt h.kept.limit_le inside
  case room =>
    rw [h.kept.bottom, h.status_appended]
    dsimp only
    omega

/-- One call, successful or not. -/
theorem inject_kept (offer : Payload) (d : Desk) : Kept d.image ((Edit.inject offer).on d).2.image := by
  rcases Edit.inject_cases offer d with ⟨bs, log, -, admits, injected⟩ | ⟨f, log, -, refused⟩
  · rw [injected]
    exact admits.kept
  · rw [refused]
    exact Kept.refl _

/-- The register at the limit holds the end marker and nothing else. -/
def Image.EndsAtLimit (img : Image) : Prop := img.registerAt img.status.programLimit = endRegister

/-- The facts about a call that a run adds up: the image goes on from the call, and so do its limit and its end
marker. -/
structure Call.Done (c : Call) (before after : Image) : Prop where
  limit : after.status.programLimit + c.used = before.status.programLimit
  accounts : ∀ i, c.result = .ok i → i.freeAfter = i.freeBefore - i.registersUsed
  ends : c.succeeded ∨ before.EndsAtLimit → after.EndsAtLimit
  program : ∀ i, c.result = .ok i → ∃ bs, c.offer.bytes = .ok bs ∧ i.limitBefore = before.status.programLimit ∧
    bs.length ≤ 7 * c.used ∧ before.status.programLimit < registerCount ∧ partitionBase ≤ after.status.programLimit ∧
    after.read (7 * i.limitBefore) bs.length = .ok bs

theorem inject_done (offer : Payload) (d : Desk) :
    Call.Done ⟨offer, ((Edit.inject offer).on d).1⟩ d.image ((Edit.inject offer).on d).2.image := by
  rcases Edit.inject_cases offer d with ⟨bs, log, read, admits, injected⟩ | ⟨f, log, -, refused⟩
  · have effect := admits.injected
    have limit : (d.image.appended bs).status.programLimit = d.image.status.programLimit - registersFor bs.length := by
      rw [admits.status_appended]
    have lower := effect.lower_eq
    have size := length_padded bs
    rw [padded, List.length_append] at size
    rw [injected]
    constructor
    case limit =>
      change (d.image.appended bs).status.programLimit + registersFor bs.length = _
      rw [limit, lower]
    case accounts =>
      rintro i ⟨⟩
      change ((d.image.status.programLimit - registersFor bs.length : Nat) : Int) - d.image.bottom =
        d.image.status.programLimit - d.image.bottom - registersFor bs.length
      omega
    case ends =>
      intro _
      change (d.image.appended bs).registerAt (d.image.appended bs).status.programLimit = _
      rw [limit]
      exact effect.endRegister
    case program =>
      rintro i ⟨⟩
      refine ⟨bs, read, rfl, ?_, admits.inside, ?_, effect.program⟩
      · change bs.length ≤ 7 * registersFor bs.length
        omega
      · have := admits.fits
        change 192 ≤ (d.image.appended bs).status.programLimit
        omega
  · rw [refused]
    constructor
    case limit => exact Nat.add_zero _
    case accounts => rintro i ⟨⟩
    case ends =>
      rintro (⟨i, ⟨⟩⟩ | ends)
      exact ends
    case program => rintro i ⟨⟩

/-- What a whole run does: what it keeps, how far the limit has come down, and what every call of it has left. -/
structure RunEffect (before after : Image) (calls : List Call) : Prop where
  kept : Kept before after
  limit : after.status.programLimit + (calls.map Call.used).sum = before.status.programLimit
  accounts : ∀ c ∈ calls, ∀ i, c.result = .ok i → i.freeAfter = i.freeBefore - i.registersUsed
  ends : (∃ c ∈ calls, c.succeeded) ∨ before.EndsAtLimit → after.EndsAtLimit
  programs : ∀ c ∈ calls, ∀ i, c.result = .ok i →
    ∃ bs, c.offer.bytes = .ok bs ∧ after.read (7 * i.limitBefore) bs.length = .ok bs

/-- A run is its first call and the run after it. -/
theorem RunEffect.cons {c : Call} {calls : List Call} {a b z : Image} (kept : Kept a b) (done : c.Done a b)
    (rest : RunEffect b z calls) : RunEffect a z (c :: calls) where
  kept := kept.trans rest.kept
  limit := by
    have := done.limit
    have := rest.limit
    rw [List.map_cons, List.sum_cons]
    omega
  accounts := by
    intro e member
    rcases List.mem_cons.1 member with rfl | member
    · exact done.accounts
    · exact rest.accounts e member
  ends := by
    rintro (⟨e, member, succeeded⟩ | ends)
    · rcases List.mem_cons.1 member with rfl | member
      · exact rest.ends (.inr (done.ends (.inl succeeded)))
      · exact rest.ends (.inl ⟨e, member, succeeded⟩)
    · exact rest.ends (.inr (done.ends (.inr ends)))
  programs := by
    intro e member i result
    rcases List.mem_cons.1 member with rfl | member
    · obtain ⟨bs, read, limit, long, inside, base, program⟩ := done.program i result
      have lower := done.limit
      rw [limit] at program ⊢
      -- The program lies above the limit that the call has left, so the rest of the run does not write there.
      exact ⟨bs, read, by rw [rest.kept.read base inside (by omega), program]⟩
    · exact rest.programs e member i result

theorem injectAll_effect (offers : List Payload) (d : Desk) :
    RunEffect d.image (Edit.injectAll offers d).2.image (Edit.injectAll offers d).1 := by
  induction offers generalizing d with
  | nil =>
    constructor
    case kept => exact Kept.refl _
    case limit => exact Nat.add_zero _
    case accounts => rintro c ⟨⟩
    case ends =>
      rintro (⟨c, ⟨⟩, -⟩ | ends)
      exact ends
    case programs => rintro c ⟨⟩
  | cons offer offers ih => exact .cons (inject_kept offer d) (inject_done offer d) (ih _)

/-- The effect of a run on an image whose limit lies between the base of the partitions and the end of memory: the
program bottom is the same before and after, and neither what lies below it nor what lies above the first limit has
changed. -/
structure BoundedRun (before after : Image) (calls : List Call) : Prop extends RunEffect before after calls where
  bottom : ∃ bottom : Nat, before.programBottom before.status.programLimit = .ok (bottom : Int) ∧
    after.programBottom after.status.programLimit = .ok (bottom : Int) ∧
    192 ≤ bottom ∧ bottom ≤ after.status.programLimit ∧
    ∀ index, index ≠ 13 → index < bottom → after.registerAt index = before.registerAt index
  statusBytes : ∀ loc, 91 ≤ loc → loc ≤ 95 → after.byte loc = before.byte loc
  above : ∀ index, before.status.programLimit < index → after.registerAt index = before.registerAt index

/-- **Runs of injections.** Whatever is offered, and whichever calls fail, a run keeps everything outside the registers
that its successful calls have used, and none of them damages what an earlier one has written. -/
theorem boundedRun_injectAll (offers : List Payload) (d : Desk) (low : 192 ≤ d.image.status.programLimit)
    (high : d.image.status.programLimit ≤ 1111) :
    BoundedRun d.image (Edit.injectAll offers d).2.image (Edit.injectAll offers d).1 := by
  have effect := injectAll_effect offers d
  have kept := effect.kept
  have down := kept.limit_le
  have base : partitionBase ≤ d.image.bottom := Image.base_le_bottomBelow low
  have room : d.image.bottom ≤ (Edit.injectAll offers d).2.image.status.programLimit := by
    rw [← kept.bottom]
    exact Image.bottomBelow_le _
  have inside : d.image.status.programLimit ≤ registerCount := by
    simp only [registerCount]
    omega
  simp only [partitionBase] at base
  refine ⟨effect, ⟨d.image.bottom, Image.programBottom_of_le inside, ?_, base, room, ?_⟩, ?_, ?_⟩
  · rw [← kept.bottom]
    exact Image.programBottom_of_le (Nat.le_trans down inside)
  · intro index other below
    exact kept.registerAt other (.inl (by omega))
  · intro loc first last
    exact kept.bytes loc (by omega) (by omega) (.inl (by omega))
  · intro index above
    exact kept.registerAt (by omega) (.inr above)

/-- Three registers are free, and the calls use two of them, fail for three reasons, and use the last one. -/
theorem boundedRun_three_registers :
    192 ≤ (Image.emptyTo 195).status.programLimit ∧ (Image.emptyTo 195).status.programLimit ≤ 1111 ∧
      BoundedRun (Image.emptyTo 195)
        (Edit.injectAll
          [.text "C000F2004285C0000D", .text "8", .values [256], .values [1, 2, 3, 4, 5, 6, 7, 8], .values [0x85]]
          ⟨Image.emptyTo 195, []⟩).2.image
        (Edit.injectAll
          [.text "C000F2004285C0000D", .text "8", .values [256], .values [1, 2, 3, 4, 5, 6, 7, 8], .values [0x85]]
          ⟨Image.emptyTo 195, []⟩).1 := by
  have limit : (Image.emptyTo 195).status.programLimit = 195 := Image.programLimit_emptyTo (by decide)
  have low : 192 ≤ (Image.emptyTo 195).status.programLimit := by rw [limit]; decide
  have high : (Image.emptyTo 195).status.programLimit ≤ 1111 := by rw [limit]; decide
  exact ⟨low, high, boundedRun_injectAll _ ⟨Image.emptyTo 195, []⟩ low high⟩

end CalcImage
