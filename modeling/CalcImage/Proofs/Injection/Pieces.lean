import CalcImage.Proofs.Injection.Run

/-!
# Injecting in pieces

A program may be injected in two pieces, the first one filled up with zeros to whole registers. The second piece is
written from the register of the end marker on that the first one has left, and since it is at least one register long
and brings an end marker of its own, nothing of that register stays (`appended_appended`). Both pieces are admitted
exactly when the whole program is (`admits_pieces_iff`), so injecting in pieces succeeds exactly when injecting at once
does, and comes to the same (`inject_pieces`).
-/

namespace CalcImage

open Walk
open Injection (padded registersFor endRegister length_padded length_written registersFor_pos)

namespace Injection

variable {p : List UInt8}

/-- What follows whole registers is filled up by itself. -/
theorem padded_append (p q : List UInt8) : padded (padded p ++ q) = padded p ++ padded q := by
  have length : (padded p ++ q).length % 7 = q.length % 7 := by
    rw [List.length_append, length_padded]
    omega
  rw [padded, length, List.append_assoc, ← padded]

theorem registersFor_append (p q : List UInt8) :
    registersFor (padded p ++ q).length = registersFor p.length + registersFor q.length := by
  rw [List.length_append, length_padded]
  unfold registersFor
  omega

theorem padded_append_ne_nil (p : List UInt8) {q : List UInt8} (nonempty : q ≠ []) : padded p ++ q ≠ [] :=
  List.append_ne_nil_of_right_ne_nil _ nonempty

end Injection

open Injection (padded_append registersFor_append padded_append_ne_nil)

namespace Image

section Limit

variable (img : Image) {loc limit : Nat}

/-- A limit that is stored over another one leaves nothing of it. -/
theorem withLimit_withLimit {other : Nat} (small : other < 4096) (small' : limit < 4096) :
    (img.withLimit other).withLimit limit = img.withLimit limit := by
  apply ext_byte
  · intro loc _
    by_cases high : loc = 96
    · subst high
      apply UInt8.toNat_inj.1
      rw [byte_withLimit_high _ small', byte_withLimit_high _ small', byte_withLimit_high _ small]
      omega
    · by_cases low : loc = 97
      · subst low
        apply UInt8.toNat_inj.1
        rw [byte_withLimit_low, byte_withLimit_low]
      · rw [byte_withLimit_of_ne _ high low, byte_withLimit_of_ne _ high low, byte_withLimit_of_ne _ high low]
  · rfl

theorem put_comm {other : Nat} (different : loc ≠ other) (b c : UInt8) :
    (img.put loc b).put other c = (img.put other c).put loc b := by
  apply ext_byte
  · intro place _
    simp only [byte_put]
    by_cases here : loc = place
    · have apart : ¬(other = place ∧ other < 7784) := fun both => different (here.trans both.1.symm)
      rw [if_neg apart, if_neg apart]
    · have apart : ¬(loc = place ∧ loc < 7784) := fun both => here both.1
      rw [if_neg apart, if_neg apart]
  · rfl

/-- A byte outside the limit may be written before or after it. -/
theorem put_withLimit (b : UInt8) (high : loc ≠ 96) (low : loc ≠ 97) :
    (img.withLimit limit).put loc b = (img.put loc b).withLimit limit := by
  have stored : (img.put loc b).byte 96 = img.byte 96 := by
    rw [byte_put, if_neg]
    exact fun both => high both.1
  rw [withLimit, withLimit, stored, put_comm _ low.symm, put_comm _ high.symm]

/-- Bytes above the status register may be written before or after the limit. -/
theorem lay_withLimit {r : Nat} {bs : List UInt8} (above : bs.length + 98 ≤ r + 1) :
    (img.withLimit limit).lay r bs = (img.lay r bs).withLimit limit := by
  induction bs generalizing img r with
  | nil => rfl
  | cons b bs ih =>
    rw [List.length_cons] at above
    rw [lay, lay, put_withLimit _ _ (by unfold locationOfRank; omega) (by unfold locationOfRank; omega), ih _ (by omega)]

end Limit

section Pieces

variable {img : Image} {p q : List UInt8}

/-- Two pieces are admitted one after the other exactly when the whole is admitted. -/
theorem admits_pieces_iff (nonempty : p ≠ []) (nonempty' : q ≠ []) :
    img.Admits p ∧ (img.appended p).Admits q ↔ img.Admits (padded p ++ q) := by
  constructor
  · rintro ⟨first, second⟩
    have room := second.room
    have fits := first.fits
    rw [first.kept.bottom, first.status_appended] at room
    dsimp only at room
    constructor
    case nonempty => exact padded_append_ne_nil p nonempty'
    case inside => exact first.inside
    case room =>
      rw [registersFor_append]
      omega
  · intro whole
    have room := whole.room
    rw [registersFor_append] at room
    have first : img.Admits p := ⟨nonempty, whole.inside, by omega⟩
    exact ⟨first, first.admits_appended nonempty' (by omega)⟩

/-- Two pieces that are appended one after the other leave the image that the whole leaves. -/
theorem appended_appended (first : img.Admits p) (second : (img.appended p).Admits q) :
    (img.appended p).appended q = img.appended (padded p ++ q) := by
  have inside : img.status.programLimit < 1112 := first.inside
  have fits := second.fits
  have limit : (img.appended p).status.programLimit = img.status.programLimit - registersFor p.length := by
    rw [first.status_appended]
  rw [limit] at fits
  have small := img.programLimit_lt
  have start : 7 * (img.status.programLimit - registersFor p.length) + 6 =
      7 * img.status.programLimit + 6 - (padded p).length := by
    rw [length_padded]
    omega
  have written := length_written q
  have lower : img.status.programLimit - registersFor p.length - registersFor q.length =
      img.status.programLimit - registersFor (padded p ++ q).length := by
    rw [registersFor_append]
    omega
  -- The end marker of the first piece is the beginning of what the second one writes over.
  have bytes : (img.lay (7 * img.status.programLimit + 6) (padded p ++ endRegister)).lay
        (7 * (img.status.programLimit - registersFor p.length) + 6) (padded q ++ endRegister) =
      img.lay (7 * img.status.programLimit + 6) (padded (padded p ++ q) ++ endRegister) := by
    rw [lay_append img, ← start, lay_lay _ (by simp only [memorySize]; omega) (by rw [written]; change 7 ≤ _; omega)
      (by rw [written]; omega), padded_append, List.append_assoc, lay_append img, ← start]
  calc (img.appended p).appended q
    _ = (((img.lay (7 * img.status.programLimit + 6) (padded p ++ endRegister)).withLimit
          (img.status.programLimit - registersFor p.length)).lay
        (7 * (img.status.programLimit - registersFor p.length) + 6) (padded q ++ endRegister)).withLimit
          (img.status.programLimit - registersFor p.length - registersFor q.length) := by
      rw [appended, limit]
      rfl
    _ = (img.lay (7 * img.status.programLimit + 6) (padded (padded p ++ q) ++ endRegister)).withLimit
          (img.status.programLimit - registersFor (padded p ++ q).length) := by
      rw [lay_withLimit _ (by rw [written]; omega), withLimit_withLimit _ (by omega) (by omega), bytes, lower]

end Pieces

end Image

namespace Edit

/-- Injecting `first` and after it `second` comes to the same as injecting `whole`. -/
structure InPieces (first second whole : Payload) (d : Desk) : Prop where
  succeeds : (∃ i b j e, (inject first).on d = (.ok i, b) ∧ (inject second).on b = (.ok j, e)) ↔
    ∃ k e, (inject whole).on d = (.ok k, e)
  same : ∀ i b j e k e', (inject first).on d = (.ok i, b) → (inject second).on b = (.ok j, e) →
    (inject whole).on d = (.ok k, e') → e.image = e'.image ∧ j.limitAfter = k.limitAfter ∧ j.freeAfter = k.freeAfter

/-- Bytes that are injected were admitted. -/
theorem admits_of_inject {payload : Payload} {d d' : Desk} {i : Injection} {bs : List UInt8}
    (read : payload.bytes = .ok bs) (injected : (inject payload).on d = (.ok i, d')) :
    d.image.Admits bs ∧ i = d.image.account bs ∧ d'.image = d.image.appended bs := by
  rcases inject_cases payload d with ⟨bs', log, read', admits, accepted⟩ | ⟨f, log, -, refused⟩
  · rw [read] at read'
    cases read'
    rw [injected] at accepted
    cases accepted
    exact ⟨admits, rfl, rfl⟩
  · rw [injected] at refused
    cases refused

/-- **Injecting in pieces.** Two programs are injected one after the other exactly when the first one, filled up with
zeros to whole registers, is injected with the second one behind it, and the image, its limit and its free registers
are then the same. -/
theorem inject_pieces {first second whole : Payload} {p q : List UInt8} (readFirst : first.bytes = .ok p)
    (readSecond : second.bytes = .ok q) (readWhole : whole.bytes = .ok (padded p ++ q)) (nonempty : p ≠ [])
    (nonempty' : q ≠ []) (d : Desk) : InPieces first second whole d := by
  constructor
  case succeeds =>
    constructor
    · rintro ⟨i, b, j, e, one, two⟩
      obtain ⟨admits, -, image⟩ := admits_of_inject readFirst one
      obtain ⟨admits', -, -⟩ := admits_of_inject readSecond two
      rw [image] at admits'
      have both := (Image.admits_pieces_iff nonempty nonempty').1 ⟨admits, admits'⟩
      obtain ⟨log, injected⟩ := inject_of_admits readWhole both
      exact ⟨_, _, injected⟩
    · rintro ⟨k, e, once⟩
      obtain ⟨admits, -, -⟩ := admits_of_inject readWhole once
      obtain ⟨admits, admits'⟩ := (Image.admits_pieces_iff nonempty nonempty').2 admits
      obtain ⟨log, one⟩ := inject_of_admits readFirst admits
      obtain ⟨log', two⟩ := inject_of_admits (d := ⟨d.image.appended p, log⟩) readSecond admits'
      exact ⟨_, _, _, _, one, two⟩
  case same =>
    intro i b j e k e' one two once
    obtain ⟨admits, -, image⟩ := admits_of_inject readFirst one
    obtain ⟨admits', rfl, image'⟩ := admits_of_inject readSecond two
    obtain ⟨-, rfl, image''⟩ := admits_of_inject readWhole once
    rw [image] at admits' image'
    have lower : d.image.status.programLimit - registersFor p.length - registersFor q.length =
        d.image.status.programLimit - registersFor (padded p ++ q).length := by
      rw [registersFor_append, Nat.sub_add_eq]
    refine ⟨?_, ?_, ?_⟩
    · rw [image', image'', Image.appended_appended admits admits']
    · rw [image, Image.account, Image.account, admits.status_appended]
      dsimp only
      rw [lower]
    · rw [image, Image.account, Image.account, admits.kept.bottom, admits.status_appended]
      dsimp only
      rw [lower]

/-- Eight bytes. -/
def eightBytes : List UInt8 := [0xC0, 0x00, 0xF2, 0x00, 0x42, 0x85, 0xC0, 0x00]

/-- Three registers are free; eight bytes and one more take all of them, in pieces or at once. -/
theorem inject_pieces_three_registers :
    InPieces (.text "C000F2004285C000") (.values [0x0D]) (.ofBytes (eightBytes ++ [0, 0, 0, 0, 0, 0] ++ [0x0D]))
        ⟨Image.emptyTo 195, []⟩ ∧
      ∃ i b j e, (inject (.text "C000F2004285C000")).on ⟨Image.emptyTo 195, []⟩ = (.ok i, b) ∧
        (inject (.values [0x0D])).on b = (.ok j, e) ∧ j.limitAfter = 192 ∧ j.freeAfter = 0 := by
  have readFirst : (Payload.text "C000F2004285C000").bytes = .ok eightBytes := rfl
  have readSecond : (Payload.values [0x0D]).bytes = .ok [0x0D] := rfl
  have readWhole : (Payload.ofBytes (eightBytes ++ [0, 0, 0, 0, 0, 0] ++ [0x0D])).bytes =
      .ok (padded eightBytes ++ [0x0D]) := Payload.bytes_ofBytes _
  have pieces := inject_pieces readFirst readSecond readWhole (List.cons_ne_nil _ _) (List.cons_ne_nil _ _)
    ⟨Image.emptyTo 195, []⟩
  have limit : (Image.emptyTo 195).status.programLimit = 195 := Image.programLimit_emptyTo (by decide)
  have bottom : (Image.emptyTo 195).bottom = 192 := by
    rw [Image.bottom, limit]
    exact Image.bottomBelow_emptyTo (by decide)
  have admits : (Image.emptyTo 195).Admits (padded eightBytes ++ [0x0D]) := by
    constructor
    case nonempty => exact List.cons_ne_nil _ _
    case inside => rw [limit]; decide
    case room => rw [bottom, limit]; decide
  have admitted : (⟨Image.emptyTo 195, []⟩ : Desk).image.Admits (padded eightBytes ++ [0x0D]) := admits
  obtain ⟨log, once⟩ := inject_of_admits readWhole admitted
  obtain ⟨i, b, j, e, one, two⟩ := pieces.succeeds.2 ⟨_, _, once⟩
  obtain ⟨-, after, free⟩ := pieces.same i b j e _ _ one two once
  refine ⟨pieces, i, b, j, e, one, two, ?_, ?_⟩
  · rw [after, Image.account, limit]
    rfl
  · rw [free, Image.account, limit, bottom]
    rfl

end Edit

end CalcImage
