import CalcImage.Proofs.Injection.Outcome
import CalcImage.Proofs.Memory.Atomic

/-!
# What an injection refuses

`Image.refusal` judges an offer by its values, its digits and its length, and by the limit and the bottom that are in
force; the first objection decides. It tells the kind of fault that the injection ends in, and when it has no objection
the injection succeeds (`Edit.edits_atomic`). So no step after the first write can fail.
-/

namespace CalcImage

open CalcImage.Text
open Injection (registersFor)

namespace Payload

/-- One of the values that are offered is no byte. -/
def stray : Payload → Bool
  | text _ => false
  | values vs => vs.any fun v => v < 0 || 255 < v

/-- The text that is offered does not consist of pairs of hexadecimal digits, with or without blanks. -/
def notHex : Payload → Bool
  | text s => !((dropBlanks s.toList).all Hex.isDigit && (dropBlanks s.toList).length % 2 == 0)
  | values _ => false

/-- The number of bytes that are offered. -/
def count : Payload → Nat
  | text s => (dropBlanks s.toList).length / 2
  | values vs => vs.length

end Payload

/-- The first objection that an image has to an offer. -/
def Image.refusal (img : Image) (payload : Payload) : Option Fault.Kind :=
  let limit := img.status.programLimit
  if payload.stray then some .value
  else if payload.notHex || payload.count == 0 then some .injection
  else if registerCount < limit then some .index
  else if (limit : Int) - img.bottom < registersFor payload.count then some .space
  else if limit = registerCount then some .walk
  else none

namespace Payload

theorem ofValues_of_stray {vs : List Int} (stray : (values vs).stray = true) : ofValues vs = .error .payloadValue := by
  simp only [Payload.stray] at stray
  induction vs with
  | nil => cases stray
  | cons v vs ih =>
    rw [ofValues]
    by_cases inside : 0 ≤ v ∧ v ≤ 255
    · have here : (decide (v < 0) || decide (255 < v)) = false := by
        simp only [Bool.or_eq_false_iff, decide_eq_false_iff_not]
        omega
      rw [List.any_cons, here, Bool.false_or] at stray
      rw [if_pos inside, ih stray]
      rfl
    · exact if_neg inside

theorem ofValues_of_sound {vs : List Int} (sound : (values vs).stray = false) :
    ∃ bs, ofValues vs = .ok bs ∧ bs.length = vs.length := by
  simp only [Payload.stray] at sound
  induction vs with
  | nil => exact ⟨[], rfl, rfl⟩
  | cons v vs ih =>
    rw [List.any_cons, Bool.or_eq_false_iff, Bool.or_eq_false_iff, decide_eq_false_iff_not,
      decide_eq_false_iff_not] at sound
    obtain ⟨bs, read, length⟩ := ih sound.2
    refine ⟨UInt8.ofNat v.toNat :: bs, ?_, congrArg (· + 1) length⟩
    rw [ofValues, if_pos (by omega), read]
    rfl

variable {payload : Payload}

theorem bytes_of_stray (stray : payload.stray = true) : payload.bytes = .error .payloadValue := by
  cases payload with
  | text s => cases stray
  | values vs => exact ofValues_of_stray stray

theorem bytes_of_notHex (notHex : payload.notHex = true) : ∃ s, payload.bytes = .error (.payloadText s) := by
  cases payload with
  | values vs => cases notHex
  | text s =>
    rw [Payload.notHex, ← Hex.isSome_toBytes?, Bool.not_eq_true', Option.isSome_eq_false_iff,
      Option.isNone_iff_eq_none] at notHex
    exact ⟨s, by rw [bytes, ofHex, notHex]⟩

/-- Every other offer is read, and its bytes are as many as it holds. -/
theorem bytes_of_sound (sound : payload.stray = false) (hex : payload.notHex = false) :
    ∃ bs, payload.bytes = .ok bs ∧ bs.length = payload.count := by
  cases payload with
  | values vs => exact ofValues_of_sound sound
  | text s =>
    rw [Payload.notHex, ← Hex.isSome_toBytes?, Bool.not_eq_false', Option.isSome_iff_exists] at hex
    obtain ⟨bs, spelled⟩ := hex
    refine ⟨bs, by rw [bytes, ofHex, spelled], ?_⟩
    have := Hex.length_of_toBytes? spelled
    rw [count]
    omega

/-- What is read has been offered soundly. -/
theorem sound_of_bytes {bs : List UInt8} (read : payload.bytes = .ok bs) :
    payload.stray = false ∧ payload.notHex = false ∧ payload.count = bs.length := by
  cases stray : payload.stray with
  | true =>
    rw [bytes_of_stray stray] at read
    cases read
  | false =>
    cases notHex : payload.notHex with
    | true =>
      obtain ⟨s, unread⟩ := bytes_of_notHex notHex
      rw [unread] at read
      cases read
    | false =>
      obtain ⟨bs', read', length⟩ := bytes_of_sound stray notHex
      rw [read'] at read
      cases read
      exact ⟨rfl, rfl, length.symm⟩

end Payload

namespace Image

variable {img : Image} {payload : Payload}

/-- Once the bytes are read, their number, the limit and the bottom decide. -/
theorem refusal_of_bytes {bs : List UInt8} (read : payload.bytes = .ok bs) :
    img.refusal payload =
      if bs = [] then some .injection
      else if registerCount < img.status.programLimit then some .index
      else if (img.status.programLimit : Int) - img.bottom < registersFor bs.length then some .space
      else if img.status.programLimit = registerCount then some .walk
      else none := by
  obtain ⟨stray, notHex, count⟩ := Payload.sound_of_bytes read
  simp only [refusal, stray, notHex, count, Bool.false_eq_true, if_false, Bool.false_or, beq_iff_eq,
    List.length_eq_zero_iff]

/-- There is no objection to bytes that are admitted. -/
theorem refusal_of_admits {bs : List UInt8} (read : payload.bytes = .ok bs) (admits : img.Admits bs) :
    img.refusal payload = none := by
  have inside := admits.inside
  have room := admits.room
  rw [refusal_of_bytes read, if_neg admits.nonempty, if_neg (by omega), if_neg (by omega), if_neg (by omega)]

/-- A refused offer meets the objection of the kind of its fault. -/
theorem refusal_of_refuses {f : Fault} (refuses : img.Refuses payload f) : img.refusal payload = some f.kind := by
  cases refuses with
  | unread unread =>
    cases stray : payload.stray with
    | true =>
      rw [Payload.bytes_of_stray stray] at unread
      cases unread
      exact if_pos stray
    | false =>
      cases notHex : payload.notHex with
      | true =>
        obtain ⟨s, unread'⟩ := Payload.bytes_of_notHex notHex
        rw [unread'] at unread
        cases unread
        simp only [refusal, stray, notHex]
        rfl
      | false =>
        obtain ⟨bs, read, -⟩ := Payload.bytes_of_sound stray notHex
        rw [read] at unread
        cases unread
  | empty read =>
    rw [refusal_of_bytes read]
    rfl
  | outside read nonempty limit =>
    rw [refusal_of_bytes read, if_neg nonempty, if_pos limit]
    rfl
  | noRoom read nonempty limit room =>
    rw [refusal_of_bytes read, if_neg nonempty, if_neg (by omega), if_pos (by omega)]
    rfl
  | limitOutside read nonempty limit room =>
    rw [refusal_of_bytes read, if_neg nonempty, if_neg (by omega), if_neg (by omega), if_pos limit]
    rfl

end Image

namespace Edit

/-- The image is written only when the bytes are admitted. -/
theorem atomic_inject (payload : Payload) : Atomic (inject payload) := by
  intro d f d' failed
  rcases inject_cases payload d with ⟨bs, log, -, -, injected⟩ | ⟨f', log, -, refused⟩
  · rw [injected] at failed
    cases failed
  · rw [refused] at failed
    cases failed
    rfl

/-- **Edits are atomic.** An edit of memory or of the CPU registers that ends in a fault leaves both as they were. An
injection ends in a fault of the kind of the first objection to the offer, and it succeeds when there is none. -/
theorem edits_atomic :
    (∀ loc value, Atomic (setByte loc value)) ∧ (∀ index text, Atomic (storeRegister index text)) ∧
      (∀ limit, Atomic (setLimit limit)) ∧ (∀ offers, Atomic (replaceCpu offers)) ∧
      (∀ payload, Atomic (inject payload)) ∧
      ∀ (payload : Payload) (d : Desk),
        match d.image.refusal payload with
        | some kind => ∃ f d', (inject payload).on d = (.error f, d') ∧ f.kind = kind
        | none => ∃ i d', (inject payload).on d = (.ok i, d') := by
  refine ⟨atomic_setByte, atomic_storeRegister, atomic_setLimit, atomic_replaceCpu, atomic_inject, ?_⟩
  intro payload d
  rcases inject_cases payload d with ⟨bs, log, read, admits, injected⟩ | ⟨f, log, refuses, refused⟩
  · rw [Image.refusal_of_admits read admits]
    exact ⟨_, _, injected⟩
  · rw [Image.refusal_of_refuses refuses]
    exact ⟨f, _, refused, rfl⟩

end Edit

end CalcImage
