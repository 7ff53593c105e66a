import CalcImage.Injection
import CalcImage.Proofs.Memory.Lay
import CalcImage.Proofs.Memory.Status

/-!
# Edits on a desk

`Edit.on` is what an edit makes of a desk: its result and the desk afterwards. The parts that injections are made of
have one equation each; the two that write along the walk lay their bytes down from the rank of their first location.
-/

namespace CalcImage.Edit

open Walk

variable {α β : Type}

/-- The result of an edit and the desk that it leaves. -/
def on (x : Edit α) (d : Desk) : Except Fault α × Desk := x.run.run d

/-- The desk with another image on it. -/
abbrev withImage (d : Desk) (img : Image) : Desk := { d with image := img }

theorem on_pure (a : α) (d : Desk) : (pure a : Edit α).on d = (.ok a, d) := rfl

theorem on_throw (f : Fault) (d : Desk) : (throw f : Edit α).on d = (.error f, d) := rfl

/-- An edit after another one goes on from the result and the desk of the first. -/
theorem on_bind (x : Edit α) (g : α → Edit β) (d : Desk) :
    (x >>= g).on d = (ExceptT.bindCont g (x.on d).1 : StateM Desk (Except Fault β)).run (x.on d).2 := rfl

theorem on_bind_of_ok {x : Edit α} {g : α → Edit β} {d d' : Desk} {a : α} (h : x.on d = (.ok a, d')) :
    (x >>= g).on d = (g a).on d' := by
  rw [on_bind, h]
  rfl

theorem on_bind_of_error {x : Edit α} {g : α → Edit β} {d d' : Desk} {f : Fault} (h : x.on d = (.error f, d')) :
    (x >>= g).on d = (.error f, d') := by
  rw [on_bind, h]
  rfl

theorem on_ofExcept (e : Except Fault α) (d : Desk) : (ofExcept e).on d = (e, d) := rfl

theorem on_image (d : Desk) : image.on d = (.ok d.image, d) := rfl

theorem on_record (level : Log.Level) (source : Log.Source) (text : String) (d : Desk) :
    (record level source text).on d = (.ok (), { d with log := d.log ++ [⟨level, source, text⟩] }) := rfl

theorem on_setByte {r : Nat} (inside : r < memorySize) (b : UInt8) (d : Desk) :
    (setByte (locationOfRank r) b.toNat).on d = (.ok (), withImage d (d.image.put (locationOfRank r) b)) := by
  have place : Image.location (locationOfRank r) = .ok (locationOfRank r) := by
    have := locationOfRank_lt inside
    simp only [memorySize] at this
    rw [Image.location, if_pos (by omega)]
    rfl
  have := b.toNat_lt
  rw [setByte, place, on_bind_of_ok (on_ofExcept _ d), if_pos (by omega), Int.toNat_natCast, UInt8.ofNat_toNat]
  rfl

theorem on_setLimit {limit : Nat} (small : limit < 4096) (d : Desk) :
    (setLimit limit).on d = (.ok (), withImage d (d.image.withLimit limit)) := by
  rw [setLimit, if_pos (by omega)]
  rfl

/-- Writing bytes with a step after each lays them down and ends at the location after the last one. -/
theorem on_writeThrough {r : Nat} {bs : List UInt8} (inside : r < memorySize) (fits : bs.length ≤ r) (d : Desk) :
    (writeThrough (locationOfRank r) bs).on d =
      (.ok (locationOfRank (r - bs.length) : Int), withImage d (d.image.lay r bs)) := by
  induction bs generalizing r d with
  | nil => rfl
  | cons b bs ih =>
    rw [List.length_cons] at fits
    obtain ⟨s, rfl⟩ : ∃ s, r = s + 1 := ⟨r - 1, by omega⟩
    rw [writeThrough, on_bind_of_ok (on_setByte inside b d),
      next_locationOfRank, on_bind_of_ok (on_ofExcept _ _), ih (by omega) (by omega), List.length_cons, Image.lay,
      Nat.add_sub_cancel, show s + 1 - (bs.length + 1) = s - bs.length by omega]

/-- Writing bytes with a step between them lays them down. -/
theorem on_writeRun {r : Nat} {bs : List UInt8} (inside : r < memorySize) (fits : bs.length ≤ r + 1) (d : Desk) :
    (writeRun (locationOfRank r) bs).on d = (.ok (), withImage d (d.image.lay r bs)) := by
  induction bs generalizing r d with
  | nil => rfl
  | cons b bs ih =>
    cases bs with
    | nil => rw [writeRun, on_setByte inside, Image.lay, Image.lay]
    | cons c bs =>
      rw [List.length_cons, List.length_cons] at fits
      obtain ⟨s, rfl⟩ : ∃ s, r = s + 1 := ⟨r - 1, by omega⟩
      change (setByte (locationOfRank (s + 1)) b.toNat >>= fun _ => ofExcept (next (locationOfRank (s + 1))) >>=
        fun following => writeRun following (c :: bs)).on d = _
      rw [on_bind_of_ok (on_setByte inside b d), next_locationOfRank, on_bind_of_ok (on_ofExcept _ _),
        ih (by omega) (by simp only [List.length_cons]; omega)]
      rfl

end CalcImage.Edit
