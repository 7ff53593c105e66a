import CalcImage.Proofs.Memory.Edit

/-!
# Edits that fail leave the image alone

What an edit has written stays written when it ends in a fault, so that an edit is atomic only when nothing can fail
after its first write (`Atomic.bind`). The single writes judge what they are given before they write.
-/

namespace CalcImage.Edit

variable {α β : Type}

/-- The edit leaves the image as it is, whether it ends in a fault or not. -/
def Still (x : Edit α) : Prop := ∀ d, (x.on d).2.image = d.image

/-- When the edit ends in a fault, the image is as it was. -/
def Atomic (x : Edit α) : Prop := ∀ d f d', x.on d = (.error f, d') → d'.image = d.image

theorem still_ofExcept (e : Except Fault α) : Still (ofExcept e) := fun _ => rfl

theorem still_throw (f : Fault) : Still (throw f : Edit α) := fun _ => rfl

theorem Still.atomic {x : Edit α} (still : Still x) : Atomic x := by
  intro d f d' failed
  have same := still d
  rw [failed] at same
  exact same

theorem atomic_modify (g : Desk → Desk) : Atomic (modifyThe Desk g : Edit PUnit) := by
  intro d f d' failed
  cases failed

/-- Nothing has been written yet when an edit goes on from one that leaves the image as it is. -/
theorem Atomic.bind {x : Edit α} {g : α → Edit β} (still : Still x) (atomic : ∀ a, Atomic (g a)) :
    Atomic (x >>= g) := by
  intro d f d' failed
  have same := still d
  cases ran : x.on d with
  | mk result between =>
    rw [ran] at same
    cases result with
    | error f' =>
      rw [on_bind_of_error ran] at failed
      cases failed
      exact same
    | ok a =>
      rw [on_bind_of_ok ran] at failed
      rw [atomic a between f d' failed]
      exact same

/-- A byte is written after its location and its value have been judged. -/
theorem atomic_setByte (loc value : Int) : Atomic (setByte loc value) := by
  apply Atomic.bind (still_ofExcept _)
  intro place
  split
  · exact atomic_modify _
  · exact (still_throw _).atomic

/-- A register is written after its index and its text have been judged. -/
theorem atomic_storeRegister (index : Int) (text : String) : Atomic (storeRegister index text) := by
  apply Atomic.bind (still_ofExcept _)
  intro place
  split
  · exact (still_throw _).atomic
  · exact atomic_modify _

/-- The two bytes of a limit are written after it has been judged. -/
theorem atomic_setLimit (limit : Int) : Atomic (setLimit limit) := by
  unfold setLimit
  split
  · exact atomic_modify _
  · exact (still_throw _).atomic

/-- The CPU registers are replaced after all of the new ones have been judged. -/
theorem atomic_replaceCpu (offers : Cpu.Offers) : Atomic (replaceCpu offers) :=
  Atomic.bind (still_ofExcept _) fun _ => atomic_modify _

end CalcImage.Edit
