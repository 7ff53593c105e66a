import CalcImage.Fault

/-!
# The faults that an outcome can have

`Faults P e` bounds the faults of an outcome: if `e` is a fault at all, then one with the property `P`. `Reports e` is
the case of the tool's own faults, those that the command line reports to its user. An outcome that goes on with the value of
another one has a value when both have (`bind_eq_ok_iff`).
-/

namespace CalcImage

variable {α β : Type} {P Q : Fault → Prop} {e : Except Fault α}

/-- If the outcome is a fault, the fault has the property. -/
def Faults (P : Fault → Prop) (e : Except Fault α) : Prop := ∀ f, e = .error f → P f

/-- If the outcome is a fault, it is one of the tool's own. -/
def Reports (e : Except Fault α) : Prop := Faults (fun f => f.kind.reported = true) e

namespace Faults

theorem ok (a : α) : Faults P (.ok a) := by
  intro f failed
  cases failed

theorem error {f : Fault} (holds : P f) : Faults P (.error f : Except Fault α) := by
  intro f' failed
  cases failed
  exact holds

theorem mono (faults : Faults P e) (implies : ∀ f, P f → Q f) : Faults Q e := by
  intro f failed
  exact implies f (faults f failed)

theorem bind {g : α → Except Fault β} (first : Faults P e) (onward : ∀ a, e = .ok a → Faults P (g a)) :
    Faults P (e >>= g) := by
  cases e with
  | error f => exact error (first f rfl)
  | ok a => exact onward a rfl

end Faults

theorem bind_eq_ok_iff {g : α → Except Fault β} {b : β} : (e >>= g) = .ok b ↔ ∃ a, e = .ok a ∧ g a = .ok b := by
  cases e with
  | error f =>
    refine iff_of_false ?_ ?_
    · rintro ⟨⟩
    · rintro ⟨a, ⟨⟩, -⟩
  | ok a =>
    constructor
    · intro onward
      exact ⟨a, rfl, onward⟩
    · rintro ⟨a, ⟨⟩, onward⟩
      exact onward

end CalcImage
