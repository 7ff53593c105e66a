import CalcImage.Fault

/-!
# Operations that leave records

`Traced.on` is what an operation makes of the records written so far: its result and the records afterwards. The parts
that such operations are made of have one equation each.
-/

namespace CalcImage.Traced

variable {α β : Type} {log log' : List Log.Record}

/-- The result of an operation and the records after it. -/
def on (t : Traced α) (log : List Log.Record) : Except Fault α × List Log.Record := t.run.run log

theorem outcome_eq (t : Traced α) : t.outcome = t.on [] := rfl

theorem on_pure (a : α) : (pure a : Traced α).on log = (.ok a, log) := rfl

theorem on_lift (e : Except Fault α) : (liftM e : Traced α).on log = (e, log) := rfl

theorem on_record (level : Log.Level) (source : Log.Source) (text : String) :
    (record level source text).on log = (.ok (), log ++ [⟨level, source, text⟩]) := rfl

/-- An operation after another one goes on from the result and the records of the first. -/
theorem on_bind (x : Traced α) (g : α → Traced β) :
    (x >>= g).on log = (ExceptT.bindCont g (x.on log).1 : StateM (List Log.Record) (Except Fault β)).run (x.on log).2 :=
  rfl

theorem on_bind_of_ok {x : Traced α} {g : α → Traced β} {a : α} (h : x.on log = (.ok a, log')) :
    (x >>= g).on log = (g a).on log' := by
  rw [on_bind, h]
  rfl

theorem on_bind_of_error {x : Traced α} {g : α → Traced β} {f : Fault} (h : x.on log = (.error f, log')) :
    (x >>= g).on log = (.error f, log') := by
  rw [on_bind, h]
  rfl

/-- What has a result after another operation has it from a result of that one. -/
theorem ok_of_bind {x : Traced α} {g : α → Traced β} {b : β} (h : (x >>= g).on log = (.ok b, log')) :
    ∃ a between, x.on log = (.ok a, between) ∧ (g a).on between = (.ok b, log') := by
  cases first : x.on log with
  | mk r between =>
    cases r with
    | error f =>
      rw [on_bind_of_error first] at h
      cases h
    | ok a =>
      rw [on_bind_of_ok first] at h
      exact ⟨a, between, rfl, h⟩

end CalcImage.Traced
