import CalcImage.Fault

/-!
# Reading along the walk

A tape is what a walk still has before it: the bytes in program order down to the end of memory. A walk needs a location
to stand on after each step, so whoever takes bytes has to leave one.
-/

namespace CalcImage

/-- Bytes in program order. -/
abbrev Tape := List UInt8

namespace Tape

/-- The fault of every walk that comes to the end of memory. -/
def ranOut : Fault := .walkEnded 6

/-- The next `count` bytes and the tape after them. -/
def take (count : Nat) (t : Tape) : Except Fault (List UInt8 × Tape) :=
  let taken := List.take count t
  if taken.length = count then .ok (taken, t.drop count) else .error ranOut

/-- A tape that still has a location to stand on. -/
def standing (t : Tape) : Except Fault Tape :=
  if t.isEmpty then .error ranOut else .ok t

theorem take_of_le {count : Nat} {t : Tape} (enough : count ≤ t.length) :
    take count t = .ok (List.take count t, t.drop count) :=
  if_pos (List.length_take_of_le enough)

theorem take_of_lt {count : Nat} {t : Tape} (short : t.length < count) : take count t = .error ranOut := by
  apply if_neg
  rw [List.length_take]
  omega

theorem take_append (taken rest : Tape) : take taken.length (taken ++ rest) = .ok (taken, rest) := by
  rw [take_of_le (by simp), List.take_left, List.drop_left]

theorem standing_of_ne_nil {t : Tape} (more : t ≠ []) : standing t = .ok t := by
  cases t with
  | nil => exact absurd rfl more
  | cons b t => rfl

theorem eq_append_of_take {count : Nat} {t rest : Tape} {taken : List UInt8}
    (h : take count t = .ok (taken, rest)) : t = taken ++ rest ∧ taken.length = count := by
  unfold take at h
  dsimp only at h
  split at h
  · rename_i hc
    cases h
    exact ⟨(List.take_append_drop count t).symm, hc⟩
  · cases h

theorem eq_of_standing {t rest : Tape} (h : standing t = .ok rest) : t = rest ∧ rest ≠ [] := by
  unfold standing at h
  cases t with
  | nil => cases h
  | cons b t => cases h; exact ⟨rfl, List.cons_ne_nil b t⟩

end Tape

end CalcImage
