import CalcImage.Instruction.Marker

/-!
# Reading markers

A marker is read when a global instruction stands at the head of the tape and something follows the bytes that it
announces (`read_of_global`); then it is read back from its bytes (`read_append`). No marker has more than eighteen
bytes, so a longer tape can always be read (`read_of_length`).
-/

namespace CalcImage

namespace Marker

theorem bodyLength_le (third : UInt8) : bodyLength third ≤ 15 := by
  have := third.toNat_lt
  unfold bodyLength
  omega

theorem read_of_ne_global {opcode : UInt8} {t : Tape} (other : Shape.ofOpcode opcode ≠ .global) :
    read (opcode :: t) = .ok none := by
  unfold read
  exact if_pos other

/-- A global instruction is read when something follows the bytes that it announces. -/
theorem read_of_global {opcode second third : UInt8} {t : Tape} (global : Shape.ofOpcode opcode = .global)
    (long : bodyLength third < t.length) :
    read (opcode :: second :: third :: t) =
      .ok (some (⟨opcode, second, third, List.take (bodyLength third) t⟩, List.drop (bodyLength third) t)) := by
  have more : t.drop (bodyLength third) ≠ [] := by
    rw [← List.length_pos_iff, List.length_drop]
    omega
  rw [read, if_neg (not_not_intro global), Tape.take_of_le (Nat.le_of_lt long)]
  dsimp only
  rw [Tape.standing_of_ne_nil more]
  rfl

/-- Nothing is longer than the longest label, so a tape that is longer can be read. -/
theorem read_of_length {t : Tape} (long : 18 < t.length) : ∃ found, read t = .ok found := by
  match t, long with
  | opcode :: second :: third :: t, long =>
    by_cases global : Shape.ofOpcode opcode = .global
    · have short := bodyLength_le third
      simp only [List.length_cons] at long
      exact ⟨_, read_of_global global (by omega)⟩
    · exact ⟨none, read_of_ne_global global⟩

/-- A marker with all the bytes that it announces is read back. -/
theorem read_append {m : Marker} (global : Shape.ofOpcode m.opcode = .global)
    (body : m.body.length = bodyLength m.third) {rest : Tape} (more : rest ≠ []) :
    read (m.bytes ++ rest) = .ok (some (m, rest)) := by
  have long : bodyLength m.third < (m.body ++ rest).length := by
    rw [List.length_append, ← body]
    exact Nat.lt_add_of_pos_right (List.length_pos_iff.2 more)
  have parts : read (m.opcode :: m.second :: m.third :: (m.body ++ rest)) = _ := read_of_global global long
  rwa [← body, List.take_left, List.drop_left] at parts

/-- A marker that is read has the bytes that its third byte announces. -/
theorem length_body_of_read {t rest : Tape} {m : Marker} (read : read t = .ok (some (m, rest))) :
    m.body.length = bodyLength m.third := by
  unfold Marker.read at read
  split at read
  · cases read
  · split at read
    · cases read
    · split at read
      · split at read
        · cases read
        · rename_i body rest' taken
          cases standing : Tape.standing rest' with
          | error f =>
            rw [standing] at read
            cases read
          | ok r =>
            rw [standing] at read
            cases read
            exact (Tape.eq_append_of_take taken).2
      · cases read

theorem kind_eq_label_iff {m : Marker} : m.kind = .label ↔ 240 ≤ m.third.toNat := by
  have third : 0xF0 ≤ m.third ↔ 240 ≤ m.third.toNat := UInt8.le_iff_toNat_le
  rw [← third]
  unfold kind
  constructor
  · intro label
    split at label
    · assumption
    · split at label <;> cases label
  · intro high
    exact if_pos high

/-- What follows a label's third byte belongs to it; an end is three bytes long. -/
theorem kind_of_bodyLength_pos {m : Marker} (pos : 0 < bodyLength m.third) : m.kind = .label := by
  unfold bodyLength at pos
  rw [kind_eq_label_iff]
  omega

end Marker

end CalcImage
