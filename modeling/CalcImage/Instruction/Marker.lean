import CalcImage.Glyph
import CalcImage.Instruction.Shape
import CalcImage.Instruction.Tape
import CalcImage.Text.Hex

/-!
# Global markers

A global instruction is a label or an end. Its third byte tells which: from 0xF0 on it is a label with as many bytes
after it as the number above 0xF0 says, the first of them being the assigned key and the rest the name; below, it is an
end, and the permanent one when bit 5 is set.
-/

namespace CalcImage

/-- What a global marker is. -/
inductive Marker.Kind where
  | label
  | programEnd
  | terminal
  deriving DecidableEq, Repr

/-- A global marker: three bytes and those of a label. -/
structure Marker where
  opcode : UInt8
  second : UInt8
  third : UInt8
  body : List UInt8
  deriving DecidableEq, Repr

namespace Marker

/-- The bytes of a marker. -/
def bytes (m : Marker) : List UInt8 := m.opcode :: m.second :: m.third :: m.body

/-- Bytes that a third byte announces. -/
def bodyLength (third : UInt8) : Nat := third.toNat - 0xF0

/-- What the third byte makes of a marker. -/
def kind (m : Marker) : Kind :=
  if 0xF0 ≤ m.third then .label else if m.third &&& 0x20 ≠ 0 then .terminal else .programEnd

/-- The marker is a label. -/
def isLabel (m : Marker) : Bool := m.kind == .label

/-- The key that a label is assigned to. -/
def key (m : Marker) : Option UInt8 := m.body.head?

/-- The bytes of a label's name. -/
def nameBytes (m : Marker) : List UInt8 := m.body.tail

/-- The name of a label. -/
def name (m : Marker) : String := Glyph.text m.nameBytes

/-- A label line with its name. -/
def labelText (name : String) : String := "LBL \"" ++ name ++ "\""

/-- A marker in text. -/
def text (m : Marker) : String :=
  match m.kind with
  | .label => labelText m.name
  | .terminal => ".END."
  | .programEnd => "END"

/-- The marker at the head of a tape and the tape after it; none when no global instruction stands there. -/
def read : Tape → Except Fault (Option (Marker × Tape))
  | [] => .error Tape.ranOut
  | opcode :: t =>
    if Shape.ofOpcode opcode ≠ .global then .ok none
    else
      match t with
      | second :: third :: t =>
        match Tape.take (bodyLength third) t with
        | .error f => .error f
        | .ok (body, rest) => (Tape.standing rest).map fun rest => some (⟨opcode, second, third, body⟩, rest)
      | _ => .error Tape.ranOut

theorem eq_append_of_read {t rest : Tape} {m : Marker} (h : read t = .ok (some (m, rest))) :
    t = m.bytes ++ rest ∧ rest ≠ [] := by
  unfold read at h
  split at h
  · cases h
  · rename_i opcode t
    split at h
    · cases h
    · split at h
      · rename_i second third t
        split at h
        · cases h
        · rename_i body rest' ht
          obtain ⟨happ, -⟩ := Tape.eq_append_of_take ht
          cases hs : Tape.standing rest' with
          | error f => rw [hs] at h; cases h
          | ok r =>
            rw [hs] at h
            obtain ⟨rfl, hne⟩ := Tape.eq_of_standing hs
            cases h
            exact ⟨by simp [bytes, happ], hne⟩
      · cases h

end Marker

end CalcImage
