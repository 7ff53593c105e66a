import CalcImage.Instruction.Basic
import CalcImage.Memory.Image

/-!
# Instructions in memory

Decoding at a location reads the instruction at the head of the tape that begins there. The location after the
instruction lies as many steps further on as the instruction has bytes.
-/

namespace CalcImage

/-- Something found in memory, with its own location and the one after it. -/
structure Placed (α : Type) where
  location : Nat
  following : Nat
  item : α

namespace Image

/-- The tape that begins at a location. -/
def tapeAt (img : Image) (loc : Nat) : Tape := img.tape (Walk.rank loc).toNat

/-- The location `count` steps after a location that has so many before it. -/
def stepsAfter (loc count : Nat) : Nat := Walk.locationOfRank ((Walk.rank loc).toNat - count)

/-- The instruction at a location. -/
def decode (img : Image) (loc : Int) : Except Fault (Placed Instruction) := do
  let loc ← location loc
  let (i, _) ← Instruction.read (img.tapeAt loc)
  return ⟨loc, stepsAfter loc i.size, i⟩

/-- Instructions that follow each other, and the fault that cut them short. -/
structure Run where
  items : List (Placed Instruction)
  fault : Option Fault

/-- Up to `count` instructions from a location on. -/
def decodeRun (img : Image) (loc : Int) : Nat → Run
  | 0 => ⟨[], none⟩
  | count + 1 =>
    match img.decode loc with
    | .error f => ⟨[], some f⟩
    | .ok p =>
      let rest := img.decodeRun p.following count
      ⟨p :: rest.items, rest.fault⟩

/-- The global marker at a location, if there is one. -/
def marker (img : Image) (loc : Int) : Except Fault (Option (Placed Marker)) := do
  let loc ← location loc
  match ← Marker.read (img.tapeAt loc) with
  | none => return none
  | some (m, _) => return some ⟨loc, stepsAfter loc m.bytes.length, m⟩

end Image

end CalcImage
