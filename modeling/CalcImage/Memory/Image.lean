import CalcImage.Memory.Cpu
import CalcImage.Memory.Walk
import CalcImage.Word

/-!
# Memory images

An image is the whole memory of a calculator, byte by byte, with its CPU registers. Checked access refuses a location or
a register outside memory before it looks at anything else. `Image.byte` is the view of an image: outside memory it is
zero, and `byte_put` says what a write does to it. `Image.tape` lists the bytes in program order from a location down to
the end of the walk.
-/

namespace CalcImage

open CalcImage.Text

/-- Memory and CPU registers. -/
structure Image where
  bytes : Vector UInt8 7784
  cpu : Cpu
  deriving DecidableEq

namespace Image

/-- An image with the same byte everywhere. -/
def filled (b : UInt8) : Image := ⟨Vector.replicate 7784 b, Cpu.zero⟩

/-- An image of zeros. -/
def zero : Image := filled 0

/-- The byte at a location, zero outside memory. -/
def byte (img : Image) (loc : Nat) : UInt8 := img.bytes[loc]?.getD 0

/-- Write one byte; outside memory nothing happens. -/
def put (img : Image) (loc : Nat) (b : UInt8) : Image :=
  { img with bytes := img.bytes.setIfInBounds loc b }

/-- Write bytes side by side, upwards from a location. -/
def putAll (img : Image) (loc : Nat) : List UInt8 → Image
  | [] => img
  | b :: bs => (img.put loc b).putAll (loc + 1) bs

/-- The bytes of a register. -/
def registerAt (img : Image) (index : Nat) : List UInt8 :=
  (List.range 7).map fun k => img.byte (7 * index + k)

/-- The bytes in program order from the location of rank `r` to the end of the walk. -/
def tape (img : Image) : Nat → List UInt8
  | 0 => [img.byte (Walk.locationOfRank 0)]
  | r + 1 => img.byte (Walk.locationOfRank (r + 1)) :: img.tape r

/-- The registers of the least image that a calculator takes for its own. -/
def blankRegisters : List (Nat × List UInt8) := [
  (12, [0x10, 0x00, 0x00, 0x00, 0x00, 0x01, 0x9C]),
  (13, [0x1A, 0x70, 0x01, 0x69, 0x19, 0xC1, 0x9B]),
  (14, [0x00, 0x00, 0x00, 0x2C, 0x04, 0x80, 0x20]),
  (411, [0x00, 0x00, 0x00, 0x00, 0xC0, 0x00, 0x20])]

/-- The least image that a calculator takes for its own. -/
def blank : Image :=
  blankRegisters.foldl (fun img r => img.putAll (7 * r.1) r.2) zero

/-- A location inside memory. -/
def location (loc : Int) : Except Fault Nat :=
  if 0 ≤ loc ∧ loc < 7784 then .ok loc.toNat else .error (.locationOutside loc)

/-- A register inside memory. -/
def registerIndex (index : Int) : Except Fault Nat :=
  if 0 ≤ index ∧ index < 1112 then .ok index.toNat else .error (.registerOutside index)

/-- The byte at a location. -/
def get (img : Image) (loc : Int) : Except Fault UInt8 := do
  let loc ← location loc
  return img.byte loc

/-- `count` bytes in program order from a location on. -/
def read (img : Image) (loc : Int) : Nat → Except Fault (List UInt8)
  | 0 => .ok []
  | 1 => do
    let b ← img.get loc
    return [b]
  | count + 2 => do
    let b ← img.get loc
    let following ← Walk.next loc
    let bs ← img.read following (count + 1)
    return b :: bs

/-- The bytes of a register. -/
def register (img : Image) (index : Int) : Except Fault (List UInt8) := do
  let index ← registerIndex index
  return img.registerAt index

/-- The bytes of a register as text. -/
def registerHex (img : Image) (index : Int) : Except Fault String := do
  let bs ← img.register index
  return String.ofList (Hex.ofBytes bs)

/-- The bytes that the text of a register spells: fourteen hexadecimal digits and nothing else. -/
def registerBytes? (text : String) : Option (List UInt8) :=
  if text.toList.length = 14 then Hex.toBytes? text.toList else none

/-- The registers that are not zero, in ascending order. -/
def nonzeroRegisters (img : Image) : List (Nat × List UInt8) :=
  (List.range 1112).filterMap fun index =>
    let bs := img.registerAt index
    if bs.all (· == 0) then none else some (index, bs)

/-- The number of values from which on no machine can hold a row of them. -/
def vastLength : Int := 0x1000000000

/-- An image made of `length` copies of the value `value`; the length is judged first. -/
def ofCopies (length value : Int) : Except Fault Image :=
  if !Word.fits 64 length then .error .lengthWidth
  else if vastLength ≤ length then .error .memoryExhausted
  else if length ≠ 7784 then .error (.imageLength length.toNat)
  else if 0 ≤ value ∧ value ≤ 255 then .ok (filled (UInt8.ofNat value.toNat))
  else .error .fillValue

theorem byte_put (img : Image) (loc : Nat) (b : UInt8) (other : Nat) :
    (img.put loc b).byte other = if loc = other ∧ loc < 7784 then b else img.byte other := by
  unfold byte put
  rw [Vector.getElem?_setIfInBounds]
  by_cases h : loc = other
  · subst h
    by_cases hl : loc < 7784
    · simp [hl]
    · simp [hl]
  · simp [h]

@[simp] theorem cpu_put (img : Image) (loc : Nat) (b : UInt8) : (img.put loc b).cpu = img.cpu := rfl

@[simp] theorem length_tape (img : Image) (r : Nat) : (img.tape r).length = r + 1 := by
  induction r with
  | zero => rfl
  | succ r ih => simp [tape, ih]

end Image

end CalcImage
