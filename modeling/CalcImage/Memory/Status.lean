import CalcImage.Memory.Edit
import CalcImage.Word

/-!
# The status register and the room for programs

Register 13 holds three numbers of twelve bits: the watchdog word, the register above the first program, and the program
limit, which is the register of the permanent end marker. Programs may grow downwards from the limit to the program
bottom: the register above the topmost register that starts with the end marker of the partitions, or the base of the
partitions when there is none.
-/

namespace CalcImage

/-- The watchdog word of a calculator that keeps its memory. -/
def watchdogWord : Nat := 0x169

/-- The lowest register of the key assignments and alarms. -/
def partitionBase : Nat := 192

/-- The first byte of the topmost register of a partition. -/
def partitionEnd : UInt8 := 0xF0

/-- The numbers packed into the status register. -/
structure Status where
  watchdog : Nat
  programTop : Int
  programLimit : Nat
  deriving DecidableEq, Repr

/-- The watchdog word is the right one. -/
def Status.watchdogOk (s : Status) : Bool := s.watchdog == watchdogWord

namespace Image

/-- The numbers that the status register holds. -/
def status (img : Image) : Status where
  watchdog := (img.byte 93).toNat % 16 * 256 + (img.byte 94).toNat
  programTop := ((img.byte 95).toNat * 16 + (img.byte 96).toNat / 16 : Nat) - 1
  programLimit := (img.byte 96).toNat % 16 * 256 + (img.byte 97).toNat

/-- The image with another program limit of twelve bits. -/
def withLimit (img : Image) (limit : Nat) : Image :=
  (img.put 96 (UInt8.ofNat ((img.byte 96).toNat / 16 * 16 + limit / 256))).put 97 (UInt8.ofNat (limit % 256))

/-- The program bottom below a limit inside memory: go down to the base, or stop above a partition. -/
def bottomBelow (img : Image) : Nat → Nat
  | 0 => 0
  | index + 1 =>
    if index + 1 ≤ partitionBase then index + 1
    else if img.byte (7 * index) = partitionEnd then index + 1
    else img.bottomBelow index

/-- The program bottom below a limit. A limit at or below the base is its own bottom, and one above memory has none. -/
def programBottom (img : Image) (limit : Int) : Except Fault Int :=
  if limit ≤ 192 then .ok limit
  else if limit ≤ 1112 then .ok (img.bottomBelow limit.toNat)
  else if Word.fits 64 (7 * (limit - 1)) then .error .scanOutside
  else .error .indexWidth

/-- Registers between the program bottom and the program limit. -/
def freeRegisters (img : Image) : Except Fault Int := do
  let limit := img.status.programLimit
  let bottom ← img.programBottom limit
  return limit - bottom

/-- The warning about a wrong watchdog word. -/
def watchdogWarning (watchdog : Nat) : String :=
  "watchdog word in register 0x0D contains " ++ Text.ofInt watchdog ++
    " instead of 361 (0x169); the calculator will show MEMORY LOST if this image is loaded as-is"

/-- Whether the watchdog word is right; a wrong one leaves a warning. -/
def checkWatchdog (img : Image) : Traced Bool := do
  if img.status.watchdogOk then return true
  Traced.record .warning .memory (watchdogWarning img.status.watchdog)
  return false

end Image

/-- Store another program limit in the status register. -/
def Edit.setLimit (limit : Int) : Edit Unit :=
  if 0 ≤ limit ∧ limit ≤ 0xFFF then
    modifyThe Desk fun d => { d with image := d.image.withLimit limit.toNat }
  else throw (.limitWidth limit)

end CalcImage
