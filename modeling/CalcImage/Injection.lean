import CalcImage.Memory.Status
import CalcImage.Text.Blank

/-!
# Appending programs

Program bytes are written from the register of the permanent end marker downwards, in program order. The last register
that they touch is filled up with zeros, and the register below it becomes the new one of the permanent end marker, which
is all that it holds. Everything that can fail is judged before the first byte is written.
-/

namespace CalcImage

open CalcImage.Text

/-- Program bytes as they are offered: in hexadecimal, or as numbers. -/
inductive Payload where
  | text (s : String)
  | values (vs : List Int)

namespace Payload

/-- The bytes that a text spells when its blank characters are left out. -/
def ofHex (s : String) : Except Fault (List UInt8) :=
  match Hex.toBytes? (dropBlanks s.toList) with
  | some bs => .ok bs
  | none => .error (.payloadText s)

/-- The bytes with the given values. -/
def ofValues : List Int → Except Fault (List UInt8)
  | [] => .ok []
  | v :: vs =>
    if 0 ≤ v ∧ v ≤ 255 then (ofValues vs).map (UInt8.ofNat v.toNat :: ·)
    else .error .payloadValue

/-- The bytes of an offer. -/
def bytes : Payload → Except Fault (List UInt8)
  | text s => ofHex s
  | values vs => ofValues vs

end Payload

/-- The accounts of an injection. -/
structure Injection where
  byteCount : Nat
  registersUsed : Nat
  limitBefore : Int
  limitAfter : Int
  freeBefore : Int
  freeAfter : Int
  deriving DecidableEq, Repr

namespace Injection

/-- The location of the new end marker. -/
def endMarker (i : Injection) : Int := i.limitAfter * 7 + 4

/-- The register of a permanent end marker. -/
def endRegister : List UInt8 := [0, 0, 0, 0, 0xC4, 0x01, 0x29]

/-- Registers that a number of bytes needs. -/
def registersFor (count : Nat) : Nat := (count + 6) / 7

/-- A number of three hexadecimal digits or more, with its mark. -/
def limitText (n : Int) : String := "0x" ++ String.ofList (Hex.ofNatPadded 3 n.toNat)

end Injection

namespace Edit

/-- Write bytes in program order and step on after each; the location after the last one. -/
def writeThrough (loc : Int) : List UInt8 → Edit Int
  | [] => return loc
  | b :: bs => do
    setByte loc b.toNat
    let following ← ofExcept (Walk.next loc)
    writeThrough following bs

/-- Write bytes in program order and step on between them. -/
def writeRun (loc : Int) : List UInt8 → Edit Unit
  | [] => return ()
  | [b] => setByte loc b.toNat
  | b :: bs => do
    setByte loc b.toNat
    let following ← ofExcept (Walk.next loc)
    writeRun following bs

/-- Write program bytes from a limit on, fill up the last register, and put the permanent end marker into the register
below, which becomes the new limit. -/
def append (limit : Nat) (bs : List UInt8) : Edit Int := do
  let written ← writeThrough (limit * 7) bs
  let pointer ← writeThrough written (List.replicate ((7 - written % 7) % 7).toNat 0)
  writeRun pointer Injection.endRegister
  setLimit (pointer / 7)
  return pointer / 7

/-- Judge an offer: its bytes, and the registers that are free for them. -/
def judge (payload : Payload) : Edit (List UInt8 × Int) := do
  let bs ← ofExcept payload.bytes
  if bs.isEmpty then throw .payloadEmpty
  let img ← image
  let limit := img.status.programLimit
  let bottom ← ofExcept (img.programBottom limit)
  let free := limit - bottom
  let required := Injection.registersFor bs.length
  record .debug .injector ("code to be injected: " ++ String.ofList (Hex.ofBytes bs))
  record .debug .injector
    (ofInt bs.length ++ " bytes need " ++ ofInt required ++ " register(s); " ++ ofInt free ++ " register(s) free")
  if free < required then throw (.noRoom required free)
  let old ← ofExcept (img.registerHex limit)
  record .debug .injector (".END. register contents were: " ++ old)
  return (bs, free)

/-- Append program bytes below the program limit and move the permanent end marker under them. -/
def inject (payload : Payload) : Edit Injection := do
  let (bs, free) ← judge payload
  let limit := (← image).status.programLimit
  let newLimit ← append limit bs
  let newBottom ← ofExcept ((← image).programBottom newLimit)
  record .debug .injector ("new program limit is at " ++ Injection.limitText newLimit)
  record .debug .injector (ofInt (newLimit - newBottom) ++ " register(s) of free memory remain")
  return ⟨bs.length, Injection.registersFor bs.length, limit, newLimit, free, newLimit - newBottom⟩

end Edit

end CalcImage
