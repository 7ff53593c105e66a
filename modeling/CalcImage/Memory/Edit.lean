import CalcImage.Memory.Image

/-!
# Edits in place

An edit works on a desk that holds an image and the records written so far. What an edit has done to the desk stays done
when it ends in a fault, so an edit that promises to change nothing then has to check before it writes.
-/

namespace CalcImage

/-- The image being edited and the records written so far. -/
structure Desk where
  image : Image
  log : List Log.Record

/-- An operation on a desk. -/
abbrev Edit := ExceptT Fault (StateM Desk)

namespace Edit

/-- Let an operation that only writes records work on the desk. -/
def ofTraced {α : Type} (t : Traced α) : Edit α := fun d =>
  let (result, log) := t.run.run d.log
  (result, { d with log })

/-- Let an operation that only reads work on the desk. -/
def ofExcept {α : Type} (e : Except Fault α) : Edit α := fun d => (e, d)

/-- The image as it is now. -/
def image : Edit Image := do return (← getThe Desk).image

/-- Write a record. -/
def record (level : Log.Level) (source : Log.Source) (text : String) : Edit Unit :=
  ofTraced (Traced.record level source text)

/-- Write the byte at a location inside memory. -/
def put (loc : Nat) (b : UInt8) : Edit Unit :=
  modifyThe Desk fun d => { d with image := d.image.put loc b }

/-- Write a value at a location: first the location is judged, then the value. -/
def setByte (loc value : Int) : Edit Unit := do
  let place ← ofExcept (Image.location loc)
  if 0 ≤ value ∧ value ≤ 255 then put place (UInt8.ofNat value.toNat)
  else throw (.byteValue value loc)

/-- Write the text of a register: first the register is judged, then the text. -/
def storeRegister (index : Int) (text : String) : Edit Unit := do
  let place ← ofExcept (Image.registerIndex index)
  match Image.registerBytes? text with
  | none => throw (.registerText place text)
  | some bs => modifyThe Desk fun d => { d with image := d.image.putAll (7 * place) bs }

/-- Replace the CPU registers by new ones made of offers. -/
def replaceCpu (offers : Cpu.Offers) : Edit Unit := do
  let cpu ← ofExcept (Cpu.ofOffers offers)
  modifyThe Desk fun d => { d with image := { d.image with cpu } }

end Edit

end CalcImage
