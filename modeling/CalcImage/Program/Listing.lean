import CalcImage.Instruction.Decode
import CalcImage.Program.Catalog
import CalcImage.Text.Quoted

/-!
# Listings of programs

A program is found by its label: the first location of program memory, in program order, where a label of that name
stands. Its listing holds the label and every instruction after it, up to and with the first end. Listing comes to an end
because every instruction takes a byte off the tape.
-/

namespace CalcImage

open CalcImage.Text

/-- A line of a listing. -/
structure Row where
  number : Int
  text : String
  hex : String
  deriving DecidableEq, Repr

/-- The listing of a program. -/
structure Listing where
  name : String
  start : Int
  rows : List Row
  deriving DecidableEq, Repr

namespace Listing

/-- The bytes of a listing in hexadecimal. -/
def hex (l : Listing) : String := joined "" (l.rows.map Row.hex)

/-- The number of bytes of a listing. -/
def size (l : Listing) : Nat := l.hex.length / 2

/-- Instructions up to and with the first end. -/
def disassemble (t : Tape) : Except Fault (List Instruction) :=
  match _taken : Instruction.read t with
  | .error f => .error f
  | .ok (i, rest) =>
    if i.isEnd then .ok [i]
    else
      match disassemble rest with
      | .error f => .error f
      | .ok is => .ok (i :: is)
termination_by t.length
decreasing_by exact Instruction.length_lt_of_read _taken

/-- The rows of instructions, numbered from `first` on. -/
def numbered (first : Int) : List Instruction → List Row
  | [] => []
  | i :: is => ⟨first, i.text, i.hex⟩ :: numbered (first + 1) is

end Listing

/-- A label that was found, and the tape after it. -/
structure FoundLabel where
  marker : Marker
  rest : Tape

namespace FoundLabel

/-- The location after the label. -/
def start (f : FoundLabel) : Nat := Walk.locationOfRank (f.rest.length - 1)

/-- The bytes of the label in hexadecimal. -/
def hex (f : FoundLabel) : String := String.ofList (Hex.ofBytes f.marker.bytes)

/-- The first label of a name at the next `room` locations of a tape. -/
def search (name : String) : Nat → Tape → Except Fault (Option FoundLabel)
  | 0, _ => .ok none
  | room + 1, t =>
    match Marker.read t with
    | .error f => .error f
    | .ok found =>
      match found.filter fun p => p.1.isLabel && p.1.name == name with
      | some (m, rest) => .ok (some ⟨m, rest⟩)
      | none =>
        match Tape.standing t.tail with
        | .error f => .error f
        | .ok t => search name room t

end FoundLabel

namespace Image

/-- The first label of a name in program memory. -/
def findLabel (img : Image) (name : String) : Except Fault (Option FoundLabel) := do
  let (t, room) ← img.programTape
  FoundLabel.search name room t

/-- The listing of the program with a label of this name. -/
def listing (img : Image) (name : String) : Traced (Option Listing) := do
  match ← img.findLabel name with
  | none =>
    Traced.record .info .programs ("program " ++ quoted name ++ " not found in program memory")
    return none
  | some found =>
    let is ← Listing.disassemble found.rest
    let rows := ⟨1, Marker.labelText name, found.hex⟩ :: Listing.numbered 2 is
    Traced.record .debug .programs
      ("listed " ++ ofInt rows.length ++ " instructions for " ++ quoted name ++ " starting at " ++ ofInt found.start)
    return some ⟨name, found.start, rows⟩

end Image

end CalcImage
