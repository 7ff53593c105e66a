import CalcImage.Instruction.Marker
import CalcImage.Memory.Status

/-!
# The catalog of programs

The catalog is taken by a scan of program memory from the program top down to the program limit. The scan steps byte by
byte, but over the operands of most long instructions. It counts its steps, so that an end can tell the size of the
program before it: the count starts anew after every end, and at the first label of all, where it is set to the three
bytes of the label itself. The permanent end leaves no entry.
-/

namespace CalcImage

/-- An entry of a catalog: a label, or the size of the program that an end closes. -/
inductive Entry where
  | label (name : String) (key : Option UInt8)
  | size (bytes : Int)
  deriving DecidableEq, Repr

/-- What a scan of program memory finds. -/
structure Catalog where
  labelCount : Int
  programCount : Int
  entries : List Entry
  deriving DecidableEq, Repr

/-- The labels of a program and its size. Labels before the permanent end have no size. -/
structure Group where
  labels : List String
  size : Option Int
  deriving DecidableEq, Repr

namespace Catalog

/-- Group entries: each size closes the labels since the last one, `pending` being those seen so far. -/
def groupsFrom (pending : List String) : List Entry → List Group
  | [] => if pending.isEmpty then [] else [⟨pending, none⟩]
  | .label name _ :: entries => groupsFrom (pending ++ [name]) entries
  | .size bytes :: entries => ⟨pending, some bytes⟩ :: groupsFrom [] entries

/-- The programs of a catalog. -/
def groups (c : Catalog) : List Group := groupsFrom [] c.entries

/-- The state of a scan: the steps counted, the markers counted, and the entries found. -/
structure Scan where
  steps : Nat
  labels : Nat
  programs : Nat
  entries : List Entry

/-- The state before the first byte. -/
def Scan.start : Scan := ⟨0, 0, 0, []⟩

/-- Count the marker that the scan stands on. -/
def Scan.mark (s : Scan) (m : Marker) : Scan :=
  match m.kind with
  | .label =>
    { s with
      steps := if s.labels = 0 then 3 else s.steps
      labels := s.labels + 1
      entries := s.entries ++ [.label m.name m.key] }
  | .programEnd =>
    { s with
      steps := 0
      programs := s.programs + 1
      entries := s.entries ++ [.size s.steps] }
  | .terminal => s

/-- The bytes that the scan goes on by: an instruction whose first byte begins with 9 to B or with D or E is stepped over
with its operands, and everything else byte by byte. -/
def stride (b : UInt8) : Nat :=
  let high := b.toNat / 16
  if 0x9 ≤ high ∧ high ≤ 0xB then 2
  else if 0xD ≤ high ∧ high ≤ 0xE then 3
  else 1

/-- Scan the next `room` locations of a tape. -/
def scan (room : Nat) (t : Tape) (s : Scan) : Except Fault Scan :=
  if room = 0 then .ok s
  else
    match t with
    | [] => .error Tape.ranOut
    | b :: t =>
      if stride b = 1 then
        match Marker.read (b :: t) with
        | .error f => .error f
        | .ok found =>
          let s := match found with
            | none => s
            | some (m, _) => s.mark m
          match Tape.standing t with
          | .error f => .error f
          | .ok t => scan (room - 1) t { s with steps := s.steps + 1 }
      else
        match Tape.standing ((b :: t).drop (stride b)) with
        | .error f => .error f
        | .ok t => scan (room - stride b) t s
termination_by room
decreasing_by
  · omega
  · have : 0 < stride b := by unfold stride; dsimp only; split; omega; split <;> omega
    omega

end Catalog

namespace Image

/-- The tape of program memory, from the program top on, and the number of its locations down to the program limit. -/
def programTape (img : Image) : Except Fault (Tape × Nat) :=
  let s := img.status
  if s.programTop < s.programLimit then .ok ([], 0)
  else do
    let loc ← location (7 * s.programTop)
    return (img.tape (loc + 6), loc + 7 - 7 * s.programLimit)

/-- The catalog of program memory. -/
def catalog (img : Image) : Except Fault Catalog := do
  let (t, room) ← img.programTape
  let s ← Catalog.scan room t Catalog.Scan.start
  return ⟨s.labels, s.programs, s.entries⟩

end Image

end CalcImage
