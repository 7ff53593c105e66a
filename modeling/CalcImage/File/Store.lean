import CalcImage.Fault
import CalcImage.File.Path

/-!
# Files of a machine

A store holds what stands at the places of a machine: files, directories and devices. A place is told by the names that
lead to it from the root, and one of them is that of the working directory. A path begins at the root or in the working
directory and leads through directories only; its names have a greatest length, and so has the whole path.
-/

namespace CalcImage

/-- What stands at a place. -/
inductive Node where
  | file (bytes : List UInt8)
  | directory
  /-- A device that holds nothing and takes everything, with what it has taken. -/
  | device (taken : List UInt8)
  deriving DecidableEq, Repr

/-- What stands at a place after bytes were written there: a device takes them besides what it had, and anything else
is a file that holds them alone. -/
def Node.written (bytes : List UInt8) : Option Node → Node
  | some (.device taken) => .device (taken ++ bytes)
  | _ => .file bytes

/-- What a path leads to. -/
inductive Target where
  | file (place : List String) (bytes : List UInt8)
  | directory
  /-- A device that holds nothing and takes everything. -/
  | device (place : List String)
  /-- Nothing, in a directory that is there. -/
  | vacant (place : List String)
  /-- Nothing, and no directory either. -/
  | missing
  /-- Nothing, because a file stands where a directory would have to be. -/
  | blocked
  /-- Nothing, because a name or the whole path is too long. -/
  | tooLong
  /-- Nothing, because the path holds a null character. -/
  | unnameable
  deriving DecidableEq, Repr

namespace Target

/-- The contents of the file that a path leads to. -/
def contents (path : Path) : Target → Except Fault (List UInt8)
  | file _ bytes => .ok bytes
  | device _ => .ok []
  | directory => .error (.isDirectory path.text)
  | vacant _ | missing => .error (.missingFile path.text)
  | blocked => .error (.notDirectory path.text)
  | tooLong => .error (.nameTooLong path.text)
  | unnameable => .error .nullCharacter

/-- The place of the file that can be written at a path. -/
def place (path : Path) : Target → Except Fault (List String)
  | file place _ | device place | vacant place => .ok place
  | directory => .error (.isDirectory path.text)
  | missing => .error (.missingFile path.text)
  | blocked => .error (.notDirectory path.text)
  | tooLong => .error (.nameTooLong path.text)
  | unnameable => .error .nullCharacter

end Target

/-- The files of a machine: the place of the working directory, and what stands at the places below the root. -/
structure Files where
  here : List String
  nodes : List (List String × Node)
  deriving DecidableEq, Repr

namespace Files

/-- The bytes that a name may have. -/
def mostNameBytes : Nat := 255

/-- The bytes that a path may have. -/
def mostPathBytes : Nat := 4095

/-- The name is too long. -/
def isLong (name : String) : Bool := mostNameBytes < name.utf8ByteSize

/-- What stands at a place. -/
def lookup (fs : Files) (place : List String) : Option Node := fs.nodes.lookup place

/-- What has a name in the working directory. -/
def named (fs : Files) (name : String) : Option Node := fs.lookup (fs.here ++ [name])

/-- What names lead to from a directory that is there. -/
def follow (fs : Files) (dir : List String) : List String → Target
  | [] => .directory
  | name :: names =>
    if name = ".." then follow fs dir.dropLast names
    else if isLong name then .tooLong
    else
      let place := dir ++ [name]
      match fs.lookup place with
      | some .directory => follow fs place names
      | some (.file bytes) => if names.isEmpty then .file place bytes else .blocked
      | some (.device _) => if names.isEmpty then .device place else .blocked
      | none => if names.isEmpty then .vacant place else .missing

/-- What a path leads to. -/
def target (fs : Files) (p : Path) : Target :=
  if p.text.toList.contains '\x00' then .unnameable
  else if mostPathBytes < p.text.utf8ByteSize then .tooLong
  else fs.follow (if p.isAbsolute then [] else fs.here) p.parts

/-- The files after bytes were written to a place. -/
def write (fs : Files) (place : List String) (bytes : List UInt8) : Files :=
  { fs with nodes := (place, Node.written bytes (fs.lookup place)) :: fs.nodes.filter fun n => n.1 != place }

/-- The places where something else stands than before, with what stands there now. -/
def changes (before after : Files) : List (List String × Node) :=
  after.nodes.filter fun n => before.lookup n.1 != some n.2

end Files

end CalcImage
