import CalcImage.Command.Run
import Std.Time.DateTime.Timestamp
import Std.Time.Zoned.Database

/-!
# The program

The program looks up what stands on the way of the few paths that a run needs, lets the run decide everything, and does
what it has decided: it prints, writes what the run has written, and ends with the exit code.
-/

namespace CalcImage.Command

/-- The path of a place. -/
def pathOf (place : List String) : Path := ⟨1, place⟩

/-- What stands at a place of this machine. -/
def nodeAt (place : List String) : IO (Option Node) := do
  try
    match (← (← IO.FS.realPath (pathOf place).text).metadata).type with
    | .dir => return some .directory
    | .file => return some (.file (← IO.FS.readBinFile (pathOf place).text).toList)
    | _ => return some (.device [])
  catch _ => return none

/-- The places that names come by on their way from a directory. -/
def placesAlong (dir : List String) : List String → List (List String)
  | [] => []
  | name :: names =>
    if name = ".." then placesAlong dir.dropLast names
    else (dir ++ [name]) :: placesAlong (dir ++ [name]) names

/-- The store with what stands on the way of a path. -/
def lookAlong (fs : Files) (path : Path) : IO Files := do
  let mut nodes := fs.nodes
  for place in placesAlong (if path.isAbsolute then [] else fs.here) path.parts do
    if let some node ← nodeAt place then nodes := (place, node) :: nodes
  return { fs with nodes }

/-- The store with what stands on the way of paths. -/
def lookAlongAll (fs : Files) (paths : List Path) : IO Files := paths.foldlM lookAlong fs

/-- This machine. -/
def thisHost : IO Host := do
  let rules ← Std.Time.Database.defaultGetLocalZoneRules
  let zone := rules.timezoneAt (← Std.Time.Timestamp.now)
  let home := (← IO.getEnv "HOME").getD "/"
  return ⟨zone.offset.second.val, Path.ofString home⟩

/-- The files of this machine, as far as the run of these arguments needs them. -/
def theseFiles (host : Host) (arguments : List String) : IO Files := do
  let fs : Files := ⟨(Path.ofString (← IO.currentDir).toString).parts, []⟩
  match Options.parse arguments with
  | .error _ => return fs
  | .ok o =>
    let fs ← lookAlongAll fs o.config.toList
    let image := match settings host fs o with
      | .ok s => o.filename.or s.image
      | .error _ => none
    lookAlongAll fs (image.toList ++ o.output.toList)

/-- Give a place of this machine what a run has left there. -/
def put (place : List String) : Node → IO Unit
  | .file bytes | .device bytes => IO.FS.writeBinFile (pathOf place).text ⟨bytes.toArray⟩
  | .directory => return ()

/-- Do what a run has decided. -/
def perform (fs : Files) (o : Outcome) : IO UInt32 := do
  IO.print o.output
  IO.eprint o.errors
  for (place, node) in fs.changes o.files do put place node
  match o.ending with
  | .code n => return n.toUInt32
  | .message s =>
    IO.eprintln s
    return 1
  | .failure f =>
    IO.eprintln f.message
    return 1

end CalcImage.Command

/-- Run the command line. -/
def main (arguments : List String) : IO UInt32 := do
  let host ← CalcImage.Command.thisHost
  let fs ← CalcImage.Command.theseFiles host arguments
  CalcImage.Command.perform fs (CalcImage.Command.run host fs arguments)
