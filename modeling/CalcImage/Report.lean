import CalcImage.Alarm.Basic
import CalcImage.Numeral
import CalcImage.Program.Listing

/-!
# Reports

A summary shows the programs with their sizes, the alarms with their local times, and how many registers serve which
purpose. A listing report shows the rows of one program and all its bytes.
-/

namespace CalcImage

open CalcImage.Text

/-- What is counted of an image. -/
structure Summary where
  catalog : Catalog
  alarms : List Alarm
  programTop : Int
  programLimit : Int
  programBottom : Int

namespace Summary

/-- The highest register that holds data. -/
def memoryTop : Int := 511

/-- Registers between the program top and the program limit. -/
def programRegisters (s : Summary) : Int := s.programTop - s.programLimit

/-- Registers between the partition base and the program bottom. -/
def partitionRegisters (s : Summary) : Int := s.programBottom - 192

/-- Registers of programs and partitions. -/
def usedRegisters (s : Summary) : Int := s.programRegisters + s.partitionRegisters

/-- Registers above the program top. -/
def storageRegisters (s : Summary) : Int := memoryTop - s.programTop

/-- Registers between the program limit and the program bottom. -/
def freeRegisters (s : Summary) : Int := s.programLimit - s.programBottom

/-- Count an image, the alarms being found in the given way. -/
def ofAlarms (img : Image) (found : Traced (List Alarm)) : Traced Summary := do
  let catalog ← img.catalog
  let alarms ← found
  let limit := img.status.programLimit
  let bottom ← img.programBottom limit
  return ⟨catalog, alarms, img.status.programTop, limit, bottom⟩

/-- Count an image whose clock runs `tz` seconds west of Greenwich. -/
def ofImage (img : Image) (tz : Int) : Traced Summary := ofAlarms img (img.alarms tz)

/-- Count an image whose clock has no offset. -/
def ofImageWithoutOffset (img : Image) : Traced Summary := ofAlarms img img.alarmsWithoutOffset

end Summary

namespace Report

/-- A rule across the page. -/
def rule : String := String.ofList (List.replicate 51 '-')

/-- An interval in days, hours, minutes and seconds. -/
def interval (seconds : Int) : String :=
  let rest := seconds % 86400
  zeroFilled 2 (seconds / 86400) ++ " " ++ zeroFilled 2 (rest / 3600) ++ ":" ++ zeroFilled 2 (rest % 3600 / 60) ++ ":" ++
    zeroFilled 2 (rest % 60)

/-- The cell of a label in the table of programs. -/
def labelCell (name : String) : String :=
  alignLeft 30 ("  LBL \"" ++ name ++ "\"") ++ "        | "

/-- The rows of a group: one for each label, the last one with the size and a rule after it. -/
def groupRows (g : Group) : List String :=
  let cells := g.labels.map labelCell
  match g.size with
  | none => cells
  | some bytes => cells.dropLast ++ [cells.getLastD "" ++ alignRight 3 (ofInt bytes) ++ " bytes", rule]

/-- The table of programs. -/
def programTable (c : Catalog) : List String :=
  if 0 < c.programCount then
    "  Programs                              Size" :: rule :: c.groups.flatMap groupRows
  else ["  No programs found in memory."]

/-- The row of an alarm, for a host `east` seconds east of Greenwich. -/
def alarmRow (east : Int) (a : Alarm) : Except Fault String := do
  let shown ← Calendar.localTime east a.time
  let every := if a.repeating then interval a.interval else "-- --------"
  return "  " ++ alignLeft 16 a.name ++ "| " ++ alignRight 17 shown.short ++ " | " ++ every

/-- The rows of alarms. -/
def alarmRows (east : Int) : List Alarm → Except Fault (List String)
  | [] => .ok []
  | a :: as => do
    let row ← alarmRow east a
    let rows ← alarmRows east as
    return row :: rows

/-- The table of alarms. -/
def alarmTable (east : Int) (as : List Alarm) : Except Fault (List String) :=
  if as.isEmpty then .ok ["  No alarms found in memory."]
  else (alarmRows east as).map fun rows => "  Alarms            Time                Interval" :: rule :: rows ++ [rule]

/-- A row of the table of counts: how many there are of something, and how many registers serve a purpose. -/
def countRow (count : Int) (counted : String) (registers : Int) (purpose : String) : Except Fault String := do
  let n ← numeral count
  let r ← numeral registers
  return alignRight 8 n ++ " " ++ counted ++ alignRight 18 r ++ " " ++ purpose

/-- The table of counts. -/
def countTable (s : Summary) : Except Fault (List String) := do
  let programs ← countRow s.catalog.programCount "Program(s)" s.usedRegisters "Used"
  let labels ← countRow s.catalog.labelCount "Label(s)  " s.storageRegisters "Storage"
  let alarms ← countRow s.alarms.length "Alarm(s)  " s.freeRegisters "Free"
  return ["      Total                       Registers", rule, programs, labels, alarms]

/-- The lines of a summary, for a host `east` seconds east of Greenwich. -/
def summary (east : Int) (s : Summary) : Except Fault (List String) := do
  let alarms ← alarmTable east s.alarms
  let counts ← countTable s
  return "" :: programTable s.catalog ++ "" :: alarms ++ "" :: counts ++ [""]

/-- The line of a row of a listing. -/
def listingRow (r : Row) : String :=
  zeroFilled 3 r.number ++ "\t" ++ alignLeft 25 r.text ++ alignLeft 25 r.hex

/-- The lines of a listing. -/
def listing (l : Listing) : List String :=
  ["Program \"" ++ l.name ++ "\"", rule] ++ l.rows.map listingRow ++
    ["", rule, "", l.hex, "", rule, "Size: " ++ ofInt l.size ++ " bytes", ""]

/-- The lines about a program that is not there. -/
def missingProgram (name : String) : List String :=
  ["", "Program " ++ name ++ " does not exist.", ""]

/-- The lines about the program with a label of this name. -/
def program (img : Image) (name : String) : Traced (List String) := do
  match ← img.listing name with
  | none => return missingProgram name
  | some l => return listing l

end Report

end CalcImage
