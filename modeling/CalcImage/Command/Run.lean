import CalcImage.Command.Options
import CalcImage.Injection
import CalcImage.Report
import CalcImage.Settings
import CalcImage.Transcription.Basic

/-!
# Runs of the command line

A run reads the settings and an image, and then does what its options ask for in a fixed order: show the transcription,
inject program bytes and show the transcription again, show the summary, show a listing, write the transcription to a
file. A run is a function of its arguments, of the files, and of the host. The files are part of its state, so what it
has written when it is halted stays written.
-/

namespace CalcImage.Command

open CalcImage.Text

/-- The machine that a run takes place on. -/
structure Host where
  /-- Seconds east of Greenwich. -/
  east : Int
  home : Path

/-- What a run has shown and recorded so far, and the files as they are then. -/
structure Session where
  output : String
  log : List Log.Record
  files : Files

/-- Why a run ends before its end. -/
inductive Halt where
  | fault (f : Fault)
  /-- The image is not there. -/
  | absent (path : Path)

/-- A part of a run. -/
abbrev Work := ExceptT Halt (StateM Session)

/-- Let an operation that writes records take part in a run. -/
def Work.ofTraced {α : Type} (t : Traced α) : Work α := fun c =>
  let (r, log) := t.run.run c.log
  (r.mapError Halt.fault, { c with log })

/-- Let an edit of an image take part in a run; it gives back its result and the image. -/
def Work.ofEdit {α : Type} (e : Edit α) (img : Image) : Work (α × Image) := fun c =>
  let (r, d) := e.run.run ⟨img, c.log⟩
  ((r.map fun a => (a, d.image)).mapError Halt.fault, { c with log := d.log })

/-- Let an operation that may fail take part in a run. -/
def Work.ofExcept {α : Type} (e : Except Fault α) : Work α := fun c => (e.mapError Halt.fault, c)

/-- Show lines. -/
def Work.print (lines : List String) : Work Unit :=
  modifyThe Session fun c => { c with output := c.output ++ Transcription.fileText lines }

/-- Write a record. -/
def Work.record (level : Log.Level) (text : String) : Work Unit :=
  Work.ofTraced (Traced.record level .command text)

/-- What a path leads to at this point of a run. -/
def Work.target (path : Path) : Work Target := do return (← getThe Session).files.target path

/-- Write a text to a place. -/
def Work.write (place : List String) (text : String) : Work Unit :=
  modifyThe Session fun c => { c with files := c.files.write place text.toUTF8.toList }

/-- Read the image that stands where a path leads to. -/
def readImage (path : Path) : Target → Work Image
  | .file _ bytes => Work.ofTraced (Transcription.load path.text bytes)
  | .tooLong => throw (.fault (.nameTooLong path.text))
  | _ => throw (.absent path)

/-- The image to work on: the one at the path, or the blank one. -/
def loadImage (path : Option Path) : Work Image :=
  match path with
  | none => do
    Work.record .warning "no filename given; using a blank memory map with only the required registers"
    return Image.blank
  | some path => do readImage path (← Work.target path)

/-- Show the transcription of an image. -/
def showImage (img : Image) : Work Unit := do
  let lines ← Work.ofTraced (Transcription.format img)
  Work.print lines

/-- Inject program bytes, say what came of it, and show the transcription. -/
def injectInto (img : Image) (text : String) : Work Image := do
  let (i, img) ← Work.ofEdit (Edit.inject (.text text)) img
  Work.record .info
    ("injected " ++ ofInt i.byteCount ++ " byte(s); program limit " ++ Injection.limitText i.limitBefore ++ " -> " ++
      Injection.limitText i.limitAfter ++ ", " ++ ofInt i.freeAfter ++ " register(s) free")
  showImage img
  return img

/-- Count an image whose clock has the given offset. -/
def summaryOf (offset : ClockOffset) (img : Image) : Traced Summary :=
  match offset with
  | .seconds tz => Summary.ofImage img tz
  | .void => Summary.ofImageWithoutOffset img

/-- Show the summary of an image. -/
def showSummary (host : Host) (offset : ClockOffset) (img : Image) : Work Unit := do
  let s ← Work.ofTraced (summaryOf offset img)
  let lines ← Work.ofExcept (Report.summary host.east s)
  Work.print lines

/-- Show the listing of a program. -/
def showProgram (img : Image) (name : String) : Work Unit := do
  let lines ← Work.ofTraced (Report.program img (upper name))
  Work.print lines

/-- Write the transcription of an image to a file. -/
def writeImage (img : Image) (path : Path) : Work Unit := do
  let lines ← Work.ofTraced (Transcription.format img)
  let place ← Work.ofExcept ((← Work.target path).place path)
  Work.write place (Transcription.fileText lines)
  Work.record .info ("wrote transcription to " ++ path.text)

/-- The value of an option, unless it is empty. -/
def given? (value : Option String) : Option String := value.filter fun s => s ≠ ""

/-- The offset of the clock: that of the options, or that of the settings, or that of the host. -/
def offsetOf (host : Host) (o : Options) (s : Settings) : ClockOffset :=
  o.timezoneOffset.getD (.seconds (s.timezoneOffset.getD (Calendar.westOffset host.east)))

/-- Do what the options ask for. -/
def work (host : Host) (o : Options) (s : Settings) : Work Unit := do
  let img ← loadImage (o.filename.or s.image)
  if o.print then showImage img
  let img ← match given? o.inject with
    | none => pure img
    | some text => injectInto img text
  if o.summary then showSummary host (offsetOf host o s) img
  match given? o.list with
  | none => pure ()
  | some name => showProgram img name
  match o.output with
  | none => pure ()
  | some path => writeImage img path

/-- How a run ends: with an exit code, with a last message, or with a fault that is not the tool's own. -/
inductive Ending where
  | code (n : Nat)
  | message (text : String)
  | failure (f : Fault)
  deriving DecidableEq, Repr

/-- All that a run leaves behind. -/
structure Outcome where
  ending : Ending
  output : String
  errors : String
  files : Files
  deriving DecidableEq, Repr

/-- The ending that a fault brings about. -/
def Ending.ofFault (f : Fault) : Ending :=
  if f.kind.reported then .message ("FATAL: " ++ f.message) else .failure f

/-- The ending of a run that was halted. -/
def Ending.ofHalt : Halt → Ending
  | .fault f => ofFault f
  | .absent path => .message ("memory transcription not found: " ++ path.text)

/-- The records that are urgent enough, a line each. -/
def Session.errors (c : Session) (level : Log.Level) : String :=
  joined "" ((c.log.filter fun r => r.reaches level).map fun r => r.line ++ "\n")

/-- The settings that the options name. -/
def settings (host : Host) (fs : Files) (o : Options) : Except Fault Settings :=
  match o.config with
  | none => .ok Settings.standard
  | some path => do
    let bytes ← (fs.target path).contents path
    Settings.ofFile host.home path bytes

/-- What the command line can do, in a few words. -/
def help : String :=
  joined "\n" [
    "usage: dm41 [options]",
    "",
    "  -f, --filename FILE        memory transcription to read; a blank image otherwise",
    "  -i, --inject HEX           inject program bytes above the .END.",
    "  -l, --list NAME            list the program with the global label NAME",
    "  -p, --print                show the transcription before any injection",
    "  -s, --summary              show programs, alarms and registers",
    "  -o, --output FILE          write the resulting transcription",
    "  --config FILE              read settings from the table [dm41] of a TOML file",
    "  --timezone-offset SECONDS  seconds west of Greenwich for alarm times",
    "  --log-level LEVEL          least urgent level of records to show",
    ""]

/-- The ending of a run that comes to its end, or is halted. -/
def Ending.ofResult : Except Halt Unit → Ending
  | .ok _ => .code 0
  | .error halt => ofHalt halt

/-- A run with options. -/
def runOptions (host : Host) (fs : Files) (o : Options) : Outcome :=
  match settings host fs o with
  | .error f => ⟨Ending.ofFault f, "", "", fs⟩
  | .ok s =>
    let (result, after) := (work host o s).run.run ⟨"", [], fs⟩
    ⟨Ending.ofResult result, after.output, after.errors (o.logLevel.getD s.logLevel), after.files⟩

/-- A run with arguments. -/
def run (host : Host) (fs : Files) (arguments : List String) : Outcome :=
  match Options.parse arguments with
  | .error .help => ⟨.code 0, help, "", fs⟩
  | .error (.misuse m) => ⟨.code 2, "", "dm41: error: " ++ m.message ++ "\n", fs⟩
  | .ok o => runOptions host fs o

end CalcImage.Command
