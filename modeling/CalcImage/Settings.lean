import CalcImage.File.Store
import CalcImage.Numeral
import CalcImage.Text.UpperCase
import CalcImage.Text.Utf8
import CalcImage.Toml.Document

/-!
# Settings

Settings stand in the table `dm41` of a TOML document. Other tables do not matter, but the table may hold no other keys
than the three known ones. Its values are judged in a fixed order: the level of records, the offset of the clock, the
path of the image. The path counts from the directory of the settings file.
-/

namespace CalcImage

open CalcImage.Text

/-- What is in force when the command line says nothing else. -/
structure Settings where
  logLevel : Log.Level
  timezoneOffset : Option Int
  image : Option Path
  deriving DecidableEq, Repr

namespace Settings

/-- The settings without a settings file. -/
def standard : Settings := ⟨.warning, none, none⟩

/-- The name of the table of settings. -/
def tableName : String := "dm41"

/-- The keys that the table may hold. -/
def knownKeys : List String := ["log_level", "timezone_offset", "image"]

/-- The largest offset of a clock, in seconds: a day. -/
def mostOffset : Nat := 86400

/-- The keys of a table that are not known, in the order of their code points. -/
def unknownKeys (t : Toml.Table) : List String :=
  ((t.map Prod.fst).filter fun k => !knownKeys.contains k).mergeSort fun a b => decide (a ≤ b)

/-- The table of settings; a document without it has an empty one. -/
def table (document : Toml.Table) : Except Fault Toml.Table :=
  match document.lookup tableName with
  | none => .ok []
  | some (.table t) => .ok t
  | some _ => .error .settingsSection

/-- The level of records, whose name may be written in any case. -/
def readLevel : Option Toml.Value → Except Fault Log.Level
  | none => .ok .warning
  | some (.text s) =>
    match Log.Level.ofName? (upper s) with
    | some l => .ok l
    | none => .error .settingsLevel
  | some _ => .error .settingsLevel

/-- The fault of an offset that is more than a day, which shows the offset. -/
def offsetFault (n : Int) : Fault :=
  if isWritable n then .settingsOffsetRange n else .numberWritten

/-- The offset of the clock in seconds west of Greenwich. -/
def readOffset : Option Toml.Value → Except Fault (Option Int)
  | none => .ok none
  | some (.integer n) => if n.natAbs ≤ mostOffset then .ok (some n) else .error (offsetFault n)
  | some _ => .error .settingsOffset

/-- The path of the image. -/
def readImage (home base : Path) : Option Toml.Value → Except Fault (Option Path)
  | none => .ok none
  | some (.text s) => .ok (some (base.resolve ((Path.ofString s).expandHome home)))
  | some _ => .error .settingsImage

/-- The settings of a document in the directory `base`. -/
def ofDocument (home base : Path) (document : Toml.Table) : Except Fault Settings := do
  let t ← table document
  let unknown := unknownKeys t
  if unknown ≠ [] then throw (.settingsKeys unknown)
  let logLevel ← readLevel (t.lookup "log_level")
  let timezoneOffset ← readOffset (t.lookup "timezone_offset")
  let image ← readImage home base (t.lookup "image")
  return ⟨logLevel, timezoneOffset, image⟩

/-- The fault of a settings file that is refused as a document. -/
def documentFault (path : Path) : Toml.Refusal → Fault
  | .malformed => .settingsSyntax path.text
  | .longNumber digits => .numberRead digits
  | .deep => .nesting

/-- The settings in a file with these bytes. -/
def ofFile (home path : Path) (bytes : List UInt8) : Except Fault Settings :=
  match Utf8.decode? bytes with
  | none => .error .undecodable
  | some text =>
    match Toml.parse text with
    | .error r => .error (documentFault path r)
    | .ok document => ofDocument home path.parent document

end Settings

end CalcImage
