import CalcImage.Log
import CalcImage.Text.Align
import CalcImage.Text.Hex
import CalcImage.Text.Quoted

/-!
# Faults

A fault is the cause for which an operation has no result. Each cause belongs to one kind, and `Fault.message` words it.
The kinds that `Kind.reported` lists are the tool's own: the command line reports them to its user. The others arise
where a lower layer refuses a value that no check has looked at.
-/

namespace CalcImage

open CalcImage.Text

/-- Why an operation has no result. -/
inductive Fault where
  /-- A walk starts below the first location. -/
  | belowStart (location : Int)
  /-- A walk has no location after this one. -/
  | walkEnded (location : Int)
  | locationOutside (location : Int)
  | registerOutside (index : Int)
  | imageLength (received : Nat)
  | byteValue (value location : Int)
  | limitWidth (limit : Int)
  | registerText (index : Nat) (text : String)
  /-- The register with this letter was offered something that is not its text. -/
  | cpuText (letter : Char) (shown : String)
  | strayLine (number : Nat) (line : String)
  /-- A line goes on to register `last`, which memory does not have. -/
  | lineBeyond (number last : Nat)
  | noModel
  | otherModel (model : String)
  | payloadText (text : String)
  | payloadEmpty
  | noRoom (required : Nat) (free : Int)
  | settingsSyntax (path : String)
  | settingsSection
  | settingsKeys (keys : List String)
  | settingsLevel
  | settingsOffset
  | settingsOffsetRange (offset : Int)
  | settingsImage
  /-- The search for the program bottom starts above memory. -/
  | scanOutside
  /-- A number is no opcode. -/
  | opcodeOutside
  /-- A number is too large for a place in a row. -/
  | indexWidth
  | fillValue
  | payloadValue
  | codePoint
  | yearRange (year : Int)
  /-- A decimal number in a document has too many digits to be read. -/
  | numberRead (digits : Nat)
  /-- A number has too many digits to be written. -/
  | numberWritten
  /-- A path holds a null character. -/
  | nullCharacter
  /-- A length is too large for a row. -/
  | lengthWidth
  /-- A number is too large for a code point. -/
  | codePointWidth
  /-- A moment is too far away for the clock. -/
  | momentWidth
  /-- A year is too far away for the calendar. -/
  | yearWidth
  /-- A row is too long for the memory of the machine. -/
  | memoryExhausted
  /-- The clock was given an offset that is no number. -/
  | offsetVoid
  /-- The values of a document are nested too deeply. -/
  | nesting
  /-- A file is not text. -/
  | undecodable
  | missingFile (path : String)
  | isDirectory (path : String)
  | notDirectory (path : String)
  | nameTooLong (path : String)
  deriving DecidableEq, Repr

namespace Fault

/-- The kinds of faults. -/
inductive Kind where
  | memory
  | walk
  | register
  | transcription
  | model
  | injection
  | space
  | settings
  | index
  | value
  | width
  | operand
  | exhausted
  | depth
  | encoding
  | missing
  | directory
  | path
  | system
  deriving DecidableEq, Repr

/-- The tool's own kinds, which the command line reports to its user. -/
def Kind.reported : Kind → Bool
  | .memory | .walk | .register | .transcription | .model | .injection | .space | .settings => true
  | .index | .value | .width | .operand | .exhausted | .depth | .encoding | .missing | .directory | .path | .system =>
    false

/-- The kind of a fault. -/
def kind : Fault → Kind
  | belowStart _ | walkEnded _ | locationOutside _ | registerOutside _ => .walk
  | imageLength _ | byteValue _ _ | limitWidth _ => .memory
  | registerText _ _ | cpuText _ _ => .register
  | strayLine _ _ | lineBeyond _ _ | noModel => .transcription
  | otherModel _ => .model
  | payloadText _ | payloadEmpty => .injection
  | noRoom _ _ => .space
  | settingsSyntax _ | settingsSection | settingsKeys _ | settingsLevel | settingsOffset
  | settingsOffsetRange _ | settingsImage => .settings
  | scanOutside | opcodeOutside | indexWidth => .index
  | fillValue | payloadValue | codePoint | yearRange _ | numberRead _ | numberWritten | nullCharacter => .value
  | lengthWidth | codePointWidth | momentWidth => .width
  | offsetVoid => .operand
  | memoryExhausted => .exhausted
  | nesting => .depth
  | undecodable => .encoding
  | missingFile _ => .missing
  | isDirectory _ => .directory
  | notDirectory _ => .path
  | yearWidth | nameTooLong _ => .system

/-- The wording of a fault. -/
def message : Fault → String
  | belowStart l => "location " ++ ofInt l ++ " is below the start of memory"
  | walkEnded l => "address walk from " ++ ofInt l ++ " ran below location 0"
  | locationOutside l => "location " ++ ofInt l ++ " outside memory image"
  | registerOutside i => "register " ++ ofInt i ++ " outside memory image"
  | imageLength n => "memory image must hold 7784 bytes, received " ++ ofInt n
  | byteValue v l => "byte value " ++ ofInt v ++ " out of range at " ++ ofInt l
  | limitWidth n => "program limit " ++ String.ofList (Hex.ofInt n) ++ " does not fit in 12 bits"
  | registerText i s => "register " ++ String.ofList (Hex.ofNat i) ++ " was " ++ quoted s
  | cpuText c s => "CPU register " ++ c.toString ++ " was " ++ s
  | strayLine n s => "unhandled line " ++ ofInt n ++ ": " ++ quoted s
  | lineBeyond n r =>
    "line " ++ ofInt n ++ " addresses register " ++ String.ofList (Hex.ofInt r) ++ " beyond the 1112 available"
  | noModel => "transcription has no model header line"
  | otherModel m => "this appears to be a memory dump for a " ++ m ++ ", not a DM41"
  | payloadText s => "injection payload is not valid hex: " ++ quoted s
  | payloadEmpty => "injection payload is empty"
  | noRoom n k => "injected code needs " ++ ofInt n ++ " register(s) but only " ++ ofInt k ++ " remain"
  | settingsSyntax p => p ++ ": <TOML syntax error>"
  | settingsSection => "[dm41] section must be a table"
  | settingsKeys ks => "unknown [dm41] keys: " ++ joined ", " ks
  | settingsLevel => "log_level must be one of " ++ joined ", " (Log.Level.all.map Log.Level.name)
  | settingsOffset => "timezone_offset must be an integer number of seconds"
  | settingsOffsetRange n => "timezone_offset " ++ ofInt n ++ " is more than a day"
  | settingsImage => "image must be a path string"
  | scanOutside => "bytearray index out of range"
  | opcodeOutside => "tuple index out of range"
  | fillValue => "byte must be in range(0, 256)"
  | payloadValue => "bytes must be in range(0, 256)"
  | codePoint => "chr() arg not in range(0x110000)"
  | yearRange y => "year " ++ ofInt y ++ " is out of range"
  | numberRead n =>
    "Exceeds the limit (4300 digits) for integer string conversion: value has " ++ ofInt n ++
      " digits; use sys.set_int_max_str_digits() to increase the limit"
  | numberWritten =>
    "Exceeds the limit (4300 digits) for integer string conversion; use sys.set_int_max_str_digits() to increase the limit"
  | nullCharacter => "embedded null byte"
  | indexWidth | lengthWidth => "cannot fit 'int' into an index-sized integer"
  | codePointWidth => "Python int too large to convert to C int"
  | momentWidth => "timestamp out of range for platform time_t"
  | yearWidth => "[Errno 75] Value too large for defined data type"
  | memoryExhausted => ""
  | offsetVoid => "unsupported operand type(s) for +: 'int' and 'list'"
  | nesting => "maximum recursion depth exceeded"
  | undecodable => ""
  | missingFile p => "[Errno 2] No such file or directory: " ++ quoted p
  | isDirectory p => "[Errno 21] Is a directory: " ++ quoted p
  | notDirectory p => "[Errno 20] Not a directory: " ++ quoted p
  | nameTooLong p => "[Errno 36] File name too long: " ++ quoted p

end Fault

/-- An operation that may end in a fault and leaves records either way. -/
abbrev Traced := ExceptT Fault (StateM (List Log.Record))

/-- Write a record. -/
def Traced.record (level : Log.Level) (source : Log.Source) (text : String) : Traced Unit :=
  modifyThe (List Log.Record) (· ++ [⟨level, source, text⟩])

/-- The outcome of an operation and the records that it wrote. -/
def Traced.outcome {α : Type} (t : Traced α) : Except Fault α × List Log.Record :=
  t.run.run []

end CalcImage
