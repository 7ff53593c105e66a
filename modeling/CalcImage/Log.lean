/-!
# Records that operations leave behind

An operation may report what it does in records, each with a level, the part of the tool that wrote it, and a text.
Records stay in the order in which they were written, and those written before a fault stay as well.
-/

namespace CalcImage.Log

/-- Levels of records, from the least urgent to the most urgent one. -/
inductive Level where
  | debug
  | info
  | warning
  | error
  | critical
  deriving DecidableEq, Repr

namespace Level

/-- All levels in ascending order. -/
def all : List Level := [.debug, .info, .warning, .error, .critical]

/-- The name of a level as users write it. -/
def name : Level → String
  | .debug => "DEBUG"
  | .info => "INFO"
  | .warning => "WARNING"
  | .error => "ERROR"
  | .critical => "CRITICAL"

/-- The level that a name stands for. -/
def ofName? (s : String) : Option Level :=
  all.find? fun l => l.name == s

/-- How urgent a level is. -/
def urgency : Level → Nat
  | .debug => 0
  | .info => 1
  | .warning => 2
  | .error => 3
  | .critical => 4

theorem ofName?_name (l : Level) : ofName? l.name = some l := by
  cases l <;> decide

end Level

/-- The parts of the tool that write records. -/
inductive Source where
  | memory
  | programs
  | alarms
  | injector
  | transcription
  | command
  deriving DecidableEq, Repr

/-- The name under which a part writes. -/
def Source.name : Source → String
  | .memory => "dm41.memory_image"
  | .programs => "dm41.programs"
  | .alarms => "dm41.alarms"
  | .injector => "dm41.injector"
  | .transcription => "dm41.transcription"
  | .command => "dm41.cli"

/-- One record. -/
structure Record where
  level : Level
  source : Source
  text : String
  deriving DecidableEq, Repr

/-- A record in one line: level, part and text with colons between them. -/
def Record.line (r : Record) : String :=
  r.level.name ++ ":" ++ r.source.name ++ ":" ++ r.text

/-- The record is at least as urgent as `l`. -/
def Record.reaches (r : Record) (l : Level) : Bool :=
  l.urgency ≤ r.level.urgency

end CalcImage.Log
