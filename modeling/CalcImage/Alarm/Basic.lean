import CalcImage.Calendar
import CalcImage.Memory.Status

/-!
# Alarms

Alarms lie in a partition between the partition base and the program limit: a register that starts with 0xAA and holds
the length of the partition, the records, and a last register. A record is one register with the moment in tenths of a
second since the beginning of 1900, eleven decimal digits, and with what belongs to it: a register with the interval when
the alarm repeats, and up to fifteen registers with its name. A record that starts with the end mark of partitions makes
the whole partition count as empty.
-/

namespace CalcImage

/-- An alarm; moments are in seconds since the beginning of 1970. -/
structure Alarm where
  time : Int
  repeating : Bool
  interval : Int
  name : String
  deriving DecidableEq, Repr

namespace Alarm

open CalcImage.Text

/-- The first byte of the alarm partition. -/
def partitionMark : UInt8 := 0xAA

/-- Seconds from the beginning of 1900 to the beginning of 1970. -/
def epoch1900 : Int := 2208988800

/-- The name of an alarm without a name. -/
def defaultName : String := "ALARM"

/-- The number that decimal digits spell, most significant first. A digit may be any number. -/
def decimalValue (digits : List Int) : Int :=
  digits.foldl (fun value d => value * 10 + d) 0

/-- The two halves of each byte. -/
def nibbles (bs : List UInt8) : List Int :=
  bs.flatMap fun b => [(b.toNat / 16 : Nat), (b.toNat % 16 : Nat)]

/-- The digits in the bytes `bs` and in the high half of `b`. -/
def digits (bs : List UInt8) (b : UInt8) : List Int :=
  nibbles bs ++ [((b.toNat / 16 : Nat) : Int)]

/-- The first register of a record. -/
structure Record where
  bytes : List UInt8
  deriving DecidableEq, Repr

namespace Record

/-- The byte at a place of the register. -/
def byte (r : Record) (k : Nat) : UInt8 := r.bytes.getD k 0

/-- Tenths of a second since the beginning of 1900. -/
def tenths (r : Record) : Int := decimalValue (digits (r.bytes.take 5) (r.byte 5))

/-- The moment of the alarm, with the clock `tz` seconds west of Greenwich. -/
def time (r : Record) (tz : Int) : Int := r.tenths / 10 - epoch1900 + tz

/-- The alarm repeats. -/
def repeating (r : Record) : Bool := (r.byte 5).toNat % 16 == 1

/-- Registers that hold the name. -/
def nameRegisters (r : Record) : Nat := (r.byte 6).toNat % 16

/-- Registers of the record before its name. -/
def headRegisters (r : Record) : Nat := if r.repeating then 2 else 1

/-- All registers of the record. -/
def span (r : Record) : Nat := r.headRegisters + r.nameRegisters

/-- The record is the end mark of a partition. -/
def isEnd (r : Record) : Bool := r.byte 0 == partitionEnd

theorem span_pos (r : Record) : 0 < r.span := by
  unfold span headRegisters
  split <;> omega

end Record

/-- The interval in seconds that the register after a record holds. -/
def intervalOf (bs : List UInt8) : Int :=
  decimalValue (digits ((bs.drop 2).take 3) (bs.getD 5 0)) / 10

/-- The characters of a name: one for each byte that is not zero. -/
def nameOf (bs : List UInt8) : String :=
  String.ofList ((bs.filter (· != 0)).map fun b => Char.ofNat b.toNat)

/-- The bytes of `count` registers from `index` on. -/
def registersFrom (img : Image) (index : Nat) : Nat → Except Fault (List UInt8)
  | 0 => .ok []
  | count + 1 => do
    let bs ← img.register index
    let rest ← registersFrom img (index + 1) count
    return bs ++ rest

/-- The record that a register holds. -/
def readRecord (img : Image) (index : Nat) : Except Fault Record :=
  (img.register index).map Record.mk

/-- The interval of the record at `index`, zero when it does not repeat. -/
def readInterval (img : Image) (r : Record) (index : Nat) : Except Fault Int :=
  if r.repeating then (img.register (index + 1 : Nat)).map intervalOf else .ok 0

/-- The name of a record from the register `index` on. -/
def readName (img : Image) (r : Record) (index : Nat) : Except Fault String :=
  if r.nameRegisters = 0 then .ok defaultName
  else (registersFrom img index r.nameRegisters).map nameOf

/-- Decode records from the register `index` up to the register `stop`, `found` being the alarms so far. -/
def readRecords (img : Image) (tz : Int) (index stop : Nat) (found : List Alarm) : Traced (List Alarm) := do
  if h : index < stop then
    let r ← readRecord img index
    if r.isEnd then
      Traced.record .debug .alarms
        ("alarm partition end marker at register " ++ ofInt index ++ ", discarding " ++ ofInt found.length ++ " alarm(s)")
      return []
    let interval ← readInterval img r index
    let name ← readName img r (index + r.headRegisters)
    readRecords img tz (index + r.span) stop (found ++ [⟨r.time tz, r.repeating, interval, name⟩])
  else
    return found
termination_by stop - index
decreasing_by
  have := r.span_pos
  omega

end Alarm

/-- A partition: its first register and its length in registers. -/
structure Partition where
  start : Nat
  length : Nat
  deriving DecidableEq, Repr

namespace Image

/-- The alarm partition among `count` registers from `index` on. -/
def alarmPartitionFrom (img : Image) (index : Nat) : Nat → Except Fault (Option Partition)
  | 0 => .ok none
  | count + 1 => do
    let first ← img.get (7 * index : Nat)
    if first = Alarm.partitionMark then
      let length ← img.get (7 * index + 1 : Nat)
      return some ⟨index, length.toNat⟩
    img.alarmPartitionFrom (index + 1) count

/-- The alarm partition below the program limit. -/
def alarmPartition (img : Image) : Except Fault (Option Partition) :=
  img.alarmPartitionFrom partitionBase (img.status.programLimit - partitionBase)

/-- The alarms of an image whose clock runs `tz` seconds west of Greenwich. -/
def alarms (img : Image) (tz : Int) : Traced (List Alarm) := do
  match ← img.alarmPartition with
  | none => return []
  | some p => Alarm.readRecords img tz (p.start + 1) (p.start + p.length - 1) []

/-- The alarms of an image whose clock has no offset: where there is a record, its moment cannot be told. -/
def alarmsWithoutOffset (img : Image) : Traced (List Alarm) := do
  match ← img.alarmPartition with
  | none => return []
  | some p =>
    if p.start + 1 < p.start + p.length - 1 then
      let _ ← Alarm.readRecord img (p.start + 1)
      throw .offsetVoid
    return []

end Image

end CalcImage
