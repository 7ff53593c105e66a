import CalcImage.Proofs.Alarm.Records
import CalcImage.Proofs.Memory.Copy
import CalcImage.Proofs.Memory.Status

/-!
# Alarms as they are stored

The record of an alarm is laid out in half bytes: decimal digits, the mark of an alarm that repeats, and the number of
registers with its name. `Image.HoldsAlarm` says where each of them lies, and leaves open what the other halves hold. An
image that holds a row of alarms in its partition is decoded to exactly these alarms (`Image.alarms_of_holds`).
-/

namespace CalcImage

open Alarm

/-- An alarm as it is stored: the moment in tenths of a second since the beginning of 1900, the interval in tenths of a
second when the alarm repeats, and the bytes of the name when it has one. -/
structure StoredAlarm where
  moment : Fin (10 ^ 11)
  interval : Option (Fin (10 ^ 7))
  name : Option (List UInt8)

namespace StoredAlarm

/-- The registers before the name. -/
def head (a : StoredAlarm) : Nat := if a.interval.isSome then 2 else 1

/-- The alarm in seconds since the beginning of 1970, with a clock `tz` seconds west of Greenwich. -/
def alarm (a : StoredAlarm) (tz : Int) : Alarm where
  time := (a.moment.val / 10 : Nat) - 2208988800 + tz
  repeating := a.interval.isSome
  interval := ((a.interval.elim 0 fun v => v.val) / 10 : Nat)
  name := a.name.elim "ALARM" fun bs => String.ofList (bs.map fun b => Char.ofNat b.toNat)

end StoredAlarm

namespace Image

/-- The halves from a place on are the last `count` decimal digits of a number, the most significant one first. -/
def HoldsDigits (img : Image) (place count n : Nat) : Prop :=
  ∀ k < count, img.half (place + k) = n / 10 ^ (count - 1 - k) % 10

/-- The record of an alarm begins in a register, with its name in `names` registers. -/
structure HoldsAlarm (img : Image) (index names : Nat) (a : StoredAlarm) : Prop where
  moment : img.HoldsDigits (14 * index) 11 a.moment.val
  repeats : img.half (14 * index + 11) = 1 ↔ a.interval.isSome = true
  interval : ∀ v ∈ a.interval, img.HoldsDigits (14 * (index + 1) + 4) 7 v.val
  count : img.half (14 * index + 13) = names
  unnamed : names = 0 ↔ a.name = none
  name : ∀ bs ∈ a.name, (img.bytesFrom (7 * (index + a.head)) (7 * names)).filter (· != 0) = bs

/-- The records of alarms lie one after the other, from a register up to another one. -/
inductive HoldsAlarms (img : Image) : Nat → List StoredAlarm → Nat → Prop where
  | nil (index : Nat) : HoldsAlarms img index [] index
  | cons {index names stop : Nat} {a : StoredAlarm} {as : List StoredAlarm} (first : img.HoldsAlarm index names a)
      (rest : HoldsAlarms img (index + a.head + names) as stop) : HoldsAlarms img index (a :: as) stop

theorem HoldsAlarms.le {img : Image} {index stop : Nat} {as : List StoredAlarm}
    (holds : img.HoldsAlarms index as stop) : index ≤ stop := by
  induction holds with
  | nil => exact Nat.le_refl _
  | cons first rest ih => omega

/-- Decimal digits spell the number that they are the digits of. -/
theorem decimalValue_of_holds {img : Image} {place count n : Nat} (holds : img.HoldsDigits place count n) :
    decimalValue ((List.range count).map fun k => (img.half (place + k) : Int)) = (n % 10 ^ count : Nat) := by
  induction count generalizing n with
  | zero => simp [decimalValue, Nat.mod_one]
  | succ count ih =>
    have front : img.HoldsDigits place count (n / 10) := by
      intro k below
      rw [holds k (by omega), Nat.div_div_eq_div_mul, ← Nat.pow_succ']
      congr 3
      omega
    have last : img.half (place + count) = n % 10 := by
      rw [holds count (by omega), show count + 1 - 1 - count = 0 by omega, Nat.pow_zero, Nat.div_one]
    rw [decimalValue_halves_succ, ih front, last, Nat.pow_succ', Nat.mod_mul]
    omega

namespace HoldsAlarm

variable {img : Image} {index names : Nat} {a : StoredAlarm}

theorem half_zero_lt (h : img.HoldsAlarm index names a) : img.half (14 * index) < 10 := by
  rw [← Nat.add_zero (14 * index), h.moment 0 (by decide)]
  exact Nat.mod_lt _ (by decide)

/-- A record that begins with a decimal digit is no end mark. -/
theorem isEnd_eq (h : img.HoldsAlarm index names a) : (img.recordAt index).isEnd = false := by
  have digit := h.half_zero_lt
  rw [show 14 * index = 2 * (7 * index) by omega, half_even] at digit
  change (img.byte (7 * index) == partitionEnd) = false
  rw [beq_eq_false_iff_ne]
  intro ends
  rw [ends] at digit
  exact absurd digit (by decide)

theorem tenths_eq (h : img.HoldsAlarm index names a) : (img.recordAt index).tenths = (a.moment.val : Int) := by
  rw [tenths_recordAt, decimalValue_of_holds h.moment, Nat.mod_eq_of_lt a.moment.isLt]

theorem repeating_eq (h : img.HoldsAlarm index names a) : (img.recordAt index).repeating = a.interval.isSome := by
  have read : (img.recordAt index).repeating = ((img.byte (7 * index + 5)).toNat % 16 == 1) := rfl
  rw [read, ← half_odd, show 2 * (7 * index + 5) + 1 = 14 * index + 11 by omega, Bool.eq_iff_iff, beq_iff_eq]
  exact h.repeats

theorem nameRegisters_eq (h : img.HoldsAlarm index names a) : (img.recordAt index).nameRegisters = names := by
  have read : (img.recordAt index).nameRegisters = (img.byte (7 * index + 6)).toNat % 16 := rfl
  rw [read, ← half_odd, show 2 * (7 * index + 6) + 1 = 14 * index + 13 by omega]
  exact h.count

theorem headRegisters_eq (h : img.HoldsAlarm index names a) : (img.recordAt index).headRegisters = a.head := by
  rw [Record.headRegisters, h.repeating_eq, StoredAlarm.head]

theorem span_eq (h : img.HoldsAlarm index names a) : (img.recordAt index).span = a.head + names := by
  rw [Record.span, h.headRegisters_eq, h.nameRegisters_eq]

theorem intervalOf_eq {v : Fin (10 ^ 7)} (h : img.HoldsAlarm index names a) (repeats : a.interval = some v) :
    intervalOf (img.registerAt (index + 1)) = (v.val / 10 : Nat) := by
  have read : intervalOf (img.registerAt (index + 1)) =
      decimalValue (digits (img.bytesFrom (7 * (index + 1) + 2) 3) (img.byte (7 * (index + 1) + 2 + 3))) / 10 := rfl
  rw [read, digits_bytesFrom, show 2 * (7 * (index + 1) + 2) = 14 * (index + 1) + 4 by omega,
    decimalValue_of_holds (h.interval v repeats), Nat.mod_eq_of_lt v.isLt]
  rfl

/-- A stored alarm is read as the alarm that it stands for. -/
theorem alarmAt_eq (h : img.HoldsAlarm index names a) (tz : Int) : img.alarmAt tz index = a.alarm tz := by
  have time : (img.alarmAt tz index).time = (a.alarm tz).time := by
    change (img.recordAt index).tenths / 10 - epoch1900 + tz = _
    rw [h.tenths_eq]
    rfl
  have interval : (img.alarmAt tz index).interval = (a.alarm tz).interval := by
    unfold alarmAt StoredAlarm.alarm
    rw [h.repeating_eq]
    cases repeats : a.interval with
    | none => rfl
    | some v => exact h.intervalOf_eq repeats
  have name : (img.alarmAt tz index).name = (a.alarm tz).name := by
    unfold alarmAt StoredAlarm.alarm
    rw [h.nameRegisters_eq, h.headRegisters_eq]
    cases named : a.name with
    | none =>
      rw [if_pos (h.unnamed.2 named)]
      rfl
    | some bs =>
      have hasName : names ≠ 0 := by
        intro noRegisters
        rw [h.unnamed.1 noRegisters] at named
        cases named
      rw [if_neg hasName, nameOf, h.name bs named]
      rfl
  calc img.alarmAt tz index
      = ⟨(img.alarmAt tz index).time, (img.recordAt index).repeating, (img.alarmAt tz index).interval,
          (img.alarmAt tz index).name⟩ := rfl
    _ = a.alarm tz := by rw [time, interval, name, h.repeating_eq]; rfl

end HoldsAlarm

/-- Reading a row of stored alarms finds these alarms one after the other. -/
theorem readRecords_of_holds {img : Image} {index stop : Nat} {as : List StoredAlarm}
    (holds : img.HoldsAlarms index as stop) (inside : stop ≤ registerCount) (tz : Int) (found : List Alarm)
    (log : List Log.Record) :
    (readRecords img tz index stop found).on log = (.ok (found ++ as.map fun a => a.alarm tz), log) := by
  induction holds generalizing found with
  | nil index => rw [readRecords_of_le (Nat.le_refl _), List.map_nil, List.append_nil]
  | @cons index names stop a as first rest ih =>
    have onward := rest.le
    have pos : 0 < a.head := by
      unfold StoredAlarm.head
      split <;> decide
    rw [readRecords_of_fits (by omega) (by rw [first.span_eq]; omega) first.isEnd_eq, first.span_eq, ← Nat.add_assoc,
      ih inside, first.alarmAt_eq, List.map_cons, List.append_assoc]
    rfl

/-- **Decoding undoes storing.** When the first register that starts with the mark of the alarm partition is followed by
the records of a row of alarms, and says how long the partition is with them and the last register of its own, the
alarms of the image are these alarms in their order. -/
theorem alarms_of_holds {img : Image} {as : List StoredAlarm} {start stop : Nat} (tz : Int) (base : 192 ≤ start)
    (below : start < img.status.programLimit)
    (first : ∀ index, 192 ≤ index → index < start → img.byte (7 * index) ≠ 0xAA) (mark : img.byte (7 * start) = 0xAA)
    (holds : img.HoldsAlarms (start + 1) as stop)
    (length : (img.byte (7 * start + 1)).toNat = 2 + (stop - (start + 1))) (inside : stop ≤ 1112) :
    (img.alarms tz).outcome = (.ok (as.map fun a => a.alarm tz), []) := by
  have onward := holds.le
  have partition : img.alarmPartition = .ok (some ⟨start, (img.byte (7 * start + 1)).toNat⟩) := by
    apply alarmPartitionFrom_of_first base
    · simp only [partitionBase]
      omega
    · simp only [registerCount]
      omega
    · exact first
    · exact mark
  rw [Traced.outcome_eq, alarms, partition, Traced.on_bind_of_ok (Traced.on_lift _)]
  dsimp only
  rw [length, show start + (2 + (stop - (start + 1))) - 1 = stop by omega]
  exact readRecords_of_holds holds inside tz [] []

/-- An image with these bytes from register 200 on, and the limit 300. -/
def withPartition (bs : List UInt8) : Image := (zero.withLimit 300).putAll (7 * 200) bs

section WithPartition

variable (bs : List UInt8)

theorem byte_withPartition {k : Nat} (inside : k < 700) : (withPartition bs).byte (7 * 200 + k) = bs.getD k 0 := by
  rw [withPartition, byte_putAll _ (by simp only [memorySize]; omega), if_pos (by omega), Nat.add_sub_cancel_left,
    byte_withLimit_of_ne _ (by omega) (by omega), byte_zero, List.getD_eq_getElem?_getD]

theorem bytesFrom_withPartition {k count : Nat} (inside : k + count ≤ 700) :
    (withPartition bs).bytesFrom (7 * 200 + k) count = (List.range count).map fun i => bs.getD (k + i) 0 := by
  apply List.map_congr_left
  intro i member
  rw [List.mem_range] at member
  rw [Nat.add_assoc]
  exact byte_withPartition bs (by omega)

theorem byte_withPartition_of_lt {index : Nat} (base : 192 ≤ index) (before : index < 200) :
    (withPartition bs).byte (7 * index) = 0 := by
  rw [withPartition, byte_putAll _ (by simp only [memorySize]; omega), if_neg (by omega),
    byte_withLimit_of_ne _ (by omega) (by omega), byte_zero]

theorem programLimit_withPartition : (withPartition bs).status.programLimit = 300 := by
  have same : (withPartition bs).status = (zero.withLimit 300).status := by
    apply status_congr
    intro loc _ high
    rw [withPartition, byte_putAll _ (by simp only [memorySize]; omega), if_neg (by omega)]
  rw [same, status_withLimit _ (by decide)]

/-- The partition is found when its bytes begin with the mark. -/
theorem alarmPartition_withPartition (mark : bs.getD 0 0 = partitionMark) :
    (withPartition bs).alarmPartition = .ok (some ⟨200, (bs.getD 1 0).toNat⟩) := by
  rw [alarmPartition, programLimit_withPartition, ← byte_withPartition bs (k := 1) (by decide)]
  apply alarmPartitionFrom_of_first (by decide) (by decide) (by decide)
  · intro index base before
    rw [byte_withPartition_of_lt bs base before]
    decide
  · exact (byte_withPartition bs (k := 0) (by decide)).trans mark

end WithPartition

/-- A partition with two alarms: one without a name, and one that repeats every hour and has its name in two registers.
Halves without a meaning are not zero, and there are zeros inside the name. -/
def twoAlarmsBytes : List UInt8 :=
  [0xAA, 0x07, 0x12, 0x34, 0x56, 0x78, 0x9A] ++
  [0x00, 0x00, 0x00, 0x00, 0x01, 0x02, 0xF0] ++
  [0x12, 0x34, 0x56, 0x78, 0x90, 0x11, 0x32] ++
  [0xFF, 0xAA, 0x00, 0x36, 0x00, 0x0F, 0xEE] ++
  [0x57, 0x00, 0x41, 0x4B, 0x45, 0x00, 0x00] ++
  [0x00, 0x55, 0x50, 0x00, 0x00, 0x00, 0x00] ++
  [0xF0, 0x00, 0x00, 0x00, 0x00, 0x00, 0x00]

/-- An image with this partition from register 200 on. -/
def twoAlarms : Image := (zero.withLimit 300).putAll (7 * 200) twoAlarmsBytes

theorem byte_twoAlarms {k : Nat} (inside : k < 49) : twoAlarms.byte (7 * 200 + k) = twoAlarmsBytes.getD k 0 :=
  byte_withPartition twoAlarmsBytes (by omega)

/-- A half of the partition, taken from its bytes. -/
def twoAlarmsHalf (k : Nat) : Nat :=
  if k % 2 = 0 then (twoAlarmsBytes.getD (k / 2) 0).toNat / 16 else (twoAlarmsBytes.getD (k / 2) 0).toNat % 16

theorem half_twoAlarms {k : Nat} (inside : k < 98) : twoAlarms.half (14 * 200 + k) = twoAlarmsHalf k := by
  rw [half, show (14 * 200 + k) / 2 = 7 * 200 + k / 2 by omega, show (14 * 200 + k) % 2 = k % 2 by omega,
    byte_twoAlarms (by omega)]
  rfl

theorem holdsDigits_twoAlarms (place : Nat) {count n : Nat} (inside : place + count ≤ 98)
    (digits : ∀ k < count, twoAlarmsHalf (place + k) = n / 10 ^ (count - 1 - k) % 10) :
    twoAlarms.HoldsDigits (14 * 200 + place) count n := by
  intro k below
  rw [Nat.add_assoc, half_twoAlarms (by omega), digits k below]

theorem holdsAlarm_plain : twoAlarms.HoldsAlarm 201 0 ⟨10, none, none⟩ := by
  constructor
  case moment =>
    exact holdsDigits_twoAlarms 14 (by decide) (by decide)
  case repeats =>
    rw [show 14 * 201 + 11 = 14 * 200 + 25 from rfl, half_twoAlarms (by decide)]
    decide
  case interval => simp
  case count =>
    rw [show 14 * 201 + 13 = 14 * 200 + 27 from rfl, half_twoAlarms (by decide)]
    decide
  case unnamed => simp
  case name => simp

theorem holdsAlarm_repeating : twoAlarms.HoldsAlarm 202 2
    ⟨12345678901, some 36000, some [0x57, 0x41, 0x4B, 0x45, 0x55, 0x50]⟩ := by
  constructor
  case moment =>
    exact holdsDigits_twoAlarms 28 (by decide) (by decide)
  case repeats =>
    rw [show 14 * 202 + 11 = 14 * 200 + 39 from rfl, half_twoAlarms (by decide)]
    decide
  case interval =>
    intro v interval
    cases interval
    exact holdsDigits_twoAlarms 46 (by decide) (by decide)
  case count =>
    rw [show 14 * 202 + 13 = 14 * 200 + 41 from rfl, half_twoAlarms (by decide)]
    decide
  case unnamed => simp
  case name =>
    intro bs named
    cases named
    have bytes : twoAlarms.bytesFrom (7 * 204) 14 = (List.range 14).map fun k => twoAlarmsBytes.getD (28 + k) 0 :=
      bytesFrom_withPartition twoAlarmsBytes (k := 28) (by decide)
    change (twoAlarms.bytesFrom (7 * 204) 14).filter (· != 0) = _
    rw [bytes]
    decide

/-- Two alarms are found on a clock an hour west of Greenwich. -/
theorem alarms_twoAlarms :
    200 < twoAlarms.status.programLimit ∧
      (∀ index, 192 ≤ index → index < 200 → twoAlarms.byte (7 * index) ≠ 0xAA) ∧ twoAlarms.byte (7 * 200) = 0xAA ∧
      twoAlarms.HoldsAlarms 201
        [⟨10, none, none⟩, ⟨12345678901, some 36000, some [0x57, 0x41, 0x4B, 0x45, 0x55, 0x50]⟩] 206 ∧
      (twoAlarms.byte (7 * 200 + 1)).toNat = 2 + (206 - (200 + 1)) ∧
      (twoAlarms.alarms 3600).outcome =
        (.ok [⟨1 - 2208988800 + 3600, false, 0, "ALARM"⟩, ⟨1234567890 - 2208988800 + 3600, true, 3600, "WAKEUP"⟩],
          []) := by
  have limit : twoAlarms.status.programLimit = 300 := programLimit_withPartition twoAlarmsBytes
  have below : 200 < twoAlarms.status.programLimit := by
    rw [limit]
    decide
  have first : ∀ index, 192 ≤ index → index < 200 → twoAlarms.byte (7 * index) ≠ 0xAA := by
    intro index base before
    have zero : twoAlarms.byte (7 * index) = 0 := byte_withPartition_of_lt twoAlarmsBytes base before
    rw [zero]
    decide
  have mark : twoAlarms.byte (7 * 200) = 0xAA := byte_twoAlarms (k := 0) (by decide)
  have length : (twoAlarms.byte (7 * 200 + 1)).toNat = 2 + (206 - (200 + 1)) := by
    rw [byte_twoAlarms (by decide)]
    rfl
  have holds : twoAlarms.HoldsAlarms 201 [⟨10, none, none⟩, _] 206 :=
    .cons holdsAlarm_plain (.cons holdsAlarm_repeating (.nil 206))
  exact ⟨below, first, mark, holds, length, alarms_of_holds 3600 (by decide) below first mark holds length (by decide)⟩

end Image

end CalcImage
