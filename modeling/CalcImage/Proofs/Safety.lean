import CalcImage.Proofs.Alarm.Records
import CalcImage.Proofs.Calendar
import CalcImage.Proofs.Injection.Refusal
import CalcImage.Proofs.Instruction.Local
import CalcImage.Proofs.Memory.Copy
import CalcImage.Proofs.Program.Faults
import CalcImage.Report

/-!
# The faults of operations on images

When the program limit is no higher than the first register outside memory, an operation on an image has no faults but
the tool's own (`Image.Guarded`), whatever else the image holds: no byte outside memory is touched, every name that is
looked up is there, and every alarm has a local time. When there is also room for a marker below the limit, and the
program top is inside memory, only an alarm that reaches beyond memory keeps an image from being summed up
(`Image.guarded_of_limit`).
-/

namespace CalcImage

open Alarm Walk

/-- What the text of an instruction is looked up with: a name that stands in its table, and bytes that enter digits. -/
structure Instruction.LookedUp (i : Instruction) : Prop where
  name : i.tableName ≠ some ""
  digits : i.shape = .digits → ∀ b ∈ i.bytes, isDigitByte b = true

namespace Report

/-- A number of at most five digits has a numeral. -/
theorem numeral_of_lt {n : Int} (small : n.natAbs < 100000) : numeral n = .ok (Text.ofInt n) :=
  numeral_of_isWritable (isWritable_of_natAbs_lt (d := 5) small (by decide))

theorem countRow_of_lt {count registers : Int} (counted purpose : String) (few : count.natAbs < 100000)
    (small : registers.natAbs < 100000) : ∃ row, countRow count counted registers purpose = .ok row := by
  rw [countRow, numeral_of_lt few, numeral_of_lt small]
  exact ⟨_, rfl⟩

variable {east : Int}

theorem alarmRows_of_times {as : List Alarm} (times : ∀ a ∈ as, ∃ d, Calendar.localTime east a.time = .ok d) :
    ∃ rows, alarmRows east as = .ok rows := by
  induction as with
  | nil => exact ⟨[], rfl⟩
  | cons a as ih =>
    obtain ⟨d, here⟩ := times a List.mem_cons_self
    obtain ⟨rows, rest⟩ := ih fun b member => times b (List.mem_cons_of_mem a member)
    rw [alarmRows, alarmRow, here, rest]
    exact ⟨_, rfl⟩

theorem alarmTable_of_times {as : List Alarm} (times : ∀ a ∈ as, ∃ d, Calendar.localTime east a.time = .ok d) :
    ∃ rows, alarmTable east as = .ok rows := by
  obtain ⟨rows, written⟩ := alarmRows_of_times times
  unfold alarmTable
  split
  · exact ⟨_, rfl⟩
  · rw [written]
    exact ⟨_, rfl⟩

/-- The numbers of a summary have at most five digits. -/
structure Small (s : Summary) : Prop where
  programs : s.catalog.programCount.natAbs < 100000
  labels : s.catalog.labelCount.natAbs < 100000
  alarms : (s.alarms.length : Int).natAbs < 100000
  used : s.usedRegisters.natAbs < 100000
  storage : s.storageRegisters.natAbs < 100000
  free : s.freeRegisters.natAbs < 100000

theorem summary_of_times {s : Summary} (times : ∀ a ∈ s.alarms, ∃ d, Calendar.localTime east a.time = .ok d)
    (small : Small s) : ∃ lines, summary east s = .ok lines := by
  obtain ⟨alarms, written⟩ := alarmTable_of_times times
  obtain ⟨programs, used⟩ := countRow_of_lt "Program(s)" "Used" small.programs small.used
  obtain ⟨labels, storage⟩ := countRow_of_lt "Label(s)  " "Storage" small.labels small.storage
  obtain ⟨count, free⟩ := countRow_of_lt "Alarm(s)  " "Free" small.alarms small.free
  rw [summary, written, countTable, used, storage, free]
  exact ⟨_, rfl⟩

end Report

namespace Image

/-- The lines that sum up an image, with a clock `tz` seconds west of Greenwich and a host `east` seconds east of it. -/
def summary (img : Image) (tz east : Int) : Traced (List String) := do
  let s ← Summary.ofImage img tz
  Report.summary east s

/-- Operations on an image, with such a clock and such a host, have no faults but the tool's own. -/
structure Guarded (img : Image) (tz east : Int) : Prop where
  catalog : Reports img.catalog
  findLabel : ∀ name, Reports (img.findLabel name)
  listing : ∀ name, Reports (img.listing name).outcome.1
  lookedUp : ∀ loc p, img.decode loc = .ok p → p.item.LookedUp
  marked : ∀ loc p, img.decode loc = .ok p → p.item.shape = .global → ∃ m, img.marker loc = .ok (some m)
  alarms : Reports (img.alarms tz).outcome.1
  summary : Reports (img.summary tz east).outcome.1
  inject : ∀ payload log, payload.stray = false → Reports ((Edit.inject payload).on ⟨img, log⟩).1

variable {img : Image} {tz east : Int}

theorem programTop_bounds (img : Image) : -1 ≤ img.status.programTop ∧ img.status.programTop < 4095 := by
  have high := (img.byte 95).toNat_lt
  have low := (img.byte 96).toNat_lt
  unfold status
  dsimp only
  omega

/-- Whatever a register holds, its alarm has a local time. -/
theorem exists_localTime (index : Nat) (clock : tz.natAbs ≤ 86400) (zone : east.natAbs ≤ 86400) :
    ∃ d, Calendar.localTime east (img.alarmAt tz index).time = .ok d := by
  have bounds := time_alarmAt img tz index
  exact Calendar.localTime_of_bounds (by omega) (by omega) zone

/-- What is counted of an image with this catalog and these alarms. -/
def countedWith (img : Image) (c : Catalog) (as : List Alarm) : Summary :=
  ⟨c, as, img.status.programTop, img.status.programLimit, img.bottom⟩

theorem small_countedWith (limit : img.status.programLimit ≤ registerCount) {c : Catalog} {as : List Alarm}
    (cataloged : img.catalog = .ok c) (few : as.length < 256) : Report.Small (img.countedWith c as) := by
  have counts := counts_catalog cataloged
  have top := programTop_bounds img
  have bottom : img.bottom ≤ img.status.programLimit := img.bottomBelow_le _
  simp only [registerCount, memorySize] at limit counts
  unfold countedWith
  constructor
  case programs =>
    dsimp only
    omega
  case labels =>
    dsimp only
    omega
  case alarms =>
    dsimp only
    omega
  case used =>
    simp only [Summary.usedRegisters, Summary.programRegisters, Summary.partitionRegisters]
    omega
  case storage =>
    simp only [Summary.storageRegisters, Summary.memoryTop]
    omega
  case free =>
    simp only [Summary.freeRegisters]
    omega

theorem on_ofImage_of_ok (limit : img.status.programLimit ≤ registerCount) {c : Catalog} {as : List Alarm}
    {log log' : List Log.Record} (cataloged : img.catalog = .ok c) (found : (img.alarms tz).on log = (.ok as, log')) :
    (Summary.ofImage img tz).on log = (.ok (img.countedWith c as), log') := by
  rw [Summary.ofImage, Summary.ofAlarms, cataloged, Traced.on_bind_of_ok (Traced.on_lift _),
    Traced.on_bind_of_ok found]
  dsimp only
  rw [programBottom_of_le limit]
  rfl

theorem on_ofImage_of_error {c : Catalog} {f : Fault} {log log' : List Log.Record} (cataloged : img.catalog = .ok c)
    (failed : (img.alarms tz).on log = (.error f, log')) : (Summary.ofImage img tz).on log = (.error f, log') := by
  rw [Summary.ofImage, Summary.ofAlarms, cataloged, Traced.on_bind_of_ok (Traced.on_lift _),
    Traced.on_bind_of_error failed]

/-- The summary of an image is written, or it ends in the fault of the catalog, or in that of an alarm that reaches
beyond memory. -/
theorem summary_cases (limit : img.status.programLimit ≤ registerCount) (clock : tz.natAbs ≤ 86400)
    (zone : east.natAbs ≤ 86400) (log : List Log.Record) :
    (∃ lines log', (img.summary tz east).on log = (.ok lines, log')) ∨
      (∃ f, img.catalog = .error f ∧ (img.summary tz east).on log = (.error f, log)) ∨
      img.AlarmBeyond ∧ (img.summary tz east).on log = (.error (.registerOutside registerCount), log) := by
  cases cataloged : img.catalog with
  | error f =>
    refine .inr (.inl ⟨f, rfl, ?_⟩)
    rw [summary, Summary.ofImage, Summary.ofAlarms, cataloged]
    rfl
  | ok c =>
    rcases alarms_cases limit tz log with ⟨as, log', found, few, origin⟩ | ⟨failed, beyond⟩
    · left
      have times : ∀ a ∈ as, ∃ d, Calendar.localTime east a.time = .ok d := by
        intro a member
        obtain ⟨k, rfl⟩ := origin a member
        exact exists_localTime k clock zone
      obtain ⟨lines, written⟩ := Report.summary_of_times times (small_countedWith limit cataloged few)
      refine ⟨lines, log', ?_⟩
      rw [summary, Traced.on_bind_of_ok (on_ofImage_of_ok limit cataloged found), written]
      rfl
    · refine .inr (.inr ⟨beyond, ?_⟩)
      rw [summary, Traced.on_bind_of_error (on_ofImage_of_error cataloged failed)]

/-- The objections that an image with such a limit has to bytes are the tool's own. -/
theorem reported_of_refusal (limit : img.status.programLimit ≤ registerCount) {payload : Payload}
    (sound : payload.stray = false) {kind : Fault.Kind} (refused : img.refusal payload = some kind) :
    kind.reported = true := by
  unfold refusal at refused
  dsimp only at refused
  rw [sound, if_neg Bool.false_ne_true] at refused
  split at refused
  · cases refused
    rfl
  · rw [if_neg (by omega)] at refused
    split at refused
    · cases refused
      rfl
    · split at refused
      · cases refused
        rfl
      · cases refused

theorem reports_inject (limit : img.status.programLimit ≤ registerCount) {payload : Payload}
    (sound : payload.stray = false) (log : List Log.Record) : Reports ((Edit.inject payload).on ⟨img, log⟩).1 := by
  rcases Edit.inject_cases payload ⟨img, log⟩ with ⟨bs, log', -, -, injected⟩ | ⟨f, log', refuses, refused⟩
  · rw [injected]
    exact .ok _
  · rw [refused]
    exact .error (reported_of_refusal limit sound (refusal_of_refuses refuses))

theorem lookedUp_of_decode {loc : Int} {p : Placed Instruction} (decoded : img.decode loc = .ok p) :
    p.item.LookedUp := by
  obtain ⟨place, rfl, -⟩ := inside_of_decode decoded
  obtain ⟨-, rest, taken⟩ := read_of_decoded decoded
  constructor
  case name => exact Instruction.tableName_ne_empty p.item
  case digits =>
    rw [(Instruction.eq_append_of_read taken).1] at taken
    exact Instruction.isDigitByte_of_read taken

theorem marker_of_decode {loc : Int} {p : Placed Instruction} (decoded : img.decode loc = .ok p)
    (global : p.item.shape = .global) : ∃ m, img.marker loc = .ok (some m) := by
  obtain ⟨place, rfl, inside⟩ := inside_of_decode decoded
  obtain ⟨-, rest, taken⟩ := read_of_decoded decoded
  rw [marker_eq inside, Instruction.marker_read_of_read taken global]
  exact ⟨_, rfl⟩

theorem reports_alarms (limit : img.status.programLimit ≤ registerCount) : Reports (img.alarms tz).outcome.1 := by
  rw [Traced.outcome_eq]
  rcases alarms_cases limit tz [] with ⟨as, log, found, -⟩ | ⟨failed, -⟩
  · rw [found]
    exact .ok _
  · rw [failed]
    exact .error rfl

theorem reports_summary (limit : img.status.programLimit ≤ registerCount) (clock : tz.natAbs ≤ 86400)
    (zone : east.natAbs ≤ 86400) : Reports (img.summary tz east).outcome.1 := by
  rw [Traced.outcome_eq]
  rcases summary_cases limit clock zone [] with ⟨lines, log, written⟩ | ⟨f, uncataloged, failed⟩ | ⟨-, failed⟩
  · rw [written]
    exact .ok _
  · rw [failed]
    exact .error (reports_catalog img f uncataloged)
  · rw [failed]
    exact .error rfl

/-- **Operations on images are guarded.** With a program limit up to the first register outside memory, and with offsets
of at most a day, every operation has its result or a fault of the tool's own. When there is room for a marker below the
limit as well, and the program top is inside memory, the catalog and the search for a label have their results, and so
has the summary unless an alarm reaches beyond memory. -/
theorem guarded_of_limit (limit : img.status.programLimit ≤ 1112) (clock : tz.natAbs ≤ 86400)
    (zone : east.natAbs ≤ 86400) :
    img.Guarded tz east ∧
      (3 ≤ img.status.programLimit → img.status.programTop ≤ 1111 →
        (∃ c, img.catalog = .ok c) ∧ (∀ name, ∃ found, img.findLabel name = .ok found) ∧
          ∀ f, (img.summary tz east).outcome.1 = .error f →
            f = .registerOutside 1112 ∧ f.kind = .walk ∧ img.AlarmBeyond) := by
  constructor
  · constructor
    case catalog => exact reports_catalog img
    case findLabel => exact reports_findLabel img
    case listing => exact reports_listing img
    case lookedUp => exact fun loc p => lookedUp_of_decode
    case marked => exact fun loc p => marker_of_decode
    case alarms => exact reports_alarms limit
    case summary => exact reports_summary limit clock zone
    case inject => exact fun payload log sound => reports_inject limit sound log
  · intro enough high
    have catalog := exists_catalog enough high
    refine ⟨catalog, fun name => exists_findLabel name enough high, ?_⟩
    intro f failed
    rw [Traced.outcome_eq] at failed
    rcases summary_cases limit clock zone [] with ⟨lines, log, written⟩ | ⟨f', uncataloged, -⟩ | ⟨beyond, stopped⟩
    · rw [written] at failed
      cases failed
    · obtain ⟨c, cataloged⟩ := catalog
      rw [cataloged] at uncataloged
      cases uncataloged
    · rw [stopped] at failed
      cases failed
      exact ⟨rfl, rfl, beyond⟩

/-- The last two registers of memory: an alarm partition, and an alarm that repeats and has five registers of name. -/
def edgeBytes : List UInt8 :=
  [0xAA, 0x09, 0x00, 0x00, 0x00, 0x00, 0x00] ++ [0x12, 0x34, 0x56, 0x78, 0x90, 0x11, 0x05]

/-- An image with its program top in the last register of memory, its program limit just outside, and these alarms. -/
def atTheEdge : Image := (zero.putAll 95 [0x45, 0x84, 0x58]).putAll (7 * 1110) edgeBytes

theorem byte_edge {k : Nat} (inside : k < 14) : atTheEdge.byte (7 * 1110 + k) = edgeBytes.getD k 0 := by
  have beyond : ([0x45, 0x84, 0x58] : List UInt8)[7 * 1110 + k - 95]? = none := by
    apply List.getElem?_eq_none
    simp only [List.length_cons, List.length_nil]
    omega
  rw [atTheEdge, byte_putAll _ (by simp only [memorySize]; omega), if_pos (by omega), Nat.add_sub_cancel_left,
    byte_putAll _ (by simp only [memorySize]; omega), if_pos (by omega), beyond, Option.getD_none, byte_zero,
    List.getD_eq_getElem?_getD]

theorem byte_atTheEdge (loc : Nat) (low : 95 ≤ loc) (high : loc < 7 * 1110) :
    atTheEdge.byte loc = ([0x45, 0x84, 0x58] : List UInt8).getD (loc - 95) 0 := by
  rw [atTheEdge, byte_putAll _ (by simp only [memorySize]; omega), if_neg (by omega),
    byte_putAll _ (by simp only [memorySize]; omega), if_pos low, byte_zero, List.getD_eq_getElem?_getD]

theorem status_atTheEdge : atTheEdge.status.programLimit = 1112 ∧ atTheEdge.status.programTop = 1111 := by
  unfold status
  rw [byte_atTheEdge 95 (by decide) (by decide), byte_atTheEdge 96 (by decide) (by decide),
    byte_atTheEdge 97 (by decide) (by decide)]
  decide

theorem recordAt_atTheEdge : atTheEdge.recordAt 1111 = ⟨[0x12, 0x34, 0x56, 0x78, 0x90, 0x11, 0x05]⟩ := by
  have bytes : atTheEdge.registerAt 1111 = (List.range 7).map fun k => edgeBytes.getD (7 + k) 0 := by
    apply List.map_congr_left
    intro k member
    rw [List.mem_range] at member
    rw [← byte_edge (by omega), ← Nat.add_assoc]
  rw [recordAt, bytes]
  decide

theorem alarms_atTheEdge : (atTheEdge.alarms 86400).on [] = (.error (.registerOutside 1112), []) := by
  have other : ∀ k, 192 ≤ k → k < 1110 → atTheEdge.byte (7 * k) ≠ partitionMark := by
    intro k low high
    rw [byte_atTheEdge _ (by omega) (by omega), List.getD_eq_getElem?_getD, List.getElem?_eq_none (by simp; omega)]
    decide
  have mark : atTheEdge.byte (7 * 1110) = partitionMark := byte_edge (k := 0) (by decide)
  have length : atTheEdge.byte (7 * 1110 + 1) = 0x09 := byte_edge (k := 1) (by decide)
  have partition : atTheEdge.alarmPartition = .ok (some ⟨1110, 9⟩) := by
    have found : atTheEdge.alarmPartitionFrom 192 920 = _ :=
      alarmPartitionFrom_of_first (by decide) (by decide) (by decide) other mark
    rw [alarmPartition, status_atTheEdge.1]
    change atTheEdge.alarmPartitionFrom 192 920 = _
    rw [found, length]
    rfl
  have read : (Alarm.readRecords atTheEdge 86400 1111 1118 []).on [] = (.error (.registerOutside 1112), []) := by
    apply readRecords_of_beyond
    · decide
    · decide
    · rw [recordAt_atTheEdge]
      decide
    · rw [recordAt_atTheEdge]
      decide
  rw [alarms, partition, Traced.on_bind_of_ok (Traced.on_lift _)]
  exact read

/-- The alarm in the last register has no room for its interval and its name, so the image is not summed up. -/
theorem summary_atTheEdge :
    atTheEdge.status.programLimit = 1112 ∧ atTheEdge.status.programTop = 1111 ∧ atTheEdge.Guarded 86400 (-86400) ∧
      (∃ c, atTheEdge.catalog = .ok c) ∧
      (atTheEdge.summary 86400 (-86400)).outcome.1 = .error (.registerOutside 1112) ∧ atTheEdge.AlarmBeyond := by
  obtain ⟨limit, top⟩ := status_atTheEdge
  obtain ⟨guarded, inside⟩ := guarded_of_limit (Nat.le_of_eq limit) (show (86400 : Int).natAbs ≤ 86400 by decide)
    (show (-86400 : Int).natAbs ≤ 86400 by decide)
  obtain ⟨⟨c, cataloged⟩, -, onlyBeyond⟩ := inside (by omega) (by omega)
  have failed : (atTheEdge.summary 86400 (-86400)).outcome.1 = .error (.registerOutside 1112) := by
    rw [Traced.outcome_eq, summary, Traced.on_bind_of_error (on_ofImage_of_error cataloged alarms_atTheEdge)]
  obtain ⟨-, -, beyond⟩ := onlyBeyond _ failed
  exact ⟨limit, top, guarded, ⟨c, cataloged⟩, failed, beyond⟩

end Image

end CalcImage
