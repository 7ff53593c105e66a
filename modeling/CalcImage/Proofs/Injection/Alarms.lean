import CalcImage.Proofs.Alarm.Stored
import CalcImage.Proofs.Injection.Run

/-!
# Alarms after an injection

The partition of the alarms is searched from the base of the partitions upwards, and the room of an injection from the
limit downwards. What injections keep (`Kept`) is enough for the alarms: the partition is found again when it begins
below the new limit, and the alarms are decoded again when all registers that they are read from lie below it
(`Image.AlarmRegister`). A closed partition ends in a register that no injection passes (`Image.ClosedPartition`).
-/

namespace CalcImage

open Alarm
open Injection (registersFor)

namespace Image

/-- Records that are read from a register on up to the register `stop` take bytes of the register `k`. Of a record that
is an end mark the first register is read, and of every other one all registers. -/
def ReadsFrom (img : Image) (stop index k : Nat) : Prop :=
  ∃ first, img.Begins stop index first ∧
    (k = first ∨ (img.recordAt first).isEnd = false ∧ first ≤ k ∧ k < first + (img.recordAt first).span)

/-- The alarms are decoded from the register `k`: it is searched for the mark of the partition, up to the first one that
has it, or records are read from it. -/
def AlarmRegister (img : Image) (k : Nat) : Prop :=
  ∃ p, img.alarmPartition = .ok (some p) ∧
    (partitionBase ≤ k ∧ k ≤ p.start ∨ img.ReadsFrom (p.start + p.length - 1) (p.start + 1) k)

/-- The alarm partition ends below the limit, in a register that starts with the end marker of the partitions, and its
records end before that register. -/
structure ClosedPartition (img : Image) (p : Partition) : Prop where
  partition : img.alarmPartition = .ok (some p)
  length : 2 ≤ p.length
  records : ∀ k, img.Begins (p.start + p.length - 1) (p.start + 1) k → (img.recordAt k).isEnd = false →
    k + (img.recordAt k).span ≤ p.start + p.length - 1
  below : p.start + p.length - 1 < img.status.programLimit
  ends : img.byte (7 * (p.start + p.length - 1)) = 0xF0

end Image

/-- What is left of the alarms when programs have been injected. -/
structure AlarmsKept (before after : Image) : Prop where
  partition : ∃ found, before.alarmPartition = .ok found ∧
    after.alarmPartition = .ok (found.filter fun p => p.start < after.status.programLimit)
  alarms : (∀ k, before.AlarmRegister k → k < after.status.programLimit) →
    ∀ tz, (after.alarms tz).outcome = (before.alarms tz).outcome
  closed : ∀ p, before.ClosedPartition p →
    after.alarmPartition = .ok (some p) ∧ ∀ tz, (after.alarms tz).outcome = (before.alarms tz).outcome

namespace Image

variable {img img' : Image}

section Search

variable {index count limit : Nat}

/-- A search that ends at a lower register finds the partition when it begins below that register. -/
theorem alarmPartitionFrom_below (inside : index + count ≤ registerCount) (covered : limit ≤ index + count)
    (same : ∀ loc, index ≤ loc / 7 → loc / 7 < limit → img'.byte loc = img.byte loc) :
    ∃ found, img.alarmPartitionFrom index count = .ok found ∧
      img'.alarmPartitionFrom index (limit - index) = .ok (found.filter fun p => p.start < limit) := by
  induction count generalizing index with
  | zero =>
    rw [show limit - index = 0 by omega]
    exact ⟨none, rfl, rfl⟩
  | succ count ih =>
    rcases Nat.lt_or_ge index limit with below | above
    · obtain ⟨rest, left⟩ : ∃ rest, limit - index = rest + 1 := ⟨limit - index - 1, by omega⟩
      have first : img'.byte (7 * index) = img.byte (7 * index) := same _ (by omega) (by omega)
      by_cases mark : img.byte (7 * index) = partitionMark
      · refine ⟨_, alarmPartitionFrom_of_eq (by omega) mark, ?_⟩
        rw [left, alarmPartitionFrom_of_eq (by omega) (first.trans mark), same (7 * index + 1) (by omega) (by omega),
          Option.filter_some_pos (by simpa using below)]
      · have mark' : img'.byte (7 * index) ≠ partitionMark := by rwa [first]
        obtain ⟨found, search, search'⟩ :=
          @ih (index + 1) (by omega) (by omega) fun loc low high => same loc (by omega) high
        refine ⟨found, ?_, ?_⟩
        · rw [alarmPartitionFrom_of_ne (by omega) mark, search]
        · rw [left, alarmPartitionFrom_of_ne (by omega) mark', show rest = limit - (index + 1) by omega, search']
    · rw [show limit - index = 0 by omega]
      rcases alarmPartitionFrom_cases inside with unfound | ⟨p, found⟩
      · exact ⟨none, unfound, rfl⟩
      · have bounds := alarmPartitionFrom_bounds found
        refine ⟨some p, found, ?_⟩
        rw [Option.filter_some_neg (by simpa using Nat.le_trans above bounds.1)]
        rfl

end Search

section Records

variable {index stop k : Nat}

theorem ReadsFrom.le (reads : img.ReadsFrom stop index k) : index ≤ k := by
  obtain ⟨first, begins, here | ⟨-, low, -⟩⟩ := reads
  · exact here ▸ begins.le
  · exact Nat.le_trans begins.le low

theorem recordAt_congr (same : ∀ loc, loc / 7 = index → img'.byte loc = img.byte loc) :
    img'.recordAt index = img.recordAt index := by
  unfold recordAt
  rw [registerAt_congr fun k inside => same _ (by omega)]

/-- An alarm depends on the registers of its record only. -/
theorem alarmAt_congr (tz : Int)
    (same : ∀ loc, index ≤ loc / 7 → loc / 7 < index + (img.recordAt index).span → img'.byte loc = img.byte loc) :
    img'.alarmAt tz index = img.alarmAt tz index := by
  have pos := (img.recordAt index).span_pos
  have span : (img.recordAt index).span = (img.recordAt index).headRegisters + (img.recordAt index).nameRegisters := rfl
  have record : img'.recordAt index = img.recordAt index := recordAt_congr fun loc here => same loc (by omega) (by omega)
  have interval (repeats : (img.recordAt index).repeating = true) :
      img'.registerAt (index + 1) = img.registerAt (index + 1) := by
    rw [Record.headRegisters, if_pos repeats] at span
    exact registerAt_congr fun k inside => same _ (by omega) (by omega)
  have name : img'.bytesFrom (7 * (index + (img.recordAt index).headRegisters)) (7 * (img.recordAt index).nameRegisters) =
      img.bytesFrom (7 * (index + (img.recordAt index).headRegisters)) (7 * (img.recordAt index).nameRegisters) := by
    apply List.map_congr_left
    intro k member
    rw [List.mem_range] at member
    exact same _ (by omega) (by omega)
  unfold alarmAt
  rw [record, name]
  by_cases repeats : (img.recordAt index).repeating = true
  · rw [interval repeats]
  · rw [if_neg repeats, if_neg repeats]

/-- Reading records depends on the registers that it takes bytes of. -/
theorem on_readRecords_congr (inside : index ≤ registerCount)
    (same : ∀ loc, img.ReadsFrom stop index (loc / 7) → img'.byte loc = img.byte loc) (tz : Int) (found : List Alarm)
    (log : List Log.Record) :
    (readRecords img' tz index stop found).on log = (readRecords img tz index stop found).on log := by
  revert same found
  apply @reading_induction img index stop _ inside
  case above =>
    intro index above _ found
    rw [readRecords_of_le above, readRecords_of_le above]
  case ends =>
    intro index below ends same found
    have record : img'.recordAt index = img.recordAt index :=
      recordAt_congr fun loc here => same loc ⟨index, .here below, .inl here⟩
    rw [readRecords_of_end below ends, readRecords_of_end below (record ▸ ends)]
  case beyond =>
    intro index below inside beyond goesOn same found
    have record : img'.recordAt index = img.recordAt index :=
      recordAt_congr fun loc here => same loc ⟨index, .here below, .inl here⟩
    rw [readRecords_of_beyond below inside beyond goesOn,
      readRecords_of_beyond below inside (record ▸ beyond) (record ▸ goesOn)]
  case fits =>
    intro index below fits goesOn ih same found
    have record : img'.recordAt index = img.recordAt index :=
      recordAt_congr fun loc here => same loc ⟨index, .here below, .inl here⟩
    have alarm : img'.alarmAt tz index = img.alarmAt tz index :=
      alarmAt_congr tz fun loc low high => same loc ⟨index, .here below, .inr ⟨goesOn, low, high⟩⟩
    rw [readRecords_of_fits below fits goesOn, readRecords_of_fits below (record ▸ fits) (record ▸ goesOn), record, alarm]
    refine ih ?_ _
    rintro loc ⟨first, begins, reads⟩
    exact same loc ⟨first, .later goesOn begins, reads⟩

end Records

/-- The first register of a partition is searched, and lies below the limit. -/
theorem alarmPartition_bounds {p : Partition} (partition : img.alarmPartition = .ok (some p)) :
    partitionBase ≤ p.start ∧ p.start < img.status.programLimit := by
  have bounds := alarmPartitionFrom_bounds partition
  omega

theorem alarmRegister_start {p : Partition} (partition : img.alarmPartition = .ok (some p)) : img.AlarmRegister p.start :=
  ⟨p, partition, .inl ⟨(alarmPartition_bounds partition).1, Nat.le_refl _⟩⟩

/-- The registers of a closed partition lie below the program bottom. -/
theorem ClosedPartition.lt_bottom {p : Partition} {k : Nat} (closed : img.ClosedPartition p)
    (reads : img.AlarmRegister k) : k < img.bottom := by
  have length := closed.length
  have last : p.start + p.length - 1 < img.bottom := lt_bottomBelow closed.below closed.ends
  obtain ⟨q, partition, reads⟩ := reads
  obtain rfl : p = q := by
    rw [closed.partition] at partition
    cases partition
    rfl
  rcases reads with ⟨-, searched⟩ | ⟨first, begins, here | ⟨goesOn, -, belongs⟩⟩
  · omega
  · have := begins.lt
    omega
  · have := closed.records first begins goesOn
    omega

/-- The records of stored alarms end before the register after them. -/
theorem HoldsAlarms.fits {index k stop : Nat} {as : List StoredAlarm} (holds : img.HoldsAlarms index as stop)
    (begins : img.Begins stop index k) : k + (img.recordAt k).span ≤ stop := by
  induction holds with
  | nil index => exact absurd begins.lt (Nat.not_lt.2 begins.le)
  | cons first rest ih =>
    have onward := rest.le
    cases begins with
    | here below =>
      rw [first.span_eq]
      omega
    | later goesOn begins =>
      rw [first.span_eq, ← Nat.add_assoc] at begins
      exact ih begins

/-- After the partition there are zeros. -/
theorem byte_twoAlarms_of_le {index : Nat} (above : 207 ≤ index) (inside : index < 300) :
    twoAlarms.byte (7 * index) = 0 := by
  obtain ⟨k, rfl⟩ := Nat.exists_eq_add_of_le (show 200 ≤ index by omega)
  have byte : twoAlarms.byte (7 * 200 + 7 * k) = twoAlarmsBytes.getD (7 * k) 0 :=
    byte_withPartition twoAlarmsBytes (by omega)
  rw [Nat.mul_add, byte, List.getD_eq_getElem?_getD, List.getElem?_eq_none (by change 49 ≤ _; omega), Option.getD_none]

theorem programLimit_twoAlarms : twoAlarms.status.programLimit = 300 :=
  programLimit_withPartition twoAlarmsBytes

theorem bottom_twoAlarms_le : twoAlarms.bottom ≤ 207 := by
  apply bottomBelow_le_of_clear (by decide)
  intro index above below
  rw [programLimit_twoAlarms] at below
  rw [byte_twoAlarms_of_le above below]
  decide

theorem closedPartition_twoAlarms : twoAlarms.ClosedPartition ⟨200, 7⟩ := by
  have holds : twoAlarms.HoldsAlarms 201 [⟨10, none, none⟩, _] 206 :=
    .cons holdsAlarm_plain (.cons holdsAlarm_repeating (.nil 206))
  constructor
  case partition => exact alarmPartition_withPartition twoAlarmsBytes rfl
  case length => decide
  case records =>
    intro k begins _
    exact holds.fits begins
  case below =>
    rw [programLimit_twoAlarms]
    decide
  case ends => exact byte_twoAlarms (k := 42) (by decide)

end Image

namespace Kept

variable {a b : Image}

/-- The partitions are kept up to the new limit. -/
theorem byte_of_below (kept : Kept a b) {loc : Nat} (low : partitionBase ≤ loc / 7)
    (high : loc / 7 < b.status.programLimit) : b.byte loc = a.byte loc := by
  simp only [partitionBase] at low
  exact kept.bytes loc (by omega) (by omega) (.inl high)

/-- The alarm partition is found again when it begins below the new limit. -/
theorem alarmPartition (kept : Kept a b) (inside : a.status.programLimit ≤ registerCount) :
    ∃ found, a.alarmPartition = .ok found ∧
      b.alarmPartition = .ok (found.filter fun p => p.start < b.status.programLimit) := by
  have down := kept.limit_le
  exact Image.alarmPartitionFrom_below (by simp only [partitionBase, registerCount] at inside ⊢; omega) (by omega)
    fun loc low high => kept.byte_of_below low high

theorem alarmPartition_of_some (kept : Kept a b) (inside : a.status.programLimit ≤ registerCount) {p : Partition}
    (partition : a.alarmPartition = .ok (some p)) (below : p.start < b.status.programLimit) :
    b.alarmPartition = .ok (some p) := by
  obtain ⟨found, before, after⟩ := kept.alarmPartition inside
  obtain rfl : some p = found := Except.ok.inj (partition.symm.trans before)
  rwa [Option.filter_some_pos (by simpa using below)] at after

/-- The alarms are decoded again when their registers lie below the new limit. -/
theorem outcome_alarms (kept : Kept a b) (inside : a.status.programLimit ≤ registerCount)
    (reads : ∀ k, a.AlarmRegister k → k < b.status.programLimit) (tz : Int) :
    (b.alarms tz).outcome = (a.alarms tz).outcome := by
  have down := kept.limit_le
  obtain ⟨found, before, after⟩ := kept.alarmPartition inside
  cases found with
  | none => rw [Traced.outcome_eq, Traced.outcome_eq, Image.on_alarms_of_none before, Image.on_alarms_of_none after]
  | some p =>
    have bounds := Image.alarmPartition_bounds before
    have again := kept.alarmPartition_of_some inside before (reads _ (Image.alarmRegister_start before))
    rw [Traced.outcome_eq, Traced.outcome_eq, Image.on_alarms_of_some before, Image.on_alarms_of_some again]
    apply Image.on_readRecords_congr (by omega)
    intro loc read
    have := Image.ReadsFrom.le read
    exact kept.byte_of_below (by omega) (reads _ ⟨p, before, .inr read⟩)

/-- What injections keep is enough for the alarms. -/
theorem alarmsKept (kept : Kept a b) (inside : a.status.programLimit ≤ registerCount) : AlarmsKept a b := by
  constructor
  case partition => exact kept.alarmPartition inside
  case alarms => exact kept.outcome_alarms inside
  case closed =>
    intro p closed
    have room : a.bottom ≤ b.status.programLimit := kept.bottom ▸ Image.bottomBelow_le _
    have reads (k : Nat) (read : a.AlarmRegister k) : k < b.status.programLimit :=
      Nat.lt_of_lt_of_le (closed.lt_bottom read) room
    have start := reads _ (Image.alarmRegister_start closed.partition)
    exact ⟨kept.alarmPartition_of_some inside closed.partition start, kept.outcome_alarms inside reads⟩

end Kept

/-- **Alarms outlast injections.** After an injection the alarm partition is found again when it begins below the new
limit, and is gone otherwise; the alarms are the same when all registers that they were decoded from lie below the new
limit; and a closed partition always stays, with its alarms. -/
theorem alarmsKept_of_inject {payload : Payload} {d d' : Desk} {i : Injection}
    (success : (Edit.inject payload).on d = (.ok i, d')) : AlarmsKept d.image d'.image := by
  rcases Edit.inject_cases payload d with ⟨bs, log, -, admits, injected⟩ | ⟨f, log, -, refused⟩
  · rw [injected] at success
    cases success
    exact admits.kept.alarmsKept (Nat.le_of_lt admits.inside)
  · rw [refused] at success
    cases success

/-- All free registers above a closed partition with two alarms are filled. -/
theorem alarmsKept_twoAlarms :
    ∃ i d', (Edit.inject (.ofBytes (List.replicate 651 0x85))).on ⟨Image.twoAlarms, []⟩ = (.ok i, d') ∧
      Image.twoAlarms.ClosedPartition ⟨200, 7⟩ ∧ AlarmsKept Image.twoAlarms d'.image := by
  have admits : Image.twoAlarms.Admits (List.replicate 651 0x85) := by
    constructor
    case nonempty => exact List.cons_ne_nil _ _
    case inside => rw [Image.programLimit_twoAlarms, registerCount]; omega
    case room =>
      have bottom := Image.bottom_twoAlarms_le
      rw [Image.programLimit_twoAlarms, List.length_replicate, registersFor]
      omega
  obtain ⟨log, success⟩ := Edit.inject_of_admits (d := ⟨Image.twoAlarms, []⟩) (Payload.bytes_ofBytes _) admits
  have kept := alarmsKept_of_inject success
  exact ⟨_, _, success, Image.closedPartition_twoAlarms, kept⟩

end CalcImage
