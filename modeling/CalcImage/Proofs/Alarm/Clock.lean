import CalcImage.Proofs.Alarm.Stored
import CalcImage.Proofs.Calendar.Gregorian
import CalcImage.Proofs.Safety

/-!
# Alarms and clocks

Reading alarms comes to the same records whatever the offset of the clock is, and the offset only moves their times
(`Image.on_alarms_uniform`). A host that takes the offset of its own zone for the clock adds it again when it shows a
time, so the two cancel out: what is shown is the moment that the first eleven halves of the record spell
(`Image.storedTenths`), in the time that the calculator itself shows, and no host differs from another one
(`Image.alarms_wallClock`).
-/

namespace CalcImage

open Alarm

/-- The alarm some seconds later. -/
def Alarm.later (a : Alarm) (seconds : Int) : Alarm := { a with time := a.time + seconds }

namespace Image

/-- A record of the alarm partition begins in the register `k`. -/
def HasRecord (img : Image) (k : Nat) : Prop :=
  ∃ p, img.alarmPartition = .ok (some p) ∧ img.Begins (p.start + p.length - 1) (p.start + 1) k

/-- Tenths of a second since the beginning of 1900, as a record that begins in the register `k` stores them: its first
eleven halves. -/
def storedTenths (img : Image) (k : Nat) : Nat := img.halvesValue (14 * k) 11

/-- The table of alarms that a host `east` seconds east of Greenwich shows when no offset is given. -/
def alarmLines (img : Image) (east : Int) : Except Fault (List String) := do
  let as ← (img.alarms (Calendar.westOffset east)).outcome.1
  Report.alarmTable east as

variable {img : Image} {index stop : Nat}

section Uniform

/-- **Reading records does not depend on the clock.** The same records are found on every clock, with the same records of
the log, and each of them begins in the partition. -/
theorem on_readRecords_uniform {img : Image} {index stop : Nat} (inside : index ≤ registerCount) (before : List Nat)
    (log : List Log.Record) :
    ∃ (found : Except Fault (List Nat)) (log' : List Log.Record),
      (∀ ks, found = .ok ks → ∀ k ∈ ks, k ∈ before ∨ img.Begins stop index k) ∧
      ∀ tz, (readRecords img tz index stop (before.map (img.alarmAt tz))).on log =
        (found.map (List.map (img.alarmAt tz)), log') := by
  revert before
  apply reading_induction inside
  case above =>
    intro index above before
    refine ⟨.ok before, log, ?_, fun tz => readRecords_of_le above⟩
    intro ks all k member
    cases all
    exact .inl member
  case ends =>
    intro index below ends before
    refine ⟨.ok [], log ++ [discarded index before.length], ?_, ?_⟩
    · intro ks nothing k member
      cases nothing
      cases member
    · intro tz
      rw [readRecords_of_end below ends, List.length_map]
      rfl
  case beyond =>
    intro index below inside beyond goesOn before
    refine ⟨.error (.registerOutside registerCount), log, ?_, fun tz => readRecords_of_beyond below inside beyond goesOn⟩
    intro ks found
    cases found
  case fits =>
    intro index below fits goesOn ih before
    obtain ⟨found, log', origin, read⟩ := ih (before ++ [index])
    refine ⟨found, log', ?_, ?_⟩
    · intro ks all k member
      rcases origin ks all k member with old | begins
      · rcases List.mem_append.1 old with old | this
        · exact .inl old
        · rw [List.mem_singleton.1 this]
          exact .inr (.here below)
      · exact .inr (.later goesOn begins)
    · intro tz
      rw [readRecords_of_fits below fits goesOn, ← read tz, List.map_append]
      rfl

/-- The same alarms are found on every clock, but for their times. -/
theorem on_alarms_uniform (img : Image) (log : List Log.Record) :
    ∃ (found : Except Fault (List Nat)) (log' : List Log.Record),
      (∀ ks, found = .ok ks → ∀ k ∈ ks, img.HasRecord k) ∧
      ∀ tz, (img.alarms tz).on log = (found.map (List.map (img.alarmAt tz)), log') := by
  cases partition : img.alarmPartition with
  | error f =>
    refine ⟨.error f, log, ?_, ?_⟩
    · intro ks found
      cases found
    · intro tz
      rw [alarms, partition]
      rfl
  | ok p? =>
    cases p? with
    | none =>
      refine ⟨.ok [], log, ?_, ?_⟩
      · intro ks nothing k member
        cases nothing
        cases member
      · intro tz
        exact on_alarms_of_none partition tz log
    | some p =>
      have inside : p.start + 1 ≤ registerCount := (alarmPartitionFrom_bounds partition).2.2.1
      obtain ⟨found, log', origin, read⟩ := on_readRecords_uniform inside [] log
      refine ⟨found, log', ?_, ?_⟩
      · intro ks all k member
        exact ⟨p, partition, (origin ks all k member).resolve_left List.not_mem_nil⟩
      · intro tz
        rw [on_alarms_of_some partition]
        exact read tz

end Uniform

section WallClock

variable {east east' : Int}

theorem alarmAt_later (img : Image) (tz tz' : Int) (k : Nat) :
    (img.alarmAt tz k).later (tz' - tz) = img.alarmAt tz' k := by
  have time : (img.alarmAt tz k).time + (tz' - tz) = (img.alarmAt tz' k).time := by
    change (img.recordAt k).tenths / 10 - epoch1900 + tz + (tz' - tz) = (img.recordAt k).tenths / 10 - epoch1900 + tz'
    omega
  rw [later, time]
  rfl

/-- A record is read as the moment that its halves spell. -/
theorem tenths_eq_storedTenths (img : Image) (k : Nat) : (img.recordAt k).tenths = img.storedTenths k :=
  (tenths_recordAt img k).trans (decimalValue_halves (14 * k) 11)

/-- The offset of the host cancels out: its local time of an alarm is the moment as it is stored. -/
theorem localTime_alarmAt (img : Image) (k : Nat) (zone : east.natAbs ≤ 86400) :
    Calendar.localTime east (img.alarmAt (Calendar.westOffset east) k).time =
      .ok (Calendar.since1900 (img.storedTenths k / 10)) := by
  have clock : (Calendar.westOffset east).natAbs ≤ 86400 := by
    unfold Calendar.westOffset
    omega
  obtain ⟨d, told⟩ : ∃ d, Calendar.localTime east (img.alarmAt (Calendar.westOffset east) k).time = .ok d :=
    exists_localTime k clock zone
  have moment : (img.alarmAt (Calendar.westOffset east) k).time + east =
      (img.storedTenths k / 10 : Nat) - 2208988800 := by
    change (img.recordAt k).tenths / 10 - epoch1900 + -east + east = _
    rw [tenths_eq_storedTenths, epoch1900]
    omega
  rw [told, Calendar.eq_of_localTime told, moment, Calendar.ofSeconds_eq_since1900]

/-- A row of the table is the same for two hosts that show the same time. -/
theorem alarmRow_congr {a a' : Alarm} (time : Calendar.localTime east a.time = Calendar.localTime east' a'.time)
    (repeating : a.repeating = a'.repeating) (interval : a.interval = a'.interval) (name : a.name = a'.name) :
    Report.alarmRow east a = Report.alarmRow east' a' := by
  rw [Report.alarmRow, Report.alarmRow, time, repeating, interval, name]

theorem alarmRows_uniform (img : Image) (zone : east.natAbs ≤ 86400) (zone' : east'.natAbs ≤ 86400) (ks : List Nat) :
    Report.alarmRows east (ks.map (img.alarmAt (Calendar.westOffset east))) =
      Report.alarmRows east' (ks.map (img.alarmAt (Calendar.westOffset east'))) := by
  induction ks with
  | nil => rfl
  | cons k ks ih =>
    have row : Report.alarmRow east (img.alarmAt (Calendar.westOffset east) k) =
        Report.alarmRow east' (img.alarmAt (Calendar.westOffset east') k) := by
      apply alarmRow_congr
      · rw [localTime_alarmAt img k zone, localTime_alarmAt img k zone']
      · rfl
      · rfl
      · rfl
    rw [List.map_cons, List.map_cons, Report.alarmRows, Report.alarmRows, row, ih]

/-- All hosts show the same table. -/
theorem alarmTable_uniform (img : Image) (zone : east.natAbs ≤ 86400) (zone' : east'.natAbs ≤ 86400) (ks : List Nat) :
    Report.alarmTable east (ks.map (img.alarmAt (Calendar.westOffset east))) =
      Report.alarmTable east' (ks.map (img.alarmAt (Calendar.westOffset east'))) := by
  rw [Report.alarmTable, Report.alarmTable, alarmRows_uniform img zone zone', List.isEmpty_map, List.isEmpty_map]

theorem alarmLines_uniform (img : Image) (zone : east.natAbs ≤ 86400) (zone' : east'.natAbs ≤ 86400) :
    img.alarmLines east = img.alarmLines east' := by
  obtain ⟨found, log, -, read⟩ := on_alarms_uniform img []
  unfold alarmLines
  rw [Traced.outcome_eq, Traced.outcome_eq, read, read]
  cases found with
  | error f => rfl
  | ok ks => exact alarmTable_uniform img zone zone' ks

/-- What is counted of an image does not depend on the zone, and neither do the lines that show it. -/
theorem summaryLines_uniform (img : Image) (zone : east.natAbs ≤ 86400) (zone' : east'.natAbs ≤ 86400) (c : Catalog)
    (ks : List Nat) (top limit bottom : Int) :
    Report.summary east ⟨c, ks.map (img.alarmAt (Calendar.westOffset east)), top, limit, bottom⟩ =
      Report.summary east' ⟨c, ks.map (img.alarmAt (Calendar.westOffset east')), top, limit, bottom⟩ := by
  have table := alarmTable_uniform img zone zone' ks
  have counts : Report.countTable ⟨c, ks.map (img.alarmAt (Calendar.westOffset east)), top, limit, bottom⟩ =
      Report.countTable ⟨c, ks.map (img.alarmAt (Calendar.westOffset east')), top, limit, bottom⟩ := by
    simp only [Report.countTable, Summary.usedRegisters, Summary.programRegisters, Summary.partitionRegisters,
      Summary.storageRegisters, Summary.freeRegisters, List.length_map]
  rw [Report.summary, Report.summary, table, counts]

theorem on_ofImage_of_uncataloged {f : Fault} (uncataloged : img.catalog = .error f) (tz : Int)
    (log : List Log.Record) : (Summary.ofImage img tz).on log = (.error f, log) := by
  rw [Summary.ofImage, Summary.ofAlarms, uncataloged]
  rfl

/-- When the alarms have been found, only the program bottom may be missing. -/
theorem on_ofImage_of_found {c : Catalog} {as : List Alarm} {tz : Int} {log log' : List Log.Record}
    (cataloged : img.catalog = .ok c) (found : (img.alarms tz).on log = (.ok as, log')) :
    (Summary.ofImage img tz).on log =
      ((img.programBottom img.status.programLimit).map fun bottom =>
        ⟨c, as, img.status.programTop, img.status.programLimit, bottom⟩, log') := by
  rw [Summary.ofImage, Summary.ofAlarms, cataloged, Traced.on_bind_of_ok (Traced.on_lift _),
    Traced.on_bind_of_ok found]
  dsimp only
  cases img.programBottom img.status.programLimit with
  | error f => rfl
  | ok bottom => rfl

/-- All hosts show the same summary. -/
theorem on_summary_uniform (img : Image) (zone : east.natAbs ≤ 86400) (zone' : east'.natAbs ≤ 86400)
    (log : List Log.Record) :
    (img.summary (Calendar.westOffset east) east).on log = (img.summary (Calendar.westOffset east') east').on log := by
  obtain ⟨found, log', -, read⟩ := on_alarms_uniform img log
  cases cataloged : img.catalog with
  | error f =>
    rw [summary, summary, Traced.on_bind_of_error (on_ofImage_of_uncataloged cataloged _ log),
      Traced.on_bind_of_error (on_ofImage_of_uncataloged cataloged _ log)]
  | ok c =>
    cases found with
    | error f =>
      rw [summary, summary, Traced.on_bind_of_error (on_ofImage_of_error cataloged (read _)),
        Traced.on_bind_of_error (on_ofImage_of_error cataloged (read _))]
    | ok ks =>
      have counted := fun tz => on_ofImage_of_found cataloged (read tz)
      cases bottom : img.programBottom img.status.programLimit with
      | error f =>
        rw [bottom] at counted
        rw [summary, summary, Traced.on_bind_of_error (counted _), Traced.on_bind_of_error (counted _)]
      | ok bottom =>
        rw [bottom] at counted
        rw [summary, summary, Traced.on_bind_of_ok (counted _), Traced.on_bind_of_ok (counted _), Traced.on_lift,
          Traced.on_lift, summaryLines_uniform img zone zone']

end WallClock

section TwoAlarms

theorem partition_twoAlarms : twoAlarms.alarmPartition = .ok (some ⟨200, 7⟩) :=
  alarmPartition_withPartition twoAlarmsBytes rfl

/-- The records of the two alarms begin in these registers. -/
theorem eq_of_hasRecord_twoAlarms {k : Nat} (record : twoAlarms.HasRecord k) : k = 201 ∨ k = 202 := by
  obtain ⟨p, partition, begins⟩ := record
  rw [partition_twoAlarms] at partition
  cases partition
  change twoAlarms.Begins 206 201 k at begins
  have next : 201 + (twoAlarms.recordAt 201).span = 202 := by
    rw [holdsAlarm_plain.span_eq]
    rfl
  have last : 202 + (twoAlarms.recordAt 202).span = 206 := by
    rw [holdsAlarm_repeating.span_eq]
    rfl
  cases begins with
  | here below => exact .inl rfl
  | later goesOn begins =>
    rw [next] at begins
    cases begins with
    | here below => exact .inr rfl
    | later goesOn begins =>
      rw [last] at begins
      exact absurd begins.lt (Nat.not_lt_of_le begins.le)

theorem storedTenths_of_holds {index names : Nat} {a : StoredAlarm} (holds : twoAlarms.HoldsAlarm index names a) :
    twoAlarms.storedTenths index = a.moment.val :=
  Int.ofNat_inj.1 ((tenths_eq_storedTenths twoAlarms index).symm.trans holds.tenths_eq)

theorem found_twoAlarms (tz : Int) : (twoAlarms.alarms tz).outcome.1 =
    .ok [⟨1 - 2208988800 + tz, false, 0, "ALARM"⟩, ⟨1234567890 - 2208988800 + tz, true, 3600, "WAKEUP"⟩] := by
  have holds := HoldsAlarms.cons holdsAlarm_plain (.cons holdsAlarm_repeating (.nil 206))
  rw [Traced.outcome_eq, on_alarms_of_some partition_twoAlarms]
  change ((readRecords twoAlarms tz 201 206 []).on []).1 = _
  rw [readRecords_of_holds holds (by decide)]
  rfl

end TwoAlarms

/-- **Alarms are shown in the time of the calculator.** Without an offset, an alarm that is found has as its local time
the seconds that the first eleven halves of its record spell, counted from the beginning of 1900 by the calendar; so two
hosts show the same table of alarms, and the same summary, wherever they are. With an offset, the alarms that are found
are those found with another offset, moved by the difference. -/
theorem alarms_wallClock (img : Image) :
    (∀ (east : Int) (as : List Alarm), east.natAbs ≤ 86400 →
        (img.alarms (Calendar.westOffset east)).outcome.1 = .ok as →
        ∃ ks : List Nat, as = ks.map (img.alarmAt (Calendar.westOffset east)) ∧
          ∀ k ∈ ks, img.HasRecord k ∧
            Calendar.localTime east (img.alarmAt (Calendar.westOffset east) k).time =
              .ok (Calendar.since1900 (img.storedTenths k / 10))) ∧
      (∀ east east' : Int, east.natAbs ≤ 86400 → east'.natAbs ≤ 86400 →
        img.alarmLines east = img.alarmLines east' ∧
          (img.summary (Calendar.westOffset east) east).outcome =
            (img.summary (Calendar.westOffset east') east').outcome) ∧
      ∀ tz tz' : Int, (img.alarms tz').outcome.1 =
        (img.alarms tz).outcome.1.map fun as => as.map fun a => a.later (tz' - tz) := by
  obtain ⟨found, log, origin, read⟩ := on_alarms_uniform img []
  refine ⟨?_, ?_, ?_⟩
  · intro east as zone all
    rw [Traced.outcome_eq, read] at all
    cases found with
    | error f => cases all
    | ok ks =>
      refine ⟨ks, (Except.ok.inj all).symm, ?_⟩
      intro k member
      exact ⟨origin ks rfl k member, localTime_alarmAt img k zone⟩
  · intro east east' zone zone'
    exact ⟨alarmLines_uniform img zone zone', on_summary_uniform img zone zone' []⟩
  · intro tz tz'
    rw [Traced.outcome_eq, Traced.outcome_eq, read, read]
    cases found with
    | error f => rfl
    | ok ks =>
      have moved : ks.map (img.alarmAt tz') = (ks.map (img.alarmAt tz)).map fun a => a.later (tz' - tz) := by
        rw [List.map_map]
        apply List.map_congr_left
        intro k _
        exact (alarmAt_later img tz tz' k).symm
      exact congrArg Except.ok moved

/-- On a host an hour east of Greenwich the two alarms are shown as they are stored, and as on a host to the west. -/
theorem alarms_wallClock_twoAlarms :
    (3600 : Int).natAbs ≤ 86400 ∧ (-18000 : Int).natAbs ≤ 86400 ∧
      (twoAlarms.alarms (Calendar.westOffset 3600)).outcome.1 =
        .ok [⟨1 - 2208988800 - 3600, false, 0, "ALARM"⟩, ⟨1234567890 - 2208988800 - 3600, true, 3600, "WAKEUP"⟩] ∧
      twoAlarms.storedTenths 201 = 10 ∧ twoAlarms.storedTenths 202 = 12345678901 ∧
      Calendar.localTime 3600 (1 - 2208988800 - 3600) = .ok ⟨1900, 1, 1, 0, 0, 1⟩ ∧
      Calendar.localTime 3600 (1234567890 - 2208988800 - 3600) = .ok ⟨1939, 2, 14, 23, 31, 30⟩ ∧
      twoAlarms.alarmLines 3600 = twoAlarms.alarmLines (-18000) ∧
      (twoAlarms.alarms 7200).outcome.1 =
        .ok [⟨1 - 2208988800 + 7200, false, 0, "ALARM"⟩, ⟨1234567890 - 2208988800 + 7200, true, 3600, "WAKEUP"⟩] := by
  obtain ⟨shown, uniform, moved⟩ := alarms_wallClock twoAlarms
  have found := found_twoAlarms (Calendar.westOffset 3600)
  have plain : twoAlarms.storedTenths 201 = 10 := storedTenths_of_holds holdsAlarm_plain
  have repeating : twoAlarms.storedTenths 202 = 12345678901 := storedTenths_of_holds holdsAlarm_repeating
  obtain ⟨ks, all, told⟩ := shown 3600 _ (by decide) found
  -- Each of the alarms is that of one of the two registers, and the other one holds another alarm.
  have origin : ∀ a ∈ ks.map (twoAlarms.alarmAt (Calendar.westOffset 3600)),
      (a = twoAlarms.alarmAt (Calendar.westOffset 3600) 201 ∧
        Calendar.localTime 3600 a.time = .ok (Calendar.since1900 1)) ∨
      (a = twoAlarms.alarmAt (Calendar.westOffset 3600) 202 ∧
        Calendar.localTime 3600 a.time = .ok (Calendar.since1900 1234567890)) := by
    intro a member
    obtain ⟨k, listed, rfl⟩ := List.mem_map.1 member
    obtain ⟨record, time⟩ := told k listed
    rcases eq_of_hasRecord_twoAlarms record with rfl | rfl
    · rw [plain] at time
      exact .inl ⟨rfl, time⟩
    · rw [repeating] at time
      exact .inr ⟨rfl, time⟩
  rw [← all, holdsAlarm_plain.alarmAt_eq, holdsAlarm_repeating.alarmAt_eq] at origin
  have first := (origin _ List.mem_cons_self).resolve_right fun other => absurd other.1 (by decide)
  have second := (origin _ (List.mem_cons_of_mem _ List.mem_cons_self)).resolve_left fun other =>
    absurd other.1 (by decide)
  refine ⟨by decide, by decide, found, plain, repeating, ?_, ?_, ?_, ?_⟩
  · have date : Calendar.since1900 1 = ⟨1900, 1, 1, 0, 0, 1⟩ := rfl
    rw [← date]
    exact first.2
  · have date : Calendar.since1900 1234567890 = ⟨1939, 2, 14, 23, 31, 30⟩ := by
      rw [← Calendar.ofSeconds_eq_since1900]
      decide
    rw [← date]
    exact second.2
  · exact (uniform 3600 (-18000) (by decide) (by decide)).1
  · rw [moved (Calendar.westOffset 3600) 7200, found]
    rfl

end Image

end CalcImage
