import CalcImage.Proofs.Alarm.Stored

/-!
# The records of a partition in their order

The first registers of the records of a partition are given by the lengths of the records alone
(`Image.recordPlaces`), so that the records do not overlap and there are fewer of them than registers. Reading goes
through them until one ends the alarms, or needs a register that memory does not have (`readRecords_onward`). So the
first record of either kind decides what the alarms come to, and when there is none there is an alarm for each of them
(`alarms_visited`).
-/

namespace CalcImage

open Alarm

namespace Image

/-- The registers of a record: its first one, one with the interval when it repeats, and those with its name. -/
def recordSpan (img : Image) (index : Nat) : Nat :=
  1 + (if (img.byte (7 * index + 5)).toNat % 16 = 1 then 1 else 0) + (img.byte (7 * index + 6)).toNat % 16

/-- The first registers of the records from `index` on that begin before the register `stop`. -/
def recordPlaces (img : Image) (index stop : Nat) : List Nat :=
  if index < stop then index :: img.recordPlaces (index + img.recordSpan index) stop else []
termination_by stop - index
decreasing_by
  unfold recordSpan
  omega

/-- The record is in memory and its first byte is the end marker of the partitions. -/
def EndsAlarms (img : Image) (index : Nat) : Prop := index < 1112 ∧ img.byte (7 * index) = 0xF0

/-- A register of the record lies outside memory. -/
def NeedsBeyond (img : Image) (index : Nat) : Prop := ∃ k, index ≤ k ∧ k < index + img.recordSpan index ∧ 1112 ≤ k

/-- The record is read to an alarm. -/
def IsAlarm (img : Image) (index : Nat) : Prop := ¬img.EndsAlarms index ∧ ¬img.NeedsBeyond index

section Places

variable (img : Image) {index stop : Nat}

theorem span_recordAt (index : Nat) : (img.recordAt index).span = img.recordSpan index := by
  have repeats : (img.recordAt index).repeating = ((img.byte (7 * index + 5)).toNat % 16 == 1) := rfl
  have names : (img.recordAt index).nameRegisters = (img.byte (7 * index + 6)).toNat % 16 := rfl
  rw [Record.span, Record.headRegisters, repeats, names, recordSpan]
  simp only [beq_iff_eq]
  split <;> rfl

theorem recordSpan_pos (index : Nat) : 0 < img.recordSpan index := by
  unfold recordSpan
  omega

theorem recordPlaces_of_lt (below : index < stop) :
    img.recordPlaces index stop = index :: img.recordPlaces (index + img.recordSpan index) stop := by
  rw [recordPlaces, if_pos below]

theorem recordPlaces_of_le (above : stop ≤ index) : img.recordPlaces index stop = [] := by
  rw [recordPlaces, if_neg (Nat.not_lt.2 above)]

theorem le_of_mem_recordPlaces {k : Nat} (member : k ∈ img.recordPlaces index stop) : index ≤ k := by
  fun_induction recordPlaces img index stop with
  | case1 index below ih =>
    rcases List.mem_cons.1 member with rfl | later
    · exact Nat.le_refl _
    · exact Nat.le_trans (Nat.le_add_right _ _) (ih later)
  | case2 => cases member

/-- No record begins before the ones before it have ended. -/
theorem pairwise_recordPlaces :
    (img.recordPlaces index stop).Pairwise fun i k => i + img.recordSpan i ≤ k := by
  fun_induction recordPlaces img index stop with
  | case1 index below ih => exact .cons (fun k member => img.le_of_mem_recordPlaces member) ih
  | case2 => exact .nil

theorem length_recordPlaces_le : (img.recordPlaces index stop).length ≤ stop - index := by
  fun_induction recordPlaces img index stop with
  | case1 index below ih =>
    have pos := img.recordSpan_pos index
    rw [List.length_cons]
    omega
  | case2 => exact Nat.zero_le _

theorem needsBeyond_iff : img.NeedsBeyond index ↔ registerCount < index + img.recordSpan index := by
  have pos := img.recordSpan_pos index
  constructor
  · rintro ⟨k, low, high, outside⟩
    simp only [registerCount]
    omega
  · intro beyond
    simp only [registerCount] at beyond
    exact ⟨index + img.recordSpan index - 1, by omega, by omega, by omega⟩

theorem endsAlarms_iff : img.EndsAlarms index ↔ (img.recordAt index).isEnd = true := by
  have first : (img.recordAt index).isEnd = (img.byte (7 * index) == 0xF0) := rfl
  constructor
  · rintro ⟨-, ends⟩
    rw [first, beq_iff_eq]
    exact ends
  · intro ends
    refine ⟨lt_of_isEnd ends, ?_⟩
    rw [first, beq_iff_eq] at ends
    exact ends

theorem goesOn_of_not_endsAlarms (goesOn : ¬img.EndsAlarms index) : (img.recordAt index).isEnd = false :=
  Bool.eq_false_iff.2 fun ends => goesOn (img.endsAlarms_iff.2 ends)

end Places

section Reading

variable {img : Image} {tz : Int} {index stop : Nat} {found : List Alarm} {log : List Log.Record}
variable {before after : List Nat}

/-- Reading goes past records that are alarms, and finds them. -/
theorem readRecords_onward (inside : index ≤ registerCount) (places : img.recordPlaces index stop = before ++ after)
    (alarms : ∀ k ∈ before, img.IsAlarm k) :
    ∃ next, next ≤ registerCount ∧ img.recordPlaces next stop = after ∧
      (readRecords img tz index stop found).on log =
        (readRecords img tz next stop (found ++ before.map (img.alarmAt tz))).on log := by
  induction before generalizing index found with
  | nil => exact ⟨index, inside, places, by rw [List.map_nil, List.append_nil]⟩
  | cons k before ih =>
    rcases Nat.lt_or_ge index stop with below | above
    · rw [recordPlaces_of_lt img below, List.cons_append] at places
      obtain ⟨rfl, rest⟩ := List.cons.inj places
      obtain ⟨goesOn, within⟩ := alarms index List.mem_cons_self
      have fits : index + (img.recordAt index).span ≤ registerCount := by
        rw [span_recordAt]
        exact Nat.not_lt.1 fun beyond => within (img.needsBeyond_iff.2 beyond)
      rw [← span_recordAt] at rest
      obtain ⟨next, inside', places', ran⟩ := @ih _ (found ++ [img.alarmAt tz index]) fits rest fun k member =>
        alarms k (List.mem_cons_of_mem _ member)
      refine ⟨next, inside', places', ?_⟩
      rw [readRecords_of_fits below fits (img.goesOn_of_not_endsAlarms goesOn), ran, List.append_assoc]
      rfl
    · rw [recordPlaces_of_le img above] at places
      cases places

/-- When all records are alarms, these are what is found. -/
theorem readRecords_of_alarms (inside : index ≤ registerCount)
    (alarms : ∀ k ∈ img.recordPlaces index stop, img.IsAlarm k) :
    (readRecords img tz index stop found).on log =
      (.ok (found ++ (img.recordPlaces index stop).map (img.alarmAt tz)), log) := by
  obtain ⟨next, -, places, ran⟩ := readRecords_onward inside (List.append_nil _).symm alarms
  have above : stop ≤ next := by
    apply Nat.not_lt.1
    intro below
    rw [recordPlaces_of_lt img below] at places
    cases places
  rw [ran, readRecords_of_le above]

/-- The first record that is no alarm takes all alarms back, or it is a fault. -/
theorem readRecords_of_first {k : Nat} (inside : index ≤ registerCount)
    (places : img.recordPlaces index stop = before ++ k :: after) (alarms : ∀ i ∈ before, img.IsAlarm i) :
    (img.EndsAlarms k →
      (readRecords img tz index stop found).on log = (.ok [], log ++ [discarded k (found.length + before.length)])) ∧
    (¬img.EndsAlarms k → img.NeedsBeyond k →
      (readRecords img tz index stop found).on log = (.error (.registerOutside registerCount), log)) := by
  obtain ⟨next, inside', here, ran⟩ := readRecords_onward inside places alarms
  have below : next < stop := by
    apply Nat.lt_of_not_ge
    intro above
    rw [recordPlaces_of_le img above] at here
    cases here
  rw [recordPlaces_of_lt img below] at here
  obtain ⟨rfl, -⟩ := List.cons.inj here
  constructor
  · intro ends
    rw [ran, readRecords_of_end below (img.endsAlarms_iff.1 ends), List.length_append, List.length_map]
  · intro goesOn beyond
    rw [ran]
    refine readRecords_of_beyond below inside' ?_ (img.goesOn_of_not_endsAlarms goesOn)
    rw [span_recordAt]
    exact img.needsBeyond_iff.1 beyond

end Reading

/-- **Which records become alarms.** The records of a partition do not overlap and there are at most 253. When each of
them is in memory and none is an end mark, there is an alarm for each, in their order, also for one whose further
registers lie after the partition. Otherwise the first one that is not an alarm decides: an end mark takes all alarms
back, whatever registers it is said to have, and a record that goes on after the last register of memory is a fault of
the walk. All alarms lie between 1900 and the moment with the largest digits, on the clock that they are read for. -/
theorem alarms_visited {img : Image} {p : Partition} (found : img.alarmPartition = .ok (some p)) (tz : Int) :
    let places := img.recordPlaces (p.start + 1) (p.start + p.length - 1)
    places.Pairwise (fun i k => i + img.recordSpan i ≤ k) ∧ places.length ≤ 253 ∧
      ((∀ i ∈ places, img.IsAlarm i) → (img.alarms tz).outcome = (.ok (places.map (img.alarmAt tz)), [])) ∧
      (∀ before i after, places = before ++ i :: after → (∀ k ∈ before, img.IsAlarm k) →
        (img.EndsAlarms i → (img.alarms tz).outcome = (.ok [], [discarded i before.length])) ∧
        (¬img.EndsAlarms i → img.NeedsBeyond i →
          ∃ f, (img.alarms tz).outcome = (.error f, []) ∧ f = .registerOutside 1112 ∧ f.kind = .walk)) ∧
      ∀ as, (img.alarms tz).outcome.1 = .ok as →
        ∀ a ∈ as, -2208988800 + tz ≤ a.time ∧ a.time ≤ 16666666666 - 2208988800 + tz := by
  intro places
  obtain ⟨-, -, start, length⟩ := alarmPartitionFrom_bounds found
  rw [Traced.outcome_eq, on_alarms_of_some found]
  refine ⟨img.pairwise_recordPlaces, ?_, ?_, ?_, ?_⟩
  · have count : places.length ≤ p.start + p.length - 1 - (p.start + 1) := img.length_recordPlaces_le
    omega
  · intro alarms
    exact readRecords_of_alarms start alarms
  · intro before i after split alarms
    obtain ⟨ends, beyond⟩ := @readRecords_of_first img tz _ _ [] [] _ _ _ start split alarms
    refine ⟨?_, fun goesOn needs => ⟨_, beyond goesOn needs, rfl, rfl⟩⟩
    intro mark
    rw [ends mark, List.length_nil, Nat.zero_add, List.nil_append]
  · intro as all a member
    rcases readRecords_cases start with ⟨as', log, ran, -, origin⟩ | ⟨failed, -⟩
    · rw [ran] at all
      cases all
      obtain ⟨k, rfl⟩ := (origin a member).resolve_left List.not_mem_nil
      exact img.time_alarmAt tz k
    · rw [failed] at all
      cases all

/-- A partition of three registers with one record. The record repeats and has a register with its name, so it goes on
after the last register of the partition, and the name starts with the byte of an end mark. -/
def overrunningBytes : List UInt8 :=
  [0xAA, 0x03, 0x00, 0x00, 0x00, 0x00, 0x00] ++
  [0x00, 0x00, 0x00, 0x00, 0x01, 0x01, 0x01] ++
  [0x00, 0x00, 0x00, 0x36, 0x00, 0x0F, 0xEE] ++
  [0xF0, 0x41, 0x00, 0x00, 0x00, 0x00, 0x00]

/-- An image with this partition. -/
def overrunning : Image := withPartition overrunningBytes

theorem alarmPartition_overrunning : overrunning.alarmPartition = .ok (some ⟨200, 3⟩) :=
  alarmPartition_withPartition overrunningBytes rfl

theorem alarmAt_overrunning :
    overrunning.alarmAt 3600 201 = ⟨1 - 2208988800 + 3600, true, 3600, "\u00F0A"⟩ := by
  have record : overrunning.recordAt 201 = ⟨[0x00, 0x00, 0x00, 0x00, 0x01, 0x01, 0x01]⟩ :=
    congrArg Record.mk (bytesFrom_withPartition overrunningBytes (k := 7) (by decide))
  have repeats : (overrunning.recordAt 201).repeating = true := by rw [record]; decide
  have head : (overrunning.recordAt 201).headRegisters = 2 := by rw [record]; decide
  have named : (overrunning.recordAt 201).nameRegisters = 1 := by rw [record]; decide
  have interval : overrunning.registerAt (201 + 1) = [0x00, 0x00, 0x00, 0x36, 0x00, 0x0F, 0xEE] :=
    bytesFrom_withPartition overrunningBytes (k := 14) (by decide)
  have name : overrunning.bytesFrom (7 * (201 + 2)) (7 * 1) = [0xF0, 0x41, 0x00, 0x00, 0x00, 0x00, 0x00] :=
    bytesFrom_withPartition overrunningBytes (k := 21) (by decide)
  rw [alarmAt, repeats, head, named, interval, name, record, if_pos rfl, if_neg (by decide)]
  decide

/-- The record is read past the end of its partition, and its name is no end mark. -/
theorem alarms_visited_overrunning :
    overrunning.alarmPartition = .ok (some ⟨200, 3⟩) ∧ overrunning.recordPlaces 201 202 = [201] ∧
      overrunning.recordSpan 201 = 3 ∧ overrunning.byte (7 * 203) = 0xF0 ∧
      (overrunning.alarms 3600).outcome = (.ok [⟨1 - 2208988800 + 3600, true, 3600, "\u00F0A"⟩], []) := by
  have span : overrunning.recordSpan 201 = 3 := by
    have repeats : overrunning.byte (7 * 201 + 5) = 0x01 := byte_withPartition overrunningBytes (k := 12) (by decide)
    have names : overrunning.byte (7 * 201 + 6) = 0x01 := byte_withPartition overrunningBytes (k := 13) (by decide)
    rw [recordSpan, repeats, names]
    rfl
  have places : overrunning.recordPlaces 201 202 = [201] := by
    rw [recordPlaces_of_lt _ (by decide), span, recordPlaces_of_le _ (by decide)]
  have goesOn : ¬overrunning.EndsAlarms 201 := by
    rintro ⟨-, ends⟩
    have first : overrunning.byte (7 * 201) = 0x00 := byte_withPartition overrunningBytes (k := 7) (by decide)
    rw [first] at ends
    cases ends
  have within : ¬overrunning.NeedsBeyond 201 := by
    rintro ⟨k, -, high, outside⟩
    omega
  obtain ⟨-, -, alarms, -⟩ := alarms_visited alarmPartition_overrunning 3600
  rw [show 200 + 1 = 201 from rfl, show 200 + 3 - 1 = 202 from rfl, places] at alarms
  refine ⟨alarmPartition_overrunning, places, span, byte_withPartition overrunningBytes (k := 21) (by decide), ?_⟩
  rw [alarms fun i member => List.mem_singleton.1 member ▸ ⟨goesOn, within⟩, List.map_singleton, alarmAt_overrunning]

end Image

end CalcImage
