import CalcImage.Proofs.Alarm.Digits
import CalcImage.Proofs.Memory.Order
import CalcImage.Proofs.Traced

/-!
# Records of alarms, read one after the other

Reading goes from record to record, each as long as its first register says (`Image.Begins`). One step either adds the
alarm that the bytes there stand for (`Image.alarmAt`), or meets an end mark, or runs past the last register of memory,
and what holds of these steps holds of a whole reading (`reading_induction`). So a partition is read to alarms of its
own records, or a record of it reaches beyond memory (`readRecords_cases`).
-/

namespace CalcImage

open Alarm

namespace Image

/-- The record that begins in a register. -/
def recordAt (img : Image) (index : Nat) : Record := ⟨img.registerAt index⟩

/-- The alarm that the bytes from a register on stand for. -/
def alarmAt (img : Image) (tz : Int) (index : Nat) : Alarm where
  time := (img.recordAt index).time tz
  repeating := (img.recordAt index).repeating
  interval := if (img.recordAt index).repeating then intervalOf (img.registerAt (index + 1)) else 0
  name :=
    if (img.recordAt index).nameRegisters = 0 then defaultName
    else
      nameOf (img.bytesFrom (7 * (index + (img.recordAt index).headRegisters))
        (7 * (img.recordAt index).nameRegisters))

/-- Records that are read from a register on up to the register `stop` come to one that begins in another register. -/
inductive Begins (img : Image) (stop : Nat) : Nat → Nat → Prop where
  | here {index : Nat} (below : index < stop) : Begins img stop index index
  | later {index k : Nat} (goesOn : (img.recordAt index).isEnd = false)
      (begins : Begins img stop (index + (img.recordAt index).span) k) : Begins img stop index k

theorem Begins.le {img : Image} {stop index k : Nat} (begins : img.Begins stop index k) : index ≤ k := by
  induction begins with
  | here _ => exact Nat.le_refl _
  | later _ _ ih => omega

theorem Begins.lt {img : Image} {stop index k : Nat} (begins : img.Begins stop index k) : k < stop := by
  induction begins with
  | here below => exact below
  | later _ _ ih => exact ih

/-- The record about alarms that an end mark takes back. -/
def discarded (index count : Nat) : Log.Record :=
  ⟨.debug, .alarms, "alarm partition end marker at register " ++ Text.ofInt index ++ ", discarding " ++ Text.ofInt count ++
    " alarm(s)"⟩

/-- A record of the alarm partition reaches beyond the last register of memory. -/
def AlarmBeyond (img : Image) : Prop :=
  ∃ p k, img.alarmPartition = .ok (some p) ∧ img.Begins (p.start + p.length - 1) (p.start + 1) k ∧
    registerCount < k + (img.recordAt k).span

section Registers

variable (img : Image)

theorem registersFrom_of_le {index count : Nat} (inside : index + count ≤ registerCount) :
    registersFrom img index count = .ok (img.bytesFrom (7 * index) (7 * count)) := by
  induction count generalizing index with
  | zero => rfl
  | succ count ih =>
    rw [registersFrom, register_of_lt img (by omega), ih (by omega), show 7 * (count + 1) = 7 + 7 * count by omega,
      bytesFrom_add]
    rfl

/-- Registers that reach beyond memory are read up to the first one that memory does not have. -/
theorem registersFrom_of_lt {index count : Nat} (inside : index ≤ registerCount)
    (outside : registerCount < index + count) :
    registersFrom img index count = .error (.registerOutside registerCount) := by
  induction count generalizing index with
  | zero => omega
  | succ count ih =>
    rw [registersFrom]
    rcases Nat.lt_or_eq_of_le inside with below | rfl
    · rw [register_of_lt img below, ih (by omega) (by omega)]
      rfl
    · rw [register_of_le img (Nat.le_refl _)]
      rfl

end Registers

section Records

variable {img : Image} {tz : Int} {index stop : Nat} {found : List Alarm} {log : List Log.Record}

/-- An end mark lies inside memory. -/
theorem lt_of_isEnd (ends : (img.recordAt index).isEnd = true) : index < registerCount := by
  apply Nat.lt_of_not_ge
  intro outside
  have zero : img.byte (7 * index) = 0 := by
    simp only [registerCount] at outside
    rw [byte, Vector.getElem?_eq_none (by omega), Option.getD_none]
  change (img.byte (7 * index) == partitionEnd) = true at ends
  rw [zero] at ends
  cases ends

theorem on_readRecord (inside : index < registerCount) :
    (liftM (readRecord img index) : Traced Record).on log = (.ok (img.recordAt index), log) := by
  rw [readRecord, register_of_lt img inside]
  rfl

theorem readInterval_of_le (tz : Int) (inside : index + (img.recordAt index).headRegisters ≤ registerCount) :
    readInterval img (img.recordAt index) index = .ok (img.alarmAt tz index).interval := by
  unfold readInterval alarmAt
  split
  case isTrue repeats =>
    rw [Record.headRegisters, if_pos repeats] at inside
    rw [register_of_lt img (by omega)]
    rfl
  case isFalse => rfl

theorem readName_of_le (tz : Int) (inside : index + (img.recordAt index).span ≤ registerCount) :
    readName img (img.recordAt index) (index + (img.recordAt index).headRegisters) =
      .ok (img.alarmAt tz index).name := by
  unfold readName alarmAt
  split
  case isTrue => rfl
  case isFalse =>
    rw [Record.span] at inside
    rw [registersFrom_of_le img (by omega)]
    rfl

/-- At the end of the partition all alarms have been found. -/
theorem readRecords_of_le (above : stop ≤ index) : (readRecords img tz index stop found).on log = (.ok found, log) := by
  rw [readRecords, dif_neg (by omega), Traced.on_pure]

/-- An end mark makes the whole partition count as empty. -/
theorem readRecords_of_end (below : index < stop) (ends : (img.recordAt index).isEnd = true) :
    (readRecords img tz index stop found).on log = (.ok [], log ++ [discarded index found.length]) := by
  rw [readRecords, dif_pos below, Traced.on_bind_of_ok (on_readRecord (lt_of_isEnd ends)), if_pos ends,
    Traced.on_bind_of_ok (Traced.on_record ..)]
  rfl

/-- A record inside memory adds its alarm, and reading goes on after it. -/
theorem readRecords_of_fits (below : index < stop) (fits : index + (img.recordAt index).span ≤ registerCount)
    (goesOn : (img.recordAt index).isEnd = false) :
    (readRecords img tz index stop found).on log =
      (readRecords img tz (index + (img.recordAt index).span) stop (found ++ [img.alarmAt tz index])).on log := by
  have pos := (img.recordAt index).span_pos
  have head : index + (img.recordAt index).headRegisters ≤ registerCount := by
    rw [Record.span] at fits
    omega
  rw [readRecords, dif_pos below, Traced.on_bind_of_ok (on_readRecord (by omega)), goesOn, if_neg Bool.false_ne_true,
    readInterval_of_le tz head, readName_of_le tz fits]
  rfl

/-- A record that reaches beyond memory is a fault. -/
theorem readRecords_of_beyond (below : index < stop) (inside : index ≤ registerCount)
    (beyond : registerCount < index + (img.recordAt index).span) (goesOn : (img.recordAt index).isEnd = false) :
    (readRecords img tz index stop found).on log = (.error (.registerOutside registerCount), log) := by
  rw [readRecords, dif_pos below]
  rcases Nat.lt_or_eq_of_le inside with before | rfl
  · rw [Traced.on_bind_of_ok (on_readRecord before), goesOn, if_neg Bool.false_ne_true]
    rcases Nat.lt_or_ge registerCount (index + (img.recordAt index).headRegisters) with short | long
    · unfold Record.headRegisters at short
      split at short
      case isTrue repeats =>
        rw [readInterval, if_pos repeats, register_of_le img (by omega), show index + 1 = registerCount by omega]
        rfl
      case isFalse => omega
    · rw [Record.span] at beyond
      rw [readInterval_of_le tz long, Traced.on_bind_of_ok (Traced.on_lift _), readName, if_neg (by omega),
        registersFrom_of_lt img long (by omega)]
      rfl
  · rw [readRecord, register_of_le img (Nat.le_refl _)]
    rfl

/-- What holds where reading ends, and before a record that is read when it holds after it, holds wherever reading
begins. Each record is at least one register long, so what is left of the partition becomes shorter. -/
theorem reading_induction {motive : Nat → Prop} (inside : index ≤ registerCount)
    (above : ∀ index, stop ≤ index → motive index)
    (ends : ∀ index, index < stop → (img.recordAt index).isEnd = true → motive index)
    (beyond : ∀ index, index < stop → index ≤ registerCount → registerCount < index + (img.recordAt index).span →
      (img.recordAt index).isEnd = false → motive index)
    (fits : ∀ index, index < stop → index + (img.recordAt index).span ≤ registerCount →
      (img.recordAt index).isEnd = false → motive (index + (img.recordAt index).span) → motive index) :
    motive index := by
  induction left : stop - index using Nat.strongRecOn generalizing index with
  | _ left ih =>
    subst left
    have pos := (img.recordAt index).span_pos
    rcases Nat.lt_or_ge index stop with before | after
    · cases mark : (img.recordAt index).isEnd with
      | true => exact ends index before mark
      | false =>
        rcases Nat.lt_or_ge registerCount (index + (img.recordAt index).span) with outside | within
        · exact beyond index before inside outside mark
        · exact fits index before within mark (ih _ (by omega) within rfl)
    · exact above index after

/-- **What reading a partition comes to.** Every alarm was found before or is that of a register, and there is at most
one for each register; or else a record of the partition reaches beyond memory, and the first register outside it is the
fault. -/
theorem readRecords_cases (inside : index ≤ registerCount) :
    (∃ as log', (readRecords img tz index stop found).on log = (.ok as, log') ∧
        as.length ≤ found.length + (stop - index) ∧ ∀ a ∈ as, a ∈ found ∨ ∃ k, a = img.alarmAt tz k) ∨
      (readRecords img tz index stop found).on log = (.error (.registerOutside registerCount), log) ∧
        ∃ k, img.Begins stop index k ∧ registerCount < k + (img.recordAt k).span := by
  revert found
  apply reading_induction inside
  case above =>
    intro index above found
    exact .inl ⟨found, log, readRecords_of_le above, Nat.le_add_right _ _, fun a member => .inl member⟩
  case ends =>
    intro index below ends found
    exact .inl ⟨[], _, readRecords_of_end below ends, Nat.zero_le _, by simp⟩
  case beyond =>
    intro index below inside beyond goesOn found
    exact .inr ⟨readRecords_of_beyond below inside beyond goesOn, index, .here below, beyond⟩
  case fits =>
    intro index below fits goesOn ih found
    have pos := (img.recordAt index).span_pos
    rw [readRecords_of_fits below fits goesOn]
    rcases @ih (found ++ [img.alarmAt tz index]) with ⟨as, log', ran, length, origin⟩ | ⟨failed, k, begins, beyond⟩
    · rw [List.length_append, List.length_singleton] at length
      refine .inl ⟨as, log', ran, by omega, ?_⟩
      intro a member
      rcases origin a member with old | new
      · rcases List.mem_append.1 old with old | this
        · exact .inl old
        · exact .inr ⟨index, List.mem_singleton.1 this⟩
      · exact .inr new
    · exact .inr ⟨failed, k, .later goesOn begins, beyond⟩

end Records

section Partition

variable {img : Image} {index count : Nat}

theorem alarmPartitionFrom_of_ne (inside : index < registerCount) (other : img.byte (7 * index) ≠ partitionMark) :
    img.alarmPartitionFrom index (count + 1) = img.alarmPartitionFrom (index + 1) count := by
  simp only [registerCount] at inside
  rw [alarmPartitionFrom, get_of_lt img (by simp only [memorySize]; omega)]
  change (if img.byte (7 * index) = partitionMark then _ else _) = _
  rw [if_neg other]

theorem alarmPartitionFrom_of_eq (inside : index < registerCount) (mark : img.byte (7 * index) = partitionMark) :
    img.alarmPartitionFrom index (count + 1) = .ok (some ⟨index, (img.byte (7 * index + 1)).toNat⟩) := by
  simp only [registerCount] at inside
  have length : img.get (7 * index + 1 : Nat) = _ := get_of_lt img (by simp only [memorySize]; omega)
  rw [alarmPartitionFrom, get_of_lt img (by simp only [memorySize]; omega)]
  change (if img.byte (7 * index) = partitionMark then _ else _) = _
  rw [if_pos mark, length]
  rfl

/-- The partition begins in the first register that starts with its mark. -/
theorem alarmPartitionFrom_of_first {start : Nat} (low : index ≤ start) (high : start < index + count)
    (inside : start < registerCount) (first : ∀ k, index ≤ k → k < start → img.byte (7 * k) ≠ partitionMark)
    (mark : img.byte (7 * start) = partitionMark) :
    img.alarmPartitionFrom index count = .ok (some ⟨start, (img.byte (7 * start + 1)).toNat⟩) := by
  induction count generalizing index with
  | zero => omega
  | succ count ih =>
    rcases Nat.lt_or_eq_of_le low with before | rfl
    · rw [alarmPartitionFrom_of_ne (by omega) (first index (Nat.le_refl _) before)]
      exact ih (by omega) (by omega) fun k above => first k (by omega)
    · exact alarmPartitionFrom_of_eq inside mark

/-- Without the mark there is no partition. -/
theorem alarmPartitionFrom_of_none (inside : index + count ≤ registerCount)
    (unmarked : ∀ k, index ≤ k → k < index + count → img.byte (7 * k) ≠ partitionMark) :
    img.alarmPartitionFrom index count = .ok none := by
  induction count generalizing index with
  | zero => rfl
  | succ count ih =>
    rw [alarmPartitionFrom_of_ne (by omega) (unmarked index (Nat.le_refl _) (by omega))]
    exact ih (by omega) fun k above below => unmarked k (by omega) (by omega)

/-- A partition is found among the registers that are searched, in memory, and one byte tells its length. -/
theorem alarmPartitionFrom_bounds {p : Partition} (found : img.alarmPartitionFrom index count = .ok (some p)) :
    index ≤ p.start ∧ p.start < index + count ∧ p.start < registerCount ∧ p.length < 256 := by
  induction count generalizing index with
  | zero => cases found
  | succ count ih =>
    rcases Nat.lt_or_ge index registerCount with inside | outside
    · by_cases mark : img.byte (7 * index) = partitionMark
      · rw [alarmPartitionFrom_of_eq inside mark] at found
        cases found
        exact ⟨Nat.le_refl _, Nat.lt_add_of_pos_right (Nat.succ_pos _), inside, UInt8.toNat_lt _⟩
      · rw [alarmPartitionFrom_of_ne inside mark] at found
        have bounds := ih found
        omega
    · simp only [registerCount] at outside
      rw [alarmPartitionFrom, get_of_le img (by simp only [memorySize]; omega)] at found
      cases found

/-- Inside memory the search for a partition always comes to an end. -/
theorem alarmPartitionFrom_cases (inside : index + count ≤ registerCount) :
    img.alarmPartitionFrom index count = .ok none ∨ ∃ p, img.alarmPartitionFrom index count = .ok (some p) := by
  induction count generalizing index with
  | zero => exact .inl rfl
  | succ count ih =>
    by_cases mark : img.byte (7 * index) = partitionMark
    · exact .inr ⟨_, alarmPartitionFrom_of_eq (by omega) mark⟩
    · rw [alarmPartitionFrom_of_ne (by omega) mark]
      exact ih (by omega)

theorem on_alarms_of_none (absent : img.alarmPartition = .ok none) (tz : Int) (log : List Log.Record) :
    (img.alarms tz).on log = (.ok [], log) := by
  rw [alarms, absent]
  rfl

theorem on_alarms_of_some {p : Partition} (partition : img.alarmPartition = .ok (some p)) (tz : Int)
    (log : List Log.Record) :
    (img.alarms tz).on log = (readRecords img tz (p.start + 1) (p.start + p.length - 1) []).on log := by
  rw [alarms, partition, Traced.on_bind_of_ok (Traced.on_lift _)]

end Partition

/-- The moment of a record, taken from its halves. -/
theorem tenths_recordAt (img : Image) (index : Nat) :
    (img.recordAt index).tenths = decimalValue ((List.range 11).map fun k => (img.half (14 * index + k) : Int)) := by
  have read : (img.recordAt index).tenths =
      decimalValue (digits (img.bytesFrom (7 * index) 5) (img.byte (7 * index + 5))) := rfl
  rw [read, digits_bytesFrom, show 2 * (7 * index) = 14 * index by omega]

/-- Whatever a register holds, its alarm is not before 1900 and not much after 2400. -/
theorem time_alarmAt (img : Image) (tz : Int) (index : Nat) :
    -2208988800 + tz ≤ (img.alarmAt tz index).time ∧
      (img.alarmAt tz index).time ≤ 16666666666 - 2208988800 + tz := by
  have bounds := img.decimalValue_halves_le (14 * index) 11
  rw [← tenths_recordAt] at bounds
  have time : (img.alarmAt tz index).time = (img.recordAt index).tenths / 10 - 2208988800 + tz := rfl
  rw [time]
  omega

/-- **What the alarms of an image come to.** There are fewer than 256 of them, each that of a register; or a record
reaches beyond memory, and the first register outside it is the fault. -/
theorem alarms_cases {img : Image} (limit : img.status.programLimit ≤ registerCount) (tz : Int)
    (log : List Log.Record) :
    (∃ as log', (img.alarms tz).on log = (.ok as, log') ∧ as.length < 256 ∧ ∀ a ∈ as, ∃ k, a = img.alarmAt tz k) ∨
      (img.alarms tz).on log = (.error (.registerOutside registerCount), log) ∧ img.AlarmBeyond := by
  have inside : partitionBase + (img.status.programLimit - partitionBase) ≤ registerCount := by
    simp only [partitionBase, registerCount] at limit ⊢
    omega
  rcases alarmPartitionFrom_cases inside with absent | ⟨p, found⟩
  · exact .inl ⟨[], log, on_alarms_of_none absent tz log, by decide, by simp⟩
  · have partition : img.alarmPartition = .ok (some p) := found
    obtain ⟨-, -, start, length⟩ := alarmPartitionFrom_bounds found
    rw [on_alarms_of_some partition]
    rcases readRecords_cases start with ⟨as, log', read, count, origin⟩ | ⟨failed, k, begins, beyond⟩
    · refine .inl ⟨as, log', read, ?_, ?_⟩
      · rw [List.length_nil] at count
        omega
      · intro a member
        exact (origin a member).resolve_left List.not_mem_nil
    · exact .inr ⟨failed, p, k, partition, begins, beyond⟩

end Image

end CalcImage
