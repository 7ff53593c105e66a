import CalcImage.Calendar

/-!
# The Gregorian calendar from day to day

The Gregorian calendar says how long the months are and which years are leap years. Here a date is followed by the date
of the next day, with no other arithmetic than that (`dayAfter`), and a moment is told by going on from the beginning of
1900 (`since1900`). Reading a day number off by divisions comes to the same dates: an era of 400 years is taken apart into
centuries, rows of four years, years and days (`EraDay`), and the step to the next day is made there
(`dateOfDay_succ`, `ofSeconds_eq_since1900`).
-/

namespace CalcImage.Calendar

/-- A leap year has a 29th of February. -/
def isLeap (year : Int) : Bool := year % 4 = 0 && (year % 100 ≠ 0 || year % 400 = 0)

/-- The days of a month. -/
def monthDays (year month : Int) : Int :=
  if month = 2 then (if isLeap year then 29 else 28)
  else if month = 4 ∨ month = 6 ∨ month = 9 ∨ month = 11 then 30
  else 31

/-- The date after a date, both as year, month and day. -/
def dayAfter (date : Int × Int × Int) : Int × Int × Int :=
  let (year, month, day) := date
  if day < monthDays year month then (year, month, day + 1)
  else if month < 12 then (year, month + 1, 1)
  else (year + 1, 1, 1)

/-- What a calendar and a clock show some seconds after the beginning of 1900. -/
def since1900 (seconds : Nat) : DateTime :=
  let (year, month, day) := Nat.repeat dayAfter (seconds / 86400) (1900, 1, 1)
  ⟨year, month, day, (seconds % 86400 / 3600 : Nat), (seconds % 3600 / 60 : Nat), (seconds % 60 : Nat)⟩

section Era

/-- A day of an era is the day `d` of a year that begins in March, the year `r` of four in a row, which are the row `q` of
the century `c`. Only a leap year has a day 365, and only its last century gives an era a leap year in the last row. -/
structure EraDay (c q r d : Int) : Prop where
  century : 0 ≤ c ∧ c ≤ 3
  row : 0 ≤ q ∧ q ≤ 24
  year : 0 ≤ r ∧ r ≤ 3
  day : 0 ≤ d ∧ (d ≤ 364 ∨ d = 365 ∧ r = 3 ∧ (q ≤ 23 ∨ c = 3))

variable {c q r d n : Int}

theorem exists_eraDay (low : 0 ≤ n) (high : n < 146097) :
    ∃ c q r d, EraDay c q r d ∧ n = 36524 * c + 1461 * q + 365 * r + d := by
  obtain ⟨c, hc, x, hx⟩ :
      ∃ c, (0 ≤ c ∧ c ≤ 3) ∧ ∃ x, n = 36524 * c + x ∧ 0 ≤ x ∧ (x < 36524 ∨ x = 36524 ∧ c = 3) := by
    by_cases last : n = 146096
    · exact ⟨3, by omega, 36524, by omega⟩
    · exact ⟨n / 36524, by omega, n % 36524, by omega⟩
  obtain ⟨q, hq, y, hy⟩ : ∃ q, (0 ≤ q ∧ q ≤ 24) ∧ ∃ y, x = 1461 * q + y ∧ 0 ≤ y ∧ y < 1461 :=
    ⟨x / 1461, by omega, x % 1461, by omega⟩
  by_cases last : y = 1460
  · exact ⟨c, q, 3, 365, ⟨hc, hq, by omega, by omega⟩, by omega⟩
  · exact ⟨c, q, y / 365, y % 365, ⟨hc, hq, by omega, by omega⟩, by omega⟩

/-- The year of a day of an era: the days that leap years have added are taken off before the division. -/
theorem yearOfEra_eq (h : EraDay c q r d) (parts : n = 36524 * c + 1461 * q + 365 * r + d) :
    (n - n / 1460 + n / 36524 - n / 146096) / 365 = 100 * c + 4 * q + r := by
  obtain ⟨hc, hq, hr, hd⟩ := h
  by_cases last : n = 146096
  · subst last
    omega
  · have centuries : n / 36524 = c := by omega
    have eras : n / 146096 = 0 := by omega
    by_cases short : 24 * c + q + 365 * r + d < 1460
    · have rows : n / 1460 = 25 * c + q := by omega
      omega
    · have rows : n / 1460 = 25 * c + q + 1 := by omega
      omega

theorem dayOfYear_eq (h : EraDay c q r d) :
    36524 * c + 1461 * q + 365 * r + d -
      (365 * (100 * c + 4 * q + r) + (100 * c + 4 * q + r) / 4 - (100 * c + 4 * q + r) / 100) = d := by
  obtain ⟨hc, hq, hr, -⟩ := h
  have rows : (100 * c + 4 * q + r) / 4 = 25 * c + q := by omega
  have centuries : (100 * c + 4 * q + r) / 100 = c := by omega
  omega

/-- A year that begins in March ends with the February of the next year. -/
theorem isLeap_iff (h : EraDay c q r d) (era : Int) :
    isLeap (400 * era + (100 * c + 4 * q + r) + 1) = true ↔ r = 3 ∧ (q ≤ 23 ∨ c = 3) := by
  obtain ⟨hc, hq, hr, -⟩ := h
  simp only [isLeap, Bool.and_eq_true, Bool.or_eq_true, decide_eq_true_iff]
  omega

/-- After the last day of a year comes the first day of the next one, in the same era or in the next one. -/
theorem exists_nextYear (h : EraDay c q r d) (era : Int)
    (last : d = 364 ∧ ¬(r = 3 ∧ (q ≤ 23 ∨ c = 3)) ∨ d = 365 ∧ r = 3 ∧ (q ≤ 23 ∨ c = 3)) :
    ∃ era' c' q' r', EraDay c' q' r' 0 ∧
      400 * era' + (100 * c' + 4 * q' + r') = 400 * era + (100 * c + 4 * q + r) + 1 ∧
      146097 * era' + (36524 * c' + 1461 * q' + 365 * r' + 0) =
        146097 * era + (36524 * c + 1461 * q + 365 * r + d) + 1 := by
  obtain ⟨hc, hq, hr, -⟩ := h
  by_cases year : r ≤ 2
  · exact ⟨era, c, q, r + 1, ⟨hc, hq, by omega, by omega⟩, by omega, by omega⟩
  · by_cases row : q ≤ 23
    · exact ⟨era, c, q + 1, 0, ⟨hc, by omega, by omega, by omega⟩, by omega, by omega⟩
    · by_cases century : c ≤ 2
      · exact ⟨era, c + 1, 0, 0, ⟨by omega, by omega, by omega, by omega⟩, by omega, by omega⟩
      · exact ⟨era + 1, 0, 0, 0, ⟨by omega, by omega, by omega, by omega⟩, by omega, by omega⟩

end Era

section Year

/-- The first day of a month in a year that begins with March as the month 0. -/
def monthStart (month : Int) : Int := (153 * month + 2) / 5

/-- The date of a day of such a year. -/
def fromMarch (year day : Int) : Int × Int × Int :=
  let month := (5 * day + 2) / 153
  let dayOfMonth := day - monthStart month + 1
  if month < 10 then (year, month + 3, dayOfMonth) else (year + 1, month - 9, dayOfMonth)

/-- The date of a day of a month of such a year, days being counted from 0. -/
def inMonth (year month day : Int) : Int × Int × Int :=
  if month < 10 then (year, month + 3, day + 1) else (year + 1, month - 9, day + 1)

/-- The days of a month of such a year. -/
def monthLength (year month : Int) : Int :=
  if month < 10 then monthDays year (month + 3) else monthDays (year + 1) (month - 9)

theorem dateOfDay_eq {c q r d n : Int} (h : EraDay c q r d) (parts : n = 36524 * c + 1461 * q + 365 * r + d)
    (era : Int) :
    dateOfDay (146097 * era + n - 719468) = fromMarch (400 * era + (100 * c + 4 * q + r)) d := by
  have bounds : 0 ≤ n ∧ n < 146097 := by
    obtain ⟨hc, hq, hr, hd⟩ := h
    omega
  have year := yearOfEra_eq h parts
  have day := dayOfYear_eq h
  rw [← parts] at day
  have eras : (146097 * era + n - 719468 + 719468) / 146097 = era := by omega
  have dayOfEra : (146097 * era + n - 719468 + 719468) % 146097 = n := by omega
  unfold dateOfDay fromMarch monthStart
  dsimp only
  rw [eras, dayOfEra, year, day, Int.add_assoc]

variable {year month day : Int}

theorem fromMarch_month (low : 0 ≤ day) (inside : day < monthStart (month + 1) - monthStart month) :
    fromMarch year (monthStart month + day) = inMonth year month day := by
  have month_eq : (5 * (monthStart month + day) + 2) / 153 = month := by
    unfold monthStart at inside ⊢
    omega
  have day_eq : monthStart month + day - monthStart month + 1 = day + 1 := by omega
  unfold fromMarch inMonth
  dsimp only
  rw [month_eq, day_eq]

/-- From March to January the lengths of the months are told by where they start. -/
theorem monthLength_eq (year : Int) (low : 0 ≤ month) (high : month ≤ 10) :
    monthLength year month = monthStart (month + 1) - monthStart month := by
  have months : month = 0 ∨ month = 1 ∨ month = 2 ∨ month = 3 ∨ month = 4 ∨ month = 5 ∨ month = 6 ∨ month = 7 ∨
      month = 8 ∨ month = 9 ∨ month = 10 := by omega
  rcases months with rfl | rfl | rfl | rfl | rfl | rfl | rfl | rfl | rfl | rfl | rfl <;> rfl

theorem monthLength_february (year : Int) : monthLength year 11 = if isLeap (year + 1) then 29 else 28 := rfl

theorem dayAfter_inMonth (inside : day + 1 < monthLength year month) :
    dayAfter (inMonth year month day) = inMonth year month (day + 1) := by
  unfold monthLength at inside
  unfold inMonth
  split at inside
  · rw [if_pos ‹_›, if_pos ‹_›, dayAfter, if_pos inside]
  · rw [if_neg ‹_›, if_neg ‹_›, dayAfter, if_pos inside]

/-- After the last day of a month the next one begins. -/
theorem dayAfter_inMonth_last (high : month ≤ 10) (last : day + 1 = monthLength year month) :
    dayAfter (inMonth year month day) = inMonth year (month + 1) 0 := by
  have order : month < 9 ∨ month = 9 ∨ month = 10 := by omega
  unfold monthLength at last
  unfold inMonth
  rcases order with early | rfl | rfl
  · rw [if_pos (by omega)] at last
    rw [if_pos (by omega), if_pos (by omega), dayAfter, if_neg (by omega), if_pos (by omega), Int.add_right_comm,
      Int.zero_add]
  · change day + 1 = 31 at last
    rw [last]
    rfl
  · change day + 1 = 31 at last
    rw [last]
    rfl

/-- After the last day of February comes the first of March. -/
theorem dayAfter_february (last : day + 1 = monthLength year 11) :
    dayAfter (inMonth year 11 day) = inMonth (year + 1) 0 0 := by
  change dayAfter (year + 1, 2, day + 1) = (year + 1, 3, 1)
  rw [dayAfter, if_neg (by rw [last]; exact Int.lt_irrefl _)]
  rfl

/-- The next day is one of the same year unless this is the last day of February. -/
theorem dayAfter_fromMarch (low : 0 ≤ day) (inside : day < 364 ∨ day = 364 ∧ isLeap (year + 1) = true) :
    dayAfter (fromMarch year day) = fromMarch year (day + 1) := by
  obtain ⟨m, k, hm, hk, day_eq⟩ : ∃ m k, (0 ≤ m ∧ m ≤ 11) ∧ (0 ≤ k ∧ k < monthStart (m + 1) - monthStart m) ∧
      day = monthStart m + k := by
    refine ⟨(5 * day + 2) / 153, day - monthStart ((5 * day + 2) / 153), ?_⟩
    unfold monthStart
    omega
  subst day_eq
  rw [fromMarch_month hk.1 hk.2]
  rcases Int.lt_or_le (k + 1) (monthStart (m + 1) - monthStart m) with same | last
  · have short : k + 1 < monthLength year m := by
      by_cases february : m = 11
      · subst february
        have start : monthStart 11 = 337 := rfl
        rw [monthLength_february]
        rcases inside with before | ⟨last, leap⟩
        · split
          · omega
          · omega
        · rw [if_pos leap]
          omega
      · rw [monthLength_eq year hm.1 (by omega)]
        exact same
    rw [Int.add_assoc, fromMarch_month (by omega) same, dayAfter_inMonth short]
  · have high : m ≤ 10 := by
      unfold monthStart at last inside
      omega
    have next : monthStart m + k + 1 = monthStart (m + 1) + 0 := by omega
    rw [next, fromMarch_month (Int.le_refl 0) (by unfold monthStart; omega),
      dayAfter_inMonth_last high (by rw [monthLength_eq year hm.1 high]; omega)]

theorem dayAfter_fromMarch_last
    (last : day = 364 ∧ isLeap (year + 1) = false ∨ day = 365 ∧ isLeap (year + 1) = true) :
    dayAfter (fromMarch year day) = fromMarch (year + 1) 0 := by
  have length := monthLength_february year
  rcases last with ⟨rfl, leap⟩ | ⟨rfl, leap⟩
  · rw [leap] at length
    exact dayAfter_february length.symm
  · rw [leap] at length
    exact dayAfter_february length.symm

end Year

/-- **The calendar goes on from day to day.** The date of the next day is the date after the date of the day. -/
theorem dateOfDay_succ (day : Int) : dateOfDay (day + 1) = dayAfter (dateOfDay day) := by
  obtain ⟨c, q, r, d, h, parts⟩ := exists_eraDay (n := (day + 719468) % 146097) (by omega) (by omega)
  have here : day = 146097 * ((day + 719468) / 146097) + (day + 719468) % 146097 - 719468 := by omega
  generalize (day + 719468) / 146097 = era at here
  rw [parts] at here
  have today : dateOfDay day = fromMarch (400 * era + (100 * c + 4 * q + r)) d := by rw [here, dateOfDay_eq h rfl]
  have leap := isLeap_iff h era
  have length := h.day
  rw [today]
  by_cases same : d < 364 ∨ d = 364 ∧ r = 3 ∧ (q ≤ 23 ∨ c = 3)
  · have h' : EraDay c q r (d + 1) := ⟨h.century, h.row, h.year, by omega⟩
    rw [← leap] at same
    rw [dayAfter_fromMarch length.1 same, ← dateOfDay_eq h' rfl]
    congr 1
    omega
  · have last : d = 364 ∧ ¬(r = 3 ∧ (q ≤ 23 ∨ c = 3)) ∨ d = 365 ∧ r = 3 ∧ (q ≤ 23 ∨ c = 3) := by omega
    obtain ⟨era', c', q', r', h', year, next⟩ := exists_nextYear h era last
    rw [← leap, Bool.not_eq_true] at last
    rw [dayAfter_fromMarch_last last, ← year, ← dateOfDay_eq h' rfl]
    congr 1
    omega

/-- The first day of 1900 is day -25567, and the days after it go on from there. -/
theorem dateOfDay_since1900 (days : Nat) : dateOfDay (days - 25567) = Nat.repeat dayAfter days (1900, 1, 1) := by
  induction days with
  | zero => rfl
  | succ days ih =>
    rw [Nat.repeat, ← ih, ← dateOfDay_succ]
    congr 1
    omega

/-- Moments are read as a calendar and a clock show them that have gone on since the beginning of 1900. -/
theorem ofSeconds_eq_since1900 (seconds : Nat) : ofSeconds (seconds - 2208988800) = since1900 seconds := by
  have day : ((seconds : Int) - 2208988800) / daySeconds = (seconds / 86400 : Nat) - 25567 := by
    unfold daySeconds
    omega
  have hour : ((seconds : Int) - 2208988800) % daySeconds / 3600 = (seconds % 86400 / 3600 : Nat) := by
    unfold daySeconds
    omega
  have minute : ((seconds : Int) - 2208988800) % daySeconds % 3600 / 60 = (seconds % 3600 / 60 : Nat) := by
    unfold daySeconds
    omega
  have second : ((seconds : Int) - 2208988800) % daySeconds % 60 = (seconds % 60 : Nat) := by
    unfold daySeconds
    omega
  unfold ofSeconds since1900
  dsimp only
  rw [day, hour, minute, second, dateOfDay_since1900]

/-- The last second of a leap day. -/
example : since1900 3160857599 = ⟨2000, 2, 29, 23, 59, 59⟩ := by
  rw [← ofSeconds_eq_since1900]
  decide

end CalcImage.Calendar
