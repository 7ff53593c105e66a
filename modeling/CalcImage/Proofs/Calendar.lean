import CalcImage.Calendar

/-!
# Years of moments

The calendar repeats after 400 years, so the year of a moment is told by the number of such eras before it, up to the
years of one era (`era_le_year`, `year_le_era`). Moments near the present have years that a date can be written with, in
every zone (`localTime_of_bounds`).
-/

namespace CalcImage.Calendar

/-- The eras of 400 years before a moment, counted from March of the year 0. -/
def era (t : Int) : Int := (t / daySeconds + 719468) / 146097

theorem era_le_year (t : Int) : 400 * era t ≤ (ofSeconds t).year := by
  unfold ofSeconds dateOfDay era
  dsimp only
  split
  · dsimp only
    omega
  · dsimp only
    omega

theorem year_le_era (t : Int) : (ofSeconds t).year ≤ 400 * era t + 401 := by
  unfold ofSeconds dateOfDay era
  dsimp only
  split
  · dsimp only
    omega
  · dsimp only
    omega

/-- In the eras 1 to 23 every year can be written. -/
theorem inRange_of_era {t : Int} (low : 1 ≤ era t) (high : era t ≤ 23) : inRange (ofSeconds t).year = true := by
  have above := era_le_year t
  have below := year_le_era t
  rw [inRange, Bool.and_eq_true, decide_eq_true_iff, decide_eq_true_iff]
  omega

theorem isCounted_of_inRange {year : Int} (range : inRange year = true) : isCounted year = true := by
  rw [inRange, Bool.and_eq_true, decide_eq_true_iff, decide_eq_true_iff] at range
  rw [isCounted, Word.fits_iff, show (Word.bound 32 : Int) = 2147483648 from rfl]
  omega

/-- Moments in this range have a local time in every zone within a day of Greenwich. -/
theorem localTime_of_bounds {east time : Int} (low : -3000000000 ≤ time) (high : time ≤ 20000000000)
    (zone : east.natAbs ≤ 86400) : ∃ d, localTime east time = .ok d := by
  have range (t : Int) (low : -4000000000 ≤ t) (high : t ≤ 21000000000) : inRange (ofSeconds t).year = true := by
    apply inRange_of_era
    · unfold era daySeconds
      omega
    · unfold era daySeconds
      omega
  have word : Word.fits 64 time = true := by
    rw [Word.fits_iff, show (Word.bound 64 : Int) = 9223372036854775808 from rfl]
    omega
  have here := range (time + east) (by omega) (by omega)
  have before := range (time + east - daySeconds) (by unfold daySeconds; omega) (by unfold daySeconds; omega)
  have greenwich := isCounted_of_inRange (range time (by omega) (by omega))
  refine ⟨ofSeconds (time + east), ?_⟩
  simp only [localTime, word, here, before, greenwich, isCounted_of_inRange here]
  rfl

/-- A local time is the reading of a calendar and a clock that are `east` seconds ahead of Greenwich. -/
theorem eq_of_localTime {east time : Int} {d : DateTime} (told : localTime east time = .ok d) :
    d = ofSeconds (time + east) := by
  unfold localTime at told
  dsimp only at told
  split at told
  · cases told
  · split at told
    · cases told
    · split at told
      · cases told
      · split at told
        · cases told
        · exact (Except.ok.inj told).symm

end CalcImage.Calendar
