import TaggedRows.Time.Instant

/-!
# Days and dates

The date of a day exists in the calendar (`Date.isValid_ofDayNumber`) and is as many days after
1970 as the day (`Date.dayNumber_ofDayNumber`).

Both read the place of the day off a calendar whose years begin with March: the era, the year in it
and the day of that year (`MarchPlace`).  The year is found by dividing the days of an era by 365
after the leap days before them have been taken away.  That count of leap days is one too high at
the end of some leap cycles, which moves no day into another year.
-/

namespace TaggedRows.Time

/-! ## Years that begin with March -/

/-- A year of an era and a day of it, counted from 1 March.  Only a year that ends with a leap day
has a day 365. -/
structure MarchPlace (yearOfEra dayOfYear : Int) : Prop where
  year_nonneg : 0 ≤ yearOfEra
  year_lt : yearOfEra < 400
  day_nonneg : 0 ≤ dayOfYear
  day_le : dayOfYear ≤ 365
  leap : dayOfYear = 365 → yearOfEra % 4 = 3 ∧ (yearOfEra % 100 ≠ 99 ∨ yearOfEra = 399)

theorem marchPlace_of_dayOfEra {e y d : Int} (hfirst : 0 ≤ e) (hlast : e < 146097)
    (hy : y = (e - e / 1460 + e / 36524 - e / 146096) / 365)
    (hd : d = e - (365 * y + y / 4 - y / 100)) : MarchPlace y d := by
  by_cases hend : e = 146096
  · -- the last day of an era is its one leap day at the end of a century
    subst hend hy hd
    constructor <;> decide
  · obtain ⟨c, r, hc, hr⟩ : ∃ c r : Int, e = 36524 * c + r ∧ 0 ≤ r ∧ r < 36524 :=
      ⟨e / 36524, e % 36524, by omega, by omega⟩
    obtain ⟨q, s, hq, hs⟩ : ∃ q s : Int, r = 1461 * q + s ∧ 0 ≤ s ∧ s < 1461 :=
      ⟨r / 1461, r % 1461, by omega, by omega⟩
    have hcenturies : e / 36524 = c := by omega
    have heras : e / 146096 = 0 := by omega
    have hcbound : 0 ≤ c ∧ c ≤ 3 := by omega
    have hqbound : 0 ≤ q ∧ q ≤ 24 := by omega
    -- whether the count of leap days runs ahead or not, the year of the cycle is the same
    obtain ⟨j, hj⟩ : ∃ j, y = 100 * c + 4 * q + j ∧ 0 ≤ j ∧ j ≤ 3 ∧ 365 * j ≤ s ∧
        (s < 365 * j + 365 ∨ j = 3) := by
      rw [hcenturies, heras] at hy
      by_cases hahead : 24 * c + q + s < 1460
      · have hcycles : e / 1460 = 25 * c + q := by omega
        rw [hcycles] at hy
        exact ⟨s / 365, by omega⟩
      · have hcycles : e / 1460 = 25 * c + q + 1 := by omega
        rw [hcycles] at hy
        exact ⟨3, by omega⟩
    have hquarter : y / 4 = 25 * c + q := by omega
    have hcentury : y / 100 = c := by omega
    rw [hquarter, hcentury] at hd
    constructor <;> omega

/-- A month counted from March as 0, and a day of it from 1. -/
structure MarchMonth (dayOfYear month day : Int) : Prop where
  month_nonneg : 0 ≤ month
  month_le : month ≤ 11
  day_pos : 1 ≤ day
  day_le : day ≤ 31
  short : month = 1 ∨ month = 3 ∨ month = 6 ∨ month = 8 → day ≤ 30
  february : month = 11 → day ≤ 28 ∨ (day = 29 ∧ dayOfYear = 365)
  newYear : 10 ≤ month ↔ 306 ≤ dayOfYear

theorem marchMonth_of_dayOfYear {d month day : Int} (hfirst : 0 ≤ d) (hlast : d ≤ 365)
    (hmonth : month = (5 * d + 2) / 153) (hday : day = d - (153 * month + 2) / 5 + 1) :
    MarchMonth d month day := by
  constructor <;> omega

/-! ## The date of a day -/

namespace Date

/-- The date of a day, part by part. -/
theorem exists_marchPlace (n : Int) : ∃ era y d month day : Int,
    MarchPlace y d ∧ MarchMonth d month day ∧
      n = era * 146097 + (365 * y + y / 4 - y / 100) + d - 719468 ∧
      d = (153 * month + 2) / 5 + day - 1 ∧
      ofDayNumber n = ⟨if month < 10 then y + era * 400 else y + era * 400 + 1,
        (if month < 10 then month + 3 else month - 9).toNat, day.toNat⟩ := by
  have hfirst : 0 ≤ (n + 719468) % 146097 := by omega
  have hlast : (n + 719468) % 146097 < 146097 := by omega
  have hplace := marchPlace_of_dayOfEra hfirst hlast rfl rfl
  have hmonth := marchMonth_of_dayOfYear hplace.day_nonneg hplace.day_le rfl rfl
  refine ⟨(n + 719468) / 146097, _, _, _, _, hplace, hmonth, by omega, by omega, ?_⟩
  have hyear : ∀ {month : Int}, 0 ≤ month → month ≤ 11 → ∀ year : Int,
      (if (if month < 10 then month + 3 else month - 9) ≤ 2 then year + 1 else year) =
        if month < 10 then year else year + 1 := by
    intro month _ _ year
    split <;> split <;> omega
  exact congrArg (fun year => Date.mk year _ _) (hyear hmonth.month_nonneg hmonth.month_le _)

theorem dayNumber_ofDayNumber (n : Int) : (ofDayNumber n).dayNumber = n := by
  obtain ⟨era, y, d, month, day, hplace, hmonth, hn, hd, hdate⟩ := exists_marchPlace n
  obtain ⟨hy, hy', hd0, hd', -⟩ := hplace
  obtain ⟨hm, hm', hday, hday', -⟩ := hmonth
  have hera : (y + era * 400) / 400 = era := by omega
  have hyear : (y + era * 400) % 400 = y := by omega
  rw [hdate, dayNumber]
  by_cases hspring : month < 10
  · have hle : ¬ (month + 3).toNat ≤ 2 := by omega
    have hmarch : (((month + 3).toNat + 9) % 12 : Nat) = month := by omega
    simp only [if_pos hspring, if_neg hle, hmarch, hera, hyear]
    omega
  · have hle : (month - 9).toNat ≤ 2 := by omega
    have hmarch : (((month - 9).toNat + 9) % 12 : Nat) = month := by omega
    simp only [if_neg hspring, if_pos hle, hmarch, Int.add_sub_cancel, hera, hyear]
    omega

theorem isLeapYear_of_place {era y : Int} (h : y % 4 = 3 ∧ (y % 100 ≠ 99 ∨ y = 399)) :
    isLeapYear (y + era * 400 + 1) = true := by
  simp only [isLeapYear, Bool.and_eq_true, Bool.or_eq_true, beq_iff_eq, bne_iff_ne]
  omega

theorem isValid_ofDayNumber (n : Int) : (ofDayNumber n).isValid = true := by
  obtain ⟨era, y, d, month, day, hplace, hmonth, hn, hd, hdate⟩ := exists_marchPlace n
  obtain ⟨hy, hy', hd0, hd', hleap⟩ := hplace
  obtain ⟨hm, hm', hday, hday', hshort, hfebruary, -⟩ := hmonth
  rw [hdate, isValid]
  simp only [Bool.and_eq_true, decide_eq_true_eq]
  by_cases hspring : month < 10
  · have hlength : day.toNat ≤ monthLength (y + era * 400) (month + 3).toNat := by
      rw [monthLength, if_neg (by omega)]
      split <;> omega
    simp only [if_pos hspring]
    omega
  · have hlength : day.toNat ≤ monthLength (y + era * 400 + 1) (month - 9).toNat := by
      by_cases hmonth : month = 11
      · subst hmonth
        show day.toNat ≤ if isLeapYear (y + era * 400 + 1) = true then 29 else 28
        rcases hfebruary rfl with hday28 | ⟨hday29, hlast⟩
        · split <;> omega
        · rw [if_pos (isLeapYear_of_place (hleap hlast))]
          omega
      · rw [monthLength, if_neg (by omega), if_neg (by omega)]
        omega
    simp only [if_neg hspring]
    omega

end Date

theorem year_ofDayNumber {secs : Int} (hfirst : firstSecond ≤ secs) (hlast : secs ≤ lastSecond) :
    -262143 ≤ (Date.ofDayNumber (secs / 86400)).year ∧
      (Date.ofDayNumber (secs / 86400)).year ≤ 262142 := by
  obtain ⟨era, y, d, month, day, hplace, hmonth, hn, hd, hdate⟩ :=
    Date.exists_marchPlace (secs / 86400)
  obtain ⟨hy, hy', hd0, hd', -⟩ := hplace
  have hspring := hmonth.newYear
  have hlow : -96465292 ≤ secs / 86400 := by
    rw [firstSecond] at hfirst
    omega
  have hhigh : secs / 86400 ≤ 95026236 := by
    rw [lastSecond] at hlast
    omega
  rw [hdate]
  show -262143 ≤ (if month < 10 then y + era * 400 else y + era * 400 + 1) ∧
    (if month < 10 then y + era * 400 else y + era * 400 + 1) ≤ 262142
  -- the first and the last year that begin with March are not covered from end to end
  have hera : -656 ≤ era ∧ era ≤ 655 := by omega
  have hlower : -262144 ≤ y + era * 400 := by omega
  have hupper : y + era * 400 ≤ 262142 := by omega
  constructor
  · split
    · by_cases hfirst' : y + era * 400 = -262144
      · obtain ⟨rfl, rfl⟩ : era = -656 ∧ y = 256 := by omega
        omega
      · omega
    · omega
  · split
    · omega
    · by_cases hlast' : y + era * 400 = 262142
      · obtain ⟨rfl, rfl⟩ : era = 655 ∧ y = 142 := by omega
        omega
      · omega

end TaggedRows.Time
