import GraphGateway.Timestamp

/-!
# The calendar

Numbering days and finding the date of a day undo each other. An era of 400 years
has as many days as any other; within it, a day lies in the year that the formula
finds, at most 365 days after its beginning and on the last of these only in a leap
year. Years begin in March here, so that all months but the last have lengths that
follow one rule.
-/

namespace GraphGateway

namespace CivilDate

/-! ## Years of an era -/

/-- The days of an era before a year. -/
def daysBefore (year : Int) : Int :=
  365 * year + year / 4 - year / 100

def yearOfDay (day : Int) : Int :=
  (day - day / 1460 + day / 36524 - day / 146096) / 365

/-- A day of an era lies so many days after the beginning of a year. The leap day of the year is its
last, so that what counts is the calendar year which begins before its end. -/
structure LiesIn (day year dayOfYear : Int) : Prop where
  year_nonneg : 0 ≤ year
  year_lt : year < 400
  day_eq : day = daysBefore year + dayOfYear
  dayOfYear_nonneg : 0 ≤ dayOfYear
  dayOfYear_le : dayOfYear ≤ 365
  leap : dayOfYear = 365 → (year + 1) % 4 = 0 ∧ ((year + 1) % 100 ≠ 0 ∨ (year + 1) % 400 = 0)

/-- A day lies in one of the four centuries of its era; the last of them is a day longer. -/
theorem century_of_day {day : Int} (h : 0 ≤ day ∧ day < 146097) :
    ∃ century, day / 36524 - day / 146096 = century ∧ 0 ≤ century ∧ century ≤ 3 ∧
      36524 * century ≤ day ∧
        (day < 36524 * (century + 1) ∨ century = 3 ∧ day = 146096) := by
  refine ⟨_, rfl, ?_⟩
  omega

theorem yearOfDay_liesIn {day : Int} (h : 0 ≤ day ∧ day < 146097) :
    LiesIn day (yearOfDay day) (day - daysBefore (yearOfDay day)) := by
  obtain ⟨century, hcentury, hlow, hhigh, hfirst, hlast⟩ := century_of_day h
  obtain ⟨year, hyear⟩ : ∃ year, year = yearOfDay day := ⟨_, rfl⟩
  have hformula : year = (day - day / 1460 + century) / 365 := by
    rw [hyear, yearOfDay, ← hcentury]
    congr 1
    omega
  have hbounds : 100 * century ≤ year ∧ year < 100 * (century + 1) := by
    subst hformula
    omega
  have hhundreds : year / 100 = century := by omega
  have hstart : daysBefore year ≤ day ∧ day ≤ daysBefore year + 365 := by
    unfold daysBefore
    rw [hhundreds]
    omega
  have hleap : day - daysBefore year = 365 →
      (year + 1) % 4 = 0 ∧ ((year + 1) % 100 ≠ 0 ∨ (year + 1) % 400 = 0) := by
    unfold daysBefore
    rw [hhundreds]
    intro hlastDay
    have hquarter : year % 4 = 3 := by omega
    have hend : century = 3 ∨ year % 100 ≠ 99 := by omega
    omega
  rw [← hyear]
  exact ⟨by omega, by omega, by omega, by omega, by omega, hleap⟩

/-! ## Months -/

/-- The date of a day of a month, with years that begin in March and months counted from there. -/
def ofMarch (year march day : Int) : CivilDate :=
  ⟨if march < 10 then year else year + 1, (if march < 10 then march + 3 else march - 9).toNat,
    day.toNat⟩

def monthOfDay (dayOfYear : Int) : Int :=
  (5 * dayOfYear + 2) / 153

def daysBeforeMonth (march : Int) : Int :=
  (153 * march + 2) / 5

/-- A day of a year, counted from its beginning, is a day of one of its months. -/
structure LiesInMonth (dayOfYear march day : Int) : Prop where
  march_nonneg : 0 ≤ march
  march_lt : march < 12
  dayOfYear_eq : dayOfYear = daysBeforeMonth march + day - 1
  day_pos : 1 ≤ day
  next_month : march < 11 → dayOfYear < daysBeforeMonth (march + 1)

theorem monthOfDay_liesIn {dayOfYear : Int} (h : 0 ≤ dayOfYear ∧ dayOfYear ≤ 365) :
    LiesInMonth dayOfYear (monthOfDay dayOfYear)
      (dayOfYear - daysBeforeMonth (monthOfDay dayOfYear) + 1) := by
  unfold monthOfDay
  refine ⟨by omega, by omega, by omega, ?_, fun _ => ?_⟩
  · unfold daysBeforeMonth
    omega
  · unfold daysBeforeMonth
    omega

/-- The year changes with the months that are numbered 1 and 2. -/
theorem ofMarch_eq (year : Int) {march : Int} (h : 0 ≤ march ∧ march < 12) (day : Int) :
    ofMarch year march day =
      ⟨if (if march < 10 then march + 3 else march - 9) ≤ 2 then year + 1 else year,
        (if march < 10 then march + 3 else march - 9).toNat, day.toNat⟩ := by
  unfold ofMarch
  by_cases hmarch : march < 10
  · have hmonth : ¬ march + 3 ≤ 2 := by omega
    simp only [hmarch, hmonth, if_true, if_false]
  · have hmonth : march - 9 ≤ 2 := by omega
    simp only [hmarch, hmonth, if_true, if_false]

/-- From March to January, the lengths of the months follow the rule. -/
theorem daysInMonth_ofMarch (year : Int) {march : Int} (h : 0 ≤ march ∧ march < 11) (day : Int) :
    (daysInMonth (ofMarch year march day).year (ofMarch year march day).month : Int) =
      daysBeforeMonth (march + 1) - daysBeforeMonth march := by
  have hmonths : march = 0 ∨ march = 1 ∨ march = 2 ∨ march = 3 ∨ march = 4 ∨ march = 5 ∨
      march = 6 ∨ march = 7 ∨ march = 8 ∨ march = 9 ∨ march = 10 := by omega
  rcases hmonths with rfl | rfl | rfl | rfl | rfl | rfl | rfl | rfl | rfl | rfl | rfl <;> rfl

/-- The date exists; February ends with the year that began in March. -/
theorem isValid_ofMarch {year dayOfYear march day : Int} (h : LiesInMonth dayOfYear march day)
    (hle : dayOfYear ≤ 365) (hleap : dayOfYear = 365 → isLeapYear (year + 1) = true) :
    (ofMarch year march day).isValid = true := by
  have heq := h.dayOfYear_eq
  have hpos := h.day_pos
  have hday : (ofMarch year march day).day = day.toNat := rfl
  unfold isValid
  rw [Bool.and_eq_true, decide_eq_true_iff, decide_eq_true_iff, hday]
  refine ⟨by omega, ?_⟩
  by_cases hlast : march < 11
  · have hlength := daysInMonth_ofMarch year ⟨h.march_nonneg, hlast⟩ day
    have hnext := h.next_month hlast
    omega
  · have hmarch : march = 11 := by
      have hlt := h.march_lt
      omega
    subst hmarch
    have hstart : daysBeforeMonth 11 = 337 := rfl
    have hlength : daysInMonth (ofMarch year 11 day).year (ofMarch year 11 day).month =
        if isLeapYear (year + 1) then 29 else 28 := rfl
    rw [hlength]
    by_cases hend : dayOfYear = 365
    · rw [if_pos (hleap hend)]
      omega
    · split <;> omega

theorem dayNumber_ofMarch (year : Int) {march day : Int} (hmarch : 0 ≤ march ∧ march < 12)
    (hday : 1 ≤ day) :
    (ofMarch year march day).dayNumber =
      year / 400 * 146097 + (daysBefore (year % 400) + (daysBeforeMonth march + day - 1)) -
        719468 := by
  unfold dayNumber daysBefore daysBeforeMonth ofMarch
  by_cases h : march < 10
  · simp only [h, if_true]
    have hmonth : ¬ (march + 3).toNat ≤ 2 := by omega
    rw [if_neg hmonth]
    omega
  · simp only [h, if_false]
    have hmonth : (march - 9).toNat ≤ 2 := by omega
    rw [if_pos hmonth]
    omega

/-! ## Days -/

/-- The date of a day, by its era, the year of the era and the month of that year. -/
theorem ofDayNumber_eq (n : Int) :
    ∃ era year dayOfYear march day, LiesIn (n + 719468 - era * 146097) year dayOfYear ∧
      LiesInMonth dayOfYear march day ∧
      ofDayNumber n = ofMarch (year + era * 400) march day := by
  obtain ⟨era, hera⟩ : ∃ era, era = (n + 719468) / 146097 := ⟨_, rfl⟩
  have hrest : (n + 719468) % 146097 = n + 719468 - era * 146097 := by omega
  have hday : 0 ≤ n + 719468 - era * 146097 ∧ n + 719468 - era * 146097 < 146097 := by omega
  have hyear := yearOfDay_liesIn hday
  have hmonth := monthOfDay_liesIn ⟨hyear.dayOfYear_nonneg, hyear.dayOfYear_le⟩
  refine ⟨era, _, _, _, _, hyear, hmonth, ?_⟩
  rw [ofMarch_eq _ ⟨hmonth.march_nonneg, hmonth.march_lt⟩]
  unfold ofDayNumber
  simp only [← hera, hrest]
  rfl

theorem dayNumber_ofDayNumber (n : Int) : (ofDayNumber n).dayNumber = n := by
  obtain ⟨era, year, dayOfYear, march, day, hyear, hmonth, hdate⟩ := ofDayNumber_eq n
  have hera : (year + era * 400) / 400 = era := by
    have h := hyear.year_nonneg
    have h' := hyear.year_lt
    omega
  have hof : (year + era * 400) % 400 = year := by
    have h := hyear.year_nonneg
    have h' := hyear.year_lt
    omega
  rw [hdate, dayNumber_ofMarch _ ⟨hmonth.march_nonneg, hmonth.march_lt⟩ hmonth.day_pos, hera, hof,
    ← hmonth.dayOfYear_eq, ← hyear.day_eq]
  omega

/-- The date of a day is one of the calendar. -/
theorem isValid_ofDayNumber (n : Int) : (ofDayNumber n).isValid = true := by
  obtain ⟨era, year, dayOfYear, march, day, hyear, hmonth, hdate⟩ := ofDayNumber_eq n
  rw [hdate]
  refine isValid_ofMarch hmonth hyear.dayOfYear_le fun hlast => ?_
  have hleap := hyear.leap hlast
  unfold isLeapYear
  simp only [Bool.and_eq_true, Bool.or_eq_true, decide_eq_true_iff]
  omega

end CivilDate

end GraphGateway
