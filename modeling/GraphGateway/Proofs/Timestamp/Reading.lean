import GraphGateway.Timestamp.Iso
import GraphGateway.Timestamp.Reader
import GraphGateway.Proofs.Text.Decimal
import GraphGateway.Proofs.Timestamp.Calendar

/-!
# Timestamps read back

The text of a moment that clocks show is read as that moment, up to the nanoseconds
that are not written. A leap second elsewhere in a minute has the text of the second
that follows and is read as a moment of it. The text is never mistaken for a timestamp
with an offset, since nothing follows the time of day, and the second form reads every
year with or without its sign.
-/

namespace GraphGateway

namespace CivilDate

/-- Months and days of the calendar have at most two digits. -/
theorem isValid_bounds {d : CivilDate} (h : d.isValid = true) :
    1 ≤ d.month ∧ d.month ≤ 12 ∧ 1 ≤ d.day ∧ d.day ≤ 31 := by
  unfold isValid at h
  rw [Bool.and_eq_true, decide_eq_true_iff, decide_eq_true_iff] at h
  obtain ⟨hpos, hle⟩ := h
  unfold daysInMonth at hle
  split at hle
  · split at hle <;> omega
  all_goals omega

end CivilDate

namespace Timestamp

/-! ## Numbers -/

section Numbers

variable {width n : Nat} (hwidth : 0 < width) (hn : n < Nat.pow 10 width) (rest : List Char)

include hwidth hn

theorem exactly?_padded : exactly? width (Text.padded width n ++ rest) = some (n, rest) := by
  have hlength := Text.length_padded hwidth hn
  have hdigits : ∀ c ∈ Text.padded width n, Text.isDigit c = true :=
    fun c hc => Text.isDigit_of_mem_padded hc
  have htake : (Text.padded width n ++ rest).take width = Text.padded width n :=
    List.take_left' hlength
  have hdrop : (Text.padded width n ++ rest).drop width = rest := List.drop_left' hlength
  unfold exactly?
  simp only [htake, hdrop]
  rw [if_pos ⟨hlength, List.all_eq_true.mpr hdigits⟩, Text.valueOf_padded]

theorem upTo?_padded : upTo? width (Text.padded width n ++ rest) = some (n, rest) := by
  have hlength := Text.length_padded hwidth hn
  have hdigits : (Text.padded width n).takeWhile Text.isDigit = Text.padded width n :=
    congrArg Prod.fst (Text.spanDigits_padded_nil width n)
  have htake : (Text.padded width n ++ rest).take width = Text.padded width n :=
    List.take_left' hlength
  unfold upTo?
  simp only [Text.skipBlanks_padded, htake, hdigits, Text.isEmpty_padded, Text.valueOf_padded,
    List.drop_left]
  rfl

end Numbers

theorem literal?_cons (c : Char) (rest : List Char) : literal? c (c :: rest) = some rest := by
  simp [literal?]

/-! ## Dates -/

/-- Digits in front are read as a year without sign. -/
theorem looseYear?_digits (width n : Nat) (rest : List Char) :
    looseYear? (Text.padded width n ++ rest) =
      (upTo? 4 (Text.padded width n ++ rest)).map fun (n, tail) => (n, tail) := by
  obtain ⟨c, others, hdigits, hdigit⟩ := Text.padded_eq_cons width n
  have hdash : c ≠ '-' := by
    rintro rfl
    cases hdigit
  have hplus : c ≠ '+' := by
    rintro rfl
    cases hdigit
  have hskip := Text.skipBlanks_padded width n rest
  rw [hdigits, List.cons_append] at hskip
  rw [hdigits, List.cons_append]
  simp only [looseYear?, hskip]
  split
  next h => exact (hdash (List.cons.inj h).1).elim
  next h => exact (hplus (List.cons.inj h).1).elim
  next => rfl

theorem looseYear?_dash (cs : List Char) :
    looseYear? ('-' :: cs) =
      if (Text.spanDigits cs).1.isEmpty then none
      else some (-(Text.valueOf (Text.spanDigits cs).1 : Int), (Text.spanDigits cs).2) :=
  rfl

theorem looseYear?_plus (cs : List Char) :
    looseYear? ('+' :: cs) =
      if (Text.spanDigits cs).1.isEmpty then none
      else some ((Text.valueOf (Text.spanDigits cs).1 : Int), (Text.spanDigits cs).2) :=
  rfl

theorem looseYear?_yearText (year : Int) (rest : List Char) :
    looseYear? (yearText year ++ '-' :: rest) = some (year, '-' :: rest) := by
  have hdash : ∀ c, ('-' :: rest).head? = some c → Text.isDigit c = false := by
    intro c hc
    cases hc
    rfl
  have hsigned := Text.spanDigits_padded 4 year.natAbs hdash
  unfold yearText
  split
  next hplain =>
    have hread := upTo?_padded (show 0 < 4 by decide) (show year.toNat < 10 ^ 4 by omega)
      ('-' :: rest)
    have hsame : ((year.toNat : Nat) : Int) = year := by omega
    rw [looseYear?_digits, hread, Option.map_some]
    simp only [hsame]
  next hother =>
    by_cases hneg : year < 0
    · have hsize : -((year.natAbs : Nat) : Int) = year := by omega
      rw [if_pos hneg, List.cons_append, looseYear?_dash, hsigned]
      simp only [Text.isEmpty_padded, Bool.false_eq_true, if_false, Text.valueOf_padded, hsize]
    · have hsize : ((year.natAbs : Nat) : Int) = year := by omega
      rw [if_neg hneg, List.cons_append, looseYear?_plus, hsigned]
      simp only [Text.isEmpty_padded, Bool.false_eq_true, if_false, Text.valueOf_padded, hsize]

theorem looseDate?_dateText {d : CivilDate} (h : d.isValid = true) (rest : List Char) :
    looseDate? (dateText d ++ rest) = some (d, rest) := by
  obtain ⟨-, hmonth, -, hday⟩ := CivilDate.isValid_bounds h
  have hsplit : dateText d ++ rest = yearText d.year ++ '-' ::
      (Text.padded 2 d.month ++ '-' :: (Text.padded 2 d.day ++ rest)) := by
    simp [dateText]
  have htwo : 0 < 2 := by decide
  rw [hsplit]
  unfold looseDate?
  rw [looseYear?_yearText]
  simp only [Option.bind_eq_bind, Option.bind_some, literal?_cons,
    upTo?_padded htwo (show d.month < 10 ^ 2 by omega),
    upTo?_padded htwo (show d.day < 10 ^ 2 by omega)]

/-- A year with four digits and no sign has the fixed width. -/
theorem fixedDate?_dateText {d : CivilDate} (h : d.isValid = true)
    (hyear : 0 ≤ d.year ∧ d.year ≤ 9999) (rest : List Char) :
    fixedDate? (dateText d ++ rest) = some (d, rest) := by
  obtain ⟨-, hmonth, -, hday⟩ := CivilDate.isValid_bounds h
  have hsplit : dateText d ++ rest = Text.padded 4 d.year.toNat ++ '-' ::
      (Text.padded 2 d.month ++ '-' :: (Text.padded 2 d.day ++ rest)) := by
    simp [dateText, yearText, hyear]
  have htwo : 0 < 2 := by decide
  have hsame : ((d.year.toNat : Nat) : Int) = d.year := by omega
  rw [hsplit]
  unfold fixedDate?
  simp only [Option.bind_eq_bind, Option.bind_some, literal?_cons,
    exactly?_padded (show 0 < 4 by decide) (show d.year.toNat < 10 ^ 4 by omega),
    exactly?_padded htwo (show d.month < 10 ^ 2 by omega),
    exactly?_padded htwo (show d.day < 10 ^ 2 by omega), hsame]

/-- A sign has no place in a field of fixed width. -/
theorem fixedDate?_signed {d : CivilDate} (hyear : ¬ (0 ≤ d.year ∧ d.year ≤ 9999))
    (rest : List Char) : fixedDate? (dateText d ++ rest) = none := by
  obtain ⟨sign, hsign, digits, htext⟩ : ∃ sign, Text.isDigit sign = false ∧ ∃ digits,
      dateText d ++ rest = sign :: digits := by
    by_cases hneg : d.year < 0
    · exact ⟨'-', rfl, _, by simp [dateText, yearText, hyear, hneg]; rfl⟩
    · exact ⟨'+', rfl, _, by simp [dateText, yearText, hyear, hneg]; rfl⟩
  rw [htext]
  simp [fixedDate?, exactly?, hsign]

/-! ## Times of day -/

theorem fixedClock?_clockText {hour minute second : Nat} (hhour : hour < 24) (hminute : minute < 60)
    (hsecond : second ≤ 60) (rest : List Char) :
    fixedClock? (clockText hour minute second ++ rest) = some ((hour, minute, second), rest) := by
  have hsplit : clockText hour minute second ++ rest = Text.padded 2 hour ++ ':' ::
      (Text.padded 2 minute ++ ':' :: (Text.padded 2 second ++ rest)) := by
    simp [clockText]
  have htwo : 0 < 2 := by decide
  rw [hsplit]
  unfold fixedClock?
  simp only [Option.bind_eq_bind, Option.bind_some, literal?_cons,
    exactly?_padded htwo (show hour < 10 ^ 2 by omega),
    exactly?_padded htwo (show minute < 10 ^ 2 by omega),
    exactly?_padded htwo (show second < 10 ^ 2 by omega)]

/-- The fraction is read in whole microseconds. -/
theorem fraction?_fractionText {nanos : Nat} :
    fraction? (fractionText nanos) = some (nanos % 1000000000 / 1000 * 1000, []) := by
  unfold fractionText
  split
  next h =>
    have hzero : nanos % 1000000000 / 1000 * 1000 = 0 := by omega
    rw [hzero]
    rfl
  next h =>
    have hmicros : nanos % 1000000000 / 1000 < 10 ^ 6 := by omega
    have hlength := Text.length_padded (show 0 < 6 by decide) hmicros
    have hspan := Text.spanDigits_padded_nil 6 (nanos % 1000000000 / 1000)
    have htake : (Text.padded 6 (nanos % 1000000000 / 1000)).take 9 =
        Text.padded 6 (nanos % 1000000000 / 1000) := List.take_of_length_le (by omega)
    simp only [fraction?, hspan, Text.isEmpty_padded, fractionNanos, htake, hlength,
      Text.valueOf_padded]
    rfl

/-- The nanoseconds of a leap second are those of its fraction after one more second. -/
theorem leap_nanos {nanos : Nat} (h : 1000000000 ≤ nanos) (hlt : nanos < 2000000000) :
    nanos / 1000000000 = 1 ∧
      nanos % 1000000000 / 1000 * 1000 + 1000000000 = nanos / 1000 * 1000 ∧
      nanos % 1000000000 = nanos - 1000000000 := by
  omega

/-! ## What the text shows -/

/-- A leap second stands at the end of its minute, where clocks have a second 60. -/
def OnClock (t : Timestamp) : Prop :=
  1000000000 ≤ t.nanos → t.seconds % 60 = 59

instance (t : Timestamp) : Decidable t.OnClock :=
  inferInstanceAs (Decidable (_ → _))

/-- The moment up to its whole microseconds. -/
def truncated (t : Timestamp) : Timestamp :=
  ⟨t.seconds, t.nanos / 1000 * 1000, by have h := t.nanos_lt; omega, t.in_range⟩

theorem next_in_range {t : Timestamp} (h : ¬ t.OnClock) :
    firstSecond ≤ t.seconds + 1 ∧ t.seconds + 1 ≤ lastSecond := by
  have hrange := t.in_range
  unfold OnClock at h
  unfold firstSecond lastSecond at *
  omega

/-- The moment whose parts the text has. Where clocks have no second 60, a leap second is
written like the second that follows. -/
def shown (t : Timestamp) : Timestamp :=
  if h : t.OnClock then t.truncated
  else ⟨t.seconds + 1, (t.nanos - 1000000000) / 1000 * 1000, by have h := t.nanos_lt; omega,
    next_in_range h⟩

theorem shown_onClock {t : Timestamp} (h : t.OnClock) : t.shown = t.truncated :=
  dif_pos h

theorem shown_offClock {t : Timestamp} (h : ¬ t.OnClock) :
    t.shown.seconds = t.seconds + 1 ∧
      t.shown.nanos = (t.nanos - 1000000000) / 1000 * 1000 := by
  rw [shown, dif_neg h]
  exact ⟨rfl, rfl⟩

theorem truncated_eq_iff (t : Timestamp) : t.truncated = t ↔ t.nanos % 1000 = 0 := by
  obtain ⟨seconds, nanos, hnanos, hrange⟩ := t
  simp only [truncated, mk.injEq, true_and]
  omega

/-- A moment is lost in its text through a rest below the microseconds or by its place. -/
theorem shown_eq_iff (t : Timestamp) : t.shown = t ↔ t.nanos % 1000 = 0 ∧ t.OnClock := by
  by_cases h : t.OnClock
  · rw [shown_onClock h, truncated_eq_iff]
    exact (and_iff_left h).symm
  · refine ⟨fun heq => ?_, fun hboth => absurd hboth.2 h⟩
    have hseconds := congrArg seconds heq
    rw [(shown_offClock h).1] at hseconds
    omega

theorem onClock_shown (t : Timestamp) : t.shown.OnClock := by
  by_cases h : t.OnClock
  · intro hleap
    rw [shown_onClock h] at hleap ⊢
    exact h (by simp only [truncated] at hleap; omega)
  · intro hleap
    have hnanos := t.nanos_lt
    rw [(shown_offClock h).2] at hleap
    omega

/-- The second that follows belongs to the same day. -/
theorem date_shown (t : Timestamp) : t.shown.date = t.date := by
  by_cases h : t.OnClock
  · rw [shown_onClock h]
    rfl
  · have hday : (t.seconds + 1) / 86400 = t.seconds / 86400 := by
      unfold OnClock at h
      omega
    rw [date, date, (shown_offClock h).1, hday]

theorem secondOfDay_shown {t : Timestamp} (h : ¬ t.OnClock) :
    t.shown.secondOfDay = t.secondOfDay + 1 := by
  have hseconds := (shown_offClock h).1
  unfold OnClock at h
  unfold secondOfDay
  omega

theorem secondOfDay_minute (t : Timestamp) : (t.secondOfDay % 60 : Int) = t.seconds % 60 := by
  unfold secondOfDay
  omega

/-- The parts of a time of day. -/
theorem clock_parts (clock : Nat) :
    clock / 3600 * 3600 + clock / 60 % 60 * 60 + clock % 60 = clock := by
  omega

theorem clock_bounds (t : Timestamp) : t.secondOfDay / 3600 < 24 ∧ t.secondOfDay / 60 % 60 < 60 ∧
    t.secondOfDay % 60 + t.nanos / 1000000000 ≤ 60 := by
  have hnanos := t.nanos_lt
  unfold secondOfDay
  omega

/-- The parts of a time of day, put together again. -/
theorem clock?_shown (t : Timestamp) :
    clock? (t.secondOfDay / 3600) (t.secondOfDay / 60 % 60)
        (t.secondOfDay % 60 + t.nanos / 1000000000) (t.nanos % 1000000000 / 1000 * 1000) =
      some (t.shown.secondOfDay, t.shown.nanos) := by
  have hparts := clock_parts t.secondOfDay
  have hminute := t.secondOfDay_minute
  have hsecond : t.secondOfDay % 60 < 60 := Nat.mod_lt _ (by decide)
  unfold clock?
  rw [if_pos t.clock_bounds]
  by_cases hshort : t.nanos < 1000000000
  · have hshown : t.shown = t.truncated := shown_onClock fun hleap => absurd hshort (by omega)
    rw [Nat.div_eq_of_lt hshort, Nat.mod_eq_of_lt hshort, Nat.add_zero, if_neg (by omega), hparts,
      hshown]
    rfl
  obtain ⟨hone, hleap, hrest⟩ := leap_nanos (Nat.not_lt.mp hshort) t.nanos_lt
  rw [hone]
  by_cases hend : t.secondOfDay % 60 = 59
  · have hshown : t.shown = t.truncated := shown_onClock fun _ => by omega
    rw [hend] at hparts ⊢
    rw [if_pos rfl, hparts, hleap, hshown]
    rfl
  · -- the second that follows is still one of the minute
    have hoff : ¬ t.OnClock := by
      intro h
      have hlast := h (Nat.not_lt.mp hshort)
      omega
    rw [if_neg (by omega), ← Nat.add_assoc, hparts, hrest, secondOfDay_shown hoff,
      (shown_offClock hoff).2]

/-! ## Moments -/

theorem ofParts?_parts {t : Timestamp} (h : t.OnClock) : ofParts? t.seconds t.nanos = some t :=
  dif_pos ⟨t.nanos_lt, h, t.in_range⟩

theorem isValid_date (t : Timestamp) : t.date.isValid = true :=
  CivilDate.isValid_ofDayNumber _

/-- The date and the time of day of a moment make up the moment. -/
theorem ofCivil?_date {t : Timestamp} (h : t.OnClock) :
    ofCivil? t.date (t.secondOfDay, t.nanos) 0 = some t := by
  have hseconds : t.seconds / 86400 * 86400 + (t.secondOfDay : Int) - 0 = t.seconds := by
    unfold secondOfDay
    omega
  unfold ofCivil?
  rw [if_pos t.isValid_date, date, CivilDate.dayNumber_ofDayNumber, hseconds]
  exact ofParts?_parts h

/-- Nothing is left that could be an offset, and a signed year does not even fit. -/
theorem readOffset?_iso (t : Timestamp) : readOffset? t.iso = none := by
  obtain ⟨hhour, hminute, hsecond⟩ := t.clock_bounds
  unfold readOffset? iso
  by_cases hyear : 0 ≤ t.date.year ∧ t.date.year ≤ 9999
  · rw [fixedDate?_dateText t.isValid_date hyear]
    simp only [Option.bind_eq_bind, Option.bind_some, true_or, if_true, fraction?_fractionText,
      fixedClock?_clockText hhour hminute hsecond]
    rfl
  · rw [fixedDate?_signed hyear]
    rfl

theorem readLocal?_iso (t : Timestamp) : readLocal? t.iso = some t.shown := by
  obtain ⟨hhour, hminute, hsecond⟩ := t.clock_bounds
  have htwo : 0 < 2 := by decide
  have hsplit : t.iso = dateText t.date ++ 'T' :: (Text.padded 2 (t.secondOfDay / 3600) ++ ':' ::
      (Text.padded 2 (t.secondOfDay / 60 % 60) ++ ':' ::
        (Text.padded 2 (t.secondOfDay % 60 + t.nanos / 1000000000) ++ fractionText t.nanos))) := by
    simp [iso, clockText]
  rw [hsplit]
  unfold readLocal?
  rw [looseDate?_dateText t.isValid_date]
  simp only [Option.bind_eq_bind, Option.bind_some, literal?_cons, fraction?_fractionText,
    upTo?_padded htwo (show t.secondOfDay / 3600 < 10 ^ 2 by omega),
    upTo?_padded htwo (show t.secondOfDay / 60 % 60 < 10 ^ 2 by omega),
    upTo?_padded htwo (show t.secondOfDay % 60 + t.nanos / 1000000000 < 10 ^ 2 by omega),
    clock?_shown]
  rw [← t.date_shown]
  exact ofCivil?_date t.onClock_shown

/-- What is written for a moment is read as the moment that it shows. -/
theorem read?_isoText (t : Timestamp) : read? t.isoText = some t.shown := by
  rw [read?, isoText, String.toList_ofList, readOffset?_iso, readLocal?_iso]
  rfl

end Timestamp

end GraphGateway
