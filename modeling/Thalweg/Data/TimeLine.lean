import Thalweg.Data.FieldOrder
import Thalweg.Data.Time

/-!
# The time line

An instant is a number of nanoseconds on the time line, counted by days of the proleptic Gregorian
calendar.

* `Date.dayNumber` counts the days; the next day has the next number (`Date.dayNumber_addDays`), and
  later dates have greater ones.
* `Instant.nanoseconds` is strictly increasing (`Instant.nanoseconds_lt_iff`).
* The texts of instants whose years have at most four digits stand in the order of the instants
  (`Instant.format_lt_format_iff`).
-/

namespace Date

/-! ### Days -/

/-- The days of a year in the months before a month. -/
def daysBefore (year : Int) : Nat → Nat
  | 0 => 0
  | 1 => 0
  | month + 2 => daysBefore year (month + 1) + daysIn (month + 1) year

/-- The number of the day before the first of January of a year. -/
def yearStart (year : Int) : Int :=
  365 * year + (year - 1) / 4 - (year - 1) / 100 + (year - 1) / 400

/-- The number of a day. -/
def dayNumber (d : Date) : Int := yearStart d.year + daysBefore d.year d.month + d.day

theorem daysBefore_succ {month : Nat} (h : 1 ≤ month) (year : Int) :
    daysBefore year (month + 1) = daysBefore year month + daysIn month year := by
  obtain ⟨m, rfl⟩ : ∃ m, month = m + 1 := ⟨month - 1, by omega⟩
  rfl

theorem daysBefore_monotone (year : Int) : Monotone (daysBefore year) := by
  refine monotone_nat_of_le_succ fun month => ?_
  by_cases h : 1 ≤ month
  · rw [daysBefore_succ h]
    exact Nat.le_add_right _ _
  · obtain rfl : month = 0 := by omega
    exact le_refl _

/-- The days of a year. -/
theorem daysBefore_thirteen (year : Int) :
    daysBefore year 13 = if IsLeap year then 366 else 365 := by
  by_cases h : IsLeap year <;> simp [daysBefore, daysIn, h]

theorem yearStart_succ (year : Int) :
    yearStart (year + 1) = yearStart year + daysBefore year 13 := by
  rw [daysBefore_thirteen]
  unfold yearStart
  split_ifs with h
  · obtain ⟨hfour, hhundred⟩ := h
    omega
  · simp only [IsLeap, not_and, not_or, not_not] at h
    omega

theorem yearStart_le_yearStart {year year' : Int} (h : year ≤ year') :
    yearStart year ≤ yearStart year' := by
  refine monotone_int_of_le_succ (fun year => ?_) h
  rw [yearStart_succ]
  omega

theorem dayNumber_next (d : Date) : d.next.dayNumber = d.dayNumber + 1 := by
  obtain ⟨hmonth, hmonth', -, hday⟩ := d.isDate
  unfold next
  split_ifs with h h'
  · simp only [dayNumber]
    omega
  · simp only [dayNumber, daysBefore_succ hmonth]
    omega
  · obtain hlast : d.month = 12 := by omega
    have hend : d.day = daysIn 12 d.year := by
      rw [← hlast]
      omega
    have hyear := daysBefore_succ (show 1 ≤ 12 by decide) d.year
    have hstart : daysBefore (d.year + 1) 1 = 0 := rfl
    simp only [dayNumber, yearStart_succ, hyear, hlast, hend, hstart]
    omega

theorem dayNumber_prev (d : Date) : d.prev.dayNumber = d.dayNumber - 1 := by
  obtain ⟨hmonth, hmonth', hday, -⟩ := d.isDate
  unfold prev
  split_ifs with h h'
  · simp only [dayNumber]
    omega
  · have hbefore := daysBefore_succ (show 1 ≤ d.month - 1 by omega) d.year
    rw [Nat.sub_add_cancel hmonth] at hbefore
    simp only [dayNumber, hbefore]
    omega
  · obtain hfirst : d.month = 1 := by omega
    have hyear := yearStart_succ (d.year - 1)
    have hdays := daysBefore_succ (show 1 ≤ 12 by decide) (d.year - 1)
    have hdecember : daysIn 12 (d.year - 1) = 31 := by simp [daysIn]
    rw [sub_add_cancel] at hyear
    have hnone : daysBefore d.year 1 = 0 := rfl
    simp only [dayNumber, hyear, hdays, hdecember, hfirst, hnone]
    omega

/-- The day `n` days later has a number that is greater by `n`. -/
theorem dayNumber_addDays (d : Date) (n : Int) : (d.addDays n).dayNumber = d.dayNumber + n := by
  cases n with
  | ofNat n =>
    simp only [addDays]
    induction n with
    | zero => simp
    | succ n ih =>
      rw [Function.iterate_succ_apply', dayNumber_next, ih]
      simp only [Int.ofNat_eq_natCast]
      omega
  | negSucc n =>
    simp only [addDays]
    induction n with
    | zero => simp [dayNumber_prev, Int.sub_eq_add_neg]
    | succ n ih =>
      rw [Function.iterate_succ_apply', dayNumber_prev, ih]
      omega

/-- A day lies in its year. -/
theorem dayNumber_bounds (d : Date) :
    yearStart d.year < d.dayNumber ∧ d.dayNumber ≤ yearStart (d.year + 1) := by
  obtain ⟨hmonth, hmonth', hday, hday'⟩ := d.isDate
  have hle : daysBefore d.year (d.month + 1) ≤ daysBefore d.year 13 :=
    daysBefore_monotone d.year (by omega)
  rw [daysBefore_succ hmonth] at hle
  rw [yearStart_succ]
  simp only [dayNumber]
  omega

/-- Days of a later year have greater numbers. -/
theorem dayNumber_lt_of_year {d e : Date} (h : d.year < e.year) : d.dayNumber < e.dayNumber :=
  d.dayNumber_bounds.2.trans_lt <|
    (yearStart_le_yearStart (show d.year + 1 ≤ e.year by omega)).trans_lt e.dayNumber_bounds.1

/-- Days of a later month have greater numbers. -/
theorem dayNumber_lt_of_month {d e : Date} (hyear : d.year = e.year) (h : d.month < e.month) :
    d.dayNumber < e.dayNumber := by
  have hle : daysBefore d.year (d.month + 1) ≤ daysBefore d.year e.month :=
    daysBefore_monotone d.year h
  have hday := d.isDate.2.2.2
  have hday' := e.isDate.2.2.1
  rw [daysBefore_succ d.isDate.1] at hle
  simp only [dayNumber, ← hyear]
  omega

end Date

namespace Instant

/-! ### Nanoseconds -/

/-- The number of an instant on the time line, in nanoseconds. -/
def nanoseconds (t : Instant) : Int :=
  (((t.date.dayNumber * 24 + t.hour) * 60 + t.minute) * 60 + t.second) * 10 ^ 9 + t.nanosecond

theorem nanoseconds_lt_of_before {t u : Instant} (h : t.Before u) :
    t.nanoseconds < u.nanoseconds := by
  obtain ⟨hhour, hminute, hsecond, hnano⟩ := t.isTime
  obtain ⟨hhour', hminute', hsecond', hnano'⟩ := u.isTime
  simp only [Before, parts, List.cons_lt_cons_iff, List.not_lt_nil, and_false, or_false,
    Int.ofNat_lt, Int.natCast_inj] at h
  simp only [nanoseconds]
  rcases h with h | ⟨hy, h | ⟨hm, h⟩⟩
  · have := Date.dayNumber_lt_of_year h
    omega
  · have := Date.dayNumber_lt_of_month hy h
    omega
  · have hday : t.date.dayNumber - t.date.day = u.date.dayNumber - u.date.day := by
      simp only [Date.dayNumber, hy, hm]
      omega
    omega

theorem parts_injective : Function.Injective parts := by
  intro t u h
  simp only [parts, List.cons.injEq, and_true, Int.natCast_inj] at h
  obtain ⟨hy, hm, hd, hh, hmin, hs, hn⟩ := h
  exact Instant.ext (Date.ext hy hm hd) hh hmin hs hn

/-- An instant is earlier than another exactly if its number is smaller. -/
theorem nanoseconds_lt_iff {t u : Instant} : t.nanoseconds < u.nanoseconds ↔ t.Before u := by
  refine ⟨fun h => ?_, nanoseconds_lt_of_before⟩
  rcases lt_trichotomy t.parts u.parts with hlt | heq | hgt
  · exact hlt
  · rw [parts_injective heq] at h
    exact absurd h (lt_irrefl _)
  · exact absurd (nanoseconds_lt_of_before hgt) h.not_gt

theorem nanoseconds_injective : Function.Injective nanoseconds := by
  intro t u h
  rcases lt_trichotomy t.parts u.parts with hlt | heq | hgt
  · exact absurd h (nanoseconds_lt_of_before hlt).ne
  · exact parts_injective heq
  · exact absurd h (nanoseconds_lt_of_before hgt).ne'

/-! ### Texts -/

/-- Padded numbers followed by texts are ordered like pairs. -/
theorem padDecimal_append_lt_iff {width m n : Nat} (hw : 0 < width) (hm : m < 10 ^ width)
    (hn : n < 10 ^ width) {s t : Text} :
    Text.padDecimal width m ++ s < Text.padDecimal width n ++ t ↔ m < n ∨ m = n ∧ s < t := by
  rw [FieldOrder.append_lt_append_iff
    ((Text.length_padDecimal hw hm).trans (Text.length_padDecimal hw hn).symm),
    (Text.padDecimal_injective width).eq_iff]
  refine or_congr_left ⟨fun h => ?_, fun h => Text.padDecimal_lt_padDecimal hw h hn⟩
  rcases lt_trichotomy m n with hlt | rfl | hgt
  · exact hlt
  · exact absurd h (lt_irrefl _)
  · exact absurd h (Text.padDecimal_lt_padDecimal hw hgt hm).not_gt

theorem formatYear_of_nonneg {year : Int} (h : 0 ≤ year) :
    formatYear year = Text.padDecimal 4 year.natAbs := by
  rw [formatYear, if_neg (Int.not_lt.mpr h)]

/-- The texts of instants whose years have at most four digits stand in the order of the
instants. -/
theorem format_lt_format_iff {t u : Instant} (ht : t.InRange) (hu : u.InRange) :
    t.format < u.format ↔ t.Before u := by
  obtain ⟨hty, hty'⟩ := ht
  obtain ⟨huy, huy'⟩ := hu
  obtain ⟨-, htm, -, htd⟩ := t.date.isDate
  obtain ⟨-, hum, -, hud⟩ := u.date.isDate
  obtain ⟨hth, htmin, hts, htn⟩ := t.isTime
  obtain ⟨huh, humin, hus, hun⟩ := u.isTime
  have hdays : ∀ month year, daysIn month year ≤ 31 := by
    intro month year
    unfold daysIn
    split_ifs <;> decide
  have htd' := htd.trans (hdays _ _)
  have hud' := hud.trans (hdays _ _)
  have hyears : t.date.year.natAbs < u.date.year.natAbs ↔ t.date.year < u.date.year := by omega
  have hyears' : t.date.year.natAbs = u.date.year.natAbs ↔ t.date.year = u.date.year := by omega
  simp only [format, formatYear_of_nonneg hty, formatYear_of_nonneg huy, List.append_assoc,
    List.cons_append, Before, parts, List.cons_lt_cons_iff, Int.ofNat_lt, Int.natCast_inj]
  rw [padDecimal_append_lt_iff (by decide) (by omega) (by omega), hyears, hyears',
    List.cons_lt_cons_self, padDecimal_append_lt_iff (by decide) (by omega) (by omega),
    List.cons_lt_cons_self, padDecimal_append_lt_iff (by decide) (by omega) (by omega),
    List.cons_lt_cons_self, padDecimal_append_lt_iff (by decide) (by omega) (by omega),
    List.cons_lt_cons_self, padDecimal_append_lt_iff (by decide) (by omega) (by omega),
    List.cons_lt_cons_self, padDecimal_append_lt_iff (by decide) (by omega) (by omega),
    List.cons_lt_cons_self, padDecimal_append_lt_iff (by decide) htn hun]
  simp

end Instant
