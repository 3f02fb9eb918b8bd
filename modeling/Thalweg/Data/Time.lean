import Mathlib.Logic.Function.Iterate
import Thalweg.Data.Text

/-!
# Instants and their RFC 3339 texts

An instant is a date and a time of day in UTC; its year may be any integer.

* `Instant.format` writes an instant with nine digits of fraction and the zone `Z`.
* `Instant.parse` reads RFC 3339 texts: a year of four digits, an optional fraction of any length,
  of which nine digits count, and a zone offset, which is taken off.
* An instant reads back from its text exactly when its year has at most four digits
  (`Instant.parse_format_eq_some_iff`).
-/

/-! ### Dates -/

/-- A year with a 29th of February. -/
def IsLeap (year : Int) : Prop := year % 4 = 0 ∧ (year % 100 ≠ 0 ∨ year % 400 = 0)

instance (year : Int) : Decidable (IsLeap year) := by
  unfold IsLeap
  infer_instance

/-- The number of days of a month. -/
def daysIn (month : Nat) (year : Int) : Nat :=
  if month = 2 then if IsLeap year then 29 else 28
  else if month = 4 ∨ month = 6 ∨ month = 9 ∨ month = 11 then 30
  else 31

theorem daysIn_pos (month : Nat) (year : Int) : 1 ≤ daysIn month year := by
  unfold daysIn
  split_ifs <;> decide

/-- The day stands in the calendar. -/
def IsDate (year : Int) (month day : Nat) : Prop :=
  1 ≤ month ∧ month ≤ 12 ∧ 1 ≤ day ∧ day ≤ daysIn month year

instance (year : Int) (month day : Nat) : Decidable (IsDate year month day) := by
  unfold IsDate
  infer_instance

/-- A day of the calendar. -/
structure Date where
  year : Int
  month : Nat
  day : Nat
  isDate : IsDate year month day

namespace Date

@[ext] theorem ext {d e : Date} (hy : d.year = e.year) (hm : d.month = e.month)
    (hd : d.day = e.day) : d = e := by
  cases d
  cases e
  simp_all

/-- The next day. -/
def next (d : Date) : Date :=
  if h : d.day < daysIn d.month d.year then
    ⟨d.year, d.month, d.day + 1, d.isDate.1, d.isDate.2.1, by omega, h⟩
  else if h : d.month < 12 then
    ⟨d.year, d.month + 1, 1, by omega, h, le_refl _, daysIn_pos _ _⟩
  else ⟨d.year + 1, 1, 1, le_refl _, by decide, le_refl _, daysIn_pos _ _⟩

/-- The previous day. -/
def prev (d : Date) : Date :=
  if h : 1 < d.day then
    ⟨d.year, d.month, d.day - 1, d.isDate.1, d.isDate.2.1, by omega,
      (Nat.sub_le _ _).trans d.isDate.2.2.2⟩
  else if h : 1 < d.month then
    ⟨d.year, d.month - 1, daysIn (d.month - 1) d.year, by omega,
      (Nat.sub_le _ _).trans d.isDate.2.1, daysIn_pos _ _, le_refl _⟩
  else ⟨d.year - 1, 12, 31, by decide, le_refl _, by decide, by simp [daysIn]⟩

/-- The day `n` days later. -/
def addDays (d : Date) : Int → Date
  | .ofNat n => next^[n] d
  | .negSucc n => prev^[n + 1] d

@[simp] theorem addDays_zero (d : Date) : d.addDays 0 = d := rfl

end Date

/-! ### Instants -/

/-- A time of day: hour, minute, second and nanosecond. -/
def IsTime (hour minute second nanosecond : Nat) : Prop :=
  hour < 24 ∧ minute < 60 ∧ second < 60 ∧ nanosecond < 10 ^ 9

instance (hour minute second nanosecond : Nat) :
    Decidable (IsTime hour minute second nanosecond) := by
  unfold IsTime
  infer_instance

/-- A point in time: a day and a time of day in UTC. -/
structure Instant where
  date : Date
  hour : Nat
  minute : Nat
  second : Nat
  nanosecond : Nat
  isTime : IsTime hour minute second nanosecond

namespace Instant

@[ext] theorem ext {t u : Instant} (hd : t.date = u.date) (hh : t.hour = u.hour)
    (hm : t.minute = u.minute) (hs : t.second = u.second) (hn : t.nanosecond = u.nanosecond) :
    t = u := by
  cases t
  cases u
  simp_all

/-- The instant `minutes` earlier. -/
def subMinutes (t : Instant) (minutes : Int) : Instant :=
  let total := (t.hour * 60 + t.minute : Int) - minutes
  { date := t.date.addDays (total / 1440)
    hour := (total % 1440 / 60).toNat
    minute := (total % 1440 % 60).toNat
    second := t.second
    nanosecond := t.nanosecond
    isTime := ⟨by omega, by omega, t.isTime.2.2⟩ }

theorem subMinutes_zero (t : Instant) : t.subMinutes 0 = t := by
  have ht := t.isTime
  simp only [IsTime] at ht
  have hdiv : ((t.hour * 60 + t.minute : Int) - 0) / 1440 = 0 := by omega
  ext1
  · simp only [subMinutes, hdiv, Date.addDays_zero]
  · simp only [subMinutes]
    omega
  · simp only [subMinutes]
    omega
  · rfl
  · rfl

/-- The instant `seconds` later. -/
def addSeconds (t : Instant) (seconds : Nat) : Instant :=
  let total := t.hour * 3600 + t.minute * 60 + t.second + seconds
  { date := t.date.addDays (total / 86400 : Nat)
    hour := total % 86400 / 3600
    minute := total % 3600 / 60
    second := total % 60
    nanosecond := t.nanosecond
    isTime := ⟨by omega, by omega, by omega, t.isTime.2.2.2⟩ }

/-- The parts of an instant, from the year down. -/
def parts (t : Instant) : List Int :=
  [t.date.year, t.date.month, t.date.day, t.hour, t.minute, t.second, t.nanosecond]

/-- The instant is earlier than the other one. -/
def Before (t u : Instant) : Prop := t.parts < u.parts

instance (t u : Instant) : Decidable (t.Before u) := by
  unfold Before
  infer_instance

/-- The year of the instant has at most four digits. -/
def InRange (t : Instant) : Prop := 0 ≤ t.date.year ∧ t.date.year ≤ 9999

instance (t : Instant) : Decidable t.InRange := by
  unfold InRange
  infer_instance

/-! ### Texts -/

/-- The text of a year, with four digits at least. -/
def formatYear (year : Int) : Text :=
  if year < 0 then '-' :: Text.padDecimal 4 year.natAbs else Text.padDecimal 4 year.natAbs

/-- The text `2006-01-02T15:04:05.000000000Z` of an instant. -/
def format (t : Instant) : Text :=
  formatYear t.date.year ++ '-' :: Text.padDecimal 2 t.date.month ++
    '-' :: Text.padDecimal 2 t.date.day ++ 'T' :: Text.padDecimal 2 t.hour ++
    ':' :: Text.padDecimal 2 t.minute ++ ':' :: Text.padDecimal 2 t.second ++
    '.' :: Text.padDecimal 9 t.nanosecond ++ ['Z']

/-- The fraction of a second without trailing zeros; none at all for a whole second. -/
def formatFraction (nanosecond : Nat) : Text :=
  match (Text.padDecimal 9 nanosecond).reverse.dropWhile fun c => c == '0' with
  | [] => []
  | digits => '.' :: digits.reverse

/-- The text of an instant with as many digits of the second as it needs. -/
def formatNano (t : Instant) : Text :=
  formatYear t.date.year ++ '-' :: Text.padDecimal 2 t.date.month ++
    '-' :: Text.padDecimal 2 t.date.day ++ 'T' :: Text.padDecimal 2 t.hour ++
    ':' :: Text.padDecimal 2 t.minute ++ ':' :: Text.padDecimal 2 t.second ++
    formatFraction t.nanosecond ++ ['Z']

/-- A number of exactly `width` digits at the start of a text, and the rest. -/
def fixedNumber (width : Nat) (t : Text) : Option (Nat × Text) :=
  if width ≤ t.length then (Text.parseDecimal (t.take width)).map fun n => (n, t.drop width)
  else none

/-- The number of an hour: one digit or two. -/
def hourNumber (t : Text) : Option (Nat × Text) :=
  match fixedNumber 2 t with
  | some r => some r
  | none => fixedNumber 1 t

/-- The text after the character `c`. -/
def after (c : Char) : Text → Option Text
  | [] => none
  | d :: t => if d = c then some t else none

/-- The nanoseconds of digits after the point; digits after the ninth do not count. -/
def fractionValue (digits : Text) : Nat :=
  Nat.ofDigitChars 10 (digits.take 9) 0 * 10 ^ (9 - digits.length)

/-- An optional fraction after a point or a comma, in nanoseconds, and the rest. -/
def fraction : Text → Nat × Text
  | c :: d :: t =>
    if (c = '.' ∨ c = ',') ∧ d.isDigit then
      (fractionValue ((d :: t).takeWhile Char.isDigit), (d :: t).dropWhile Char.isDigit)
    else (0, c :: d :: t)
  | t => (0, t)

/-- The sign of a zone offset. -/
def zoneSign (c : Char) : Option Int :=
  if c = '+' then some 1 else if c = '-' then some (-1) else none

/-- The minutes that a zone is ahead of UTC: `Z` or a signed offset, which may be up to 24 hours and
60 minutes. -/
def zone : Text → Option Int
  | ['Z'] => some 0
  | [s, h, h', ':', m, m'] => do
    let sign ← zoneSign s
    let hours ← Text.parseDecimal [h, h']
    let minutes ← Text.parseDecimal [m, m']
    if hours ≤ 24 ∧ minutes ≤ 60 then some (sign * (hours * 60 + minutes)) else none
  | _ => none

/-- The instant of an RFC 3339 text. -/
def parse (t : Text) : Option Instant := do
  let (year, t) ← fixedNumber 4 t
  let (month, t) ← fixedNumber 2 (← after '-' t)
  let (day, t) ← fixedNumber 2 (← after '-' t)
  let (hour, t) ← hourNumber (← after 'T' t)
  let (minute, t) ← fixedNumber 2 (← after ':' t)
  let (second, t) ← fixedNumber 2 (← after ':' t)
  let offset ← zone (fraction t).2
  if hd : IsDate year month day then
    if ht : IsTime hour minute second (fraction t).1 then
      some (subMinutes ⟨⟨year, month, day, hd⟩, hour, minute, second, (fraction t).1, ht⟩ offset)
    else none
  else none

/-! ### Round trip -/

theorem fixedNumber_padDecimal {width n : Nat} (hw : 0 < width) (h : n < 10 ^ width) (r : Text) :
    fixedNumber width (Text.padDecimal width n ++ r) = some (n, r) := by
  have hlen := Text.length_padDecimal hw h
  have htake : (Text.padDecimal width n ++ r).take width = Text.padDecimal width n := by
    rw [List.take_append_of_le_length (by omega), List.take_of_length_le (by omega)]
  have hdrop : (Text.padDecimal width n ++ r).drop width = r := by
    rw [List.drop_append_of_le_length (by omega), List.drop_of_length_le (by omega),
      List.nil_append]
  simp [fixedNumber, hlen, htake, hdrop]

theorem fixedNumber_eq_none_of_head {width : Nat} {c : Char} (hc : c.isDigit = false)
    (hw : 0 < width) (t : Text) : fixedNumber width (c :: t) = none := by
  obtain ⟨width, rfl⟩ : ∃ n, width = n + 1 := ⟨width - 1, by omega⟩
  unfold fixedNumber
  split_ifs with h
  · simp [Text.parseDecimal, hc]
  · rfl

theorem hourNumber_padDecimal {n : Nat} (h : n < 10 ^ 2) (r : Text) :
    hourNumber (Text.padDecimal 2 n ++ r) = some (n, r) := by
  simp [hourNumber, fixedNumber_padDecimal (by decide) h]

theorem after_cons (c : Char) (t : Text) : after c (c :: t) = some t := by
  simp [after]

theorem fraction_padDecimal {n : Nat} (h : n < 10 ^ 9) :
    fraction ('.' :: Text.padDecimal 9 n ++ ['Z']) = (n, ['Z']) := by
  have hlen := Text.length_padDecimal (by decide) h
  have hdigits : ∀ c ∈ Text.padDecimal 9 n, c.isDigit = true := fun _ hc =>
    Text.isDigit_of_mem_padDecimal hc
  have htake : (Text.padDecimal 9 n ++ ['Z']).takeWhile Char.isDigit = Text.padDecimal 9 n := by
    rw [List.takeWhile_append_of_pos hdigits]
    simp [List.takeWhile]
  have hdrop : (Text.padDecimal 9 n ++ ['Z']).dropWhile Char.isDigit = ['Z'] := by
    rw [List.dropWhile_append_of_pos hdigits]
    simp [List.dropWhile]
  have hvalue : fractionValue (Text.padDecimal 9 n) = n := by
    have hparse := Text.parseDecimal_padDecimal 9 n
    unfold Text.parseDecimal at hparse
    split_ifs at hparse
    rw [fractionValue, List.take_of_length_le (by omega), hlen, Option.some.inj hparse]
    simp
  obtain ⟨d, ds, hcons⟩ := List.exists_cons_of_ne_nil
    (List.ne_nil_of_length_pos (by omega : 0 < (Text.padDecimal 9 n).length))
  have hd : d.isDigit = true := hdigits d (by simp [hcons])
  rw [hcons] at htake hdrop hvalue ⊢
  rw [List.cons_append] at htake hdrop
  simp only [List.cons_append, fraction, hd, and_true, true_or, if_true, htake, hdrop, hvalue]

/-- **Round trip.** An instant whose year has at most four digits reads back from its text. -/
theorem parse_format {t : Instant} (h : t.InRange) : parse (format t) = some t := by
  obtain ⟨⟨year, month, day, hdate⟩, hour, minute, second, nanosecond, htime⟩ := t
  obtain ⟨hyear, hyear'⟩ := h
  have hdays : daysIn month year ≤ 31 := by
    unfold daysIn
    split_ifs <;> decide
  have hdate' := hdate
  have htime' := htime
  simp only [IsDate] at hdate'
  simp only [IsTime] at htime'
  simp only at hyear hyear'
  have habs : (year.natAbs : Int) = year := Int.natAbs_of_nonneg hyear
  have hneg : ¬ year < 0 := Int.not_lt.mpr hyear
  simp only [format, formatYear, if_neg hneg, List.append_assoc, List.cons_append, parse,
    fixedNumber_padDecimal (show 0 < 4 by decide) (by omega : year.natAbs < 10 ^ 4),
    fixedNumber_padDecimal (show 0 < 2 by decide) (by omega : month < 10 ^ 2),
    fixedNumber_padDecimal (show 0 < 2 by decide) (by omega : day < 10 ^ 2),
    fixedNumber_padDecimal (show 0 < 2 by decide) (by omega : minute < 10 ^ 2),
    fixedNumber_padDecimal (show 0 < 2 by decide) (by omega : second < 10 ^ 2),
    hourNumber_padDecimal (by omega : hour < 10 ^ 2), after_cons, Option.bind_eq_bind,
    Option.bind_some]
  have hfraction := fraction_padDecimal htime'.2.2.2
  rw [List.cons_append] at hfraction
  simp only [hfraction, zone, Option.bind_some, habs, hdate, htime, dif_pos]
  exact congrArg some (subMinutes_zero _)

/-- An instant whose year needs a sign or more than four digits does not read back from its text. -/
theorem parse_format_eq_none {t : Instant} (h : ¬ t.InRange) : parse (format t) = none := by
  simp only [format, List.append_assoc, List.cons_append]
  generalize '-' :: (Text.padDecimal 2 t.date.month ++ _) = rest
  by_cases hneg : t.date.year < 0
  · rw [formatYear, if_pos hneg]
    simp [parse, fixedNumber_eq_none_of_head (c := '-') rfl (show 0 < 4 by decide)]
  · have hyear : 10000 ≤ t.date.year.natAbs := by
      simp only [InRange, not_and, Int.not_le] at h
      have := h (Int.not_lt.mp hneg)
      omega
    rw [formatYear, if_neg hneg]
    have hlen : 4 < (Text.padDecimal 4 t.date.year.natAbs).length := by
      have := mt (Nat.length_toDigits_le_iff (b := 10) (k := 4) (n := t.date.year.natAbs)
        (by decide) (by decide)).mp (by omega)
      simp only [Text.padDecimal, Text.decimal, List.length_append, List.length_replicate]
      omega
    have hdigits : ∀ c ∈ Text.padDecimal 4 t.date.year.natAbs, c.isDigit = true := fun _ hc =>
      Text.isDigit_of_mem_padDecimal hc
    -- after four digits another digit follows where a hyphen must stand
    generalize Text.padDecimal 4 t.date.year.natAbs = digits at hlen hdigits
    have hpos : 0 < (digits.drop 4).length := by
      rw [List.length_drop]
      omega
    obtain ⟨d, tail, hd⟩ := List.exists_cons_of_ne_nil (List.ne_nil_of_length_pos hpos)
    have hmem : d ∈ digits := List.mem_of_mem_drop (by simp [hd] : d ∈ digits.drop 4)
    have hne : d ≠ '-' := by
      rintro rfl
      exact absurd (hdigits _ hmem) (by decide)
    have hdrop : (digits ++ rest).drop 4 = d :: (tail ++ rest) := by
      rw [List.drop_append_of_le_length (by omega), hd, List.cons_append]
    have hnumber : fixedNumber 4 (digits ++ rest) =
        (Text.parseDecimal ((digits ++ rest).take 4)).map fun n => (n, d :: (tail ++ rest)) := by
      rw [fixedNumber, hdrop, if_pos]
      rw [List.length_append]
      omega
    have hafter : after '-' (d :: (tail ++ rest)) = none := if_neg hne
    rw [parse, hnumber]
    cases Text.parseDecimal ((digits ++ rest).take 4) with
    | none => rfl
    | some year => exact congrArg (Option.bind · _) hafter

/-- An instant reads back from its text exactly when its year has at most four digits. -/
theorem parse_format_eq_some_iff {t u : Instant} : parse (format t) = some u ↔ t.InRange ∧ u = t := by
  constructor
  · intro h
    by_cases ht : t.InRange
    · rw [parse_format ht] at h
      exact ⟨ht, (Option.some.inj h).symm⟩
    · simp [parse_format_eq_none ht] at h
  · rintro ⟨ht, rfl⟩
    exact parse_format ht

end Instant
