import Thalweg.Daemon.Codec
import Thalweg.Data.TimeLine

/-!
# Canonical timestamps and time

A timestamp that the daemon accepts denotes a point of the time line. Its canonical text stands for
the same point, and canonical texts are compared as texts wherever times are compared.

* `Denotes`: the point that a timestamp denotes.
* `ordersLikeTime_iff`: two timestamps keep their order in canonical form exactly if the years that
  the zone offsets lead to allow it.
-/

namespace Thalweg

/-- The timestamp denotes a number of nanoseconds on the time line. -/
def Denotes (value : Text) (time : Int) : Prop :=
  ∃ t, Instant.parse value = some t ∧ t.nanoseconds = time

/-- The canonical texts of two timestamps stand for them: the first is canonical again, and both
agree or stand in order exactly as the times do. -/
def OrdersLikeTime (a b : Text) : Prop :=
  ∀ (field : String) (a' b' : Text) (m n : Int), Denotes a m → Denotes b n →
    normalizeTimestamp field a = .ok a' → normalizeTimestamp field b = .ok b' →
      normalizeTimestamp field a' = .ok a' ∧ (a' = b' ↔ m = n) ∧ (a' < b' ↔ m < n)

/-! ### Years at the ends of the range -/

/-- The offset of a zone is at most 25 hours. -/
theorem zone_bounds {value : Text} {offset : Int} (h : Instant.zone value = some offset) :
    -1500 ≤ offset ∧ offset ≤ 1500 := by
  unfold Instant.zone at h
  split at h
  · cases h
    decide
  · simp only [Option.bind_eq_bind, Option.bind_eq_some_iff] at h
    obtain ⟨sign, hsign, hours, -, minutes, -, h⟩ := h
    split_ifs at h with hle
    cases h
    have hsign' : sign = 1 ∨ sign = -1 := by
      unfold Instant.zoneSign at hsign
      split_ifs at hsign <;> simp_all
    rcases hsign' with rfl | rfl <;> omega
  · cases h

/-- Two days lead at most into the next year or the one before. -/
theorem year_addDays (d : Date) {n : Int} (h : -2 ≤ n) (h' : n ≤ 2) :
    d.year - 1 ≤ (d.addDays n).year ∧ (d.addDays n).year ≤ d.year + 1 := by
  have hnumber := d.dayNumber_addDays n
  obtain ⟨hlow, hhigh⟩ := d.dayNumber_bounds
  obtain ⟨hlow', hhigh'⟩ := (d.addDays n).dayNumber_bounds
  generalize (d.addDays n).year = year at hlow' hhigh'
  constructor
  · by_contra hlt
    have hle := Date.yearStart_le_yearStart (show year + 1 ≤ d.year - 1 by omega)
    have hyear := Date.yearStart_succ (d.year - 1)
    rw [sub_add_cancel, Date.daysBefore_thirteen] at hyear
    split_ifs at hyear <;> omega
  · by_contra hlt
    have hle := Date.yearStart_le_yearStart (show d.year + 1 + 1 ≤ year by omega)
    have hyear := Date.yearStart_succ (d.year + 1)
    rw [Date.daysBefore_thirteen] at hyear
    split_ifs at hyear <;> omega

/-- A number of as many digits is below that power of ten. -/
theorem lt_of_fixedNumber {width n : Nat} {value rest : Text}
    (h : Instant.fixedNumber width value = some (n, rest)) : n < 10 ^ width := by
  unfold Instant.fixedNumber at h
  split_ifs at h with hle
  obtain ⟨m, hm, h⟩ := Option.map_eq_some_iff.mp h
  cases h
  unfold Text.parseDecimal at hm
  split_ifs at hm with hdigits
  cases hm
  simp only [Bool.and_eq_true, List.all_eq_true] at hdigits
  have hlt := Text.ofDigitChars_lt_of_lt (u := value.take width) (v := List.replicate width '0')
    (by simpa using hle) hdigits.2 Nat.zero_lt_one
  rwa [Nat.ofDigitChars_replicate_zero, Nat.mul_one] at hlt

/-- A timestamp is a local time, of a year of four digits, and a zone offset. -/
theorem exists_subMinutes_of_parse {value : Text} {t : Instant} (h : Instant.parse value = some t) :
    ∃ (u : Instant) (offset : Int), u.InRange ∧ -1500 ≤ offset ∧ offset ≤ 1500 ∧
      t = u.subMinutes offset := by
  unfold Instant.parse at h
  obtain ⟨⟨year, _⟩, hyear, h⟩ := Option.bind_eq_some_iff.mp h
  obtain ⟨_, -, h⟩ := Option.bind_eq_some_iff.mp h
  obtain ⟨⟨month, _⟩, -, h⟩ := Option.bind_eq_some_iff.mp h
  obtain ⟨_, -, h⟩ := Option.bind_eq_some_iff.mp h
  obtain ⟨⟨day, _⟩, -, h⟩ := Option.bind_eq_some_iff.mp h
  obtain ⟨_, -, h⟩ := Option.bind_eq_some_iff.mp h
  obtain ⟨⟨hour, _⟩, -, h⟩ := Option.bind_eq_some_iff.mp h
  obtain ⟨_, -, h⟩ := Option.bind_eq_some_iff.mp h
  obtain ⟨⟨minute, _⟩, -, h⟩ := Option.bind_eq_some_iff.mp h
  obtain ⟨_, -, h⟩ := Option.bind_eq_some_iff.mp h
  obtain ⟨⟨second, _⟩, -, h⟩ := Option.bind_eq_some_iff.mp h
  obtain ⟨offset, hoffset, h⟩ := Option.bind_eq_some_iff.mp h
  split_ifs at h with hd ht
  cases h
  obtain ⟨hlow, hhigh⟩ := zone_bounds hoffset
  have hdigits := lt_of_fixedNumber hyear
  refine ⟨_, offset, ⟨?_, ?_⟩, hlow, hhigh, rfl⟩ <;> simp only <;> omega

/-- Taking off the offset leads at most into the year before the first or after the last one. -/
theorem year_of_parse {value : Text} {t : Instant} (h : Instant.parse value = some t) :
    -1 ≤ t.date.year ∧ t.date.year ≤ 10000 := by
  obtain ⟨u, offset, ⟨hu, hu'⟩, hlow, hhigh, rfl⟩ := exists_subMinutes_of_parse h
  obtain ⟨hhour, hminute, -⟩ := u.isTime
  have hyear := year_addDays u.date
    (show -2 ≤ ((u.hour * 60 + u.minute : Int) - offset) / 1440 by omega)
    (show ((u.hour * 60 + u.minute : Int) - offset) / 1440 ≤ 2 by omega)
  simp only [Instant.subMinutes]
  omega

/-! ### Texts at the ends of the range -/

/-- The text of an instant before the year 0 comes before those of the range. -/
theorem format_lt_of_neg {t u : Instant} (ht : t.date.year < 0) (hu : u.InRange) :
    t.format < u.format := by
  obtain ⟨d, digits, hcons⟩ := List.exists_cons_of_ne_nil
    (show Text.padDecimal 4 u.date.year.natAbs ≠ [] by simp [Text.padDecimal, Text.decimal])
  have hmem : d ∈ Text.padDecimal 4 u.date.year.natAbs := hcons ▸ List.mem_cons_self
  have hd := Text.isDigit_of_mem_padDecimal hmem
  have hlt : '-' < d := by
    simp only [Char.isDigit, Bool.and_eq_true, decide_eq_true_eq] at hd
    exact lt_of_lt_of_le (by decide) hd.1
  simp only [Instant.format, Instant.formatYear, if_pos ht, if_neg (Int.not_lt.mpr hu.1),
    hcons, List.cons_append, List.cons_lt_cons_iff]
  exact Or.inl hlt

/-- The text of an instant of the year 10000 comes after those of years up to 1000 only. -/
theorem format_lt_format_iff_of_tenThousand {t u : Instant} (ht : t.InRange)
    (hu : u.date.year = 10000) : t.format < u.format ↔ t.date.year ≤ 1000 := by
  obtain ⟨ht, ht'⟩ := ht
  have hyear : Instant.formatYear 10000 = Text.padDecimal 4 1000 ++ ['0'] := by decide
  simp only [Instant.format, hu, hyear, Instant.formatYear_of_nonneg ht, List.append_assoc,
    List.cons_append, List.nil_append]
  rw [Instant.padDecimal_append_lt_iff (by decide) (by omega) (by decide), List.cons_lt_cons_iff]
  have hlt : '-' < '0' := by decide
  simp only [hlt, true_or, and_true]
  omega

/-! ### Order -/

/-- The order of two timestamps in terms of their instants. -/
theorem ordersLikeTime_iff_format {a b : Text} {t u : Instant} (ha : Instant.parse a = some t)
    (hb : Instant.parse b = some u) :
    OrdersLikeTime a b ↔ t.InRange ∧ (t.format = u.format ↔ t = u) ∧
      (t.format < u.format ↔ t.Before u) := by
  have hagain : ∀ field : String, normalizeTimestamp field t.format = .ok t.format ↔ t.InRange := by
    intro field
    rw [normalizeTimestamp_eq_ok_iff]
    simp only [Instant.parse_format_eq_some_iff]
    exact ⟨fun ⟨_, ⟨ht, _⟩, _⟩ => ht, fun ht => ⟨t, ⟨ht, rfl⟩, rfl⟩⟩
  rw [← Instant.nanoseconds_lt_iff, ← Instant.nanoseconds_injective.eq_iff]
  constructor
  · intro h
    rw [← hagain "occurredAt"]
    exact h "occurredAt" t.format u.format _ _ ⟨t, ha, rfl⟩ ⟨u, hb, rfl⟩
      (normalizeTimestamp_eq_ok_iff.mpr ⟨t, ha, rfl⟩)
        (normalizeTimestamp_eq_ok_iff.mpr ⟨u, hb, rfl⟩)
  · rintro ⟨ht, hsame, horder⟩ field a' b' m n ⟨t', ht', rfl⟩ ⟨u', hu', rfl⟩ ha' hb'
    obtain rfl := Option.some.inj (ht'.symm.trans ha)
    obtain rfl := Option.some.inj (hu'.symm.trans hb)
    obtain ⟨_, hat, rfl⟩ := normalizeTimestamp_eq_ok_iff.mp ha'
    obtain ⟨_, hbu, rfl⟩ := normalizeTimestamp_eq_ok_iff.mp hb'
    obtain rfl := Option.some.inj (hat.symm.trans ha)
    obtain rfl := Option.some.inj (hbu.symm.trans hb)
    exact ⟨(hagain field).mpr ht, hsame, horder⟩

/-- Two timestamps keep their order in canonical form exactly if the first is of a year from 0 to
9999 in UTC, and the second of a year up to 9999 or the first of a year up to 1000. -/
theorem ordersLikeTime_iff {a b : Text} {t u : Instant} (ha : Instant.parse a = some t)
    (hb : Instant.parse b = some u) :
    OrdersLikeTime a b ↔ t.InRange ∧ (u.date.year ≤ 9999 ∨ t.date.year ≤ 1000) := by
  rw [ordersLikeTime_iff_format ha hb]
  refine and_congr_right fun ht => ?_
  have hsame : t.format = u.format ↔ t = u := by
    refine ⟨fun h => ?_, fun h => h ▸ rfl⟩
    have hparse := Instant.parse_format ht
    rw [h, Instant.parse_format_eq_some_iff] at hparse
    exact hparse.2
  rw [and_iff_right hsame]
  obtain ⟨hlow, hhigh⟩ := year_of_parse hb
  by_cases hneg : u.date.year < 0
  · have hgt := format_lt_of_neg hneg ht
    have hbefore : u.Before t := by
      rw [Instant.Before, Instant.parts, Instant.parts, List.cons_lt_cons_iff]
      exact Or.inl (hneg.trans_le ht.1)
    refine iff_of_true (iff_of_false hgt.not_gt hbefore.not_gt) (Or.inl (by omega))
  by_cases hten : u.date.year = 10000
  · have hbefore : t.Before u := by
      rw [Instant.Before, Instant.parts, Instant.parts, List.cons_lt_cons_iff]
      exact Or.inl (by have := ht.2; omega)
    rw [format_lt_format_iff_of_tenThousand ht hten]
    simp only [hbefore, iff_true, hten]
    omega
  · have hu : u.InRange := ⟨by omega, by omega⟩
    exact iff_of_true (Instant.format_lt_format_iff ht hu) (Or.inl hu.2)

/-- Noon in UTC, and half a second later in a zone an hour ahead. -/
theorem ordersLikeTime_noon :
    OrdersLikeTime "2026-07-30T12:00:00Z".toList "2026-07-30T13:00:00,5+01:00".toList :=
  have hnoon : (Instant.parse "2026-07-30T12:00:00Z".toList).isSome := by decide
  have hlater : (Instant.parse "2026-07-30T13:00:00,5+01:00".toList).isSome := by decide
  (ordersLikeTime_iff (Option.some_get hnoon).symm (Option.some_get hlater).symm).mpr
    (by decide +revert)

/-- The last hour of the year 9999 two hours behind UTC is of the year 10000 in UTC, and a canonical
text with a year of five digits is not accepted. -/
theorem not_ordersLikeTime_lastHour :
    ¬ ∀ a b : Text, (Instant.parse a).isSome → (Instant.parse b).isSome → OrdersLikeTime a b := by
  intro h
  have hlast : (Instant.parse "9999-12-31T23:00:00-02:00".toList).isSome := by decide
  have hrange : ¬ ((Instant.parse "9999-12-31T23:00:00-02:00".toList).get hlast).InRange := by
    decide +revert
  have hsome := (Option.some_get hlast).symm
  exact hrange ((ordersLikeTime_iff_format hsome hsome).mp (h _ _ hlast hlast)).1

end Thalweg
