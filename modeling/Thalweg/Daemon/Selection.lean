import Thalweg.Daemon.Readability
import Thalweg.Daemon.Timestamps

/-!
# What a query selects

A query selects the visible events of a network by their streams and by the instants at which they
occurred. It reads the events stream by stream and compares instants as texts.

* `Matches`: the events that a query asks for.
* `inRange_iff_not_misplaced`: what the comparison of texts comes to when a bound is of the year
  10000.
* `Daemon.Reachable.returnsEachOnce_iff`: a query returns each matching event once exactly if no
  stream that is listed twice has one and no bound of the year 10000 misplaces one.
-/

namespace Thalweg

/-! ### Matching events -/

/-- The value does not denote an instant before the bound; an empty bound is none. -/
def NotBefore (bound value : Text) : Prop :=
  bound = [] ∨ ∃ m n, Denotes bound m ∧ Denotes value n ∧ m ≤ n

/-- The value does not denote an instant after the bound; an empty bound is none. -/
def NotAfter (bound value : Text) : Prop :=
  bound = [] ∨ ∃ m n, Denotes bound m ∧ Denotes value n ∧ n ≤ m

/-- The event is one that a query asks for. -/
structure Matches (S : Set ThalwegEvent) (networkName : Text) (streams : List Text)
    (from' to' : Text) (e : ThalwegEvent) : Prop where
  visible : e ∈ visible S networkName
  listed : IsListed streams e.stream
  notBefore : NotBefore from' e.occurredAt
  notAfter : NotAfter to' e.occurredAt

/-! ### Bounds of the year 10000 -/

/-- The bound denotes an instant of the year 10000. -/
def IsTenThousand (bound : Text) : Prop :=
  ∃ t, Instant.parse bound = some t ∧ t.date.year = 10000

/-- The value denotes an instant of a year after 1000. -/
def IsAfterThousand (value : Text) : Prop :=
  ∃ t, Instant.parse value = some t ∧ 1000 < t.date.year

/-- One of the bounds is of the year 10000, and the value lies within the other one and after the
year 1000, so that its text is on the wrong side of the first one's. -/
def Misplaced (from' to' value : Text) : Prop :=
  IsAfterThousand value ∧
    (IsTenThousand from' ∧ ¬ IsTenThousand to' ∧ NotAfter to' value ∨
      IsTenThousand to' ∧ ¬ IsTenThousand from' ∧ NotBefore from' value)

theorem denotes_iff {value : Text} {t : Instant} (h : Instant.parse value = some t) {time : Int} :
    Denotes value time ↔ t.nanoseconds = time := by
  simp [Denotes, h]

theorem notBefore_iff {bound value : Text} {b t : Instant} (hb : Instant.parse bound = some b)
    (ht : Instant.parse value = some t) (hne : bound ≠ []) :
    NotBefore bound value ↔ b.nanoseconds ≤ t.nanoseconds := by
  simp [NotBefore, denotes_iff hb, denotes_iff ht, hne]

theorem notAfter_iff {bound value : Text} {b t : Instant} (hb : Instant.parse bound = some b)
    (ht : Instant.parse value = some t) (hne : bound ≠ []) :
    NotAfter bound value ↔ t.nanoseconds ≤ b.nanoseconds := by
  simp [NotAfter, denotes_iff hb, denotes_iff ht, hne]

theorem isTenThousand_iff {bound : Text} {b : Instant} (hb : Instant.parse bound = some b) :
    IsTenThousand bound ↔ b.date.year = 10000 := by
  simp [IsTenThousand, hb]

theorem isAfterThousand_iff {value : Text} {t : Instant} (ht : Instant.parse value = some t) :
    IsAfterThousand value ↔ 1000 < t.date.year := by
  simp [IsAfterThousand, ht]

theorem Instant.before_of_year {t u : Instant} (h : t.date.year < u.date.year) : t.Before u := by
  rw [Instant.Before, Instant.parts, Instant.parts, List.cons_lt_cons_iff]
  exact Or.inl h

/-- An instant of the range compared with a canonical bound, as texts. -/
theorem format_lt_format_cases {t b : Instant} {bound : Text} (ht : t.InRange)
    (hb : Instant.parse bound = some b) :
    (t.format < b.format ↔
      if b.date.year = 10000 then t.date.year ≤ 1000 else t.nanoseconds < b.nanoseconds) ∧
    (b.format < t.format ↔
      if b.date.year = 10000 then 1000 < t.date.year else b.nanoseconds < t.nanoseconds) := by
  obtain ⟨hlow, hhigh⟩ := year_of_parse hb
  split_ifs with hten
  · have hlt := format_lt_format_iff_of_tenThousand ht hten
    have hne : t.format ≠ b.format := by
      intro heq
      have hparse := Instant.parse_format ht
      rw [heq, Instant.parse_format_eq_some_iff] at hparse
      exact absurd hparse.1.2 (by omega)
    refine ⟨hlt, ?_⟩
    rw [← not_le, ← not_le, ← hlt, le_iff_lt_or_eq, or_iff_left hne]
  · simp only [Instant.nanoseconds_lt_iff]
    by_cases hneg : b.date.year < 0
    · have hgt := format_lt_of_neg hneg ht
      have hbefore : b.Before t := Instant.before_of_year (hneg.trans_le ht.1)
      exact ⟨iff_of_false hgt.not_gt hbefore.not_gt, iff_of_true hgt hbefore⟩
    · have hb : b.InRange := ⟨by omega, by omega⟩
      exact ⟨Instant.format_lt_format_iff ht hb, Instant.format_lt_format_iff hb ht⟩

theorem normalizeBound_eq_ok_iff {field : String} {bound b : Text} :
    normalizeBound field bound = .ok b ↔
      bound = [] ∧ b = [] ∨ bound ≠ [] ∧ ∃ t, Instant.parse bound = some t ∧ b = t.format := by
  unfold normalizeBound
  split_ifs with h
  · simp only [h, true_and, ne_eq, not_true, false_and, or_false, Except.ok.injEq]
    exact eq_comm
  · simp only [h, false_and, false_or, ne_eq, not_false_eq_true, true_and,
      normalizeTimestamp_eq_ok_iff]

theorem not_isTenThousand_nil : ¬ IsTenThousand [] := by
  rintro ⟨t, ht, -⟩
  cases ht

/-- An instant of the range is before the year 10000. -/
theorem nanoseconds_lt_of_tenThousand {t b : Instant} (ht : t.InRange)
    (hb : b.date.year = 10000) : t.nanoseconds < b.nanoseconds := by
  have := ht.2
  exact Instant.nanoseconds_lt_of_before (Instant.before_of_year (by omega))

section Bounds

variable {field : String} {bound b value : Text}

/-- What the comparison with a lower bound comes to. -/
theorem notBefore_normalizeBound (hb : normalizeBound field bound = .ok b)
    (hvalue : IsReadableTimestamp value) :
    (b = [] ∨ ¬ value < b) ↔
      NotBefore bound value ∨ IsTenThousand bound ∧ IsAfterThousand value := by
  obtain ⟨t, ht, rfl⟩ := hvalue
  have hparse := Instant.parse_format ht
  rcases normalizeBound_eq_ok_iff.mp hb with ⟨rfl, rfl⟩ | ⟨hne, u, hu, rfl⟩
  · simp [NotBefore]
  · rw [or_iff_right (format_ne_nil u), (format_lt_format_cases ht hu).1, notBefore_iff hu hparse hne,
      isTenThousand_iff hu, isAfterThousand_iff hparse]
    split_ifs with hten
    · have := nanoseconds_lt_of_tenThousand ht hten
      omega
    · omega

/-- What the comparison with an upper bound comes to. -/
theorem notAfter_normalizeBound (hb : normalizeBound field bound = .ok b)
    (hvalue : IsReadableTimestamp value) :
    (b = [] ∨ ¬ b < value) ↔
      NotAfter bound value ∧ ¬ (IsTenThousand bound ∧ IsAfterThousand value) := by
  obtain ⟨t, ht, rfl⟩ := hvalue
  have hparse := Instant.parse_format ht
  rcases normalizeBound_eq_ok_iff.mp hb with ⟨rfl, rfl⟩ | ⟨hne, u, hu, rfl⟩
  · simp [NotAfter, not_isTenThousand_nil]
  · rw [or_iff_right (format_ne_nil u), (format_lt_format_cases ht hu).2, notAfter_iff hu hparse hne,
      isTenThousand_iff hu, isAfterThousand_iff hparse]
    split_ifs with hten
    · have := nanoseconds_lt_of_tenThousand ht hten
      omega
    · omega

/-- A bound of the year 10000 is before no instant of the range and after all of them. -/
theorem IsTenThousand.bounds (h : IsTenThousand bound) (hvalue : IsReadableTimestamp value) :
    ¬ NotBefore bound value ∧ NotAfter bound value := by
  obtain ⟨t, ht, rfl⟩ := hvalue
  obtain ⟨u, hu, hten⟩ := h
  have hne : bound ≠ [] := by
    rintro rfl
    cases hu
  have hlt := nanoseconds_lt_of_tenThousand ht hten
  rw [notBefore_iff hu (Instant.parse_format ht) hne, notAfter_iff hu (Instant.parse_format ht) hne]
  exact ⟨hlt.not_ge, hlt.le⟩

end Bounds

theorem inRange_eq_true_iff {e : ThalwegEvent} {from' to' : Text} :
    inRange e from' to' = true ↔
      (from' = [] ∨ ¬ e.occurredAt < from') ∧ (to' = [] ∨ ¬ to' < e.occurredAt) := by
  simp only [inRange, Bool.and_eq_true, Bool.not_eq_true', Bool.and_eq_false_iff,
    decide_eq_false_iff_not, not_not]

/-- The comparison of texts is right about an event exactly if no bound misplaces it. -/
theorem inRange_iff_not_misplaced {from' to' from₁ to₁ : Text} {e : ThalwegEvent}
    (hfrom : normalizeBound "from" from' = .ok from₁) (hto : normalizeBound "to" to' = .ok to₁)
    (he : IsReadableTimestamp e.occurredAt) :
    (inRange e from₁ to₁ = true ↔ NotBefore from' e.occurredAt ∧ NotAfter to' e.occurredAt) ↔
      ¬ Misplaced from' to' e.occurredAt := by
  rw [inRange_eq_true_iff, notBefore_normalizeBound hfrom he, notAfter_normalizeBound hto he,
    Misplaced]
  by_cases hf : IsTenThousand from'
  · have := (hf.bounds he).1
    by_cases ht : IsTenThousand to'
    · have := (ht.bounds he).2
      tauto
    · tauto
  · by_cases ht : IsTenThousand to'
    · have := (ht.bounds he).2
      tauto
    · tauto

/-! ### Queries -/

/-- Without a limit the query returns the matching events, each once, and with a limit as many of
the first of them. -/
structure ReturnsEachOnce (d : Daemon) (networkName : Text) (streams : List Text)
    (from' to' order : Text) (xs : List ThalwegEvent) : Prop where
  unlimited : d.queryOrdered networkName streams from' to' 0 order = .ok xs
  nodup : xs.Nodup
  mem_iff : ∀ e, e ∈ xs ↔ Matches (storedEvents d.store) networkName streams from' to' e
  limited : ∀ limit : Nat, 0 < limit →
    d.queryOrdered networkName streams from' to' limit order = .ok (xs.take limit)

/-- No event matches the query whose stream is listed twice, and no event of a listed stream is
misplaced. -/
structure SelectsClearly (S : Set ThalwegEvent) (networkName : Text) (streams : List Text)
    (from' to' : Text) : Prop where
  listedOnce : ∀ e, Matches S networkName streams from' to' e → streams.count e.stream ≤ 1
  notMisplaced : ∀ e ∈ visible S networkName, IsListed streams e.stream →
    ¬ Misplaced from' to' e.occurredAt

theorem limited_zero (events : List ThalwegEvent) : limited 0 events = events := by
  simp [limited]

theorem limited_of_pos {limit : Nat} (h : 0 < limit) (events : List ThalwegEvent) :
    limited limit events = events.take limit := by
  unfold limited
  split_ifs with hlimit
  · rw [Int.toNat_natCast]
  · rw [List.take_of_length_le (by omega)]

theorem timesNamed_pos_iff {streams : List Text} {stream : Text} :
    0 < timesNamed streams stream ↔ IsListed streams stream := by
  unfold timesNamed IsListed
  split_ifs with h
  · simp [h]
  · simp [h, List.count_pos_iff]

theorem timesNamed_le_one_iff {streams : List Text} {stream : Text} :
    timesNamed streams stream ≤ 1 ↔ streams.count stream ≤ 1 := by
  unfold timesNamed
  split_ifs with h
  · simp [h]
  · rfl

namespace Represents

variable {d : Daemon} {events : List ThalwegEvent} {networkName from' to' from₁ to₁ : Text}
  {streams : List Text}

/-- The events that a query reads: those that are visible, of a listed stream and in range, each as
often as its stream is named. -/
theorem exists_found (h : Represents d.store events)
    (hfindable : ∀ e ∈ events, e.network = networkName → IsListed streams e.stream → Findable e)
    (hfrom : normalizeBound "from" from' = .ok from₁) (hto : normalizeBound "to" to' = .ok to₁) :
    ∃ found : List ThalwegEvent,
      (∀ e, e ∈ found ↔ e ∈ visible (storedEvents d.store) networkName ∧
        IsListed streams e.stream ∧ inRange e from₁ to₁ = true) ∧
      (∀ e ∈ found, found.count e = timesNamed streams e.stream) ∧
      ∀ (limit : Int) (order : Text), ValidQuery networkName from' to' limit order →
        d.queryOrdered networkName streams from' to' limit order =
          .ok (limited limit (arranged order found)) := by
  obtain ⟨resolutions, hread, -⟩ := h.conflictResolutionsTxn_spec networkName
  obtain ⟨found, hfound, hcount⟩ := h.exists_collectPrefixes resolutions from₁ to₁ hfindable
  have hkept : ∀ e, (e ∈ events ∧ e.network = networkName ∧
      keepsEvent resolutions from₁ to₁ e = true) ↔
      e ∈ visible (storedEvents d.store) networkName ∧ inRange e from₁ to₁ = true := by
    intro e
    rw [h.mem_visible_iff, ← h.isSuperseded_iff hread, keepsEvent, Bool.and_eq_true,
      Bool.not_eq_true', Bool.not_eq_true]
    tauto
  have hmem : ∀ e, e ∈ found ↔ e ∈ visible (storedEvents d.store) networkName ∧
      IsListed streams e.stream ∧ inRange e from₁ to₁ = true := by
    intro e
    rw [← List.count_pos_iff, hcount, ← timesNamed_pos_iff]
    split_ifs with hin
    · obtain ⟨hvis, hrange⟩ := (hkept e).mp hin
      simp only [hvis, hrange, true_and, and_true]
    · exact iff_of_false (lt_irrefl 0) fun hall => hin ((hkept e).mpr ⟨hall.1, hall.2.2⟩)
  refine ⟨found, hmem, fun e he => ?_, fun limit order hvalid =>
    queryOrdered_eq hvalid hfrom hto hread hfound⟩
  obtain ⟨hvis, -, hrange⟩ := (hmem e).mp he
  rw [hcount, if_pos ((hkept e).mpr ⟨hvis, hrange⟩)]

/-- The query reads the matching events exactly if no bound misplaces an event. -/
theorem found_eq_matches_iff (h : Represents d.store events)
    (hfindable : ∀ e ∈ events, e.network = networkName → IsListed streams e.stream → Findable e)
    (hfrom : normalizeBound "from" from' = .ok from₁) (hto : normalizeBound "to" to' = .ok to₁) :
    (∀ e, (e ∈ visible (storedEvents d.store) networkName ∧ IsListed streams e.stream ∧
        inRange e from₁ to₁ = true) ↔
      Matches (storedEvents d.store) networkName streams from' to' e) ↔
    ∀ e ∈ visible (storedEvents d.store) networkName, IsListed streams e.stream →
      ¬ Misplaced from' to' e.occurredAt := by
  refine forall_congr' fun e => ?_
  by_cases hcandidate : e ∈ visible (storedEvents d.store) networkName ∧ IsListed streams e.stream
  · obtain ⟨hvis, hlisted⟩ := hcandidate
    obtain ⟨he, hn, -⟩ := h.mem_visible_iff.mp hvis
    rw [forall_prop_of_true hvis, forall_prop_of_true hlisted,
      ← inRange_iff_not_misplaced hfrom hto (hfindable e he hn hlisted).1]
    simp only [hvis, hlisted, true_and]
    exact iff_congr Iff.rfl ⟨fun hm => ⟨hm.3, hm.4⟩, fun hm => ⟨hvis, hlisted, hm.1, hm.2⟩⟩
  · refine iff_of_true (iff_of_false ?_ ?_) ?_
    · exact fun hin => hcandidate ⟨hin.1, hin.2.1⟩
    · exact fun hin => hcandidate ⟨hin.visible, hin.listed⟩
    · exact fun hin hlisted => absurd ⟨hin, hlisted⟩ hcandidate

end Represents

/-- A list whose members are there as often as their streams are named has no duplicates exactly if
no stream of a member is listed twice. -/
theorem nodup_iff_of_count {found : List ThalwegEvent} {streams : List Text}
    (hcount : ∀ e ∈ found, found.count e = timesNamed streams e.stream) :
    found.Nodup ↔ ∀ e ∈ found, streams.count e.stream ≤ 1 := by
  rw [List.nodup_iff_count_le_one]
  refine forall_congr' fun e => ?_
  by_cases he : e ∈ found
  · rw [hcount e he, timesNamed_le_one_iff]
    exact ⟨fun hle _ => hle, fun hle => hle he⟩
  · simp [he, List.count_eq_zero_of_not_mem he]

namespace Daemon

/-- **Each matching event once.** In a reachable state, a query of streams whose events can be found
returns each matching event once exactly if no stream with a matching event is listed twice and no
event is misplaced by a bound of the year 10000. -/
theorem Reachable.returnsEachOnce_iff {d : Daemon} (h : d.Reachable)
    {networkName from' to' order : Text}
    {streams : List Text} (hfindable : ∀ e ∈ storedEvents d.store, e.network = networkName →
      IsListed streams e.stream → Findable e) (hvalid : ValidQuery networkName from' to' 0 order) :
    (∃ xs, ReturnsEachOnce d networkName streams from' to' order xs) ↔
      SelectsClearly (storedEvents d.store) networkName streams from' to' := by
  obtain ⟨L, hL⟩ := h.exists_holds.1
  have hrepresents := hL.represents
  simp only [hrepresents.mem_storedEvents_iff] at hfindable
  obtain ⟨from₁, hfrom⟩ := exists_normalizeBound "from" hvalid.from_eq
  obtain ⟨to₁, hto⟩ := exists_normalizeBound "to" hvalid.to_eq
  obtain ⟨found, hmem, hcount, hquery⟩ := hrepresents.exists_found hfindable hfrom hto
  have hmatches := hrepresents.found_eq_matches_iff hfindable hfrom hto
  simp only [← hmem] at hmatches
  have hzero : d.queryOrdered networkName streams from' to' 0 order =
      .ok (arranged order found) :=
    (hquery 0 order hvalid).trans (congrArg Except.ok (limited_zero _))
  have hperm := arranged_perm order found
  constructor
  · rintro ⟨xs, hxs⟩
    obtain rfl := Except.ok.inj (hxs.unlimited.symm.trans hzero)
    have hmem' := fun e => hperm.mem_iff.symm.trans (hxs.mem_iff e)
    have honce := (nodup_iff_of_count hcount).mp (hperm.nodup_iff.mp hxs.nodup)
    exact ⟨fun e he => honce e ((hmem' e).mpr he), hmatches.mp hmem'⟩
  · rintro ⟨honce, hplaced⟩
    have hmem' := hmatches.mpr hplaced
    have hnodup := (nodup_iff_of_count hcount).mpr fun e he => honce e ((hmem' e).mp he)
    refine ⟨arranged order found, hzero, hperm.nodup_iff.mpr hnodup,
      fun e => hperm.mem_iff.trans (hmem' e), fun limit hpos => ?_⟩
    rw [hquery limit order { hvalid with limit_nonneg := Int.natCast_nonneg limit },
      limited_of_pos hpos]

/-- The event of the last second of 9999, queried by its stream from that second on. -/
theorem returnsEachOnce_lastSecond :
    (∃ xs, ReturnsEachOnce (atNoon.after 0 [lastSecond]) ['h'] [['s'], ['t']]
        "9999-12-31T23:59:59Z".toList [] [] xs) ↔
      SelectsClearly (storedEvents (atNoon.after 0 [lastSecond]).store) ['h'] [['s'], ['t']]
        "9999-12-31T23:59:59Z".toList [] :=
  Reachable.returnsEachOnce_iff ⟨_, _, _, run_after _ _ _⟩
    (fun e he _ _ => (lastSecond_reachableBy.readable e he).findable)
    ⟨by decide, Or.inl rfl, le_refl _, Or.inr (by decide), Or.inl rfl⟩

/-- A query that lists a stream twice returns its event twice. -/
theorem not_returnsEachOnce_twice :
    (atNoon.after 0 [lastSecond]).Reachable ∧
      (∀ e ∈ storedEvents (atNoon.after 0 [lastSecond]).store, Readable e) ∧
      ¬ ∃ xs, ReturnsEachOnce (atNoon.after 0 [lastSecond]) ['h'] [['s'], ['s']] [] [] [] xs := by
  refine ⟨⟨_, _, _, run_after _ _ _⟩, lastSecond_reachableBy.readable, ?_⟩
  rintro ⟨xs, hxs⟩
  have htwice : ((atNoon.after 0 [lastSecond]).queryOrdered ['h'] [['s'], ['s']] [] [] 0
      []).toOption.any (fun xs => decide xs.Nodup) = false := by
    decide +kernel
  rw [hxs.unlimited] at htwice
  exact absurd hxs.nodup (of_decide_eq_false htwice)

end Daemon

end Thalweg
