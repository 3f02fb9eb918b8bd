import Thalweg.Daemon.Paging

/-!
# Comparison and receipt agree

A reader compares the digests of an inventory with those of its own events, and asks for the events
that it misses. For an event of an ordinary stream the comparison says what the receipt of the event
would do, as long as no two of the compared events have the same hash.

* `Standing`: how a store stands to an envelope, which decides both.
* `compareEntries_spec`, `Daemon.Holds.decides`: the comparison, and the receipt of the same event.
* `Daemon.Reachable.comparison_agrees`.
-/

namespace Thalweg

/-- The error that rejects an envelope whose ID is taken by another one. -/
def originConflict (networkName eventID : Text) : Failure :=
  .errorf "event id %q already exists with a different origin envelope in network %q"
    [eventID, networkName]

/-- The hash of the envelope is that of no stored event with another record. -/
def HashesApart (S : Set ThalwegEvent) (e : ThalwegEvent) : Prop :=
  ∀ f ∈ S, Sha256.digest (Text.toBytes (eventText f)) = Sha256.digest (Text.toBytes (eventText e)) →
    eventText f = eventText e

/-! ### How a store stands to an envelope -/

/-- How a store stands to an envelope in normal form: nothing is stored under its ID, or the
envelope itself, or another one; or what is stored cannot be read. -/
inductive Standing (store : Store) (e : ThalwegEvent) : Prop where
  | absent : findEventByID store e.network e.id = .ok none → Standing store e
  | same : findEventByID store e.network e.id = .ok (some e) → HasReadableTimes e →
      Standing store e
  | other {f : ThalwegEvent} : findEventByID store e.network e.id = .ok (some f) →
      f ∈ storedEvents store → HasReadableTimes f → f ≠ e → Standing store e
  | undated {f : ThalwegEvent} : findEventByID store e.network e.id = .ok (some f) →
      f ∈ storedEvents store → ¬ HasReadableTimes f → Standing store e
  | unreadable {err : Failure} : findEventByID store e.network e.id = .error err → Standing store e

theorem Represents.standing {store : Store} {events : List ThalwegEvent}
    (h : Represents store events) (e : ThalwegEvent) : Standing store e := by
  cases hfind : findEventByID store e.network e.id with
  | error err => exact .unreadable hfind
  | ok found =>
    cases found with
    | none => exact .absent hfind
    | some f =>
      have hf := h.mem_storedEvents_iff.mpr (h.findEventByID_eq_ok_some_iff.mp hfind).1
      by_cases htimes : HasReadableTimes f
      · by_cases hne : f = e
        · exact .same (hne ▸ hfind) (hne ▸ htimes)
        · exact .other hfind hf htimes hne
      · exact .undated hfind hf htimes

/-- The search for an event does not fail with the error for another envelope. -/
theorem findEventByID_ne_originConflict {store : Store} {networkName eventID n i : Text}
    (h : findEventByID store networkName eventID = .error (originConflict n i)) : False := by
  unfold findEventByID at h
  split at h
  · cases h
  split at h
  · simp [errorf, originConflict] at h
  rcases bind_eq_error_iff.mp h with h | ⟨event, -, h⟩
  · unfold decodeEvent at h
    split at h
    all_goals cases h
  · split_ifs at h
    · simp [errorf, originConflict] at h
    · rcases bind_eq_error_iff.mp h with h | ⟨occurredAt, -, h⟩
      · unfold normalizeTimestamp at h
        split at h
        all_goals cases h
      · rcases bind_eq_error_iff.mp h with h | ⟨payload, -, h⟩
        · unfold wrapf at h
          split at h
          all_goals cases h
        · cases h

/-! ### Comparison -/

/-- Nothing is stored under the ID, or an event that has a digest. -/
def Comparable (store : Store) (networkName id : Text) : Prop :=
  findEventByID store networkName id = .ok none ∨
    ∃ event digest, findEventByID store networkName id = .ok (some event) ∧
      eventDigest event = .ok digest

theorem exists_compareEntries {store : Store} {networkName : Text} {entries : List InventoryEntry}
    (h : ∀ entry ∈ entries, Comparable store networkName entry.id) :
    ∃ comparison, compareEntries store networkName entries = .ok comparison := by
  induction entries with
  | nil => exact ⟨_, rfl⟩
  | cons entry entries ih =>
    obtain ⟨hentry, hentries⟩ := List.forall_mem_cons.mp h
    obtain ⟨rest, hrest⟩ := ih hentries
    rcases hentry with hnone | ⟨event, digest, hsome, hdigest⟩
    · refine ⟨{ rest with missing := entry.id :: rest.missing }, ?_⟩
      simp only [compareEntries, hnone, hrest, bind, Except.bind]
    · simp only [compareEntries, hsome, hdigest, hrest, bind, Except.bind]
      split_ifs
      · exact ⟨_, rfl⟩
      · exact ⟨_, rfl⟩

/-- An answered comparison lists the IDs of the page under which nothing is stored, and those under
which an event of another digest is. -/
theorem compareEntries_spec {store : Store} {networkName : Text} {entries : List InventoryEntry}
    {comparison : InventoryComparison}
    (h : compareEntries store networkName entries = .ok comparison) :
    (∀ id, id ∈ comparison.missing ↔
      ∃ entry ∈ entries, entry.id = id ∧ findEventByID store networkName id = .ok none) ∧
    (∀ id, id ∈ comparison.conflicts ↔ ∃ entry ∈ entries, entry.id = id ∧ ∃ event digest,
      findEventByID store networkName id = .ok (some event) ∧ eventDigest event = .ok digest ∧
        digest ≠ entry.digest) ∧
    ∀ entry ∈ entries, Comparable store networkName entry.id := by
  induction entries generalizing comparison with
  | nil =>
    cases h
    simp
  | cons entry entries ih =>
    obtain ⟨found, hfind, h⟩ := bind_eq_ok_iff.mp h
    cases found with
    | none =>
      obtain ⟨rest, hrest, h⟩ := bind_eq_ok_iff.mp h
      cases h
      obtain ⟨hmissing, hconflicts, hread⟩ := ih hrest
      refine ⟨fun id => ?_, fun id => ?_, List.forall_mem_cons.mpr ⟨Or.inl hfind, hread⟩⟩
      · simp only [List.mem_cons, hmissing, exists_eq_or_imp]
        constructor
        · rintro (rfl | hin)
          · exact Or.inl ⟨rfl, hfind⟩
          · exact Or.inr hin
        · rintro (⟨rfl, -⟩ | hin)
          · exact Or.inl rfl
          · exact Or.inr hin
      · simp only [hconflicts, List.mem_cons, exists_eq_or_imp]
        refine (or_iff_right ?_).symm
        rintro ⟨rfl, event, digest, hevent, -⟩
        rw [hfind] at hevent
        cases hevent
    | some event =>
      obtain ⟨digest, hdigest, h⟩ := bind_eq_ok_iff.mp h
      obtain ⟨rest, hrest, h⟩ := bind_eq_ok_iff.mp h
      obtain ⟨hmissing, hconflicts, hread⟩ := ih hrest
      have hmissing' : ∀ id, id ∈ rest.missing ↔ ∃ e ∈ entry :: entries, e.id = id ∧
          findEventByID store networkName id = .ok none := fun id => by
        simp only [hmissing, List.mem_cons, exists_eq_or_imp]
        refine (or_iff_right ?_).symm
        rintro ⟨rfl, hnone⟩
        rw [hfind] at hnone
        cases hnone
      have hhead : ∀ id, (entry.id = id ∧ ∃ f d, findEventByID store networkName id = .ok (some f) ∧
          eventDigest f = .ok d ∧ d ≠ entry.digest) ↔ entry.id = id ∧ digest ≠ entry.digest := by
        refine fun id => and_congr_right ?_
        rintro rfl
        constructor
        · rintro ⟨f, d, hf, hd, hne⟩
          rw [hfind] at hf
          cases hf
          rw [hdigest] at hd
          cases hd
          exact hne
        · exact fun hne => ⟨event, digest, hfind, hdigest, hne⟩
      have hread' : ∀ e ∈ entry :: entries, Comparable store networkName e.id :=
        List.forall_mem_cons.mpr ⟨Or.inr ⟨event, digest, hfind, hdigest⟩, hread⟩
      split_ifs at h with hne
      · cases h
        refine ⟨hmissing', fun id => ?_, hread'⟩
        simp only [List.mem_cons, hconflicts, exists_eq_or_imp, hhead, hne, ne_eq,
          not_false_eq_true, and_true, @eq_comm _ id]
      · cases h
        refine ⟨hmissing', fun id => ?_, hread'⟩
        simp only [hconflicts, List.mem_cons, exists_eq_or_imp, hhead, hne, and_false, false_or]

/-- The stamp of the envelope is of the years 0000 to 9999, and its counter is far from its end. -/
structure ThalwegEvent.InBounds (e : ThalwegEvent) : Prop where
  insertedAt : InRangeText e.insertedAt
  counter : e.counter.toNat < 2 ^ 63

namespace Daemon

/-- What an answered comparison of a page has read. -/
theorem compareInventory_eq_ok {d : Daemon} {networkName : Text} {entries : List InventoryEntry}
    {lists : List Text × List Text} (hne : entries ≠ [])
    (h : (d.compareInventory networkName entries).1 = .ok lists) :
    validateInventoryEntries entries = .ok () ∧ ∃ comparison,
      compareEntries d.store networkName entries = .ok comparison ∧
        lists = (comparison.missing, comparison.conflicts) := by
  unfold compareInventory at h
  rw [if_neg hne] at h
  cases hvalid : validateInventoryEntries entries with
  | error err =>
    rw [hvalid] at h
    cases h
  | ok u =>
    simp only [hvalid] at h
    cases hcompare : compareEntries d.store networkName entries with
    | error err =>
      rw [hcompare] at h
      cases h
    | ok comparison =>
      rw [hcompare] at h
      cases h
      exact ⟨rfl, comparison, rfl, rfl⟩

/-- The comparison of an accepted page is answered when its IDs are comparable. -/
theorem exists_compareInventory {d : Daemon} {networkName : Text} {entries : List InventoryEntry}
    (hvalid : validateInventoryEntries entries = .ok ())
    (h : ∀ entry ∈ entries, Comparable d.store networkName entry.id) :
    ∃ lists, (d.compareInventory networkName entries).1 = .ok lists := by
  obtain ⟨comparison, hcompare⟩ := exists_compareEntries h
  have hne : entries ≠ [] := by
    rintro rfl
    cases hvalid
  refine ⟨(comparison.missing, comparison.conflicts), ?_⟩
  rw [compareInventory, if_neg hne]
  simp only [hvalid, hcompare]

/-- What the lists of an answered comparison say of one of its entries. -/
theorem mem_compareInventory_iff {d : Daemon} {networkName : Text} {entries : List InventoryEntry}
    {lists : List Text × List Text} {entry : InventoryEntry} (hentry : entry ∈ entries)
    (h : (d.compareInventory networkName entries).1 = .ok lists) :
    Comparable d.store networkName entry.id ∧
      (entry.id ∈ lists.1 ↔ findEventByID d.store networkName entry.id = .ok none) ∧
      (entry.id ∈ lists.2 ↔ ∃ event digest, findEventByID d.store networkName entry.id =
        .ok (some event) ∧ eventDigest event = .ok digest ∧ digest ≠ entry.digest) := by
  obtain ⟨hvalid, comparison, hcompare, rfl⟩ :=
    compareInventory_eq_ok (List.ne_nil_of_mem hentry) h
  obtain ⟨hmissing, hconflicts, hread⟩ := compareEntries_spec hcompare
  have hsorted := (validateInventoryEntries_eq_ok_iff.mp hvalid).2.2
  -- no other entry of the page has the ID
  have hunique : ∀ e ∈ entries, e.id = entry.id → e = entry := fun e he hid =>
    List.inj_on_of_nodup_map (hsorted.imp ne_of_lt) he hentry hid
  refine ⟨hread entry hentry, ?_, ?_⟩
  · rw [hmissing]
    exact ⟨fun ⟨e, he, hid, hnone⟩ => hnone, fun hnone => ⟨entry, hentry, rfl, hnone⟩⟩
  · rw [hconflicts]
    constructor
    · rintro ⟨e, he, hid, hconflict⟩
      rwa [hunique e he hid] at hconflict
    · exact fun hconflict => ⟨entry, hentry, rfl, hconflict⟩

/-! ### Receipt -/

/-- The clock of the daemon is of the years 0000 to 9999, and its counters are far from their
end. -/
structure InBounds (d : Daemon) : Prop where
  clock : d.hlc.Readable
  logical : d.hlc.logical.toNat < 2 ^ 63
  arrivals : ∀ sequence, readArrivalSequence d.store = .ok sequence → sequence.toNat < 2 ^ 63

theorem mergeBase_lt {physical : Text} {state remote : HlcTimestamp} {base : UInt64}
    (hstate : state.logical.toNat < 2 ^ 63) (hremote : remote.logical.toNat < 2 ^ 63)
    (h : mergeBase physical state remote = some base) : base.toNat < 2 ^ 63 := by
  unfold mergeBase at h
  split_ifs at h
  · cases h
    rw [max_uint64_eq]
    split_ifs
    · exact hremote
    · exact hstate
  · cases h
    exact hstate
  · cases h
    exact hremote

theorem ne_maxUint64_of_lt {n : UInt64} (h : n.toNat < 2 ^ 63) : n ≠ maxUint64 := by
  rintro rfl
  exact absurd h (by decide)

/-- A stamp within bounds is merged into a clock within bounds. -/
theorem exists_mergeHLCTimestamp {state remote : HlcTimestamp} (wallTime : Instant)
    (hreadable : state.Readable) (hremote : IsReadableTimestamp remote.physical)
    (hstate : state.logical.toNat < 2 ^ 63) (hcounter : remote.logical.toNat < 2 ^ 63) :
    ∃ next, mergeHLCTimestamp state remote wallTime = .ok next := by
  let physical := max (max wallTime.format state.physical) remote.physical
  have hiff : ∀ next, mergeHLCTimestamp state remote wallTime = .ok next ↔ _ := fun next =>
    mergeHLCTimestamp_eq_ok_iff hreadable.canonical hremote.isTimestamp
  cases hbase : mergeBase physical state remote with
  | none =>
    refine ⟨⟨physical, 0⟩, (hiff _).mpr ⟨hreadable, hremote, rfl, ?_⟩⟩
    simp only [hbase]
  | some base =>
    refine ⟨⟨physical, base + 1⟩, (hiff _).mpr ⟨hreadable, hremote, rfl, ?_⟩⟩
    simp only [hbase, and_true]
    exact ne_maxUint64_of_lt (mergeBase_lt hstate hcounter hbase)

variable {d : Daemon} {L : Ledger} {e : ThalwegEvent}

/-- An event under whose ID nothing is stored is stored. -/
theorem Holds.storeReplicated_of_absent (h : d.Holds L) (he : Storable e)
    (hinserted : IsReadableTimestamp e.insertedAt) (hcounter : e.counter.toNat < 2 ^ 63)
    (hbounds : d.InBounds)
    (hfind : findEventByID d.store e.network e.id = .ok none) :
    ∃ d', d.storeReplicated e = (.ok (e, true), d') := by
  obtain ⟨clock, hclock⟩ := exists_mergeHLCTimestamp d.clockNow hbounds.clock
    (show IsReadableTimestamp (HlcTimestamp.mk e.insertedAt e.counter).physical from hinserted)
    hbounds.logical hcounter
  have hroom : L.events.length + 1 < 2 ^ 64 := by
    have hlt := hbounds.arrivals _ h.represents.readArrivalSequence
    rw [UInt64.toNat_ofNat_of_lt' h.represents.length_lt] at hlt
    omega
  have hput := (@Represents.putEvent_eq_ok_iff _ _ h.represents _ he clock _).mpr ⟨hroom, rfl⟩
  simp only [storeReplicated, hfind, hclock, hput]
  exact ⟨_, rfl⟩

/-- The comparison of the entry of an envelope, alone or in a page, says what the receipt of the
envelope does: store a new event, reject it for another envelope, or return the stored event. -/
structure Agrees (d : Daemon) (networkName : Text) (entry : InventoryEntry)
    (received : Result (ThalwegEvent × Bool)) : Prop where
  missing : (∃ lists, (d.compareInventory networkName [entry]).1 = .ok lists ∧ entry.id ∈ lists.1) ↔
    ∃ stored, received = .ok (stored, true)
  conflict : (∃ lists, (d.compareInventory networkName [entry]).1 = .ok lists ∧
      entry.id ∈ lists.2) ↔ received = .error (originConflict networkName entry.id)
  neither : (∃ lists, (d.compareInventory networkName [entry]).1 = .ok lists ∧
      entry.id ∉ lists.1 ∧ entry.id ∉ lists.2) ↔ ∃ stored, received = .ok (stored, false)
  page : ∀ entries lists, entry ∈ entries → (d.compareInventory networkName entries).1 = .ok lists →
    (entry.id ∈ lists.1 ↔ ∃ stored, received = .ok (stored, true)) ∧
    (entry.id ∈ lists.2 ↔ received = .error (originConflict networkName entry.id)) ∧
    (entry.id ∉ lists.1 ∧ entry.id ∉ lists.2 ↔ ∃ stored, received = .ok (stored, false))

/-- The receipt of the event is as its standing. -/
structure Decides (d : Daemon) (networkName : Text) (entry : InventoryEntry)
    (received : Result (ThalwegEvent × Bool)) : Prop where
  /-- The receipt ends in one of the three ways only if the ID is comparable. -/
  comparable : (∃ stored created, received = .ok (stored, created)) ∨
    received = .error (originConflict networkName entry.id) →
    Comparable d.store networkName entry.id
  missing_iff : findEventByID d.store networkName entry.id = .ok none ↔
    ∃ stored, received = .ok (stored, true)
  conflict_iff : (∃ event digest, findEventByID d.store networkName entry.id = .ok (some event) ∧
    eventDigest event = .ok digest ∧ digest ≠ entry.digest) ↔
    received = .error (originConflict networkName entry.id)
  neither_iff : Comparable d.store networkName entry.id →
    (¬ (∃ stored, received = .ok (stored, true)) ∧
      received ≠ .error (originConflict networkName entry.id) ↔
      ∃ stored, received = .ok (stored, false))

theorem Decides.agrees {networkName : Text} {entry : InventoryEntry}
    {received : Result (ThalwegEvent × Bool)} (h : d.Decides networkName entry received)
    (hwell : entry.WellFormed) : d.Agrees networkName entry received := by
  have hpage : ∀ entries lists, entry ∈ entries →
      (d.compareInventory networkName entries).1 = .ok lists →
      (entry.id ∈ lists.1 ↔ ∃ stored, received = .ok (stored, true)) ∧
      (entry.id ∈ lists.2 ↔ received = .error (originConflict networkName entry.id)) ∧
      (entry.id ∉ lists.1 ∧ entry.id ∉ lists.2 ↔ ∃ stored, received = .ok (stored, false)) := by
    intro entries lists hentry hlists
    obtain ⟨hcomparable, hmissing, hconflict⟩ := mem_compareInventory_iff hentry hlists
    rw [hmissing, hconflict, h.missing_iff, h.conflict_iff]
    exact ⟨Iff.rfl, Iff.rfl, h.neither_iff hcomparable⟩
  have hanswered : Comparable d.store networkName entry.id →
      ∃ lists, (d.compareInventory networkName [entry]).1 = .ok lists := fun hcomparable =>
    exists_compareInventory (validateInventoryEntries_eq_ok_iff.mpr
      ⟨⟨by simp, by simp [syncMaxPageSize]⟩, by simpa using hwell, List.pairwise_singleton _ _⟩)
      (by simpa using hcomparable)
  refine ⟨⟨?_, fun hin => ?_⟩, ⟨?_, fun hin => ?_⟩, ⟨?_, fun hin => ?_⟩, hpage⟩
  · rintro ⟨lists, hlists, hin⟩
    exact (hpage _ lists List.mem_cons_self hlists).1.mp hin
  · obtain ⟨lists, hlists⟩ := hanswered (h.comparable (Or.inl ⟨hin.choose, true, hin.choose_spec⟩))
    exact ⟨lists, hlists, (hpage _ lists List.mem_cons_self hlists).1.mpr hin⟩
  · rintro ⟨lists, hlists, hin⟩
    exact (hpage _ lists List.mem_cons_self hlists).2.1.mp hin
  · obtain ⟨lists, hlists⟩ := hanswered (h.comparable (Or.inr hin))
    exact ⟨lists, hlists, (hpage _ lists List.mem_cons_self hlists).2.1.mpr hin⟩
  · rintro ⟨lists, hlists, hin⟩
    exact (hpage _ lists List.mem_cons_self hlists).2.2.mp hin
  · obtain ⟨lists, hlists⟩ := hanswered (h.comparable (Or.inl ⟨hin.choose, false, hin.choose_spec⟩))
    exact ⟨lists, hlists, (hpage _ lists List.mem_cons_self hlists).2.2.mpr hin⟩

/-- An envelope whose ID is not comparable is rejected, and not for another envelope. -/
theorem Decides.of_not_comparable {networkName : Text} {entry : InventoryEntry} {err : Failure}
    (hnot : ¬ Comparable d.store networkName entry.id)
    (herr : err ≠ originConflict networkName entry.id) :
    d.Decides networkName entry (.error err) where
  comparable hreceived := by
    rcases hreceived with ⟨stored, created, hok⟩ | herror
    · cases hok
    · exact absurd (Except.error.inj herror) herr
  missing_iff := iff_of_false (fun hnone => hnot (Or.inl hnone)) nofun
  conflict_iff := by
    refine iff_of_false ?_ fun herror => herr (Except.error.inj herror)
    rintro ⟨event, digest, hsome, hdigest, -⟩
    exact hnot (Or.inr ⟨event, digest, hsome, hdigest⟩)
  neither_iff hcomparable := absurd hcomparable hnot

theorem validateReplicatedRetry_of_ne {f : ThalwegEvent} (hf : Storable f)
    (htimes : HasReadableTimes f) (hne : f ≠ e) :
    validateReplicatedRetry f e = .error (originConflict e.network e.id) := by
  have hnormal := hf.normalizeReplicatedEvent_eq_ok_iff.mpr ⟨htimes, rfl⟩
  simp only [validateReplicatedRetry, hnormal, wrapf, bind, Except.bind, hne, ne_eq,
    not_false_eq_true, if_true, errorf, originConflict]

/-- A stored event without readable times rejects every envelope under its ID, but not for being
another one. -/
theorem validateReplicatedRetry_of_undated {f : ThalwegEvent} (hf : Storable f)
    (htimes : ¬ HasReadableTimes f) : ∃ err, validateReplicatedRetry f e = .error err ∧
      err ≠ originConflict e.network e.id := by
  cases hnormal : normalizeReplicatedEvent f with
  | ok n => exact absurd (hf.normalizeReplicatedEvent_eq_ok_iff.mp hnormal).1 htimes
  | error err =>
    refine ⟨.wrap "normalize stored event %s: %w" [f.id] err, ?_, by simp [originConflict]⟩
    simp only [validateReplicatedRetry, hnormal, wrapf, bind, Except.bind]

/-- The receipt of an envelope in normal form is decided by its standing. -/
theorem Holds.decides (h : d.Holds L) (he : Storable e)
    (hinserted : IsReadableTimestamp e.insertedAt) (hcounter : e.counter.toNat < 2 ^ 63)
    (hbounds : d.InBounds) (hapart : HashesApart (storedEvents d.store) e) :
    d.Decides e.network (entryOf e) (d.storeReplicated e).1 := by
  have hid : (entryOf e).id = e.id := rfl
  rcases h.represents.standing e with hfind | ⟨hfind, htimes⟩ | ⟨hfind, hf, htimes, hne⟩ |
    ⟨hfind, hf, htimes⟩ | hfind
  · -- nothing is stored under the ID
    obtain ⟨d', hstore⟩ := h.storeReplicated_of_absent he hinserted hcounter hbounds hfind
    rw [hstore]
    refine ⟨fun _ => Or.inl hfind, iff_of_true hfind ⟨e, rfl⟩, iff_of_false ?_ nofun, fun _ =>
      iff_of_false (fun hnot => hnot.1 ⟨e, rfl⟩) nofun⟩
    rintro ⟨event, digest, hevent, -⟩
    rw [hid, hfind] at hevent
    cases hevent
  · -- the envelope is stored
    have hdigest := he.eventDigest_eq_ok_iff.mpr ⟨htimes, rfl⟩
    have hstore : (d.storeReplicated e).1 = .ok (e, false) := by
      simp only [storeReplicated, hfind,
        (Holds.validateReplicatedRetry_eq_ok_iff he).mpr ⟨htimes, rfl⟩]
    rw [hstore]
    refine ⟨fun _ => Or.inr ⟨e, _, hfind, hdigest⟩, iff_of_false ?_ nofun, iff_of_false ?_ nofun,
      fun _ => iff_of_true ⟨nofun, nofun⟩ ⟨e, rfl⟩⟩
    · rw [hid, hfind]
      nofun
    · rintro ⟨event, digest, hevent, hdigest', hne⟩
      rw [hid, hfind] at hevent
      cases hevent
      exact hne (he.eventDigest_eq_ok_iff.mp hdigest').2
  · -- another envelope is stored, and its digest is another one
    next f =>
    have hdigest := hf.1.eventDigest_eq_ok_iff.mpr ⟨htimes, rfl⟩
    have hdigests : digestOf f ≠ digestOf e := fun heq =>
      hne (eventText_injOn hf.1.payload he.payload (hapart f hf (Base64Url.encode_injective heq)))
    have hstore : (d.storeReplicated e).1 = .error (originConflict e.network e.id) := by
      simp only [storeReplicated, hfind, validateReplicatedRetry_of_ne hf.1 htimes hne]
    rw [hstore]
    refine ⟨fun _ => Or.inr ⟨f, _, hfind, hdigest⟩, iff_of_false ?_ nofun,
      iff_of_true ⟨f, _, hfind, hdigest, hdigests⟩ rfl, fun _ => iff_of_false (fun hnot =>
        hnot.2 rfl) nofun⟩
    rw [hid, hfind]
    nofun
  · next f =>
    obtain ⟨err, hretry, herr⟩ := validateReplicatedRetry_of_undated (e := e) hf.1 htimes
    have hstore : (d.storeReplicated e).1 = .error err := by
      simp only [storeReplicated, hfind, hretry]
    rw [hstore]
    refine .of_not_comparable ?_ herr
    rintro (hnone | ⟨event, digest, hevent, hdigest⟩)
    · rw [hid, hfind] at hnone
      cases hnone
    · rw [hid, hfind] at hevent
      cases hevent
      exact htimes (hf.1.eventDigest_eq_ok_iff.mp hdigest).1
  · next err =>
    have hstore : (d.storeReplicated e).1 = .error err := by
      simp only [storeReplicated, hfind]
    rw [hstore]
    refine .of_not_comparable ?_ fun heq => findEventByID_ne_originConflict (heq ▸ hfind)
    rintro (hnone | ⟨event, digest, hevent, -⟩)
    · rw [hid, hfind] at hnone
      cases hnone
    · rw [hid, hfind] at hevent
      cases hevent

/-- The digest of an envelope is that of its normal form. -/
theorem eventDigest_of_normalize {n : ThalwegEvent} (h : normalizeReplicatedEvent e = .ok n) :
    eventDigest e = .ok (digestOf n) := by
  have hn := storable_of_normalizeReplicatedEvent h
  simp only [eventDigest, h, marshalEvent_of_storable hn, bind, Except.bind, digestOf]

/-- **Comparison agrees with receipt.** In every reachable state within bounds, the comparison of an
envelope of an ordinary stream by its digest says what its receipt does. -/
theorem Reachable.comparison_agrees (h : d.Reachable) {n : ThalwegEvent}
    (hnormal : normalizeReplicatedEvent e = .ok n) (hordinary : e.stream ≠ conflictResolutionStream)
    (hbounds : d.InBounds) (he : e.InBounds) (hapart : HashesApart (storedEvents d.store) n) :
    ∃ digest received d', eventDigest e = .ok digest ∧
      (∀ fuel, ingestReplicated (fuel + 1) d e = some (received, d')) ∧
      d.Agrees e.network ⟨e.id, digest⟩ received := by
  obtain ⟨⟨L, hL⟩, -⟩ := h.exists_holds
  have hn := storable_of_normalizeReplicatedEvent hnormal
  obtain ⟨-, occurredAt, insertedAt, propagatedAt, payload, -, hinserted, -, -, heq⟩ :=
    normalizeReplicatedEvent_eq_ok_iff.mp hnormal
  have hinserted' : IsReadableTimestamp n.insertedAt := by
    rw [heq]
    exact he.insertedAt.isReadableTimestamp hinserted
  have hcounter : n.counter.toNat < 2 ^ 63 := by
    rw [heq]
    exact he.counter
  have hparse : parseConflictResolution n = .ok none := by
    refine parseConflictResolution_of_stream_ne ?_
    rw [heq]
    exact hordinary
  have hentry : (⟨e.id, digestOf n⟩ : InventoryEntry) = entryOf n := by
    rw [entryOf, heq]
  have hnetwork : e.network = n.network := by rw [heq]
  refine ⟨_, _, _, eventDigest_of_normalize hnormal, fun fuel =>
    Holds.ingestReplicated_of_parse_none hnormal hparse, ?_⟩
  rw [hentry, hnetwork]
  exact (hL.decides hn hinserted' hcounter hbounds hapart).agrees (wellFormed_entryOf hn)

/-! ### A run -/

/-- An event of another device, with spaces in its payload. -/
def spacedEvent : ThalwegEvent :=
  ⟨['e'], ['h'], ['s'], noon.format, noon.format, noon.format, 7, ['o'], ['[', ' ', '1', ']']⟩

theorem comparison_agrees_spacedEvent :
    ∃ digest received d', eventDigest spacedEvent = .ok digest ∧
      (∀ fuel, ingestReplicated (fuel + 1) atNoon spacedEvent = some (received, d')) ∧
      atNoon.Agrees ['h'] ⟨['e'], digest⟩ received := by
  have hnormal : normalizeReplicatedEvent spacedEvent =
      .ok { spacedEvent with payload := ['[', '1', ']'] } :=
    eq_ok_of_toOption (by decide +kernel)
  have hnone : ∀ f, f ∉ storedEvents atNoon.store := fun f hf =>
    List.not_mem_nil (represents_initialStore.mem_storedEvents_iff.mp hf)
  have hsequence : readArrivalSequence atNoon.store = .ok 0 :=
    represents_initialStore.readArrivalSequence
  refine Reachable.comparison_agrees ⟨_, _, _, .refl⟩ hnormal (by decide +kernel) ?_ ?_
    fun f hf => absurd hf (hnone f)
  · refine ⟨Or.inl rfl, by decide, fun sequence hread => ?_⟩
    rw [hsequence] at hread
    cases hread
    decide
  · refine ⟨fun t ht => ?_, by decide⟩
    have hnoon : noon.InRange := by decide
    have hparse : Instant.parse noon.format = some t := ht
    rw [Instant.parse_format hnoon] at hparse
    exact Option.some.inj hparse ▸ hnoon

end Daemon

end Thalweg
