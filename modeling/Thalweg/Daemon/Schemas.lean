import Mathlib.Data.List.Sort
import Mathlib.Data.Prod.Lex
import Thalweg.Data.Resumable
import Thalweg.Daemon.Clock
import Thalweg.Daemon.Migration

/-!
# The schemas of the store

`ensureStorageSchema` goes through the migrations one by one, each in a transaction of its own. A
store at any older schema ends at the current one with the same events, also if the run was cut off
before and is taken up again.

## Main definitions

* `AtSchema`: a store at an older schema, with its events.
* `HoldsIndexed`: a store at the current schema, with its events in the order of their arrival.
* `schemaStep`: the next step of `ensureStorageSchema`.

## Main results

* `ensureStorageSchema_eq`: `ensureStorageSchema` is the run of the steps.
* `AtSchema.migration_preserves_history`: the events after `ensureStorageSchema`, however often it
  was cut off before.
-/

namespace Thalweg

/-! ### The clock state of schema 2 -/

/-- The stamp of an event with its insertion time in canonical form. -/
def canonicalStamp (e : ThalwegEvent) : HlcTimestamp := ⟨canonicalTime e.insertedAt, e.counter⟩

/-- The greatest stamp of a scan is at least the stamp of each of its events. -/
theorem greatestStamp_spec {entries : List (Text × Text)} {reads : List (Text × ThalwegEvent)}
    (hreads : List.Forall₂ EntryReads entries reads) (htimes : ∀ r ∈ reads, HasTimes r.2)
    (state : HlcTimestamp) :
    ∃ last, greatestStamp state entries = .ok last ∧ state.AtMost last ∧
      (∀ r ∈ reads, (canonicalStamp r.2).AtMost last) ∧
      (last = state ∨ ∃ r ∈ reads, last = canonicalStamp r.2) := by
  induction hreads generalizing state with
  | nil => exact ⟨state, rfl, .refl state, List.forall_mem_nil _, Or.inl rfl⟩
  | @cons entry r entries reads hread _ ih =>
    obtain ⟨htime, htimes⟩ := List.forall_mem_cons.mp htimes
    obtain ⟨-, hdecode⟩ := hread
    have hphysical : normalizeTimestamp "stored insertedAt" r.2.insertedAt = .ok _ :=
      normalizeTimestamp_eq_ok_iff_canonicalTime.mpr ⟨htime.insertedAt, rfl⟩
    simp only [greatestStamp, hdecode, wrapf, hphysical, bind, Except.bind]
    split_ifs with hlater
    · obtain ⟨last, hlast, hle, hstamps, hof⟩ := ih htimes (canonicalStamp r.2)
      have hbefore : state.Before (canonicalStamp r.2) :=
        hlater.imp_right fun h => ⟨h.1.symm, h.2⟩
      refine ⟨last, hlast, hbefore.atMost.trans hle, List.forall_mem_cons.mpr ⟨hle, hstamps⟩, ?_⟩
      rcases hof with rfl | ⟨s, hs, rfl⟩
      · exact Or.inr ⟨r, List.mem_cons_self, rfl⟩
      · exact Or.inr ⟨s, List.mem_cons_of_mem _ hs, rfl⟩
    · obtain ⟨last, hlast, hle, hstamps, hof⟩ := ih htimes state
      have hatMost : (canonicalStamp r.2).AtMost state := by
        push Not at hlater
        obtain ⟨hphys, hlogical⟩ := hlater
        rcases hphys.lt_or_eq with hlt | heq
        · exact Or.inl hlt
        · exact Or.inr ⟨heq, UInt64.not_lt.mp (hlogical heq)⟩
      refine ⟨last, hlast, hle, List.forall_mem_cons.mpr ⟨hatMost.trans hle, hstamps⟩, ?_⟩
      rcases hof with rfl | ⟨s, hs, rfl⟩
      · exact Or.inl rfl
      · exact Or.inr ⟨s, List.mem_cons_of_mem _ hs, rfl⟩

/-! ### The arrival index of schema 4 -/

/-- The event is one of the store, and the entry is its record. -/
def IsRecordOf (events : List ThalwegEvent) (entry : Text × Text) (e : ThalwegEvent) : Prop :=
  e ∈ events ∧ entry.1 = eventKey e ∧ decodeEvent entry.2 = .ok e

theorem keys_eq_of_records {events es : List ThalwegEvent} {entries : List (Text × Text)}
    (h : List.Forall₂ (IsRecordOf events) entries es) :
    entries.map Prod.fst = es.map eventKey := by
  induction h with
  | nil => rfl
  | cons hR _ ih => rw [List.map_cons, List.map_cons, hR.2.1, ih]

/-- A scan of primary keys reads the events whose keys have the prefix. -/
theorem HoldsKeyed.scan_events {store : Store} {events : List ThalwegEvent}
    (h : HoldsKeyed store events) {pre : Text} (hfamily : keyFamily pre = .event)
    (hcolon : ':' ∈ pre) : ∃ es : List ThalwegEvent,
      List.Forall₂ (IsRecordOf events) (store.scan pre pre) es ∧
      (∀ e, e ∈ es ↔ e ∈ events ∧ pre <+: eventKey e) ∧
      es.Pairwise fun e f => eventKey e < eventKey f := by
  have hread : ∀ entry ∈ store.scan pre pre, ∃ e, IsRecordOf events entry e := by
    rintro ⟨key, value⟩ hentry
    obtain ⟨hget, -, hpre⟩ := (store.mem_scan_iff (List.prefix_refl _)).mp hentry
    obtain ⟨e, he, hkey, hdecode⟩ := h.record_spec key value
      ((keyFamily_of_isPrefix hcolon hpre).trans hfamily) hget
    exact ⟨e, he, hkey, hdecode⟩
  obtain ⟨es, hes⟩ := exists_forall₂_of_forall hread
  refine ⟨es, hes, fun e => ⟨fun he => ?_, ?_⟩, ?_⟩
  · obtain ⟨entry, hentry, hin, hkey, -⟩ := exists_mem_left_of_forall₂ hes he
    obtain ⟨-, -, hpre⟩ :=
      (store.mem_scan_iff (k := entry.1) (v := entry.2) (List.prefix_refl _)).mp hentry
    exact ⟨hin, hkey ▸ hpre⟩
  · rintro ⟨hin, hpre⟩
    obtain ⟨value, hget⟩ := h.record e hin
    have hscan : (eventKey e, value) ∈ store.scan pre pre :=
      (store.mem_scan_iff (List.prefix_refl _)).mpr ⟨hget, OrderedStore.le_of_isPrefix hpre, hpre⟩
    obtain ⟨f, hf, hfin, hkey, -⟩ := exists_mem_right_of_forall₂ hes hscan
    obtain ⟨hnetwork, -, -, -, -, hid⟩ := eventKey_inj.mp hkey
    rwa [h.distinct.eq_of_id hin hfin hnetwork hid]
  · have hsorted := store.sorted_scan pre pre
    rwa [← List.pairwise_map, keys_eq_of_records hes, List.pairwise_map] at hsorted

/-- The entry of an event in the arrival index before it has a number. -/
def arrivalEntry (e : ThalwegEvent) : Text × Text × Text :=
  (chronologicalKey e, eventKey e, e.network)

theorem arrivalEntries_eq_ok {events es : List ThalwegEvent} {entries : List (Text × Text)}
    (h : List.Forall₂ (IsRecordOf events) entries es) :
    arrivalEntries entries = .ok (es.map arrivalEntry) := by
  induction h with
  | nil => rfl
  | @cons entry e entries es hR _ ih =>
    obtain ⟨-, hkey, hdecode⟩ := hR
    simp only [arrivalEntries, hdecode, wrapf, ih, bind, Except.bind, List.map_cons, arrivalEntry,
      hkey]

/-- The event arrived before another one by the migration: the order is by time, and by primary key
among events of the same time. -/
def ArrivesBefore (e f : ThalwegEvent) : Prop :=
  chronologicalKey e < chronologicalKey f ∨
    chronologicalKey e = chronologicalKey f ∧ eventKey e ≤ eventKey f

namespace ArrivesBefore

instance : DecidableRel ArrivesBefore := fun _ _ => inferInstanceAs (Decidable (_ ∨ _ ∧ _))

theorem iff_toLex {e f : ThalwegEvent} : ArrivesBefore e f ↔
    toLex (chronologicalKey e, eventKey e) ≤ toLex (chronologicalKey f, eventKey f) := by
  rw [ArrivesBefore, Prod.Lex.toLex_le_toLex]

instance : Std.Total ArrivesBefore :=
  ⟨fun e f => by simpa only [iff_toLex] using le_total _ _⟩

instance : IsTrans ThalwegEvent ArrivesBefore :=
  ⟨fun e f g hef hfg => by
    rw [iff_toLex] at *
    exact hef.trans hfg⟩

end ArrivesBefore

/-- The numbering of events leaves the keys that it does not write. -/
theorem get_writeArrivals_of_ne {events : List ThalwegEvent} {key : Text} (store : Store)
    {start : Nat} (h : ∀ i e, events[i]? = some e →
      key ≠ arrivalIndexKey e.network (UInt64.ofNat (start + i))) :
    (writeArrivals store start (events.map arrivalEntry)).get key = store.get key := by
  induction events generalizing store start with
  | nil => rfl
  | cons e events ih =>
    have hne : key ≠ arrivalIndexKey e.network (UInt64.ofNat start) := h 0 e rfl
    rw [List.map_cons, arrivalEntry, writeArrivals, ih, OrderedStore.get_set_of_ne store hne]
    intro i f hf
    rw [show start + 1 + i = start + (i + 1) by omega]
    exact h (i + 1) f hf

/-- The entry of an event in the arrival index. -/
theorem get_writeArrivals {events : List ThalwegEvent} (store : Store) {start : Nat}
    (hlength : start + events.length ≤ 2 ^ 64) {i : Nat} {e : ThalwegEvent}
    (hi : events[i]? = some e) :
    (writeArrivals store start (events.map arrivalEntry)).get
      (arrivalIndexKey e.network (UInt64.ofNat (start + i))) = some (eventKey e) := by
  induction events generalizing store start i with
  | nil => simp at hi
  | cons f events ih =>
    rw [List.length_cons] at hlength
    rw [List.map_cons, arrivalEntry, writeArrivals]
    cases i with
    | succ i =>
      rw [show start + (i + 1) = start + 1 + i by omega]
      exact ih _ (by omega) hi
    | zero =>
      obtain rfl : f = e := Option.some.inj hi
      rw [get_writeArrivals_of_ne, OrderedStore.get_set, Nat.add_zero, if_pos rfl]
      intro j e' hj heq
      have hjlt : j < events.length := (List.getElem?_eq_some_iff.mp hj).1
      have hnumber := congrArg UInt64.toNat (arrivalIndexKey_inj.mp heq).2
      have hjroom : start + 1 + j < 2 ^ 64 := by omega
      simp only [UInt64.toNat_ofNat', Nat.mod_eq_of_lt hjroom] at hnumber
      omega

/-- A store of the current schema with its events in the order of their arrival. -/
structure HoldsIndexed (store : Store) (events : List ThalwegEvent) : Prop extends
    HoldsKeyed store events where
  arrival_iff : ∀ key value, keyFamily key = .arrival →
    (store.get key = some value ↔ ∃ i e, events[i]? = some e ∧
      key = arrivalIndexKey e.network (UInt64.ofNat (i + 1)) ∧ value = eventKey e)
  sequence : store.get arrivalSequenceKey = some (Text.decimal events.length)

theorem eventKeyFamily_isPrefix (e : ThalwegEvent) : eventKeyFamily <+: eventKey e := by
  simp only [eventKey, eventStreamPrefix, List.append_assoc]
  exact List.prefix_append _ _

/-- The migration to schema 4 numbers the events in the order of their time. -/
theorem HoldsKeyed.migrateStorageV3ToV4 {store : Store} {events : List ThalwegEvent}
    (h : HoldsKeyed store events) :
    ∃ arrived : List ThalwegEvent, arrived.Perm events ∧ arrived.Pairwise ArrivesBefore ∧
      Thalweg.migrateStorageV3ToV4 store = .ok (writeStorageSchemaVersion
        ((writeArrivals store 1 (arrived.map arrivalEntry)).set arrivalSequenceKey
          (Text.decimal arrived.length)) 4) := by
  obtain ⟨es, hread, hmem, hsorted⟩ := h.scan_events keyFamily_families.1 colon_mem_families.1
  have hperm : es.Perm events := by
    refine (List.perm_ext_iff_of_nodup (hsorted.imp ?_) (h.distinct.imp ?_)).mpr fun e => ?_
    · rintro e f hlt rfl
      exact lt_irrefl _ hlt
    · rintro e f hne rfl
      exact hne rfl rfl
    · rw [hmem, and_iff_left (eventKeyFamily_isPrefix e)]
  refine ⟨es.insertionSort ArrivesBefore, (List.perm_insertionSort _ _).trans hperm,
    List.pairwise_insertionSort _ _, ?_⟩
  have hentries := arrivalEntries_eq_ok hread
  have hmap := List.map_insertionSort ArrivesBefore
    (fun a b : Text × Text × Text => a.1 < b.1 ∨ a.1 = b.1 ∧ a.2.1 ≤ b.2.1) arrivalEntry es
    fun _ _ _ _ => Iff.rfl
  simp only [Thalweg.migrateStorageV3ToV4, hentries, bind, Except.bind, List.length_insertionSort,
    List.length_map, hmap]

/-- A write to a key of the daemon's state leaves the events. -/
theorem HoldsKeyed.set_other {store : Store} {events : List ThalwegEvent}
    (h : HoldsKeyed store events) {key : Text} (hkey : keyFamily key ≠ .event)
    (hid : keyFamily key ≠ .eventID)
    (hlegacy : ¬ legacyEventKeyFamily <+: key) (value : Text) :
    HoldsKeyed (store.set key value) events := by
  refine h.agree (fun k hk => ?_) fun k hk => ?_
  · refine (OrderedStore.get_set_of_ne store ?_ value).symm
    rintro rfl
    exact hlegacy hk
  · refine (OrderedStore.get_set_of_ne store ?_ value).symm
    rintro rfl
    exact hk.elim hkey hid

theorem HoldsKeyed.writeArrivals {events : List ThalwegEvent} : ∀ {store : Store},
    HoldsKeyed store events → ∀ (start : Nat) (arrived : List ThalwegEvent),
      HoldsKeyed (writeArrivals store start (arrived.map arrivalEntry)) events
  | _, h, _, [] => h
  | _, h, start, e :: arrived =>
    (h.set_other (by simp) (by simp) (not_isPrefix_of_keyFamily (by simp)) _).writeArrivals
      (start + 1) arrived

/-- The migration to schema 4 leaves the events. -/
theorem HoldsKeyed.writeIndex {store : Store} {events : List ThalwegEvent}
    (h : HoldsKeyed store events) (arrived : List ThalwegEvent) :
    HoldsKeyed (writeStorageSchemaVersion
      ((Thalweg.writeArrivals store 1 (arrived.map arrivalEntry)).set arrivalSequenceKey
        (Text.decimal arrived.length)) 4) events := by
  obtain ⟨-, hsequence, hversion⟩ := metaKeys_not_legacy
  exact ((h.writeArrivals 1 arrived).set_other (by simp) (by simp) hsequence _).set_other
    (by simp) (by simp) hversion _

/-- A store of schema 4 holds the events in the order in which they were numbered. -/
theorem HoldsKeyed.holdsIndexed {store : Store} {events arrived : List ThalwegEvent}
    (h : HoldsKeyed store events) (hnone : ∀ key, keyFamily key = .arrival → store.get key = none)
    (hperm : arrived.Perm events) (hlength : events.length < 2 ^ 64) :
    HoldsIndexed (writeStorageSchemaVersion
      ((Thalweg.writeArrivals store 1 (arrived.map arrivalEntry)).set arrivalSequenceKey
        (Text.decimal arrived.length)) 4) arrived where
  toHoldsKeyed := (h.writeIndex arrived).perm hperm.symm
  arrival_iff key value hkey := by
    have hnumber : ∀ i, i + 1 = 1 + i := fun i => Nat.add_comm i 1
    rw [writeStorageSchemaVersion,
      OrderedStore.get_set_of_ne _ (ne_of_keyFamily_ne (by simp [hkey])),
      OrderedStore.get_set_of_ne _ (ne_of_keyFamily_ne (by simp [hkey]))]
    simp only [hnumber]
    constructor
    · intro hget
      by_contra hnot
      push Not at hnot
      rw [get_writeArrivals_of_ne store, hnone key hkey] at hget
      · cases hget
      · rintro i e hi rfl
        refine hnot i e hi rfl ?_
        rw [get_writeArrivals store (by rw [hperm.length_eq]; omega) hi] at hget
        exact (Option.some.inj hget).symm
    · rintro ⟨i, e, hi, rfl, rfl⟩
      exact get_writeArrivals store (by rw [hperm.length_eq]; omega) hi
  sequence := by
    have hne : arrivalSequenceKey ≠ storageSchemaVersionKey := by decide
    rw [writeStorageSchemaVersion, OrderedStore.get_set_of_ne _ hne, OrderedStore.get_set,
      if_pos rfl]

/-! ### The steps of `ensureStorageSchema` -/

/-- The migration from a schema that is not newer than the current one; the current one has none. -/
def migrationFrom (version : Int) (store : Store) : Option (Result Store) :=
  if version = currentStorageSchemaVersion then none
  else if version = 1 then
    some (wrapf "migrate storage schema 1 to 2: %w" [] (migrateStorageV1ToV2 store))
  else if version = 2 then
    some (wrapf "migrate storage schema 2 to 3: %w" [] (migrateStorageV2ToV3 store))
  else if version = 3 then
    some (wrapf "migrate storage schema 3 to 4: %w" [] (migrateStorageV3ToV4 store))
  else some (errorf "no migration from storage schema version %d" [Text.decimalInt version])

/-- The next step of `ensureStorageSchema`, if there is one. -/
def schemaStep (store : Store) : Option (Result Store) :=
  match readStorageSchemaVersion store with
  | .error e => some (.error e)
  | .ok none => some (.ok (writeStorageSchemaVersion store 1))
  | .ok (some version) =>
    if currentStorageSchemaVersion < version then
      some (errorf "unsupported storage schema version %d (daemon supports %d)"
        [Text.decimalInt version, Text.decimalInt currentStorageSchemaVersion])
    else migrationFrom version store

theorem schemaStep_of_version {store : Store} {version : Int}
    (h : readStorageSchemaVersion store = .ok (some version))
    (hle : version ≤ currentStorageSchemaVersion) :
    schemaStep store = migrationFrom version store := by
  rw [schemaStep, h]
  exact if_neg (not_lt.mpr hle)

/-- The number of the steps that are left. -/
def stepsLeft (store : Store) : Nat :=
  match readStorageSchemaVersion store with
  | .error _ => 0
  | .ok none => 4
  | .ok (some version) => if 1 ≤ version then (currentStorageSchemaVersion - version).toNat else 0

theorem parseInt64_decimal :
    ∀ version ≤ 4, parseInt64 (Text.decimal version) = some (version : Int) := by
  decide

theorem readStorageSchemaVersion_write (store : Store) {version : Nat} (h : version ≤ 4) :
    readStorageSchemaVersion (writeStorageSchemaVersion store version) =
      .ok (some (version : Int)) := by
  rw [readStorageSchemaVersion, writeStorageSchemaVersion, OrderedStore.get_set, if_pos rfl]
  simp only [parseInt64_decimal version h]

theorem stepsLeft_write (store : Store) {version : Nat} (hpos : 1 ≤ version) (h : version ≤ 4) :
    stepsLeft (writeStorageSchemaVersion store version) = 4 - version := by
  have hone : (1 : Int) ≤ version := by exact_mod_cast hpos
  rw [stepsLeft, readStorageSchemaVersion_write store h]
  simp only [if_pos hone, currentStorageSchemaVersion]
  omega

/-- Each migration ends with the write of its version. -/
theorem exists_of_migrateStorageV1ToV2 {store store' : Store}
    (h : migrateStorageV1ToV2 store = .ok store') :
    ∃ state, store' = writeStorageSchemaVersion (setHLCState store state) 2 := by
  obtain ⟨state, -, h⟩ := bind_eq_ok_iff.mp h
  exact ⟨state, (Except.ok.inj h).symm⟩

theorem exists_of_migrateStorageV2ToV3 {store store' : Store}
    (h : migrateStorageV2ToV3 store = .ok store') :
    ∃ s, store' = writeStorageSchemaVersion s 3 := by
  obtain ⟨events, -, h⟩ := bind_eq_ok_iff.mp h
  exact ⟨_, (Except.ok.inj h).symm⟩

theorem exists_of_migrateStorageV3ToV4 {store store' : Store}
    (h : migrateStorageV3ToV4 store = .ok store') :
    ∃ s, store' = writeStorageSchemaVersion s 4 := by
  obtain ⟨events, -, h⟩ := bind_eq_ok_iff.mp h
  exact ⟨_, (Except.ok.inj h).symm⟩

theorem bounded_stepsLeft : Resumable.Bounded schemaStep stepsLeft := by
  intro store store' hstep
  unfold schemaStep migrationFrom at hstep
  cases hversion : readStorageSchemaVersion store with
  | error e => simp [hversion] at hstep
  | ok version =>
    cases version with
    | none =>
      simp only [hversion, Option.some.injEq, Except.ok.injEq] at hstep
      rw [← hstep, stepsLeft_write store (by decide) (by decide), stepsLeft, hversion]
      decide
    | some version =>
      simp only [hversion] at hstep
      split_ifs at hstep with h1 h2 h3 h4 h5
      · simp [errorf] at hstep
      · rw [Option.some.injEq, wrapf_eq_ok_iff] at hstep
        obtain ⟨state, rfl⟩ := exists_of_migrateStorageV1ToV2 hstep
        rw [stepsLeft_write _ (by decide) (by decide), stepsLeft, hversion, h3]
        decide
      · rw [Option.some.injEq, wrapf_eq_ok_iff] at hstep
        obtain ⟨s, rfl⟩ := exists_of_migrateStorageV2ToV3 hstep
        rw [stepsLeft_write _ (by decide) (by decide), stepsLeft, hversion, h4]
        decide
      · rw [Option.some.injEq, wrapf_eq_ok_iff] at hstep
        obtain ⟨s, rfl⟩ := exists_of_migrateStorageV3ToV4 hstep
        rw [stepsLeft_write _ (by decide) (by decide), stepsLeft, hversion, h5]
        decide
      · simp [errorf] at hstep

theorem stepsLeft_lt (store : Store) : stepsLeft store < 5 := by
  unfold stepsLeft currentStorageSchemaVersion
  split
  · decide
  · decide
  · split_ifs
    · omega
    · decide

/-- The migrations from the stored version on are steps. -/
theorem migrateStorage_eq (n : Nat) {version : Int} {store : Store}
    (h : readStorageSchemaVersion store = .ok (some version))
    (hle : version ≤ currentStorageSchemaVersion) :
    migrateStorage n version store = Resumable.run schemaStep n store := by
  induction n generalizing version store with
  | zero => rfl
  | succ n ih =>
    unfold migrateStorage Resumable.run
    rw [schemaStep_of_version h hle, migrationFrom]
    by_cases h4 : version = currentStorageSchemaVersion
    · rw [if_pos h4.ge, if_pos h4]
    rw [if_neg (not_le.mpr (lt_of_le_of_ne hle h4)), if_neg h4]
    by_cases h1 : version = 1
    · rw [if_pos h1, if_pos h1]
      cases hrun : migrateStorageV1ToV2 store with
      | error e => rfl
      | ok store' =>
        obtain ⟨state, rfl⟩ := exists_of_migrateStorageV1ToV2 hrun
        exact ih (readStorageSchemaVersion_write _ (by decide)) (by decide)
    rw [if_neg h1, if_neg h1]
    by_cases h2 : version = 2
    · rw [if_pos h2, if_pos h2]
      cases hrun : migrateStorageV2ToV3 store with
      | error e => rfl
      | ok store' =>
        obtain ⟨s, rfl⟩ := exists_of_migrateStorageV2ToV3 hrun
        exact ih (readStorageSchemaVersion_write _ (by decide)) (by decide)
    rw [if_neg h2, if_neg h2]
    by_cases h3 : version = 3
    · rw [if_pos h3, if_pos h3]
      cases hrun : Thalweg.migrateStorageV3ToV4 store with
      | error e => rfl
      | ok store' =>
        obtain ⟨s, rfl⟩ := exists_of_migrateStorageV3ToV4 hrun
        exact ih (readStorageSchemaVersion_write _ (by decide)) (by decide)
    rw [if_neg h3, if_neg h3]
    rfl

/-- `ensureStorageSchema` takes the steps up to the current schema. -/
theorem ensureStorageSchema_eq (store : Store) :
    ensureStorageSchema store = Resumable.run schemaStep 5 store := by
  unfold ensureStorageSchema
  cases hversion : readStorageSchemaVersion store with
  | error e =>
    have hstep : schemaStep store = some (.error e) := by rw [schemaStep, hversion]
    rw [Resumable.run, hstep]
  | ok version =>
    cases version with
    | none =>
      have hstep : schemaStep store = some (.ok (writeStorageSchemaVersion store 1)) := by
        rw [schemaStep, hversion]
      rw [Resumable.run, hstep]
      exact migrateStorage_eq 4 (readStorageSchemaVersion_write store (by decide)) (by decide)
    | some version =>
      by_cases hlt : currentStorageSchemaVersion < version
      · simp only [if_pos hlt, Resumable.run, schemaStep, hversion]
        rfl
      · have hfour : stepsLeft store < 4 := by
          simp only [stepsLeft, hversion, currentStorageSchemaVersion]
          split_ifs <;> omega
        simp only [if_neg hlt]
        rw [migrateStorage_eq 4 hversion (not_lt.mp hlt)]
        exact Resumable.run_eq_run bounded_stepsLeft hfour (stepsLeft_lt store)

/-- A step can be taken first. -/
theorem ensureStorageSchema_of_step {store store' : Store}
    (h : schemaStep store = some (.ok store')) :
    ensureStorageSchema store = ensureStorageSchema store' := by
  rw [ensureStorageSchema_eq, ensureStorageSchema_eq]
  exact (Resumable.run_of_reaches bounded_stepsLeft (stepsLeft_lt store) (.single h)).2.symm

/-- A run that succeeds goes on after its first step. -/
theorem exists_of_ensureStorageSchema {store store' : Store} {result : Result Store}
    (hrun : ensureStorageSchema store = (.ok (), store')) (h : schemaStep store = some result) :
    ∃ s, result = .ok s ∧ ensureStorageSchema s = (.ok (), store') := by
  cases result with
  | error err =>
    rw [ensureStorageSchema_eq, Resumable.run, h] at hrun
    cases hrun
  | ok s => exact ⟨s, rfl, (ensureStorageSchema_of_step h).symm.trans hrun⟩

theorem ensureStorageSchema_of_done {store : Store} (h : schemaStep store = none) :
    ensureStorageSchema store = (.ok (), store) := by
  rw [ensureStorageSchema_eq, Resumable.run, h]

/-! ### Stores at the older schemas -/

/-- The timestamp parses to a year of four digits. -/
def HasYear (value : Text) : Prop := ∃ t, Instant.parse value = some t ∧ t.InRange

/-- The timestamps of the event have years of four digits; it may lack the time of its
propagation. -/
structure HasYears (e : ThalwegEvent) : Prop where
  occurredAt : HasYear e.occurredAt
  insertedAt : HasYear e.insertedAt
  propagatedAt : e.propagatedAt = [] ∨ HasYear e.propagatedAt

theorem HasYear.isSome {value : Text} (h : HasYear value) : (Instant.parse value).isSome :=
  let ⟨_, ht, _⟩ := h
  Option.isSome_of_eq_some ht

theorem HasYears.hasTimes {e : ThalwegEvent} (h : HasYears e) : HasTimes e :=
  ⟨h.occurredAt.isSome, h.insertedAt.isSome, h.propagatedAt.imp_right HasYear.isSome⟩

/-- The store is marked with a schema; one without a mark has the first one. -/
def IsMarked (store : Store) (version : Nat) : Prop :=
  readStorageSchemaVersion store = .ok (some (version : Int)) ∨
    version = 1 ∧ readStorageSchemaVersion store = .ok none

/-- A store at a schema before the current one, with its events. -/
inductive AtSchema (store : Store) : Nat → List ThalwegEvent → Prop
  | legacy {version : Nat} {reads : List (Text × ThalwegEvent)} : version = 1 ∨ version = 2 →
      IsMarked store version → HoldsLegacy store reads → (∀ r ∈ reads, HasYears r.2) →
      DistinctEntries reads → AtSchema store version (reads.map Prod.snd)
  | keyed {events : List ThalwegEvent} : IsMarked store 3 → HoldsKeyed store events →
      (∀ key, keyFamily key = .arrival → store.get key = none) → AtSchema store 3 events

/-- The events after the migrations: those of schema 3 stay as they are. -/
def migratedFrom (version : Nat) (events : List ThalwegEvent) : List ThalwegEvent :=
  if version = 3 then events else events.map ThalwegEvent.migrated

/-- What `ensureStorageSchema` makes of a store. -/
structure Migrates (store store' : Store) (events arrived : List ThalwegEvent) : Prop where
  run : ensureStorageSchema store = (.ok (), store')
  perm : arrived.Perm events
  order : arrived.Pairwise ArrivesBefore
  indexed : HoldsIndexed store' arrived
  version : store'.get storageSchemaVersionKey = some (Text.decimal 4)
  clock : store'.get hlcStateKey = store.get hlcStateKey

theorem stateKeys_ne :
    hlcStateKey ≠ storageSchemaVersionKey ∧ hlcStateKey ≠ arrivalSequenceKey := by
  decide

theorem get_hlcStateKey_writeArrivals {arrived : List ThalwegEvent} (store : Store) (start : Nat) :
    (writeArrivals store start (arrived.map arrivalEntry)).get hlcStateKey =
      store.get hlcStateKey :=
  get_writeArrivals_of_ne store fun _ _ _ => ne_of_keyFamily_ne (by simp)

/-- Schema 3 to 4. -/
theorem HoldsKeyed.migrates {store : Store} {events : List ThalwegEvent}
    (h : HoldsKeyed store events)
    (hversion : readStorageSchemaVersion store = .ok (some (3 : Nat)))
    (hnone : ∀ key, keyFamily key = .arrival → store.get key = none)
    (hlength : events.length < 2 ^ 64) :
    ∃ store' arrived, Migrates store store' events arrived := by
  obtain ⟨arrived, hperm, horder, hmigrate⟩ := h.migrateStorageV3ToV4
  refine ⟨_, arrived, ?_, hperm, horder, h.holdsIndexed hnone hperm hlength,
    OrderedStore.get_set_self _ _ _, ?_⟩
  · have hstep : schemaStep store = some (.ok (writeStorageSchemaVersion
        ((Thalweg.writeArrivals store 1 (arrived.map arrivalEntry)).set arrivalSequenceKey
          (Text.decimal arrived.length)) 4)) := by
      rw [schemaStep_of_version hversion (by decide), migrationFrom, hmigrate]
      rfl
    rw [ensureStorageSchema_of_step hstep]
    refine ensureStorageSchema_of_done ?_
    rw [schemaStep_of_version (readStorageSchemaVersion_write _ (by decide)) (by decide)]
    rfl
  · rw [writeStorageSchemaVersion, OrderedStore.get_set_of_ne _ stateKeys_ne.1,
      OrderedStore.get_set_of_ne _ stateKeys_ne.2, get_hlcStateKey_writeArrivals]

theorem HoldsLegacy.isRawPayload {store : Store} {reads : List (Text × ThalwegEvent)}
    (h : HoldsLegacy store reads) : ∀ r ∈ reads, IsRawPayload r.2.payload := by
  intro r hr
  obtain ⟨entry, -, -, hdecode⟩ := exists_mem_left_of_forall₂ h.reads hr
  exact isRawPayload_of_decodeEvent hdecode

/-- Schema 2 to 4. -/
theorem HoldsLegacy.migrates {store : Store} {reads : List (Text × ThalwegEvent)}
    (h : HoldsLegacy store reads)
    (hversion : readStorageSchemaVersion store = .ok (some (2 : Nat)))
    (htimes : ∀ r ∈ reads, HasTimes r.2) (hdistinct : DistinctEntries reads)
    (hlength : reads.length < 2 ^ 64) :
    ∃ store' arrived, Migrates store store' (reads.map fun r => r.2.migrated) arrived := by
  have hmigrate : migrateEvents [] (store.scan legacyEventKeyFamily legacyEventKeyFamily) =
      .ok (reads.map migratedEntry) :=
    (@migrateEvents_eq_ok_iff [] _ _).mpr ⟨reads, h.reads, htimes, List.forall_mem_nil _,
      hdistinct, rfl⟩
  obtain ⟨hkeyed, hothers⟩ := h.foldl_writeMigratedEvent h.isRawPayload hdistinct
  have hnone : ∀ key, keyFamily key = .arrival →
      (writeStorageSchemaVersion ((reads.map migratedEntry).foldl writeMigratedEvent store) 3).get
        key = none := by
    intro key hkey
    rw [writeStorageSchemaVersion, OrderedStore.get_set_of_ne _
      (ne_of_keyFamily_ne (by simp [hkey])), hothers key
      (not_isPrefix_of_keyFamily (by simp [hkey])) (by simp [hkey]) (by simp [hkey])]
    exact h.new key (Or.inr (Or.inr hkey))
  obtain ⟨store', arrived, hmigrates⟩ := (hkeyed.set_other (by simp) (by simp)
    metaKeys_not_legacy.2.2 (Text.decimal 3)).migrates
      (readStorageSchemaVersion_write _ (by decide)) hnone (by rwa [List.length_map])
  refine ⟨store', arrived, ?_, hmigrates.perm, hmigrates.order, hmigrates.indexed,
    hmigrates.version, hmigrates.clock.trans ?_⟩
  · have hstep : schemaStep store = some (.ok (writeStorageSchemaVersion
        ((reads.map migratedEntry).foldl writeMigratedEvent store) 3)) := by
      rw [schemaStep_of_version hversion (by decide), migrationFrom, migrateStorageV2ToV3, hmigrate]
      rfl
    rw [ensureStorageSchema_of_step hstep]
    exact hmigrates.run
  · rw [OrderedStore.get_set_of_ne _ stateKeys_ne.1]
    exact hothers _ metaKeys_not_legacy.1 (by simp) (by simp)

/-- A write to a key of the daemon's state leaves the events. -/
theorem HoldsLegacy.set_other {store : Store} {reads : List (Text × ThalwegEvent)}
    (h : HoldsLegacy store reads) {key : Text} (hkey : keyFamily key = .other)
    (hlegacy : ¬ legacyEventKeyFamily <+: key) (value : Text) :
    HoldsLegacy (store.set key value) reads := by
  refine h.agree (fun k hk => ?_) fun k hk => ?_
  · refine (OrderedStore.get_set_of_ne store ?_ value).symm
    rintro rfl
    exact hlegacy hk
  · refine (OrderedStore.get_set_of_ne store ?_ value).symm
    rintro rfl
    exact hk hkey

theorem HasYear.isReadableTimestamp {value : Text} (h : HasYear value) :
    IsReadableTimestamp (canonicalTime value) := by
  obtain ⟨t, ht, hrange⟩ := h
  exact ⟨t, hrange, by rw [canonicalTime, ht]⟩

theorem HasYears.canonicalStamp {e : ThalwegEvent} (h : HasYears e) :
    (canonicalStamp e).Readable ∧ (canonicalStamp e).Canonical := by
  obtain ⟨t, hrange, ht⟩ := h.insertedAt.isReadableTimestamp
  exact ⟨Or.inr ⟨t, hrange, ht⟩, Or.inr ⟨t, ht⟩⟩

/-- Schema 1 to 4: the clock state is at least the stamp of every event. -/
theorem HoldsLegacy.migrates_first {store : Store} {reads : List (Text × ThalwegEvent)}
    (h : HoldsLegacy store reads)
    (hversion : readStorageSchemaVersion store = .ok (some (1 : Nat)))
    (hyears : ∀ r ∈ reads, HasYears r.2) (hdistinct : DistinctEntries reads)
    (hlength : reads.length < 2 ^ 64) :
    ∃ store' arrived store₂, Migrates store₂ store' (reads.map fun r => r.2.migrated) arrived ∧
      ensureStorageSchema store = (.ok (), store') ∧ ∃ clock, loadHLC store' = .ok clock ∧
        ∀ e ∈ arrived, HlcTimestamp.AtMost ⟨e.insertedAt, e.counter⟩ clock := by
  have htimes : ∀ r ∈ reads, HasTimes r.2 := fun r hr => (hyears r hr).hasTimes
  obtain ⟨clock, hclock, -, hstamps, hof⟩ := greatestStamp_spec h.reads htimes HlcTimestamp.zero
  have hclean : clock.Readable ∧ clock.Canonical := by
    rcases hof with rfl | ⟨r, hr, rfl⟩
    · exact ⟨Or.inl rfl, Or.inl rfl⟩
    · exact (hyears r hr).canonicalStamp
  have hsecond : HoldsLegacy (writeStorageSchemaVersion (setHLCState store clock) 2) reads :=
    (h.set_other (by simp) metaKeys_not_legacy.1 _).set_other (by simp) metaKeys_not_legacy.2.2 _
  obtain ⟨store', arrived, hmigrates⟩ := hsecond.migrates
    (readStorageSchemaVersion_write _ (by decide)) htimes hdistinct hlength
  have hstep : schemaStep store = some (.ok (writeStorageSchemaVersion (setHLCState store clock)
      2)) := by
    rw [schemaStep_of_version hversion (by decide), migrationFrom, migrateStorageV1ToV2, hclock]
    rfl
  have hpersisted : store'.get hlcStateKey = some (marshalHLCState clock) := by
    rw [hmigrates.clock, writeStorageSchemaVersion, OrderedStore.get_set_of_ne _ stateKeys_ne.1]
    exact OrderedStore.get_set_self _ _ _
  refine ⟨store', arrived, _, hmigrates, by rw [ensureStorageSchema_of_step hstep, hmigrates.run],
    clock, (loadHLC_eq_ok_iff hpersisted hclean.2).mpr ⟨hclean.1, rfl⟩, fun e he => ?_⟩
  obtain ⟨r, hr, rfl⟩ := List.mem_map.mp (hmigrates.perm.mem_iff.mp he)
  exact hstamps r hr

/-- A store without a mark becomes one of schema 1. -/
theorem HoldsLegacy.mark {store : Store} {reads : List (Text × ThalwegEvent)}
    (h : HoldsLegacy store reads) (hmarked : IsMarked store 1) :
    ∃ store₁, HoldsLegacy store₁ reads ∧
      readStorageSchemaVersion store₁ = .ok (some (1 : Nat)) ∧
      ensureStorageSchema store = ensureStorageSchema store₁ := by
  rcases hmarked with hversion | ⟨-, hnone⟩
  · exact ⟨store, h, hversion, rfl⟩
  · have hstep : schemaStep store = some (.ok (writeStorageSchemaVersion store 1)) := by
      rw [schemaStep, hnone]
    exact ⟨_, h.set_other (by simp) metaKeys_not_legacy.2.2 _,
      readStorageSchemaVersion_write store (by decide), ensureStorageSchema_of_step hstep⟩

/-- The store after `ensureStorageSchema`, of a store at an older schema with its events. -/
structure PreservesHistory (store store' : Store) (version : Nat)
    (events arrived : List ThalwegEvent) : Prop where
  run : ensureStorageSchema store = (.ok (), store')
  perm : arrived.Perm (migratedFrom version events)
  order : arrived.Pairwise ArrivesBefore
  indexed : HoldsIndexed store' arrived
  current : store'.get storageSchemaVersionKey = some (Text.decimal 4)
  clock : version = 1 → ∃ clock, loadHLC store' = .ok clock ∧
    ∀ e ∈ arrived, HlcTimestamp.AtMost ⟨e.insertedAt, e.counter⟩ clock
  /-- A run whose steps may fail leaves the store after a number of completed steps, and running
  again from there ends alike. -/
  resumes : ∀ (fault : Failure) (fails : Nat → Bool) (n i : Nat),
    Relation.ReflTransGen (Resumable.Completes schemaStep) store
        (Resumable.interrupted schemaStep fault fails n i store).2 ∧
      ensureStorageSchema (Resumable.interrupted schemaStep fault fails n i store).2 =
        (.ok (), store')

theorem PreservesHistory.of_migrates {store store₁ store' : Store} {version : Nat}
    {events arrived : List ThalwegEvent} (hrun : ensureStorageSchema store = (.ok (), store'))
    (h : Migrates store₁ store' (migratedFrom version events) arrived)
    (hclock : version = 1 → ∃ clock, loadHLC store' = .ok clock ∧
      ∀ e ∈ arrived, HlcTimestamp.AtMost ⟨e.insertedAt, e.counter⟩ clock) :
    PreservesHistory store store' version events arrived where
  run := hrun
  perm := h.perm
  order := h.order
  indexed := h.indexed
  current := h.version
  clock := hclock
  resumes fault fails n i := by
    refine ⟨Resumable.reaches_interrupted fault fails n i store, ?_⟩
    rw [ensureStorageSchema_eq] at hrun ⊢
    rw [Resumable.run_interrupted bounded_stepsLeft (stepsLeft_lt store), hrun]

/-- **Migration preserves history.** From schemas 1 and 2 the events of a store stay, with their
timestamps in canonical form and their payloads in compact form, and from schema 3 as they are; they
are numbered in the order of their time, and from schema 1 the clock is at least the stamp of each.
A run that is cut off can be taken up again. -/
theorem AtSchema.migration_preserves_history {store : Store} {version : Nat}
    {events : List ThalwegEvent} (h : AtSchema store version events)
    (hlength : events.length < 2 ^ 64) :
    ∃ store' arrived, PreservesHistory store store' version events arrived := by
  cases h with
  | @legacy _ reads hold hmarked hlegacy hyears hdistinct =>
    have hmap : ∀ {v}, v ≠ 3 → migratedFrom v (reads.map Prod.snd) =
        reads.map fun r => r.2.migrated := by
      intro v hv
      rw [migratedFrom, if_neg hv, List.map_map]
      rfl
    rw [List.length_map] at hlength
    rcases hold with rfl | rfl
    · obtain ⟨store₁, hlegacy₁, hversion, hensure⟩ := hlegacy.mark hmarked
      obtain ⟨store', arrived, store₂, hmigrates, hrun, hclock⟩ :=
        hlegacy₁.migrates_first hversion hyears hdistinct hlength
      rw [← @hmap 1 (by decide)] at hmigrates
      exact ⟨store', arrived, .of_migrates (hensure.trans hrun) hmigrates fun _ => hclock⟩
    · have hversion := hmarked.resolve_right fun h => absurd h.1 (by decide)
      obtain ⟨store', arrived, hmigrates⟩ := hlegacy.migrates hversion
        (fun r hr => (hyears r hr).hasTimes) hdistinct hlength
      rw [← @hmap 2 (by decide)] at hmigrates
      exact ⟨store', arrived, .of_migrates hmigrates.run hmigrates fun h => absurd h (by decide)⟩
  | keyed hmarked hkeyed hnone =>
    have hversion := hmarked.resolve_right fun h => absurd h.1 (by decide)
    obtain ⟨store', arrived, hmigrates⟩ := hkeyed.migrates hversion hnone hlength
    exact ⟨store', arrived, .of_migrates hmigrates.run hmigrates fun h => absurd h (by decide)⟩

/-! ### A store of schema 1 -/

theorem isPrefix_legacyEventKey (event : ThalwegEvent) :
    legacyEventKeyFamily <+: legacyEventKey event := by
  simp only [legacyEventKey, List.append_assoc, List.prefix_append]

/-- A store of nothing but records of events under their legacy keys. -/
theorem holdsLegacy_of_entries {store : Store} {records : List (Text × ThalwegEvent)}
    (hentries : store.entries = records.map fun r => (legacyEventKey r.2, r.1))
    (hreads : ∀ r ∈ records, decodeEvent r.1 = .ok r.2) :
    HoldsLegacy store (records.map fun r => (legacyEventKey r.2, r.2)) where
  reads := by
    have hscan : store.scan legacyEventKeyFamily legacyEventKeyFamily = store.entries := by
      rw [OrderedStore.scan_eq_filter _ (List.prefix_refl _), hentries, List.filter_eq_self]
      intro entry hentry
      obtain ⟨r, -, rfl⟩ := List.mem_map.mp hentry
      have hprefix := isPrefix_legacyEventKey r.2
      simp [OrderedStore.le_of_isPrefix hprefix, hprefix]
    rw [hscan, hentries, List.forall₂_map_left_iff, List.forall₂_map_right_iff]
    exact List.forall₂_same.mpr fun r hr => ⟨rfl, hreads r hr⟩
  new key hkey := by
    rw [Option.eq_none_iff_forall_not_mem]
    intro value hvalue
    have hmem := OrderedStore.get_eq_some_iff.mp hvalue
    rw [hentries] at hmem
    obtain ⟨r, -, hr⟩ := List.mem_map.mp hmem
    have hother := legacyEventKeyFamily_isPrefix (isPrefix_legacyEventKey r.2)
    rw [(Prod.mk.inj hr).1] at hother
    rcases hkey with hkey | hkey | hkey <;> simp [hother] at hkey

/-- The start of 2026, not in canonical form. -/
def plainTime : Text := "2026-01-01T00:00:00Z".toList

theorem HasYear.of_any {value : Text} (h : (Instant.parse value).any (fun t =>
    decide (0 ≤ t.date.year ∧ t.date.year ≤ 9999)) = true) : HasYear value := by
  obtain ⟨t, ht, hrange⟩ := (Option.any_eq_true _ _).mp h
  exact ⟨t, ht, of_decide_eq_true hrange⟩

/-- An event of schema 1 whose occurrence has an offset. -/
def offsetEvent : ThalwegEvent :=
  ⟨['x'], ['h'], "s:t".toList, "2026-01-01T02:00:00+02:00".toList, plainTime, plainTime, 3, ['d'],
    "[1,2]".toList⟩

/-- An event that occurred an hour later, with a smaller legacy key. -/
def laterEvent : ThalwegEvent :=
  { offsetEvent with id := ['y'], occurredAt := "2026-01-01T01:00:00Z".toList, counter := 7 }

/-- A store of schema 1, without a mark, with the two events. -/
def offsetStore : Store :=
  (OrderedStore.empty.set (legacyEventKey offsetEvent) (eventText offsetEvent)).set
    (legacyEventKey laterEvent) (eventText laterEvent)

/-- The keys of the store with their events. -/
def offsetReads : List (Text × ThalwegEvent) :=
  [(legacyEventKey laterEvent, laterEvent), (legacyEventKey offsetEvent, offsetEvent)]

theorem hasYear_times : HasYear plainTime ∧ HasYear offsetEvent.occurredAt ∧
    HasYear laterEvent.occurredAt :=
  ⟨.of_any (by decide +kernel), .of_any (by decide +kernel), .of_any (by decide +kernel)⟩

theorem offsetStore_holdsLegacy : HoldsLegacy offsetStore offsetReads := by
  have hlt : legacyEventKey laterEvent < legacyEventKey offsetEvent := by decide +kernel
  have hentries : offsetStore.entries = [(legacyEventKey laterEvent, eventText laterEvent),
      (legacyEventKey offsetEvent, eventText offsetEvent)] := by
    change OrderedStore.insert (legacyEventKey laterEvent) (eventText laterEvent)
      [(legacyEventKey offsetEvent, eventText offsetEvent)] = _
    rw [OrderedStore.insert, if_neg hlt.asymm, if_neg hlt.ne']
  refine @holdsLegacy_of_entries offsetStore
    [(eventText laterEvent, laterEvent), (eventText offsetEvent, offsetEvent)] hentries ?_
  exact List.forall_mem_cons.mpr ⟨eq_ok_of_toOption (by decide +kernel),
    List.forall_mem_singleton.mpr (eq_ok_of_toOption (by decide +kernel))⟩

theorem offsetStore_marked : IsMarked offsetStore 1 := by
  have hne : ∀ event, storageSchemaVersionKey ≠ legacyEventKey event := fun event heq =>
    metaKeys_not_legacy.2.2 (heq ▸ isPrefix_legacyEventKey event)
  have hget : offsetStore.get storageSchemaVersionKey = none := by
    rw [offsetStore, OrderedStore.get_set_of_ne _ (hne _), OrderedStore.get_set_of_ne _ (hne _),
      OrderedStore.get_empty]
  exact Or.inr ⟨rfl, by rw [readStorageSchemaVersion, hget]⟩

theorem offsetStore_atSchema : AtSchema offsetStore 1 [laterEvent, offsetEvent] := by
  have hyears : ∀ {e : ThalwegEvent}, HasYear e.occurredAt → e.insertedAt = plainTime →
      e.propagatedAt = plainTime → HasYears e := by
    rintro e hoccurred hinserted hpropagated
    exact ⟨hoccurred, hinserted ▸ hasYear_times.1, Or.inr (hpropagated ▸ hasYear_times.1)⟩
  refine .legacy (Or.inl rfl) offsetStore_marked offsetStore_holdsLegacy ?_
    (List.pairwise_pair.mpr fun _ => by decide)
  exact List.forall_mem_cons.mpr ⟨hyears hasYear_times.2.2 rfl rfl,
    List.forall_mem_singleton.mpr (hyears hasYear_times.2.1 rfl rfl)⟩

theorem migration_preserves_offsetEvents : ∃ store' arrived,
    PreservesHistory offsetStore store' 1 [laterEvent, offsetEvent] arrived :=
  offsetStore_atSchema.migration_preserves_history (by decide)

/-! ### A store of schema 2 -/

/-- An event whose payload has a space. -/
def spacedEvent : ThalwegEvent :=
  ⟨['x'], ['h'], ['s'], plainTime, plainTime, [], 0, ['d'], "[1, 2]".toList⟩

/-- Its record. -/
def spacedRecord : Text :=
  Json.renderRecord [("id".toList, Json.quote ['x']), ("network".toList, Json.quote ['h']),
    ("stream".toList, Json.quote ['s']), ("occurredAt".toList, Json.quote plainTime),
    ("insertedAt".toList, Json.quote plainTime), ("deviceId".toList, Json.quote ['d']),
    ("payload".toList, "[1, 2]".toList)]

/-- Its key. -/
def spacedKey : Text := legacyEventKey spacedEvent

/-- A store of schema 2 with the event. -/
def spacedStore : Store :=
  writeStorageSchemaVersion (OrderedStore.empty.set spacedKey spacedRecord) 2

theorem spacedRecord_reads : decodeEvent spacedRecord = .ok spacedEvent := by
  have h : Json.decodeRecord false eventFields ThalwegEvent.zero spacedRecord =
      some spacedEvent := by
    decide +kernel
  rw [decodeEvent, h]

theorem spacedStore_holdsLegacy : HoldsLegacy spacedStore [(spacedKey, spacedEvent)] := by
  have hholds := @holdsLegacy_of_entries (OrderedStore.empty.set spacedKey spacedRecord)
    [(spacedRecord, spacedEvent)] rfl (List.forall_mem_singleton.mpr spacedRecord_reads)
  exact hholds.set_other (by decide) metaKeys_not_legacy.2.2 _

theorem spacedStore_marked : IsMarked spacedStore 2 :=
  Or.inl (readStorageSchemaVersion_write _ (by decide))

theorem spacedStore_atSchema : AtSchema spacedStore 2 [spacedEvent] :=
  .legacy (Or.inr rfl) spacedStore_marked spacedStore_holdsLegacy
    (List.forall_mem_singleton.mpr ⟨hasYear_times.1, hasYear_times.1, Or.inl rfl⟩)
    (List.pairwise_singleton _ _)

/-- The event does not stay as it is: the migration compacts its payload. -/
theorem migration_compacts_spacedEvent : AtSchema spacedStore 2 [spacedEvent] ∧
    ∀ store' arrived, ensureStorageSchema spacedStore = (.ok (), store') →
      HoldsIndexed store' arrived → ¬arrived.Perm ([spacedEvent].map .withCanonicalTimes) := by
  refine ⟨spacedStore_atSchema, fun store' arrived hrun hindexed hperm => ?_⟩
  have hcompact : (((ensureStorageSchema spacedStore).2.get
      (eventKey spacedEvent.withCanonicalTimes)).bind fun value =>
        (decodeEvent value).toOption.map ThalwegEvent.payload) = some "[1,2]".toList := by
    decide +kernel
  rw [hrun] at hcompact
  obtain ⟨value, hget, hvalue⟩ := Option.bind_eq_some_iff.mp hcompact
  obtain ⟨e, he, hkey, hdecode⟩ := hindexed.record_spec _ value (keyFamily_eventKey _) hget
  obtain rfl := List.mem_singleton.mp (hperm.mem_iff.mp he)
  rw [hdecode] at hvalue
  exact absurd (Option.some.inj hvalue) (by decide)

end Thalweg
