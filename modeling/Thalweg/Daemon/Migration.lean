import Mathlib.Data.List.Forall2
import Thalweg.Data.Json.Spelling
import Thalweg.Data.Resumable
import Thalweg.Daemon.Keys
import Thalweg.Daemon.Records
import Thalweg.Daemon.Version

/-!
# Migrations of the store

The migration to schema 3 brings the events of an older store under the new keys and into the index of
their IDs, with their timestamps in canonical form and their payloads in compact form, and loses none.

## Main definitions

* `ThalwegEvent.migrated`: an event after the migration.
* `HoldsLegacy`: a store before schema 3, with the events of its entries.
* `HoldsKeyed`: a store from schema 3 on, with its events.

## Main results

* `migrateEvents_eq_ok_iff`: which events the migration accepts.
* `HoldsLegacy.foldl_writeMigratedEvent`: the events after its writes.
-/

namespace Thalweg

/-! ### Events that are written again -/

/-- The payload is absent or the text of a value inside a record. -/
def IsRawPayload (payload : Text) : Prop :=
  payload = [] ∨ ∃ v, Json.Spells (Json.maxDepth - 1) v payload

theorem isRawPayload_of_decodeEvent {value : Text} {e : ThalwegEvent} (h : decodeEvent value = .ok e) :
    IsRawPayload e.payload := by
  unfold decodeEvent at h
  split at h
  · next e' hread =>
    obtain rfl := Except.ok.inj h
    refine Json.decodeRecord_induction (P := fun e => IsRawPayload e.payload) (Or.inl rfl) ?_ hread
    intro f hf s raw v s' hs hspell _ hset
    simp only [eventFields, List.mem_cons, List.not_mem_nil, or_false] at hf
    rcases hf with rfl | rfl | rfl | rfl | rfl | rfl | rfl | rfl | rfl
    case inr.inr.inr.inr.inr.inr.inr.inr =>
      obtain rfl := Option.some.inj hset
      exact Or.inr ⟨v, hspell⟩
    all_goals
      obtain ⟨x, -, rfl⟩ := Option.map_eq_some_iff.mp hset
      exact hs
  · cases h

theorem IsRawPayload.hasPayload {e : ThalwegEvent} (h : IsRawPayload e.payload) :
    ∃ v, e.HasPayload v ∧ v.depth < Json.maxDepth := by
  obtain ⟨v, hv⟩ : ∃ v, Json.Spells (Json.maxDepth - 1) v (payloadOrNull e.payload) := by
    rcases h with hnil | ⟨v, hv⟩
    · rw [hnil]
      exact ⟨.null, Json.spells_word _ (Or.inl rfl)⟩
    · obtain ⟨c, u, hcons, -⟩ := hv.head
      rw [payloadOrNull, if_neg (hcons ▸ List.cons_ne_nil c u)]
      exact ⟨v, hv⟩
  exact ⟨v, hv.parse (Nat.sub_le _ _), Nat.lt_of_le_of_lt hv.depth_le (by decide)⟩

/-- An event with such a payload has a record. -/
theorem IsRawPayload.marshalEvent {e : ThalwegEvent} (h : IsRawPayload e.payload) :
    marshalEvent e = .ok (eventText e) := by
  obtain ⟨v, hv, -⟩ := h.hasPayload
  rw [hv.eventText_eq, hv.marshalEvent_eq]

/-- The record reads back with the payload in compact form. -/
theorem IsRawPayload.decodeEvent_eventText {e : ThalwegEvent} (h : IsRawPayload e.payload) :
    decodeEvent (eventText e) = .ok e.sent := by
  obtain ⟨v, hv, hdepth⟩ := h.hasPayload
  rw [decodeEvent, hv.decodeRecord_eventText hdepth]

/-! ### Events after the migrations -/

/-- The canonical text of a timestamp; what is no timestamp stays as it is. -/
def canonicalTime (value : Text) : Text :=
  match Instant.parse value with
  | some t => t.format
  | none => value

/-- The event with its timestamps in canonical form. -/
def ThalwegEvent.withCanonicalTimes (e : ThalwegEvent) : ThalwegEvent :=
  { e with
    occurredAt := canonicalTime e.occurredAt
    insertedAt := canonicalTime e.insertedAt
    propagatedAt := canonicalTime e.propagatedAt }

/-- An event after the migrations. -/
def ThalwegEvent.migrated (e : ThalwegEvent) : ThalwegEvent :=
  e.withCanonicalTimes.sent

/-- The timestamps of the event parse; it may lack the time of its propagation. -/
structure HasTimes (e : ThalwegEvent) : Prop where
  occurredAt : (Instant.parse e.occurredAt).isSome
  insertedAt : (Instant.parse e.insertedAt).isSome
  propagatedAt : e.propagatedAt = [] ∨ (Instant.parse e.propagatedAt).isSome

theorem normalizeTimestamp_eq_ok_iff_canonicalTime {field : String} {value canonical : Text} :
    normalizeTimestamp field value = .ok canonical ↔
      (Instant.parse value).isSome ∧ canonical = canonicalTime value := by
  unfold normalizeTimestamp canonicalTime
  cases Instant.parse value with
  | none => simp
  | some t => simp [eq_comm]

/-- The event of an entry in the form of the next schema. -/
def migratedEntry (entry : Text × ThalwegEvent) : MigratedEvent where
  oldKey := entry.1
  primaryKey := eventKey entry.2.migrated
  indexKey := eventIDKey entry.2.network entry.2.id
  value := eventText entry.2.withCanonicalTimes

/-- The record of a migrated event reads back as that event. -/
theorem decodeEvent_migratedEntry {entry : Text × ThalwegEvent} (h : IsRawPayload entry.2.payload) :
    decodeEvent (migratedEntry entry).value = .ok entry.2.migrated :=
  IsRawPayload.decodeEvent_eventText (e := entry.2.withCanonicalTimes) h

/-- An entry migrates if its record reads as an event whose timestamps parse. -/
theorem migrateEvent_eq_ok_iff {entry : Text × Text} {event : ThalwegEvent} {m : MigratedEvent} :
    migrateEvent entry = .ok (event, m) ↔ ∃ e, decodeEvent entry.2 = .ok e ∧ HasTimes e ∧
      event = e.withCanonicalTimes ∧ m = migratedEntry (entry.1, e) := by
  have hmarshal : ∀ {e : ThalwegEvent}, decodeEvent entry.2 = .ok e →
      marshalEvent e.withCanonicalTimes = .ok (eventText e.withCanonicalTimes) := by
    intro e he
    have hraw := isRawPayload_of_decodeEvent he
    exact IsRawPayload.marshalEvent (e := e.withCanonicalTimes) hraw
  have hempty : ∀ {e : ThalwegEvent}, e.propagatedAt = [] → { e with
      occurredAt := canonicalTime e.occurredAt
      insertedAt := canonicalTime e.insertedAt
      propagatedAt := [] } = e.withCanonicalTimes := by
    intro e hp
    have hnil : canonicalTime e.propagatedAt = [] := by
      rw [hp]
      decide
    rw [ThalwegEvent.withCanonicalTimes, hnil]
  unfold migrateEvent
  simp only [bind_eq_ok_iff, wrapf_eq_ok_iff, normalizeTimestamp_eq_ok_iff_canonicalTime]
  constructor
  · rintro ⟨e, he, t, ⟨ho, rfl⟩, t, ⟨hi, rfl⟩, hrest⟩
    refine ⟨e, he, ?_⟩
    split_ifs at hrest with hp
    · simp only [bind_eq_ok_iff, wrapf_eq_ok_iff, Except.ok.injEq, Prod.mk.injEq] at hrest
      obtain ⟨_, rfl, value, hvalue, rfl, rfl⟩ := hrest
      rw [hempty hp] at hvalue ⊢
      obtain rfl := Except.ok.inj ((hmarshal he).symm.trans hvalue)
      exact ⟨⟨ho, hi, Or.inl hp⟩, rfl, rfl⟩
    · simp only [bind_eq_ok_iff, wrapf_eq_ok_iff, normalizeTimestamp_eq_ok_iff_canonicalTime,
        Except.ok.injEq, Prod.mk.injEq] at hrest
      obtain ⟨_, ⟨hparse, rfl⟩, value, hvalue, rfl, rfl⟩ := hrest
      obtain rfl := Except.ok.inj ((hmarshal he).symm.trans hvalue)
      exact ⟨⟨ho, hi, Or.inr hparse⟩, rfl, rfl⟩
  · rintro ⟨e, he, ⟨ho, hi, hp⟩, rfl, rfl⟩
    refine ⟨e, he, _, ⟨ho, rfl⟩, _, ⟨hi, rfl⟩, ?_⟩
    split_ifs with hnil
    · simp only [bind_eq_ok_iff, wrapf_eq_ok_iff, Except.ok.injEq, Prod.mk.injEq]
      refine ⟨_, rfl, ?_⟩
      rw [hempty hnil]
      exact ⟨_, hmarshal he, rfl, rfl⟩
    · simp only [bind_eq_ok_iff, wrapf_eq_ok_iff, normalizeTimestamp_eq_ok_iff_canonicalTime,
        Except.ok.injEq, Prod.mk.injEq]
      exact ⟨_, ⟨hp.resolve_left hnil, rfl⟩, _, hmarshal he, rfl, rfl⟩

/-- Each of the second list is related to one of the first. -/
theorem exists_mem_left_of_forall₂ {α β : Type} {R : α → β → Prop} {as : List α} {bs : List β}
    (h : List.Forall₂ R as bs) {b : β} (hb : b ∈ bs) : ∃ a ∈ as, R a b := by
  induction h with
  | nil => simp at hb
  | @cons a b' as bs hab _ ih =>
    rcases List.mem_cons.mp hb with rfl | hb
    · exact ⟨a, List.mem_cons_self, hab⟩
    · obtain ⟨a', ha', hR⟩ := ih hb
      exact ⟨a', List.mem_cons_of_mem _ ha', hR⟩

theorem exists_mem_right_of_forall₂ {α β : Type} {R : α → β → Prop} {as : List α} {bs : List β}
    (h : List.Forall₂ R as bs) {a : α} (ha : a ∈ as) : ∃ b ∈ bs, R a b :=
  exists_mem_left_of_forall₂ h.flip ha

theorem exists_forall₂_of_forall {α β : Type} {R : α → β → Prop} : ∀ {as : List α},
    (∀ a ∈ as, ∃ b, R a b) → ∃ bs, List.Forall₂ R as bs
  | [], _ => ⟨[], .nil⟩
  | _ :: _, h => by
    obtain ⟨⟨b, hb⟩, hrest⟩ := List.forall_mem_cons.mp h
    obtain ⟨bs, hbs⟩ := exists_forall₂_of_forall hrest
    exact ⟨b :: bs, .cons hb hbs⟩

/-- The entry has the key, and its record reads as the event. -/
def EntryReads (entry : Text × Text) (read : Text × ThalwegEvent) : Prop :=
  entry.1 = read.1 ∧ decodeEvent entry.2 = .ok read.2

/-- No two of the events have the same network and ID. -/
def DistinctEntries (reads : List (Text × ThalwegEvent)) : Prop :=
  reads.Pairwise fun r r' => r.2.network = r'.2.network → r.2.id ≠ r'.2.id

/-- The entries of schema 2 migrate exactly if they read as events whose timestamps parse and of
which no two have the same network and ID. -/
theorem migrateEvents_eq_ok_iff {reads : List (Text × ThalwegEvent)} {entries : List (Text × Text)}
    {ms : List MigratedEvent} :
    migrateEvents (reads.map migratedEntry) entries = .ok ms ↔
      ∃ reads', List.Forall₂ EntryReads entries reads' ∧ (∀ r ∈ reads', HasTimes r.2) ∧
        (∀ r ∈ reads, ∀ r' ∈ reads', r.2.network = r'.2.network → r.2.id ≠ r'.2.id) ∧
        DistinctEntries reads' ∧ ms = (reads ++ reads').map migratedEntry := by
  induction entries generalizing reads with
  | nil =>
    simp only [migrateEvents, Except.ok.injEq, List.forall₂_nil_left_iff]
    constructor
    · rintro rfl
      exact ⟨[], rfl, List.forall_mem_nil _, fun _ _ => List.forall_mem_nil _, List.Pairwise.nil,
        by simp⟩
    · rintro ⟨_, rfl, -, -, -, rfl⟩
      simp
  | cons entry entries ih =>
    have hindex : ∀ e : ThalwegEvent, ((reads.map migratedEntry).any fun d =>
        decide (d.indexKey = (migratedEntry (entry.1, e)).indexKey)) = true ↔
          ∃ r ∈ reads, r.2.network = e.network ∧ r.2.id = e.id := by
      intro e
      simp [migratedEntry]
    have hprimary : ∀ e : ThalwegEvent, ((reads.map migratedEntry).any fun d =>
        decide (d.primaryKey = (migratedEntry (entry.1, e)).primaryKey)) = true →
          ∃ r ∈ reads, r.2.network = e.network ∧ r.2.id = e.id := by
      intro e h
      obtain ⟨d, hd, heq⟩ := List.any_eq_true.mp h
      obtain ⟨r, hr, rfl⟩ := List.mem_map.mp hd
      obtain ⟨hnetwork, -, -, -, -, hid⟩ := eventKey_inj.mp (of_decide_eq_true heq)
      exact ⟨r, hr, hnetwork, hid⟩
    have happend : ∀ r, reads.map migratedEntry ++ [migratedEntry r] =
        (reads ++ [r]).map migratedEntry := fun r => by simp
    unfold migrateEvents
    simp only [bind_eq_ok_iff, Prod.exists, migrateEvent_eq_ok_iff]
    constructor
    · rintro ⟨_, _, ⟨e, he, htimes, rfl, rfl⟩, hrest⟩
      split_ifs at hrest with h1 h2
      · cases hrest
      · cases hrest
      rw [happend, ih] at hrest
      obtain ⟨reads', hreads, htimes', hcross, hdistinct, rfl⟩ := hrest
      refine ⟨(entry.1, e) :: reads', .cons ⟨rfl, he⟩ hreads, List.forall_mem_cons.mpr ⟨htimes, htimes'⟩,
        fun r hr => List.forall_mem_cons.mpr ⟨fun hnetwork hid => ?_, ?_⟩,
        List.pairwise_cons.mpr ⟨?_, hdistinct⟩, by simp⟩
      · exact h1 ((hindex e).mpr ⟨r, hr, hnetwork, hid⟩)
      · exact hcross r (List.mem_append_left _ hr)
      · exact hcross (entry.1, e) (by simp)
    · rintro ⟨reads', hreads, htimes, hcross, hdistinct, rfl⟩
      cases hreads with
      | @cons _ r _ rs h hreads =>
      obtain ⟨key, e⟩ := r
      obtain ⟨rfl, he⟩ : entry.1 = key ∧ decodeEvent entry.2 = .ok e := h
      obtain ⟨htime, htimes⟩ := List.forall_mem_cons.mp htimes
      obtain ⟨hhead, hdistinct⟩ := List.pairwise_cons.mp hdistinct
      have hnone : ¬ ∃ r ∈ reads, r.2.network = e.network ∧ r.2.id = e.id := by
        rintro ⟨r, hr, hnetwork, hid⟩
        exact hcross r hr (entry.1, e) List.mem_cons_self hnetwork hid
      refine ⟨_, _, ⟨e, he, htime, rfl, rfl⟩, ?_⟩
      rw [if_neg fun h => hnone ((hindex e).mp h), if_neg fun h => hnone (hprimary e h), happend, ih]
      refine ⟨rs, hreads, htimes, ?_, hdistinct, by simp⟩
      intro r hr r' hr'
      rcases List.mem_append.mp hr with hr | hr
      · exact hcross r hr r' (List.mem_cons_of_mem _ hr')
      · obtain rfl := List.mem_singleton.mp hr
        exact hhead r' hr'

/-! ### Stores of the schemas -/

/-- A store before schema 3 with the events of its entries. -/
structure HoldsLegacy (store : Store) (reads : List (Text × ThalwegEvent)) : Prop where
  reads : List.Forall₂ EntryReads (store.scan legacyEventKeyFamily legacyEventKeyFamily) reads
  new : ∀ key, keyFamily key = .event ∨ keyFamily key = .eventID ∨ keyFamily key = .arrival →
    store.get key = none

/-- A store from schema 3 on with its events: each has a record and an entry in the ID index. -/
structure HoldsKeyed (store : Store) (events : List ThalwegEvent) : Prop where
  legacy : ∀ key, legacyEventKeyFamily <+: key → store.get key = none
  distinct : Distinct events
  record : ∀ e ∈ events, ∃ value, store.get (eventKey e) = some value
  record_spec : ∀ key value, keyFamily key = .event → store.get key = some value →
    ∃ e ∈ events, key = eventKey e ∧ decodeEvent value = .ok e
  index_iff : ∀ key value, keyFamily key = .eventID →
    (store.get key = some value ↔
      ∃ e ∈ events, key = eventIDKey e.network e.id ∧ value = eventKey e)

theorem legacyEventKeyFamily_isPrefix {key : Text} (h : legacyEventKeyFamily <+: key) :
    keyFamily key = .other := by
  have hfamily : keyFamily legacyEventKeyFamily = .other := by decide +kernel
  exact (keyFamily_of_isPrefix (by decide +kernel) h).trans hfamily

theorem not_isPrefix_of_keyFamily {key : Text} (h : keyFamily key ≠ .other) :
    ¬ legacyEventKeyFamily <+: key := fun hprefix => h (legacyEventKeyFamily_isPrefix hprefix)

theorem metaKeys_not_legacy : ¬ legacyEventKeyFamily <+: hlcStateKey ∧
    ¬ legacyEventKeyFamily <+: arrivalSequenceKey ∧ ¬ legacyEventKeyFamily <+: storageSchemaVersionKey := by
  decide +kernel

/-- The events of a store before schema 3 depend only on the keys of events. -/
theorem HoldsLegacy.agree {store store' : Store} {reads : List (Text × ThalwegEvent)}
    (h : HoldsLegacy store reads) (hlegacy : ∀ key, legacyEventKeyFamily <+: key →
      store.get key = store'.get key)
    (hnew : ∀ key, keyFamily key ≠ .other → store.get key = store'.get key) :
    HoldsLegacy store' reads where
  reads := by
    rw [← OrderedStore.scan_congr (List.prefix_refl _) hlegacy]
    exact h.reads
  new key hkey := by
    rw [← hnew key (by rcases hkey with hkey | hkey | hkey <;> simp [hkey])]
    exact h.new key hkey

/-- The events of a store from schema 3 on depend only on the keys of events and of their IDs. -/
theorem HoldsKeyed.agree {store store' : Store} {events : List ThalwegEvent}
    (h : HoldsKeyed store events) (hlegacy : ∀ key, legacyEventKeyFamily <+: key →
      store.get key = store'.get key)
    (hnew : ∀ key, keyFamily key = .event ∨ keyFamily key = .eventID →
      store.get key = store'.get key) :
    HoldsKeyed store' events where
  legacy key hkey := by rw [← hlegacy key hkey, h.legacy key hkey]
  distinct := h.distinct
  record e he := by
    rw [← hnew _ (Or.inl (keyFamily_eventKey e))]
    exact h.record e he
  record_spec key value hkey := by
    rw [← hnew key (Or.inl hkey)]
    exact h.record_spec key value hkey
  index_iff key value hkey := by
    rw [← hnew key (Or.inr hkey)]
    exact h.index_iff key value hkey

/-- The order of the events does not matter. -/
theorem HoldsKeyed.perm {store : Store} {events events' : List ThalwegEvent}
    (h : HoldsKeyed store events) (hperm : events.Perm events') : HoldsKeyed store events' where
  legacy := h.legacy
  distinct := hperm.pairwise h.distinct fun hne hnetwork hid => hne hnetwork.symm hid.symm
  record e he := h.record e (hperm.mem_iff.mpr he)
  record_spec key value hkey hget := by
    obtain ⟨e, he, hrest⟩ := h.record_spec key value hkey hget
    exact ⟨e, hperm.mem_iff.mp he, hrest⟩
  index_iff key value hkey := by
    simp only [h.index_iff key value hkey, hperm.mem_iff]

/-! ### Schema 3 -/

/-- What one migrated event writes. -/
theorem get_writeMigratedEvent (store : Store) (r : Text × ThalwegEvent) (key : Text) :
    (writeMigratedEvent store (migratedEntry r)).get key =
      if key = r.1 then none
      else if key = eventIDKey r.2.network r.2.id then some (eventKey r.2.migrated)
      else if key = eventKey r.2.migrated then some (migratedEntry r).value
      else store.get key := by
  rw [writeMigratedEvent, OrderedStore.get_delete, OrderedStore.get_set, OrderedStore.get_set,
    migratedEntry]

/-- The entries have keys of before schema 3. -/
def LegacyKeys (reads : List (Text × ThalwegEvent)) : Prop :=
  ∀ r ∈ reads, legacyEventKeyFamily <+: r.1

/-- The key is none that the migrated event writes or deletes. -/
def Untouched (r : Text × ThalwegEvent) (key : Text) : Prop :=
  key ≠ r.1 ∧ key ≠ eventKey r.2.migrated ∧ key ≠ eventIDKey r.2.network r.2.id

theorem get_writeMigratedEvent_of_untouched (store : Store) {r : Text × ThalwegEvent} {key : Text}
    (h : Untouched r key) : (writeMigratedEvent store (migratedEntry r)).get key = store.get key := by
  obtain ⟨hold, hprimary, hindex⟩ := h
  rw [get_writeMigratedEvent, if_neg hold, if_neg hindex, if_neg hprimary]

theorem untouched_of_distinct {r r' : Text × ThalwegEvent} (hkey : legacyEventKeyFamily <+: r'.1)
    (h : r.2.network = r'.2.network → r.2.id ≠ r'.2.id) : Untouched r' (eventKey r.2.migrated) ∧
      Untouched r' (eventIDKey r.2.network r.2.id) := by
  have hold := legacyEventKeyFamily_isPrefix hkey
  refine ⟨⟨ne_of_keyFamily_ne (by simp [hold]), fun heq => ?_, ne_of_keyFamily_ne (by simp)⟩,
    ne_of_keyFamily_ne (by simp [hold]), ne_of_keyFamily_ne (by simp), fun heq => ?_⟩
  · obtain ⟨hnetwork, -, -, -, -, hid⟩ := eventKey_inj.mp heq
    exact h hnetwork hid
  · obtain ⟨hnetwork, hid⟩ := eventIDKey_inj.mp heq
    exact h hnetwork hid

/-- What the migrated events leave. -/
theorem get_foldl_writeMigratedEvent_of_untouched {reads : List (Text × ThalwegEvent)} {key : Text}
    (h : ∀ r ∈ reads, Untouched r key) (store : Store) :
    ((reads.map migratedEntry).foldl writeMigratedEvent store).get key = store.get key := by
  induction reads generalizing store with
  | nil => rfl
  | cons r reads ih =>
    obtain ⟨hr, hreads⟩ := List.forall_mem_cons.mp h
    rw [List.map_cons, List.foldl_cons, ih hreads, get_writeMigratedEvent_of_untouched store hr]

/-- The old keys are gone. -/
theorem get_foldl_writeMigratedEvent_old {reads : List (Text × ThalwegEvent)} (hkeys : LegacyKeys reads)
    (store : Store) {key : Text} (h : legacyEventKeyFamily <+: key) (hmem : key ∈ reads.map Prod.fst ∨
      store.get key = none) :
    ((reads.map migratedEntry).foldl writeMigratedEvent store).get key = none := by
  have hfamily := legacyEventKeyFamily_isPrefix h
  induction reads generalizing store with
  | nil => simpa using hmem
  | cons r reads ih =>
    obtain ⟨-, hkeys⟩ := List.forall_mem_cons.mp hkeys
    rw [List.map_cons, List.foldl_cons]
    refine ih hkeys _ ?_
    rw [get_writeMigratedEvent]
    by_cases heq : key = r.1
    · exact Or.inr (if_pos heq)
    · refine hmem.imp (fun hmem => ?_) fun hnone => ?_
      · exact (List.mem_cons.mp hmem).resolve_left heq
      · rw [if_neg heq, if_neg (ne_of_keyFamily_ne (by simp [hfamily])),
          if_neg (ne_of_keyFamily_ne (by simp [hfamily])), hnone]

/-- The records and the entries of the ID index that the migrated events write. -/
theorem get_foldl_writeMigratedEvent_new {reads : List (Text × ThalwegEvent)} (hkeys : LegacyKeys reads)
    (hdistinct : DistinctEntries reads) (store : Store) {r : Text × ThalwegEvent} (hr : r ∈ reads) :
    ((reads.map migratedEntry).foldl writeMigratedEvent store).get (eventKey r.2.migrated) =
        some (migratedEntry r).value ∧
      ((reads.map migratedEntry).foldl writeMigratedEvent store).get (eventIDKey r.2.network r.2.id) =
        some (eventKey r.2.migrated) := by
  induction reads generalizing store with
  | nil => simp at hr
  | cons s reads ih =>
    obtain ⟨hkey, hrest⟩ := List.forall_mem_cons.mp hkeys
    obtain ⟨hhead, hdistinct⟩ := List.pairwise_cons.mp hdistinct
    rw [List.map_cons, List.foldl_cons]
    rcases List.mem_cons.mp hr with rfl | hr
    · have huntouched : ∀ r' ∈ reads, Untouched r' (eventKey r.2.migrated) ∧
          Untouched r' (eventIDKey r.2.network r.2.id) := fun r' hr' =>
        untouched_of_distinct (hrest r' hr') (hhead r' hr')
      have hold := legacyEventKeyFamily_isPrefix hkey
      constructor
      · rw [get_foldl_writeMigratedEvent_of_untouched fun r' hr' => (huntouched r' hr').1,
          get_writeMigratedEvent, if_neg (ne_of_keyFamily_ne (by simp [hold])),
          if_neg (ne_of_keyFamily_ne (by simp)), if_pos rfl]
      · rw [get_foldl_writeMigratedEvent_of_untouched fun r' hr' => (huntouched r' hr').2,
          get_writeMigratedEvent, if_neg (ne_of_keyFamily_ne (by simp [hold])), if_pos rfl]
    · exact ih hrest hdistinct _ hr

/-- A key that none of the migrated events writes or deletes. -/
theorem untouched_of_family {r : Text × ThalwegEvent} {key : Text} (hkey : ¬ legacyEventKeyFamily <+: key)
    (hlegacy : legacyEventKeyFamily <+: r.1) (hevent : keyFamily key ≠ .event)
    (hid : keyFamily key ≠ .eventID) : Untouched r key :=
  ⟨fun heq => hkey (heq ▸ hlegacy), ne_of_keyFamily_ne (by simpa using hevent),
    ne_of_keyFamily_ne (by simpa using hid)⟩

/-- What a scan of a store before schema 3 reads has keys of before schema 3. -/
theorem HoldsLegacy.legacyKeys {store : Store} {reads : List (Text × ThalwegEvent)}
    (h : HoldsLegacy store reads) : LegacyKeys reads := by
  intro r hr
  obtain ⟨entry, hentry, hkey, -⟩ := exists_mem_left_of_forall₂ h.reads hr
  rw [← hkey]
  exact ((store.mem_scan_iff (k := entry.1) (v := entry.2) (List.prefix_refl _)).mp hentry).2.2

/-- The old keys of a store before schema 3 are those that the scan reads. -/
theorem HoldsLegacy.mem_keys {store : Store} {reads : List (Text × ThalwegEvent)}
    (h : HoldsLegacy store reads) {key : Text} (hkey : legacyEventKeyFamily <+: key) :
    key ∈ reads.map Prod.fst ∨ store.get key = none := by
  cases hget : store.get key with
  | none => exact Or.inr rfl
  | some value =>
    have hscan : (key, value) ∈ store.scan legacyEventKeyFamily legacyEventKeyFamily :=
      (store.mem_scan_iff (List.prefix_refl _)).mpr ⟨hget, OrderedStore.le_of_isPrefix hkey, hkey⟩
    obtain ⟨r, hr, hread, -⟩ := exists_mem_right_of_forall₂ h.reads hscan
    exact Or.inl (List.mem_map.mpr ⟨r, hr, hread.symm⟩)

/-- What the migration to schema 3 leaves. -/
def KeepsOthers (store store' : Store) : Prop :=
  ∀ key, ¬ legacyEventKeyFamily <+: key → keyFamily key ≠ .event → keyFamily key ≠ .eventID →
    store'.get key = store.get key

/-- The migrated events of a store before schema 3 are a store of schema 3. -/
theorem HoldsLegacy.foldl_writeMigratedEvent {store : Store} {reads : List (Text × ThalwegEvent)}
    (h : HoldsLegacy store reads) (hraw : ∀ r ∈ reads, IsRawPayload r.2.payload)
    (hdistinct : DistinctEntries reads) :
    HoldsKeyed ((reads.map migratedEntry).foldl writeMigratedEvent store)
        (reads.map fun r => r.2.migrated) ∧
      KeepsOthers store ((reads.map migratedEntry).foldl writeMigratedEvent store) := by
  have hkeys := h.legacyKeys
  have hnew := fun {r} hr => @get_foldl_writeMigratedEvent_new reads hkeys hdistinct store r hr
  -- a key of a new family holds what one of the events writes, or nothing
  have hcases : ∀ key value, keyFamily key = .event ∨ keyFamily key = .eventID →
      ((reads.map migratedEntry).foldl writeMigratedEvent store).get key = some value →
      ∃ r ∈ reads, key = eventKey r.2.migrated ∨ key = eventIDKey r.2.network r.2.id := by
    intro key value hfamily hget
    by_contra hnone
    push Not at hnone
    rw [get_foldl_writeMigratedEvent_of_untouched, h.new key (by tauto)] at hget
    · cases hget
    · intro r hr
      refine ⟨?_, hnone r hr⟩
      rintro rfl
      have hold := legacyEventKeyFamily_isPrefix (hkeys r hr)
      rcases hfamily with hfamily | hfamily <;> simp [hold] at hfamily
  refine ⟨⟨fun key hkey => ?_, ?_, ?_, ?_, ?_⟩, fun key hkey hevent hid => ?_⟩
  · exact get_foldl_writeMigratedEvent_old hkeys store hkey (h.mem_keys hkey)
  · rw [Distinct, List.pairwise_map]
    exact hdistinct
  · intro e he
    obtain ⟨r, hr, rfl⟩ := List.mem_map.mp he
    exact ⟨_, (hnew hr).1⟩
  · intro key value hfamily hget
    obtain ⟨r, hr, rfl | rfl⟩ := hcases key value (Or.inl hfamily) hget
    · rw [(hnew hr).1] at hget
      obtain rfl := Option.some.inj hget
      exact ⟨_, List.mem_map.mpr ⟨r, hr, rfl⟩, rfl, decodeEvent_migratedEntry (hraw r hr)⟩
    · simp at hfamily
  · intro key value hfamily
    constructor
    · intro hget
      obtain ⟨r, hr, rfl | rfl⟩ := hcases key value (Or.inr hfamily) hget
      · simp at hfamily
      · rw [(hnew hr).2] at hget
        exact ⟨_, List.mem_map.mpr ⟨r, hr, rfl⟩, rfl, (Option.some.inj hget).symm⟩
    · rintro ⟨e, he, rfl, rfl⟩
      obtain ⟨r, hr, rfl⟩ := List.mem_map.mp he
      exact (hnew hr).2
  · exact get_foldl_writeMigratedEvent_of_untouched
      (fun r hr => untouched_of_family hkey (hkeys r hr) hevent hid) store

end Thalweg
