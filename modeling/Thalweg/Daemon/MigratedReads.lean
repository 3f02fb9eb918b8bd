import Mathlib.Data.Finset.Dedup
import Mathlib.Data.Finset.Max
import Thalweg.Daemon.Operation
import Thalweg.Daemon.Reads
import Thalweg.Daemon.Schemas

/-!
# Inventories of migrated stores

The migrations accept events that the digest of an inventory entry refuses later: they do not ask
for all fields of an envelope, and not for the form of conflict resolutions.

* `HoldsOlder`: a store at an older schema, with its events.
* `CanSynchronize`: every inventory page can be read, and every event has a digest.
* `HoldsOlder.canSynchronize_iff`: when a migrated store can synchronize.
-/

namespace Thalweg

/-! ### Digests -/

/-- The envelope has all fields, and its timestamps parse. -/
structure IsComplete (e : ThalwegEvent) : Prop where
  required : ∀ f ∈ requiredFields e, f.2 ≠ []
  occurredAt : (Instant.parse e.occurredAt).isSome
  insertedAt : (Instant.parse e.insertedAt).isSome
  propagatedAt : (Instant.parse e.propagatedAt).isSome

theorem IsRawPayload.normalizePayload {payload : Text} (h : IsRawPayload payload) :
    ∃ canonical, normalizePayload (payloadOrNull payload) = .ok canonical := by
  obtain ⟨v, hv, -⟩ := @IsRawPayload.hasPayload { ThalwegEvent.zero with payload } h
  exact ⟨_, normalizePayload_eq_ok_iff.mpr ⟨v, hv, rfl⟩⟩

/-- An event with a payload that can be read has a digest exactly if it is complete. -/
theorem exists_eventDigest_iff {e : ThalwegEvent} {payload : Text}
    (hpayload : normalizePayload (payloadOrNull e.payload) = .ok payload) :
    (∃ digest, eventDigest e = .ok digest) ↔ IsComplete e := by
  simp only [eventDigest, bind_eq_ok_iff]
  constructor
  · rintro ⟨digest, normalized, hnormal, -⟩
    obtain ⟨hfields, occurredAt, insertedAt, propagatedAt, _, ho, hi, hp, -, -⟩ :=
      normalizeReplicatedEvent_eq_ok_iff.mp hnormal
    exact ⟨hfields, (normalizeTimestamp_eq_ok_iff_canonicalTime.mp ho).1,
      (normalizeTimestamp_eq_ok_iff_canonicalTime.mp hi).1,
      (normalizeTimestamp_eq_ok_iff_canonicalTime.mp hp).1⟩
  · intro h
    have hnormal := normalizeReplicatedEvent_eq_ok_iff.mpr ⟨h.required, _, _, _, payload,
      normalizeTimestamp_eq_ok_iff_canonicalTime.mpr ⟨h.occurredAt, rfl⟩,
      normalizeTimestamp_eq_ok_iff_canonicalTime.mpr ⟨h.insertedAt, rfl⟩,
      normalizeTimestamp_eq_ok_iff_canonicalTime.mpr ⟨h.propagatedAt, rfl⟩, hpayload, rfl⟩
    exact ⟨_, _, hnormal, _,
      marshalEvent_of_storable (storable_of_normalizeReplicatedEvent hnormal), rfl⟩

theorem IsComplete.ne_nil {e : ThalwegEvent} (h : IsComplete e) : e.id ≠ [] ∧ e.network ≠ [] := by
  have hrequired := h.required
  simp only [requiredFields, List.forall_mem_cons] at hrequired
  exact ⟨hrequired.1, hrequired.2.1⟩

theorem ne_nil_of_parse {value : Text} (h : (Instant.parse value).isSome) : value ≠ [] := by
  rintro rfl
  exact absurd h (by decide)

/-- A complete event stays complete with the canonical time of its occurrence exactly if that time
parses again. -/
theorem IsComplete.found_iff {e : ThalwegEvent} (h : IsComplete e) (payload : Text) :
    IsComplete { e with occurredAt := canonicalTime e.occurredAt, payload } ↔
      (Instant.parse (canonicalTime e.occurredAt)).isSome := by
  refine ⟨fun hfound => hfound.occurredAt, fun htime => ⟨?_, htime, h.insertedAt, h.propagatedAt⟩⟩
  have hrequired := h.required
  simp only [requiredFields, List.forall_mem_cons] at hrequired ⊢
  obtain ⟨hid, hnetwork, hstream, hdevice, -, hrest⟩ := hrequired
  exact ⟨hid, hnetwork, hstream, hdevice, ne_nil_of_parse htime, hrest⟩

/-! ### Reads of a store from schema 3 on -/

/-- The event can be found again under its ID: its record has a payload, and the canonical time of
its occurrence parses. -/
structure IsFound (e : ThalwegEvent) : Prop where
  payload : e.payload ≠ []
  occurredAt : (Instant.parse (canonicalTime e.occurredAt)).isSome

namespace HoldsKeyed

variable {store : Store} {events : List ThalwegEvent}

theorem exists_record (h : HoldsKeyed store events) {e : ThalwegEvent} (he : e ∈ events) :
    ∃ value, store.get (eventKey e) = some value ∧ decodeEvent value = .ok e := by
  obtain ⟨value, hget⟩ := h.record e he
  obtain ⟨f, hf, hkey, hdecode⟩ := h.record_spec _ value (keyFamily_eventKey e) hget
  obtain ⟨hnetwork, -, -, -, -, hid⟩ := eventKey_inj.mp hkey
  obtain rfl := h.distinct.eq_of_id he hf hnetwork hid
  exact ⟨value, hget, hdecode⟩

theorem isRawPayload (h : HoldsKeyed store events) {e : ThalwegEvent} (he : e ∈ events) :
    IsRawPayload e.payload := by
  obtain ⟨value, -, hdecode⟩ := h.exists_record he
  exact isRawPayload_of_decodeEvent hdecode

theorem exists_eventDigest_iff (h : HoldsKeyed store events) {e : ThalwegEvent} (he : e ∈ events) :
    (∃ digest, eventDigest e = .ok digest) ↔ IsComplete e :=
  let ⟨_, hpayload⟩ := (h.isRawPayload he).normalizePayload
  Thalweg.exists_eventDigest_iff hpayload

/-- A complete event is found under its ID, with a digest, exactly if it can be found again. -/
theorem exists_found_iff (h : HoldsKeyed store events) {e : ThalwegEvent} (he : e ∈ events)
    (hcomplete : IsComplete e) :
    (∃ found digest, findEventByID store e.network e.id = .ok (some found) ∧
      eventDigest found = .ok digest) ↔ IsFound e := by
  obtain ⟨value, hget, hdecode⟩ := h.exists_record he
  have hindex : store.get (eventIDKey e.network e.id) = some (eventKey e) :=
    (h.index_iff _ _ (keyFamily_eventIDKey _ _)).mpr ⟨e, he, rfl, rfl⟩
  have htime : normalizeTimestamp "stored occurredAt" e.occurredAt =
      .ok (canonicalTime e.occurredAt) :=
    normalizeTimestamp_eq_ok_iff_canonicalTime.mpr ⟨hcomplete.occurredAt, rfl⟩
  have hfind : ∀ found, findEventByID store e.network e.id = .ok (some found) ↔
      ∃ payload, normalizePayload e.payload = .ok payload ∧
        found = { e with occurredAt := canonicalTime e.occurredAt, payload } := by
    intro found
    simp only [findEventByID, hindex, hget, hdecode, htime, bind_eq_ok_iff, wrapf_eq_ok_iff,
      ne_eq, not_true_eq_false, or_self, if_false, Except.ok.injEq, Option.some.injEq,
      exists_eq_left', @eq_comm _ _ found]
  have hdigest : ∀ payload, normalizePayload e.payload = .ok payload →
      ((∃ digest, eventDigest { e with occurredAt := canonicalTime e.occurredAt, payload } =
        .ok digest) ↔ (Instant.parse (canonicalTime e.occurredAt)).isSome) := by
    intro payload hpayload
    have hcanonical := isPayload_of_normalizePayload hpayload
    rw [← hcomplete.found_iff payload]
    exact Thalweg.exists_eventDigest_iff
      ((congrArg normalizePayload hcanonical.payloadOrNull).trans hcanonical.normalizePayload)
  simp only [hfind]
  constructor
  · rintro ⟨_, digest, ⟨payload, hpayload, rfl⟩, hok⟩
    refine ⟨fun hnil => ?_, (hdigest payload hpayload).mp ⟨digest, hok⟩⟩
    rw [hnil] at hpayload
    obtain ⟨v, hv, -⟩ := normalizePayload_eq_ok_iff.mp hpayload
    have hnone : Json.parse [] = none := by
      simp [Json.parse, Json.parseFirst, Json.parseValue, Json.skipSpace]
    rw [hnone] at hv
    cases hv
  · intro hfound
    obtain ⟨payload, hpayload⟩ := (h.isRawPayload he).normalizePayload
    rw [payloadOrNull, if_neg hfound.payload] at hpayload
    obtain ⟨digest, hok⟩ := (hdigest payload hpayload).mpr hfound.occurredAt
    exact ⟨_, digest, ⟨payload, hpayload, rfl⟩, hok⟩

end HoldsKeyed

/-- The entries of the conflict resolution stream are read if each of them parses. -/
theorem resolutionEntries_eq_ok_iff {events es : List ThalwegEvent} {entries : List (Text × Text)}
    {resolutions : List (Text × ThalwegEvent)} (h : List.Forall₂ (IsRecordOf events) entries es)
    (hstream : ∀ e ∈ es, e.stream = conflictResolutionStream) :
    resolutionEntries entries = .ok resolutions ↔
      (∀ e ∈ es, ∃ p, parseConflictResolution e = .ok p) ∧
      resolutions = es.map fun e => (e.names.getD [], e) := by
  induction h generalizing resolutions with
  | nil => simp [resolutionEntries, @eq_comm _ [] resolutions]
  | @cons entry e entries es hentry _ ih =>
    obtain ⟨-, -, hdecode⟩ := hentry
    obtain ⟨he, hstream⟩ := List.forall_mem_cons.mp hstream
    have hresolved : ∀ eventID, resolvedEventID e = .ok eventID ↔
        (∃ p, parseConflictResolution e = .ok p) ∧ eventID = e.names.getD [] := by
      intro eventID
      simp only [resolvedEventID, bind_eq_ok_iff]
      constructor
      · rintro ⟨p, hp, hok⟩
        refine ⟨⟨p, hp⟩, ?_⟩
        obtain ⟨hne, -⟩ | ⟨named, hn, -, rfl⟩ := parseConflictResolution_eq_ok_iff.mp hp
        · exact absurd he hne
        · rw [hn]
          exact (Except.ok.inj hok).symm
      · rintro ⟨⟨p, hp⟩, rfl⟩
        refine ⟨p, hp, ?_⟩
        obtain ⟨hne, -⟩ | ⟨named, hn, -, rfl⟩ := parseConflictResolution_eq_ok_iff.mp hp
        · exact absurd he hne
        · rw [hn]
          rfl
    simp only [resolutionEntries, bind_eq_ok_iff, hdecode, hresolved, ih hstream, Except.ok.injEq,
      exists_eq_left', List.forall_mem_cons, List.map_cons, and_assoc, exists_and_left,
      exists_eq_left, @eq_comm _ _ resolutions]

namespace HoldsKeyed

variable {store : Store} {events : List ThalwegEvent}

/-- The resolutions of a network can be read exactly if each event of their stream parses; they
supersede the event IDs that they name. -/
theorem conflictResolutionsTxn_spec (h : HoldsKeyed store events) (networkName : Text) :
    ((∃ resolutions, conflictResolutionsTxn store networkName = .ok resolutions) ↔
      ∀ e ∈ events, e.network = networkName → ∃ p, parseConflictResolution e = .ok p) ∧
    ∀ resolutions, conflictResolutionsTxn store networkName = .ok resolutions →
      ∀ eventID, isSuperseded resolutions eventID = true ↔
        Superseded {e | e ∈ events} networkName eventID := by
  have hcolon : ':' ∈ eventStreamPrefix networkName conflictResolutionStream := by
    simp [eventStreamPrefix]
  obtain ⟨es, hread, hmem, -⟩ := h.scan_events (keyFamily_eventStreamPrefix networkName
    conflictResolutionStream) hcolon
  simp only [eventStreamPrefix_isPrefix_eventKey] at hmem
  have hentries := fun resolutions => @resolutionEntries_eq_ok_iff events es _ resolutions hread
    fun e he => ((hmem e).mp he).2.2
  refine ⟨?_, fun resolutions hok eventID => ?_⟩
  · simp only [conflictResolutionsTxn, hentries, exists_and_left, exists_eq, and_true, hmem]
    refine ⟨fun hparse e he hn => ?_, fun hparse e he => hparse e he.1 he.2.1⟩
    by_cases hstream : e.stream = conflictResolutionStream
    · exact hparse e ⟨he, hn, hstream⟩
    · exact ⟨none, parseConflictResolution_of_stream_ne hstream⟩
  · obtain ⟨hparse, rfl⟩ := (hentries resolutions).mp hok
    simp only [isSuperseded, List.any_map, List.any_eq_true, Function.comp_apply, decide_eq_true_eq,
      Superseded, Set.mem_ofPred_eq]
    constructor
    · rintro ⟨r, hr, rfl⟩
      obtain ⟨hin, hn, hstream⟩ := (hmem r).mp hr
      obtain ⟨p, hp⟩ := hparse r hr
      obtain ⟨named, hnamed, -⟩ := names_of_parseConflictResolution hp hstream
      exact ⟨r, hin, hn, by rw [hnamed, Option.getD_some]⟩
    · rintro ⟨r, hin, hn, hnamed⟩
      exact ⟨r, (hmem r).mpr ⟨hin, hn, stream_of_names hnamed⟩, by rw [hnamed, Option.getD_some]⟩

end HoldsKeyed

/-- The entry of a position is read exactly if its event is superseded, or found with a digest. -/
theorem indexedEntry_position_eq_ok_iff {store : Store} {resolutions : List (Text × ThalwegEvent)}
    {e : ThalwegEvent} {entry : Option IndexedEntry} :
    indexedEntry store resolutions e.network (position e) = .ok entry ↔
      if isSuperseded resolutions e.id then entry = none else
        ∃ found digest, findEventByID store e.network e.id = .ok (some found) ∧
          eventDigest found = .ok digest ∧ entry = some ⟨⟨e.id, digest⟩, position e⟩ := by
  obtain ⟨bytes, hdecode, hbytes⟩ := Option.map_eq_some_iff.mp (decode_encodeKeyPart e.id)
  simp only [indexedEntry, position, hdecode, hbytes]
  split_ifs with hsup
  · simp [@eq_comm _ entry]
  · simp only [bind_eq_ok_iff]
    constructor
    · rintro ⟨found, hfound, hok⟩
      cases found with
      | none => cases hok
      | some found =>
        obtain ⟨digest, hdigest, hok⟩ := bind_eq_ok_iff.mp hok
        exact ⟨found, digest, hfound, hdigest, (Except.ok.inj hok).symm⟩
    · rintro ⟨found, digest, hfound, hdigest, rfl⟩
      exact ⟨some found, hfound, bind_eq_ok_iff.mpr ⟨digest, hdigest, rfl⟩⟩

/-- The entries of positions are read exactly if the first events that are not superseded, as many
as there is room for, are found with their digests. -/
theorem exists_indexedEntries_iff {store : Store} {resolutions : List (Text × ThalwegEvent)}
    {networkName : Text} {es : List ThalwegEvent} (hes : ∀ e ∈ es, e.network = networkName)
    (room : Nat) :
    (∃ entries, indexedEntries store resolutions networkName room (es.map position) =
        .ok entries) ↔
      ∀ e ∈ (es.filter fun e => !isSuperseded resolutions e.id).take room,
        ∃ found digest, findEventByID store networkName e.id = .ok (some found) ∧
          eventDigest found = .ok digest := by
  induction es generalizing room with
  | nil => cases room <;> simp [indexedEntries]
  | cons e es ih =>
    obtain ⟨rfl, hes⟩ := List.forall_mem_cons.mp hes
    cases room with
    | zero => simp [indexedEntries]
    | succ room =>
      simp only [List.map_cons, indexedEntries, bind_eq_ok_iff, indexedEntry_position_eq_ok_iff]
      by_cases hsup : isSuperseded resolutions e.id = true
      · simp [hsup, ih hes]
      · rw [Bool.not_eq_true] at hsup
        simp only [hsup, Bool.false_eq_true, if_false, List.filter_cons, Bool.not_false, if_true,
          List.take_succ_cons, List.forall_mem_cons, ← ih hes]
        constructor
        · rintro ⟨entries, _, ⟨found, digest, hfound, hdigest, rfl⟩, hok⟩
          obtain ⟨rest, hrest, -⟩ := bind_eq_ok_iff.mp hok
          exact ⟨⟨found, digest, hfound, hdigest⟩, rest, hrest⟩
        · rintro ⟨⟨found, digest, hfound, hdigest⟩, rest, hrest⟩
          exact ⟨_, _, ⟨found, digest, hfound, hdigest, rfl⟩, bind_eq_ok_iff.mpr ⟨rest, hrest, rfl⟩⟩

/-! ### When a store can synchronize -/

/-- The list starts at the event that has the least position. -/
theorem exists_eq_cons_of_first {es : List ThalwegEvent}
    (hsorted : es.Pairwise fun e f => position e < position f) {e : ThalwegEvent} (he : e ∈ es)
    (hfirst : ∀ f ∈ es, position e ≤ position f) : ∃ rest, es = e :: rest := by
  cases es with
  | nil => cases he
  | cons f rest =>
    refine ⟨rest, ?_⟩
    rcases List.mem_cons.mp he with rfl | hrest
    · rfl
    · have hlt := (List.pairwise_cons.mp hsorted).1 e hrest
      exact absurd (hfirst f List.mem_cons_self) (not_le.mpr hlt)

/-- There is a cursor after which an event comes first. -/
theorem exists_cursor_before {events : List ThalwegEvent} (hids : ∀ e ∈ events, e.id ≠ [])
    (e : ThalwegEvent) :
    ∃ cursor, (cursor = [] ∨ (Base64Url.decode cursor).isSome) ∧ IsAfter cursor e ∧
      ∀ f ∈ events, f.network = e.network → IsAfter cursor f → position e ≤ position f := by
  let before := events.toFinset.filter fun f => f.network = e.network ∧ position f < position e
  have hbefore : ∀ f, f ∈ before ↔
      f ∈ events ∧ f.network = e.network ∧ position f < position e := by
    intro f
    rw [Finset.mem_filter, List.mem_toFinset]
  rcases before.eq_empty_or_nonempty with hempty | hne
  · refine ⟨[], Or.inl rfl, Or.inl rfl, fun f hf hn _ => not_lt.mp fun hlt => ?_⟩
    have hin := (hbefore f).mpr ⟨hf, hn, hlt⟩
    rw [hempty] at hin
    cases hin
  · obtain ⟨p, hp, hmax⟩ := before.exists_max_image position hne
    obtain ⟨hin, -, hlt⟩ := (hbefore p).mp hp
    have hdecode : (Base64Url.decode (position p)).isSome := by
      obtain ⟨bytes, hbytes, -⟩ := Option.map_eq_some_iff.mp (decode_encodeKeyPart p.id)
      exact Option.isSome_of_eq_some hbytes
    refine ⟨position p, Or.inr hdecode, Or.inr hlt,
      fun f hf hn hafter => not_lt.mp fun hfe => ?_⟩
    have hpf := hafter.resolve_left (position_ne_nil (hids p hin))
    exact absurd (hmax f ((hbefore f).mpr ⟨hf, hn, hfe⟩)) (not_le.mpr hpf)

/-- Every inventory page of the daemon can be read, and each of the events has a digest. -/
structure Daemon.CanSynchronize (d : Daemon) (events : List ThalwegEvent) : Prop where
  pages : ∀ networkName cursor limit, ValidPage networkName cursor limit →
    ∃ page, d.inventoryPage networkName cursor limit = .ok page
  digests : ∀ e ∈ events, ∃ digest, eventDigest e = .ok digest

/-- What inventories ask of an event among those of its store. -/
structure IsListable (events : List ThalwegEvent) (e : ThalwegEvent) : Prop where
  complete : IsComplete e
  resolution : e.stream = conflictResolutionStream → ∃ p, parseConflictResolution e = .ok p
  found : IsFound e ∨ Superseded {f | f ∈ events} e.network e.id

theorem IsListable.parses {events : List ThalwegEvent} {e : ThalwegEvent}
    (h : IsListable events e) :
    ∃ p, parseConflictResolution e = .ok p := by
  by_cases hstream : e.stream = conflictResolutionStream
  · exact h.resolution hstream
  · exact ⟨none, parseConflictResolution_of_stream_ne hstream⟩

namespace HoldsKeyed

variable {d : Daemon} {events : List ThalwegEvent}

/-- What an inventory page reads. -/
theorem exists_inventoryPage_iff (h : HoldsKeyed d.store events) {networkName cursor : Text}
    {limit : Int} (hvalid : ValidPage networkName cursor limit) :
    ∃ es : List ThalwegEvent,
      (∀ e, e ∈ es ↔ e ∈ events ∧ e.network = networkName ∧ IsAfter cursor e) ∧
      (es.Pairwise fun e f => position e < position f) ∧
      ((∃ page, d.inventoryPage networkName cursor limit = .ok page) ↔
        ∃ resolutions, conflictResolutionsTxn d.store networkName = .ok resolutions ∧
          ∀ e ∈ (es.filter fun e => !isSuperseded resolutions e.id).take (limit.toNat + 1),
            ∃ found digest, findEventByID d.store networkName e.id = .ok (some found) ∧
              eventDigest found = .ok digest) := by
  obtain ⟨es, hes, hmem, hsorted⟩ :=
    exists_positions_of_index h.distinct h.index_iff networkName cursor
  refine ⟨es, hmem, hsorted, ?_⟩
  have hlimit : ¬ (limit ≤ 0 ∨ (syncMaxPageSize : Int) < limit) :=
    not_or.mpr ⟨not_le.mpr hvalid.limit_pos, not_lt.mpr hvalid.limit_le⟩
  have hcursor : ¬ (cursor ≠ [] ∧ (Base64Url.decode cursor).isNone) := by
    rintro ⟨hne, hnone⟩
    have hsome := hvalid.cursor_eq.resolve_left hne
    rw [Option.isNone_iff_eq_none] at hnone
    rw [hnone] at hsome
    cases hsome
  unfold Daemon.inventoryPage
  simp only [if_neg hlimit, if_neg hvalid.network_ne_nil, if_neg hcursor, bind_eq_ok_iff, hes]
  constructor
  · rintro ⟨page, resolutions, hread, entries, hentries, -⟩
    exact ⟨resolutions, hread,
      (exists_indexedEntries_iff (fun e he => ((hmem e).mp he).2.1) _).mp ⟨entries, hentries⟩⟩
  · rintro ⟨resolutions, hread, hall⟩
    obtain ⟨entries, hentries⟩ :=
      (exists_indexedEntries_iff (fun e he => ((hmem e).mp he).2.1) _).mpr hall
    exact ⟨_, resolutions, hread, entries, hentries, rfl⟩

/-- A daemon can synchronize exactly if inventories can list each of its events. -/
theorem canSynchronize_iff_listable (h : HoldsKeyed d.store events) :
    d.CanSynchronize events ↔ ∀ e ∈ events, IsListable events e := by
  constructor
  · intro hsync
    have hcomplete : ∀ e ∈ events, IsComplete e := fun e he =>
      (h.exists_eventDigest_iff he).mp (hsync.digests e he)
    intro e he
    have hnetwork := (hcomplete e he).ne_nil.2
    obtain ⟨cursor, hcursor, hafter, hfirst⟩ :=
      exists_cursor_before (fun f hf => (hcomplete f hf).ne_nil.1) e
    have hvalid : ValidPage e.network cursor 1 := ⟨hnetwork, hcursor, by decide, by decide⟩
    obtain ⟨es, hmem, hsorted, hpage⟩ := h.exists_inventoryPage_iff hvalid
    obtain ⟨resolutions, hread, hall⟩ := hpage.mp (hsync.pages _ _ _ hvalid)
    obtain ⟨hparse, hsuperseded⟩ := h.conflictResolutionsTxn_spec e.network
    refine ⟨hcomplete e he, fun _ => hparse.mp ⟨resolutions, hread⟩ e he rfl, ?_⟩
    rw [← hsuperseded resolutions hread]
    by_cases hsup : isSuperseded resolutions e.id = true
    · exact Or.inr hsup
    · refine Or.inl ((h.exists_found_iff he (hcomplete e he)).mp (hall e ?_))
      obtain ⟨rest, rfl⟩ := exists_eq_cons_of_first hsorted ((hmem e).mpr ⟨he, rfl, hafter⟩)
        fun f hf => hfirst f ((hmem f).mp hf).1 ((hmem f).mp hf).2.1 ((hmem f).mp hf).2.2
      rw [Bool.not_eq_true] at hsup
      simp [hsup]
  · intro hlistable
    refine ⟨fun networkName cursor limit hvalid => ?_, fun e he =>
      (h.exists_eventDigest_iff he).mpr (hlistable e he).complete⟩
    obtain ⟨es, hmem, -, hpage⟩ := h.exists_inventoryPage_iff hvalid
    obtain ⟨hparse, hsuperseded⟩ := h.conflictResolutionsTxn_spec networkName
    obtain ⟨resolutions, hread⟩ := hparse.mpr fun e he _ => (hlistable e he).parses
    refine hpage.mpr ⟨resolutions, hread, fun e he => ?_⟩
    obtain ⟨hin, hsup⟩ := List.mem_filter.mp (List.mem_of_mem_take he)
    obtain ⟨hevent, rfl, -⟩ := (hmem e).mp hin
    have hlist := hlistable e hevent
    refine (h.exists_found_iff hevent hlist.complete).mpr (hlist.found.resolve_right ?_)
    rw [← hsuperseded resolutions hread]
    simpa using hsup

end HoldsKeyed

/-! ### Accepted stores -/

/-- A store at an older schema, with its events. -/
inductive HoldsOlder (store : Store) : Nat → List ThalwegEvent → Prop
  | legacy {version : Nat} {reads : List (Text × ThalwegEvent)} : version = 1 ∨ version = 2 →
      IsMarked store version → HoldsLegacy store reads →
      HoldsOlder store version (reads.map Prod.snd)
  | keyed {events : List ThalwegEvent} : IsMarked store 3 → HoldsKeyed store events →
      HoldsOlder store 3 events

/-- Schema 3 to 4 keeps the events. -/
theorem HoldsKeyed.of_accepted {store store' : Store} {events : List ThalwegEvent}
    (h : HoldsKeyed store events) (hversion : readStorageSchemaVersion store = .ok (some (3 : Nat)))
    (hrun : ensureStorageSchema store = (.ok (), store')) : HoldsKeyed store' events := by
  obtain ⟨arrived, -, -, hmigrate⟩ := h.migrateStorageV3ToV4
  have hstep := schemaStep_of_version hversion (by decide)
  rw [migrationFrom, hmigrate] at hstep
  obtain ⟨s, hs, hrun⟩ := exists_of_ensureStorageSchema hrun hstep
  obtain rfl := Except.ok.inj hs
  have hdone := schemaStep_of_version (readStorageSchemaVersion_write
    ((Thalweg.writeArrivals store 1 (arrived.map arrivalEntry)).set arrivalSequenceKey
      (Text.decimal arrived.length)) (by decide : 4 ≤ 4)) (by decide)
  obtain rfl := (Prod.mk.inj ((ensureStorageSchema_of_done hdone).symm.trans hrun)).2
  exact h.writeIndex arrived

/-- The records of a store before schema 3 read as one list of events. -/
theorem reads_unique {entries : List (Text × Text)} {reads reads' : List (Text × ThalwegEvent)}
    (h : List.Forall₂ EntryReads entries reads) (h' : List.Forall₂ EntryReads entries reads') :
    reads = reads' := by
  induction h generalizing reads' with
  | nil => exact (List.forall₂_nil_left_iff.mp h').symm
  | @cons entry r entries reads hr _ ih =>
    cases h' with
    | @cons _ r' _ reads' hr' hrest =>
    rw [ih hrest, Prod.ext (hr.1.symm.trans hr'.1) (Except.ok.inj (hr.2.symm.trans hr'.2))]

/-- Schema 2 to 4 keeps the events, in their form after the migrations. -/
theorem HoldsLegacy.of_accepted {store store' : Store} {reads : List (Text × ThalwegEvent)}
    (h : HoldsLegacy store reads) (hversion : readStorageSchemaVersion store = .ok (some (2 : Nat)))
    (hrun : ensureStorageSchema store = (.ok (), store')) :
    HoldsKeyed store' (reads.map fun r => r.2.migrated) := by
  obtain ⟨s, hs, hrun⟩ := exists_of_ensureStorageSchema hrun
    (schemaStep_of_version hversion (by decide))
  obtain ⟨ms, hms, hok⟩ := bind_eq_ok_iff.mp (wrapf_eq_ok_iff.mp hs)
  obtain ⟨reads', hreads, -, -, hdistinct, rfl⟩ := (@migrateEvents_eq_ok_iff [] _ _).mp hms
  obtain rfl := reads_unique h.reads hreads
  obtain rfl := Except.ok.inj hok
  obtain ⟨hkeyed, -⟩ := h.foldl_writeMigratedEvent h.isRawPayload hdistinct
  exact (hkeyed.set_other (by simp) (by simp) metaKeys_not_legacy.2.2 (Text.decimal 3)).of_accepted
    (readStorageSchemaVersion_write _ (by decide)) hrun

/-- A store that is accepted has its events, in their form after the migrations. -/
theorem HoldsOlder.of_accepted {store store' : Store} {version : Nat} {events : List ThalwegEvent}
    (h : HoldsOlder store version events) (hrun : ensureStorageSchema store = (.ok (), store')) :
    HoldsKeyed store' (migratedFrom version events) := by
  cases h with
  | @legacy _ reads hold hmarked hlegacy =>
    have hmap : migratedFrom version (reads.map Prod.snd) = reads.map fun r => r.2.migrated := by
      have hne : version ≠ 3 := by omega
      rw [migratedFrom, if_neg hne, List.map_map]
      rfl
    rw [hmap]
    rcases hold with rfl | rfl
    · obtain ⟨store₁, hlegacy₁, hversion, hensure⟩ := hlegacy.mark hmarked
      obtain ⟨s, hs, hrun⟩ := exists_of_ensureStorageSchema (hensure.symm.trans hrun)
        (schemaStep_of_version hversion (by decide))
      obtain ⟨state, rfl⟩ := exists_of_migrateStorageV1ToV2 (wrapf_eq_ok_iff.mp hs)
      refine HoldsLegacy.of_accepted ?_ (readStorageSchemaVersion_write _ (by decide)) hrun
      exact (hlegacy₁.set_other (by simp) metaKeys_not_legacy.1 _).set_other (by simp)
        metaKeys_not_legacy.2.2 _
    · exact hlegacy.of_accepted (hmarked.resolve_right fun h => absurd h.1 (by decide)) hrun
  | keyed hmarked hkeyed =>
    exact hkeyed.of_accepted (hmarked.resolve_right fun h => absurd h.1 (by decide)) hrun

/-- **Synchronization after a migration.** A daemon on a migrated store can synchronize exactly if
inventories can list each of the migrated events. -/
theorem HoldsOlder.canSynchronize_iff {store : Store} {d : Daemon} {version : Nat}
    {events : List ThalwegEvent} (h : HoldsOlder store version events)
    (hrun : ensureStorageSchema store = (.ok (), d.store)) :
    d.CanSynchronize (migratedFrom version events) ↔
      ∀ e ∈ migratedFrom version events, IsListable (migratedFrom version events) e :=
  (h.of_accepted hrun).canSynchronize_iff_listable

/-! ### Two events that can synchronize -/

theorem ensureStorageSchema_of_toOption {store : Store}
    (h : (ensureStorageSchema store).1.toOption = some ()) :
    ensureStorageSchema store = (.ok (), (ensureStorageSchema store).2) :=
  Prod.ext (eq_ok_of_toOption h) rfl

/-- A daemon on the migrated store of schema 1. -/
def offsetDaemon : Daemon :=
  { Daemon.initial ['d'] Daemon.deviceName_ne_nil fun _ => Daemon.noon with
    store := (ensureStorageSchema offsetStore).2 }

/-- A complete event of no reserved stream, with a payload, is listed. -/
theorem IsListable.of_complete {events : List ThalwegEvent} {e : ThalwegEvent}
    (h : (∀ f ∈ requiredFields e, f.2 ≠ []) ∧ e.stream ≠ conflictResolutionStream ∧ e.payload ≠ [] ∧
      ∀ t ∈ [e.occurredAt, e.insertedAt, e.propagatedAt, canonicalTime e.occurredAt],
        (Instant.parse t).isSome) : IsListable events e := by
  obtain ⟨hrequired, hstream, hpayload, htimes⟩ := h
  simp only [List.forall_mem_cons] at htimes
  obtain ⟨hoccurred, hinserted, hpropagated, hcanonical, -⟩ := htimes
  exact ⟨⟨hrequired, hoccurred, hinserted, hpropagated⟩, fun h => absurd h hstream,
    Or.inl ⟨hpayload, hcanonical⟩⟩

theorem offsetDaemon_canSynchronize :
    offsetDaemon.CanSynchronize (migratedFrom 1 [laterEvent, offsetEvent]) := by
  have holder : HoldsOlder offsetStore 1 [laterEvent, offsetEvent] :=
    .legacy (Or.inl rfl) offsetStore_marked offsetStore_holdsLegacy
  refine (holder.canSynchronize_iff (ensureStorageSchema_of_toOption (by decide +kernel))).mpr ?_
  have hlistable : ∀ e ∈ migratedFrom 1 [laterEvent, offsetEvent],
      (∀ f ∈ requiredFields e, f.2 ≠ []) ∧ e.stream ≠ conflictResolutionStream ∧ e.payload ≠ [] ∧
      ∀ t ∈ [e.occurredAt, e.insertedAt, e.propagatedAt, canonicalTime e.occurredAt],
        (Instant.parse t).isSome := by
    decide +kernel
  exact fun e he => IsListable.of_complete (hlistable e he)

/-! ### An event without the time of its propagation -/

/-- A daemon on the migrated store of schema 2. -/
def spacedDaemon : Daemon :=
  { Daemon.initial ['d'] Daemon.deviceName_ne_nil fun _ => Daemon.noon with
    store := (ensureStorageSchema spacedStore).2 }

theorem ensureStorageSchema_spacedStore :
    ensureStorageSchema spacedStore = (.ok (), spacedDaemon.store) :=
  ensureStorageSchema_of_toOption (by decide +kernel)

theorem spacedStore_older : HoldsOlder spacedStore 2 [spacedEvent] :=
  .legacy (Or.inr rfl) spacedStore_marked spacedStore_holdsLegacy

/-- The inventory of the network cannot be read, and the event has no digest. -/
theorem spacedDaemon_not_canSynchronize : HoldsOlder spacedStore 2 [spacedEvent] ∧
    ensureStorageSchema spacedStore = (.ok (), spacedDaemon.store) ∧
    (¬ ∃ page, spacedDaemon.inventoryPage ['h'] [] 64 = .ok page) ∧
    ¬ spacedDaemon.CanSynchronize (migratedFrom 2 [spacedEvent]) := by
  have hpage : ¬ ∃ page, spacedDaemon.inventoryPage ['h'] [] 64 = .ok page := by
    have hnone : (spacedDaemon.inventoryPage ['h'] [] 64).toOption = none := by decide +kernel
    rintro ⟨page, hok⟩
    rw [hok] at hnone
    cases hnone
  exact ⟨spacedStore_older, ensureStorageSchema_spacedStore, hpage, fun h =>
    hpage (h.pages _ _ _ ⟨by decide, Or.inl rfl, by decide, by decide⟩)⟩

end Thalweg
