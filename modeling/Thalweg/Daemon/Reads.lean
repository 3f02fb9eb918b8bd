import Thalweg.Daemon.Query
import Thalweg.Daemon.Representation

/-!
# What queries and inventories read

The visible events of a network are the stored ones whose ID no stored resolution names. Queries and
inventory pages read exactly these, and they succeed when the events that they read are readable.

* `Superseded`, `visible`.
* `Represents.exists_collectPrefixes`, `queryOrdered_eq`: queries.
* `Represents.exists_positions`, `Represents.indexedEntries_eq_ok_iff`,
  `Represents.exists_inventoryPage`: inventories.
-/

namespace Thalweg

/-- Some resolution of the network names the event ID. -/
def Superseded (S : Set ThalwegEvent) (networkName eventID : Text) : Prop :=
  ∃ r ∈ S, r.network = networkName ∧ r.names = some eventID

/-- The visible events of a network. -/
def visible (S : Set ThalwegEvent) (networkName : Text) : Set ThalwegEvent :=
  {e | e ∈ S ∧ e.network = networkName ∧ ¬ Superseded S networkName e.id}

/-! ### Events of a scan -/

/-- The event stays in a query: it is visible and in range. -/
def keepsEvent (resolutions : List (Text × ThalwegEvent)) (from' to' : Text) (e : ThalwegEvent) : Bool :=
  !isSuperseded resolutions e.id && inRange e from' to'

/-- A scan of stored events is read exactly if their payloads can be, and the occurrence times of
those that are not superseded. -/
theorem collectEvents_eq_ok_iff {resolutions : List (Text × ThalwegEvent)} {from' to' : Text}
    {es xs : List ThalwegEvent} (hes : ∀ e ∈ es, Storable e) :
    collectEvents resolutions from' to' (es.map eventEntry) = .ok xs ↔
      (∀ e ∈ es, payloadDepth e.payload < Json.maxDepth ∧
        (isSuperseded resolutions e.id = false → IsReadableTimestamp e.occurredAt)) ∧
      xs = es.filter (keepsEvent resolutions from' to') := by
  induction es generalizing xs with
  | nil => simp [collectEvents, @eq_comm _ [] xs]
  | cons e es ih =>
    obtain ⟨he, hes⟩ := List.forall_mem_cons.mp hes
    simp only [List.map_cons, collectEvents, bind_eq_ok_iff, eventEntry,
      decodeEvent_eq_ok_iff he.payload, List.forall_mem_cons, and_assoc, exists_and_left,
      exists_eq_left, List.filter_cons, keepsEvent]
    by_cases hsup : isSuperseded resolutions e.id = true
    · simp [hsup, ih hes]
    · rw [Bool.not_eq_true] at hsup
      simp only [hsup, Bool.false_eq_true, if_false, bind_eq_ok_iff, ih hes,
        he.occurredAt.normalizeTimestamp_eq_ok_iff, Bool.not_false, Bool.true_and, and_assoc,
        exists_and_left, exists_eq_left, forall_const, Except.ok.injEq, @eq_comm _ _ xs]

/-! ### Queries -/

/-- The streams that a query lists; none stands for all. -/
def IsListed (streams : List Text) (stream : Text) : Prop := streams = [] ∨ stream ∈ streams

/-- How often a query names a stream; a query without streams names each once. -/
def timesNamed (streams : List Text) (stream : Text) : Nat :=
  if streams = [] then 1 else streams.count stream

namespace Represents

variable {store : Store} {events : List ThalwegEvent}

theorem superseded_iff (h : Represents store events) {networkName eventID : Text} :
    Superseded (storedEvents store) networkName eventID ↔
      ∃ r ∈ events, r.network = networkName ∧ r.names = some eventID := by
  simp only [Superseded, h.mem_storedEvents_iff]

theorem mem_visible_iff (h : Represents store events) {networkName : Text} {e : ThalwegEvent} :
    e ∈ visible (storedEvents store) networkName ↔
      e ∈ events ∧ e.network = networkName ∧ ¬ Superseded (storedEvents store) networkName e.id := by
  rw [visible, Set.mem_ofPred_eq, h.mem_storedEvents_iff]

/-- The resolutions that a read collects supersede what the stored resolutions name. -/
theorem isSuperseded_iff (h : Represents store events) {networkName : Text}
    {resolutions : List (Text × ThalwegEvent)}
    (hread : conflictResolutionsTxn store networkName = .ok resolutions) {eventID : Text} :
    isSuperseded resolutions eventID = true ↔
      Superseded (storedEvents store) networkName eventID := by
  obtain ⟨resolutions', hread', hspec⟩ := h.conflictResolutionsTxn_spec networkName
  obtain rfl := Except.ok.inj (hread.symm.trans hread')
  rw [h.superseded_iff, isSuperseded, List.any_eq_true]
  constructor
  · rintro ⟨⟨named, r⟩, hr, hnamed⟩
    obtain rfl : named = eventID := by simpa using hnamed
    exact ⟨r, (hspec _ r).mp hr⟩
  · rintro ⟨r, hr⟩
    exact ⟨(eventID, r), (hspec _ r).mpr hr, by simp⟩

/-- The events of a scan of primary keys are read when they can be found. -/
theorem exists_collectEvents_scan (h : Represents store events) {pre : Text}
    (hfamily : keyFamily pre = .event) (hcolon : ':' ∈ pre)
    (hfindable : ∀ e ∈ events, pre <+: eventKey e → Findable e)
    (resolutions : List (Text × ThalwegEvent)) (from' to' : Text) :
    ∃ xs, collectEvents resolutions from' to' (store.scan pre pre) = .ok xs ∧ xs.Nodup ∧
      ∀ e, e ∈ xs ↔ e ∈ events ∧ pre <+: eventKey e ∧ keepsEvent resolutions from' to' e = true := by
  obtain ⟨es, hes, hmem, hsorted⟩ := h.scan_events hfamily hcolon
  have hread : ∀ e ∈ es, payloadDepth e.payload < Json.maxDepth ∧
      (isSuperseded resolutions e.id = false → IsReadableTimestamp e.occurredAt) := fun e he =>
    have hin := (hmem e).mp he
    have hfind := hfindable e hin.1 hin.2
    ⟨hfind.2, fun _ => hfind.1⟩
  refine ⟨es.filter (keepsEvent resolutions from' to'), ?_, ?_, fun e => ?_⟩
  · rw [hes]
    exact (collectEvents_eq_ok_iff fun e he => h.storable e ((hmem e).mp he).1).mpr ⟨hread, rfl⟩
  · refine (hsorted.imp fun {e f} hlt => ?_).filter _
    rintro rfl
    exact lt_irrefl _ hlt
  · rw [List.mem_filter, hmem, and_assoc]

/-- A query of the streams of a list reads an event as often as its stream is listed. -/
theorem exists_collectPrefixes_map (h : Represents store events) {networkName : Text}
    (resolutions : List (Text × ThalwegEvent)) (from' to' : Text) {streams : List Text}
    (hfindable : ∀ e ∈ events, e.network = networkName → e.stream ∈ streams → Findable e) :
    ∃ xs, collectPrefixes store resolutions from' to'
        (streams.map (eventStreamPrefix networkName)) = .ok xs ∧
      ∀ e, xs.count e = if e ∈ events ∧ e.network = networkName ∧
        keepsEvent resolutions from' to' e = true then streams.count e.stream else 0 := by
  induction streams with
  | nil => exact ⟨[], rfl, by simp⟩
  | cons stream streams ih =>
    obtain ⟨rest, hrest, hcount⟩ := ih fun e he hn hs =>
      hfindable e he hn (List.mem_cons_of_mem _ hs)
    obtain ⟨xs, hxs, hnodup, hmem⟩ := h.exists_collectEvents_scan
      (keyFamily_eventStreamPrefix networkName stream) (by simp [eventStreamPrefix])
      (fun e he hpre =>
        have hin := eventStreamPrefix_isPrefix_eventKey.mp hpre
        hfindable e he hin.1 (hin.2 ▸ List.mem_cons_self))
      resolutions from' to'
    refine ⟨xs ++ rest, by simp only [List.map_cons, collectPrefixes, hxs, hrest, bind,
      Except.bind], fun e => ?_⟩
    simp only [List.count_append, hcount, hnodup.count, hmem, eventStreamPrefix_isPrefix_eventKey,
      List.count_cons]
    by_cases hkeeps : e ∈ events ∧ e.network = networkName ∧
        keepsEvent resolutions from' to' e = true
    · by_cases hstream : e.stream = stream
      · simp [hkeeps, hstream, Nat.add_comm]
      · simp [hkeeps, hstream, Ne.symm hstream]
    · rw [if_neg fun hall => hkeeps ⟨hall.1, hall.2.1.1, hall.2.2⟩, if_neg hkeeps, if_neg hkeeps]

/-- A query reads an event as often as it names its stream. -/
theorem exists_collectPrefixes (h : Represents store events) {networkName : Text}
    (resolutions : List (Text × ThalwegEvent)) (from' to' : Text) {streams : List Text}
    (hfindable : ∀ e ∈ events, e.network = networkName → IsListed streams e.stream → Findable e) :
    ∃ xs, collectPrefixes store resolutions from' to' (queryPrefixes networkName streams) = .ok xs ∧
      ∀ e, xs.count e = if e ∈ events ∧ e.network = networkName ∧
        keepsEvent resolutions from' to' e = true then timesNamed streams e.stream else 0 := by
  unfold queryPrefixes timesNamed
  split_ifs with hstreams
  · obtain ⟨xs, hxs, hnodup, hmem⟩ := h.exists_collectEvents_scan
      (keyFamily_eventNetworkPrefix networkName) (by simp [eventNetworkPrefix])
      (fun e he hpre =>
        hfindable e he (eventNetworkPrefix_isPrefix_eventKey.mp hpre) (Or.inl hstreams))
      resolutions from' to'
    refine ⟨xs, by simp only [collectPrefixes, hxs, bind, Except.bind, List.append_nil], fun e => ?_⟩
    simp only [hnodup.count, hmem, eventNetworkPrefix_isPrefix_eventKey]
  · exact h.exists_collectPrefixes_map resolutions from' to' fun e he hn hs =>
      hfindable e he hn (Or.inr hs)

end Represents

/-- A query of several prefixes reads each of them. -/
theorem exists_of_collectPrefixes {store : Store} {resolutions : List (Text × ThalwegEvent)}
    {from' to' : Text} {pres : List Text} {xs : List ThalwegEvent}
    (h : collectPrefixes store resolutions from' to' pres = .ok xs) :
    ∀ pre ∈ pres, ∃ ys, collectEvents resolutions from' to' (store.scan pre pre) = .ok ys := by
  induction pres generalizing xs with
  | nil => simp
  | cons pre pres ih =>
    rw [collectPrefixes, bind_eq_ok_iff] at h
    obtain ⟨ys, hys, h⟩ := h
    obtain ⟨rest, hrest, -⟩ := bind_eq_ok_iff.mp h
    exact List.forall_mem_cons.mpr ⟨⟨ys, hys⟩, ih hrest⟩

/-- A query that succeeds has decoded the events of the listed streams. -/
theorem Represents.payloadDepth_lt_of_collectPrefixes {store : Store} {events : List ThalwegEvent}
    (h : Represents store events) {networkName from' to' : Text}
    {resolutions : List (Text × ThalwegEvent)} {streams : List Text} {xs : List ThalwegEvent}
    (hok : collectPrefixes store resolutions from' to' (queryPrefixes networkName streams) = .ok xs)
    {e : ThalwegEvent} (he : e ∈ events) (hn : e.network = networkName)
    (hlisted : IsListed streams e.stream) : payloadDepth e.payload < Json.maxDepth := by
  have hdepth : ∀ pre ∈ queryPrefixes networkName streams, keyFamily pre = .event → ':' ∈ pre →
      pre <+: eventKey e → payloadDepth e.payload < Json.maxDepth := by
    intro pre hpre hfamily hcolon hprefix
    obtain ⟨ys, hys⟩ := exists_of_collectPrefixes hok pre hpre
    obtain ⟨es, hes, hmem, -⟩ := h.scan_events hfamily hcolon
    rw [hes, collectEvents_eq_ok_iff fun f hf => h.storable f ((hmem f).mp hf).1] at hys
    exact (hys.1 e ((hmem e).mpr ⟨he, hprefix⟩)).1
  by_cases hstreams : streams = []
  · exact hdepth (eventNetworkPrefix networkName) (by simp [queryPrefixes, hstreams]) (by simp)
      (by simp [eventNetworkPrefix]) (eventNetworkPrefix_isPrefix_eventKey.mpr hn)
  · exact hdepth (eventStreamPrefix networkName e.stream)
      (by simpa [queryPrefixes, hstreams] using
        ⟨e.stream, hlisted.resolve_left hstreams, rfl⟩) (by simp)
      (by simp [eventStreamPrefix]) (eventStreamPrefix_isPrefix_eventKey.mpr ⟨hn, rfl⟩)

/-- The arguments of a query that it accepts. -/
structure ValidQuery (networkName from' to' : Text) (limit : Int) (order : Text) : Prop where
  network_ne_nil : networkName ≠ []
  order_eq : order = [] ∨ order = "asc".toList ∨ order = "desc".toList
  limit_nonneg : 0 ≤ limit
  from_eq : from' = [] ∨ (Instant.parse from').isSome
  to_eq : to' = [] ∨ (Instant.parse to').isSome

theorem exists_normalizeBound (field : String) {bound : Text}
    (h : bound = [] ∨ (Instant.parse bound).isSome) : ∃ b, normalizeBound field bound = .ok b := by
  unfold normalizeBound
  split_ifs with hnil
  · exact ⟨[], rfl⟩
  · obtain ⟨t, ht⟩ := Option.isSome_iff_exists.mp (h.resolve_left hnil)
    exact ⟨t.format, normalizeTimestamp_eq_ok_iff.mpr ⟨t, ht, rfl⟩⟩

theorem isSome_of_normalizeBound {field : String} {bound b : Text}
    (h : normalizeBound field bound = .ok b) : bound = [] ∨ (Instant.parse bound).isSome := by
  unfold normalizeBound at h
  split_ifs at h with hnil
  · exact Or.inl hnil
  · obtain ⟨t, ht, -⟩ := normalizeTimestamp_eq_ok_iff.mp h
    exact Or.inr (by rw [ht]; rfl)

/-- The events of a query in the requested order. -/
def arranged (order : Text) (events : List ThalwegEvent) : List ThalwegEvent :=
  if order = "desc".toList then
    events.insertionSort fun a b => chronologicalKey b ≤ chronologicalKey a
  else events.insertionSort fun a b => chronologicalKey a ≤ chronologicalKey b

theorem arranged_perm (order : Text) (events : List ThalwegEvent) :
    (arranged order events).Perm events := by
  unfold arranged
  split_ifs
  · exact List.perm_insertionSort _ _
  · exact List.perm_insertionSort _ _

/-- The first events of a query; with the limit zero, all. -/
def limited (limit : Int) (events : List ThalwegEvent) : List ThalwegEvent :=
  if 0 < limit ∧ limit < events.length then events.take limit.toNat else events

/-- What a query that can be answered returns. -/
theorem queryOrdered_eq {d : Daemon} {networkName from' to' from₁ to₁ order : Text} {limit : Int}
    {streams : List Text} {resolutions : List (Text × ThalwegEvent)} {events : List ThalwegEvent}
    (hvalid : ValidQuery networkName from' to' limit order)
    (hfrom : normalizeBound "from" from' = .ok from₁) (hto : normalizeBound "to" to' = .ok to₁)
    (hread : conflictResolutionsTxn d.store networkName = .ok resolutions)
    (hevents : collectPrefixes d.store resolutions from₁ to₁ (queryPrefixes networkName streams) =
      .ok events) :
    d.queryOrdered networkName streams from' to' limit order =
      .ok (limited limit (arranged order events)) := by
  have horder : ¬ ((if order = [] then "asc".toList else order) ≠ "asc".toList ∧
      (if order = [] then "asc".toList else order) ≠ "desc".toList) := by
    rintro ⟨hasc, hdesc⟩
    rcases hvalid.order_eq with rfl | rfl | rfl
    · exact hasc rfl
    · exact hasc (by decide)
    · exact hdesc (by decide)
  have harranged : (if (if order = [] then "asc".toList else order) = "desc".toList then
        events.insertionSort fun a b => chronologicalKey b ≤ chronologicalKey a
      else events.insertionSort fun a b => chronologicalKey a ≤ chronologicalKey b) =
      arranged order events := by
    rcases hvalid.order_eq with rfl | rfl | rfl <;> rfl
  unfold Daemon.queryOrdered
  simp only [if_neg hvalid.network_ne_nil, if_neg horder, if_neg (not_lt.mpr hvalid.limit_nonneg),
    hfrom, hto, hread, hevents, bind, Except.bind, harranged]
  rfl

/-- What a query that is answered has read. -/
theorem queryOrdered_eq_ok {d : Daemon} {networkName from' to' order : Text} {limit : Int}
    {streams : List Text} {xs : List ThalwegEvent}
    (h : d.queryOrdered networkName streams from' to' limit order = .ok xs) :
    ValidQuery networkName from' to' limit order ∧ ∃ from₁ to₁ resolutions events,
      normalizeBound "from" from' = .ok from₁ ∧ normalizeBound "to" to' = .ok to₁ ∧
      conflictResolutionsTxn d.store networkName = .ok resolutions ∧
      collectPrefixes d.store resolutions from₁ to₁ (queryPrefixes networkName streams) =
        .ok events := by
  unfold Daemon.queryOrdered at h
  by_cases hn : networkName = []
  · rw [if_pos hn] at h
    cases h
  by_cases horder : (if order = [] then "asc".toList else order) ≠ "asc".toList ∧
      (if order = [] then "asc".toList else order) ≠ "desc".toList
  · rw [if_neg hn, if_pos horder] at h
    cases h
  by_cases hlimit : limit < 0
  · rw [if_neg hn, if_neg horder, if_pos hlimit] at h
    cases h
  rw [if_neg hn, if_neg horder, if_neg hlimit] at h
  obtain ⟨from₁, hfrom, h⟩ := bind_eq_ok_iff.mp h
  obtain ⟨to₁, hto, h⟩ := bind_eq_ok_iff.mp h
  obtain ⟨resolutions, hread, h⟩ := bind_eq_ok_iff.mp h
  obtain ⟨events, hevents, -⟩ := bind_eq_ok_iff.mp h
  refine ⟨⟨hn, ?_, not_lt.mp hlimit, isSome_of_normalizeBound hfrom, isSome_of_normalizeBound hto⟩,
    from₁, to₁, resolutions, events, hfrom, hto, hread, hevents⟩
  by_cases hnil : order = []
  · exact Or.inl hnil
  · rw [if_neg hnil] at horder
    exact Or.inr (by tauto)

/-- A query of a network whose events can be found succeeds. -/
theorem Represents.exists_queryOrdered {d : Daemon} {events : List ThalwegEvent}
    (h : Represents d.store events) {networkName from' to' : Text} {limit : Int} {order : Text}
    (hfindable : ∀ e ∈ events, e.network = networkName → Findable e) (streams : List Text)
    (hvalid : ValidQuery networkName from' to' limit order) :
    ∃ xs, d.queryOrdered networkName streams from' to' limit order = .ok xs := by
  obtain ⟨from₁, hfrom⟩ := exists_normalizeBound "from" hvalid.from_eq
  obtain ⟨to₁, hto⟩ := exists_normalizeBound "to" hvalid.to_eq
  obtain ⟨resolutions, hread, -⟩ := h.conflictResolutionsTxn_spec networkName
  obtain ⟨xs, hxs, -⟩ := h.exists_collectPrefixes resolutions from₁ to₁
    fun e he hn (_ : IsListed streams e.stream) => hfindable e he hn
  exact ⟨_, queryOrdered_eq hvalid hfrom hto hread hxs⟩

/-! ### Positions in the ID index -/

/-- The position of an event in the ID index of its network. -/
def position (e : ThalwegEvent) : Text := encodeKeyPart e.id

/-- The inventory entry of an event. -/
def entryOf (e : ThalwegEvent) : InventoryEntry := ⟨e.id, digestOf e⟩

/-- The inventory entry of an event with its position. -/
def indexedEntryOf (e : ThalwegEvent) : IndexedEntry := ⟨entryOf e, position e⟩

/-- The event comes after a cursor. -/
def IsAfter (cursor : Text) (e : ThalwegEvent) : Prop := cursor = [] ∨ cursor < position e

theorem eventIDKey_eq_append (e : ThalwegEvent) :
    eventIDKey e.network e.id = eventIDPrefix e.network ++ position e := rfl

/-- The positions of an index of IDs after a cursor are those of the network's events after it, in
order. -/
theorem exists_positions_of_index {store : Store} {events : List ThalwegEvent}
    (hdistinct : Distinct events)
    (hindex : ∀ key value, keyFamily key = .eventID → (store.get key = some value ↔
      ∃ e ∈ events, key = eventIDKey e.network e.id ∧ value = eventKey e))
    (networkName cursor : Text) :
    ∃ es : List ThalwegEvent, indexPositions store networkName cursor = es.map position ∧
      (∀ e, e ∈ es ↔ e ∈ events ∧ e.network = networkName ∧ IsAfter cursor e) ∧
      es.Pairwise fun e f => position e < position f := by
  have hmem : ∀ k v, (k, v) ∈ store.scan (eventIDPrefix networkName)
      (eventIDPrefix networkName ++ cursor) ↔ ∃ e ∈ events, e.network = networkName ∧
        k = eventIDPrefix networkName ++ position e ∧ v = eventKey e ∧ cursor ≤ position e := by
    intro k v
    rw [store.mem_scan_iff (List.prefix_append _ _)]
    constructor
    · rintro ⟨hget, hle, hpre⟩
      have hfamily : keyFamily k = .eventID := by
        rw [keyFamily_of_isPrefix (by simp [eventIDPrefix]) hpre, keyFamily_eventIDPrefix]
      obtain ⟨e, he, rfl, rfl⟩ := (hindex _ _ hfamily).mp hget
      obtain rfl := eventIDPrefix_isPrefix_eventIDKey.mp hpre
      rw [eventIDKey_eq_append, OrderedStore.append_le_append_iff] at hle
      exact ⟨e, he, rfl, rfl, rfl, hle⟩
    · rintro ⟨e, he, rfl, rfl, rfl, hle⟩
      refine ⟨(hindex _ _ (keyFamily_eventIDKey _ _)).mpr ⟨e, he, rfl, rfl⟩, ?_⟩
      exact ⟨OrderedStore.append_le_append_iff.mpr hle, List.prefix_append _ _⟩
  have hentries : ∀ entry ∈ store.scan (eventIDPrefix networkName)
      (eventIDPrefix networkName ++ cursor), ∃ e, (e ∈ events ∧ e.network = networkName ∧
        cursor ≤ position e) ∧ entry = (eventIDPrefix networkName ++ position e, eventKey e) := by
    rintro ⟨k, v⟩ hkv
    obtain ⟨e, he, hn, rfl, rfl, hle⟩ := (hmem k v).mp hkv
    exact ⟨e, ⟨he, hn, hle⟩, rfl⟩
  obtain ⟨es, hes, hevents⟩ := exists_map_of_forall hentries
  have hin : ∀ e, e ∈ es ↔ e ∈ events ∧ e.network = networkName ∧ cursor ≤ position e := by
    refine fun e => ⟨hevents e, ?_⟩
    rintro ⟨he, hn, hle⟩
    have hscan : (eventIDPrefix networkName ++ position e, eventKey e) ∈ es.map fun e =>
        (eventIDPrefix networkName ++ position e, eventKey e) :=
      hes ▸ (hmem _ _).mpr ⟨e, he, hn, rfl, rfl, hle⟩
    obtain ⟨f, hf, hfe⟩ := List.mem_map.mp hscan
    obtain ⟨hfn, -, -, -, -, hfi⟩ := eventKey_inj.mp (congrArg Prod.snd hfe)
    rwa [← hdistinct.eq_of_id (hevents f hf).1 he hfn hfi]
  have hsorted : es.Pairwise fun e f => position e < position f := by
    have := store.sorted_scan (eventIDPrefix networkName) (eventIDPrefix networkName ++ cursor)
    rw [hes, List.pairwise_map] at this
    exact this.imp OrderedStore.append_lt_append_iff.mp
  refine ⟨es.filter fun e => decide (cursor = []) || decide (cursor < position e), ?_, ?_,
    hsorted.filter _⟩
  · simp only [indexPositions, hes, List.map_map, Function.comp_def, List.drop_left]
    rw [show (fun e => position e) = position from rfl, List.filter_map]
    rfl
  · intro e
    rw [List.mem_filter, hin]
    simp only [Bool.or_eq_true, decide_eq_true_eq, IsAfter]
    constructor
    · rintro ⟨⟨he, hn, -⟩, hafter⟩
      exact ⟨he, hn, hafter⟩
    · rintro ⟨he, hn, hafter⟩
      refine ⟨⟨he, hn, ?_⟩, hafter⟩
      rcases hafter with rfl | hlt
      · exact not_lt.mp (List.not_lt_nil _)
      · exact hlt.le

/-- The positions after a cursor are those of the network's events after it, in order. -/
theorem Represents.exists_positions {store : Store} {events : List ThalwegEvent}
    (h : Represents store events) (networkName cursor : Text) :
    ∃ es : List ThalwegEvent, indexPositions store networkName cursor = es.map position ∧
      (∀ e, e ∈ es ↔ e ∈ events ∧ e.network = networkName ∧ IsAfter cursor e) ∧
      es.Pairwise fun e f => position e < position f :=
  exists_positions_of_index h.distinct h.index_iff networkName cursor

/-! ### Inventory pages -/

theorem Storable.readable_iff {e : ThalwegEvent} (h : Storable e) :
    Readable e ↔ Findable e ∧ HasReadableTimes e :=
  ⟨fun hr => ⟨hr.findable, hr.times⟩, fun hr => ⟨h, hr.2, hr.1.2⟩⟩

namespace Represents

variable {store : Store} {events : List ThalwegEvent}

theorem indexedEntry_of_superseded {resolutions : List (Text × ThalwegEvent)} {e : ThalwegEvent}
    (hsup : isSuperseded resolutions e.id = true) (networkName : Text) :
    indexedEntry store resolutions networkName (position e) = .ok none := by
  unfold indexedEntry
  obtain ⟨bytes, hdecode, hbytes⟩ := Option.map_eq_some_iff.mp (decode_encodeKeyPart e.id)
  simp only [position, hdecode, hbytes, hsup, if_true]

theorem indexedEntry_eq_ok_iff (h : Represents store events)
    {resolutions : List (Text × ThalwegEvent)} {e : ThalwegEvent} (he : e ∈ events)
    (hsup : isSuperseded resolutions e.id = false) {entry : Option IndexedEntry} :
    indexedEntry store resolutions e.network (position e) = .ok entry ↔
      Readable e ∧ entry = some (indexedEntryOf e) := by
  have hstorable := h.storable e he
  obtain ⟨bytes, hdecode, hbytes⟩ := Option.map_eq_some_iff.mp (decode_encodeKeyPart e.id)
  unfold indexedEntry
  simp only [position, hdecode, hbytes, hsup, Bool.false_eq_true, if_false, bind_eq_ok_iff,
    h.findEventByID_of_mem he, and_assoc, exists_and_left, exists_eq_left,
    hstorable.eventDigest_eq_ok_iff, hstorable.readable_iff, Except.ok.injEq]
  simp only [indexedEntryOf, entryOf, position, @eq_comm _ entry]

/-- The entries of positions are those of the visible ones among their events, at most as many as
there is room for, which have to be readable. -/
theorem indexedEntries_eq_ok_iff (h : Represents store events)
    {resolutions : List (Text × ThalwegEvent)} {networkName : Text} {es : List ThalwegEvent}
    (hes : ∀ e ∈ es, e ∈ events ∧ e.network = networkName) (room : Nat) {entries : List IndexedEntry} :
    indexedEntries store resolutions networkName room (es.map position) = .ok entries ↔
      (∀ e ∈ (es.filter fun e => !isSuperseded resolutions e.id).take room, Readable e) ∧
      entries = ((es.filter fun e => !isSuperseded resolutions e.id).take room).map
        indexedEntryOf := by
  induction es generalizing room entries with
  | nil => cases room <;> simp [indexedEntries, @eq_comm _ [] entries]
  | cons e es ih =>
    obtain ⟨⟨he, rfl⟩, hes⟩ := List.forall_mem_cons.mp hes
    cases room with
    | zero => simp [indexedEntries, @eq_comm _ [] entries]
    | succ room =>
      simp only [List.map_cons, indexedEntries, bind_eq_ok_iff]
      by_cases hsup : isSuperseded resolutions e.id = true
      · simp [indexedEntry_of_superseded hsup, hsup, ih hes]
      · rw [Bool.not_eq_true] at hsup
        simp only [h.indexedEntry_eq_ok_iff he hsup, and_assoc, exists_and_left, exists_eq_left,
          bind_eq_ok_iff, ih hes, List.filter_cons, hsup, Bool.not_false, if_true,
          List.take_succ_cons, List.forall_mem_cons, List.map_cons, Except.ok.injEq,
          @eq_comm _ _ entries]

end Represents

/-- The page lists the events of an inventory from a cursor on, up to the cursor after the page. -/
structure InventoryPage.Lists (page : InventoryPage) (inventory : Set ThalwegEvent) (cursor : Text)
    (es : List ThalwegEvent) : Prop where
  entries_perm : page.entries.Perm (es.map entryOf)
  nodup : es.Nodup
  readable : ∀ e ∈ es, Readable e
  mem_iff : ∀ e, e ∈ es ↔
    e ∈ inventory ∧ IsAfter cursor e ∧ (page.done = true ∨ position e ≤ page.nextCursor)
  advances : page.done = false → cursor < page.nextCursor

theorem mem_take_iff_le_getLast {vis : List ThalwegEvent}
    (hsorted : vis.Pairwise fun e f => position e < position f) {limit : Nat}
    (hne : vis.take limit ≠ []) {e : ThalwegEvent} (he : e ∈ vis) :
    e ∈ vis.take limit ↔ position e ≤ position ((vis.take limit).getLast hne) := by
  have hsplit := vis.take_append_drop limit
  rw [← hsplit, List.pairwise_append] at hsorted
  constructor
  · intro hin
    have hlast := List.dropLast_append_getLast hne
    rw [← hlast, List.mem_append, List.mem_singleton] at hin
    rcases hin with hin | rfl
    · have hpair := hsorted.1
      rw [← hlast, List.pairwise_append] at hpair
      exact (hpair.2.2 e hin _ (by simp)).le
    · exact le_refl _
  · intro hle
    rw [← hsplit, List.mem_append] at he
    refine he.resolve_right fun hdrop => ?_
    exact absurd hle (not_le.mpr (hsorted.2.2 _ (List.getLast_mem hne) e hdrop))

theorem position_ne_nil {e : ThalwegEvent} (h : e.id ≠ []) : position e ≠ [] := by
  intro heq
  exact h (encodeKeyPart_injective (heq.trans (by decide)))

/-- The arguments of an inventory page that it accepts. -/
structure ValidPage (networkName cursor : Text) (limit : Int) : Prop where
  network_ne_nil : networkName ≠ []
  cursor_eq : cursor = [] ∨ (Base64Url.decode cursor).isSome
  limit_pos : 0 < limit
  limit_le : limit ≤ syncMaxPageSize

namespace Represents

variable {d : Daemon} {events : List ThalwegEvent}

/-- What an inventory page reads: the visible events after the cursor, in the order of their
positions, as many as it may hold and one more. -/
theorem exists_inventoryPage_eq (h : Represents d.store events) (networkName cursor : Text) :
    ∃ vis : List ThalwegEvent,
      (∀ e, e ∈ vis ↔ e ∈ visible (storedEvents d.store) networkName ∧ IsAfter cursor e) ∧
      (vis.Pairwise fun e f => position e < position f) ∧
      ∀ limit page, d.inventoryPage networkName cursor limit = .ok page ↔
        ValidPage networkName cursor limit ∧ (∀ e ∈ vis.take (limit.toNat + 1), Readable e) ∧
        page = pageOf ((vis.take (limit.toNat + 1)).map indexedEntryOf) limit.toNat := by
  obtain ⟨resolutions, hread, -⟩ := h.conflictResolutionsTxn_spec networkName
  obtain ⟨es, hes, hmem, hsorted⟩ := h.exists_positions networkName cursor
  refine ⟨es.filter fun e => !isSuperseded resolutions e.id, fun e => ?_, hsorted.filter _,
    fun limit page => ?_⟩
  · rw [List.mem_filter, hmem, h.mem_visible_iff, ← h.isSuperseded_iff hread]
    simp only [Bool.not_eq_true', Bool.not_eq_true]
    tauto
  · unfold Daemon.inventoryPage
    by_cases hlimit : limit ≤ 0 ∨ (syncMaxPageSize : Int) < limit
    · rw [if_pos hlimit]
      refine iff_of_false nofun fun hvalid => ?_
      rcases hlimit with hlimit | hlimit
      · exact absurd hvalid.1.limit_pos (not_lt.mpr hlimit)
      · exact absurd hvalid.1.limit_le (not_le.mpr hlimit)
    rw [if_neg hlimit]
    by_cases hn : networkName = []
    · rw [if_pos hn]
      exact iff_of_false nofun fun hvalid => hvalid.1.network_ne_nil hn
    rw [if_neg hn]
    by_cases hcursor : cursor ≠ [] ∧ (Base64Url.decode cursor).isNone
    · rw [if_pos hcursor]
      refine iff_of_false nofun fun hvalid => ?_
      rcases hvalid.1.cursor_eq with hnil | hsome
      · exact hcursor.1 hnil
      · rw [Option.isNone_iff_eq_none] at hcursor
        rw [hcursor.2] at hsome
        cases hsome
    rw [if_neg hcursor]
    have hvalid : ValidPage networkName cursor limit := by
      push Not at hlimit hcursor
      refine ⟨hn, ?_, hlimit.1, hlimit.2⟩
      by_cases hnil : cursor = []
      · exact Or.inl hnil
      · refine Or.inr ?_
        have := hcursor hnil
        rwa [← Option.not_isNone, Bool.not_eq_true', Bool.eq_false_iff]
    simp only [hread, hes, bind_eq_ok_iff, Except.ok.injEq, exists_eq_left',
      h.indexedEntries_eq_ok_iff fun e he => ⟨((hmem e).mp he).1, ((hmem e).mp he).2.1⟩, and_assoc,
      exists_and_left, exists_eq_left, hvalid, true_and, @eq_comm _ _ page]

/-- A page lists the visible events from its cursor on. -/
theorem inventoryPage_lists (h : Represents d.store events) {networkName cursor : Text} {limit : Int}
    {page : InventoryPage} (hok : d.inventoryPage networkName cursor limit = .ok page) :
    ∃ es, page.Lists (visible (storedEvents d.store) networkName) cursor es := by
  obtain ⟨vis, hmem, hsorted, hpage⟩ := h.exists_inventoryPage_eq networkName cursor
  obtain ⟨hvalid, hreadable, rfl⟩ := (hpage limit page).mp hok
  have hpos : 0 < limit.toNat := by
    have := hvalid.limit_pos
    omega
  generalize limit.toNat = limit at hpos hreadable ⊢
  have hlast : limit < vis.length → ∃ hne : vis.take limit ≠ [],
      (pageOf ((vis.take (limit + 1)).map indexedEntryOf) limit).nextCursor =
        position ((vis.take limit).getLast hne) := by
    intro hlt
    have hne : vis.take limit ≠ [] := by
      rw [Ne, List.take_eq_nil_iff, not_or]
      exact ⟨hpos.ne', List.ne_nil_of_length_pos (by omega)⟩
    refine ⟨hne, ?_⟩
    simp only [pageOf, ← List.map_take, List.take_take, Nat.min_eq_left (Nat.le_succ limit),
      List.getLast?_map, List.getLast?_eq_some_getLast hne, Option.map_some, Option.getD_some,
      indexedEntryOf]
  have hdone : (pageOf ((vis.take (limit + 1)).map indexedEntryOf) limit).done = true ↔
      vis.length ≤ limit := by
    simp only [pageOf, List.length_map, List.length_take, decide_eq_true_eq]
    omega
  have htake : ((vis.take (limit + 1)).map indexedEntryOf).take limit =
      (vis.take limit).map indexedEntryOf := by
    rw [← List.map_take, List.take_take, Nat.min_eq_left (Nat.le_succ limit)]
  have hmap : ∀ es : List ThalwegEvent, (es.map indexedEntryOf).map IndexedEntry.entry =
      es.map entryOf := fun es => by simp [indexedEntryOf]
  refine ⟨vis.take limit, ?_, ?_, ?_, ?_, ?_⟩
  · unfold pageOf
    simp only [htake, hmap]
    exact List.perm_insertionSort _ _
  · refine List.Pairwise.imp (fun hlt heq => ?_) (hsorted.sublist (List.take_sublist _ _))
    rw [heq] at hlt
    exact lt_irrefl _ hlt
  · intro e he
    exact hreadable e ((List.take_sublist_take_left (Nat.le_succ limit)).subset he)
  · intro e
    rw [hdone, ← and_assoc, ← hmem]
    rcases le_or_gt vis.length limit with hle | hlt
    · simp [List.take_of_length_le hle, hle]
    · obtain ⟨hne, hnext⟩ := hlast hlt
      rw [hnext]
      constructor
      · intro he
        have hin := List.mem_of_mem_take he
        exact ⟨hin, Or.inr ((mem_take_iff_le_getLast hsorted hne hin).mp he)⟩
      · rintro ⟨hin, hle | hle⟩
        · exact absurd hle (not_le.mpr hlt)
        · exact (mem_take_iff_le_getLast hsorted hne hin).mpr hle
  · intro hnot
    have hlt : limit < vis.length := by
      by_contra hle
      rw [hdone.mpr (not_lt.mp hle)] at hnot
      cases hnot
    obtain ⟨hne, hnext⟩ := hlast hlt
    rw [hnext]
    obtain ⟨hin, hafter⟩ := (hmem _).mp (List.mem_of_mem_take (List.getLast_mem hne))
    rcases hafter with rfl | hafter
    · refine OrderedStore.nil_lt_of_ne_nil (position_ne_nil ?_)
      exact (h.storable _ (h.mem_visible_iff.mp hin).1).id_ne_nil
    · exact hafter

/-- A page of a network whose events are readable can be read. -/
theorem exists_inventoryPage (h : Represents d.store events) {networkName cursor : Text} {limit : Int}
    (hreadable : ∀ e ∈ events, e.network = networkName → Readable e)
    (hvalid : ValidPage networkName cursor limit) :
    ∃ page, d.inventoryPage networkName cursor limit = .ok page := by
  obtain ⟨vis, hmem, -, hpage⟩ := h.exists_inventoryPage_eq networkName cursor
  refine ⟨_, (hpage limit _).mpr ⟨hvalid, fun e he => ?_, rfl⟩⟩
  obtain ⟨hin, hn, -⟩ := h.mem_visible_iff.mp ((hmem e).mp (List.mem_of_mem_take he)).1
  exact hreadable e hin hn

end Represents

end Thalweg
