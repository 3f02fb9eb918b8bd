import Thalweg.Daemon.Reads
import Thalweg.Daemon.SiphonRecords
import Thalweg.Data.LogConsumer

/-!
# Delivery by durable siphons

A durable siphon is a consumer of the log of arrivals: what it delivers, acknowledged or pending, is
what it wanted of the arrivals between its first cursor and the position that it has reached.

* `arrivalsOf`, `Represents.scan_arrivals`: what a scan of the arrival index sees.
* `Represents.selectArrivals_spec`: what a poll selects.
* `Daemon.Holds.siphon_cases`: what an operation does to a siphon.
* `Daemon.Follows`: a siphon behaves as a consumer of the log.
* `Daemon.Reachable.durable_delivery`: the deliveries of a siphon over a run.
-/

namespace Thalweg

open LogConsumer Relation

/-! ### Scans of the arrival index -/

theorem arrivalIndexKey_lt {network : Text} {i j : UInt64} (h : i.toNat < j.toNat) :
    arrivalIndexKey network i < arrivalIndexKey network j := by
  rw [arrivalIndexKey, arrivalIndexKey, OrderedStore.append_lt_append_iff]
  refine Text.padDecimal_lt_padDecimal (by decide) h ?_
  exact j.toNat_lt.trans (by decide)

theorem arrivalIndexKey_le_iff {network : Text} {i j : UInt64} :
    arrivalIndexKey network i ≤ arrivalIndexKey network j ↔ i.toNat ≤ j.toNat := by
  constructor
  · intro h
    by_contra hlt
    exact absurd (arrivalIndexKey_lt (not_le.mp hlt)) (not_lt.mpr h)
  · intro h
    rcases h.lt_or_eq with hlt | heq
    · exact (arrivalIndexKey_lt hlt).le
    · rw [UInt64.toNat_inj.mp heq]

theorem arrivalSequenceFromKey_arrivalIndexKey (network : Text) (sequence : UInt64) :
    arrivalSequenceFromKey (arrivalIndexPrefix network) (arrivalIndexKey network sequence) =
      .ok sequence := by
  have hwidth : (Text.padDecimal 20 sequence.toNat).length = 20 :=
    Text.length_padDecimal (by decide) (sequence.toNat_lt.trans (by decide))
  have hlength : (arrivalIndexKey network sequence).length =
      (arrivalIndexPrefix network).length + 20 := by
    rw [arrivalIndexKey, List.length_append, hwidth]
  rw [arrivalSequenceFromKey, if_neg (not_not.mpr hlength), arrivalIndexKey, List.drop_left]
  simp only [parseUint64, Text.parseDecimal_padDecimal, if_pos sequence.toNat_lt,
    UInt64.ofNat_toNat]

/-- The entries of the arrival index for the events of a network, where `n` events arrived before
them. -/
def arrivalsOf (network : Text) : ℕ → List ThalwegEvent → List (Text × Text)
  | _, [] => []
  | n, e :: es =>
    if e.network = network then
      (arrivalIndexKey network (UInt64.ofNat (n + 1)), eventKey e) ::
        arrivalsOf network (n + 1) es
    else arrivalsOf network (n + 1) es

theorem mem_arrivalsOf_iff {network : Text} {n : ℕ} {es : List ThalwegEvent}
    {entry : Text × Text} : entry ∈ arrivalsOf network n es ↔
      ∃ i e, es[i]? = some e ∧ e.network = network ∧
        entry = (arrivalIndexKey network (UInt64.ofNat (n + i + 1)), eventKey e) := by
  induction es generalizing n with
  | nil => simp [arrivalsOf]
  | cons e es ih =>
    have hsplit : (∃ i f, (e :: es)[i]? = some f ∧ f.network = network ∧
        entry = (arrivalIndexKey network (UInt64.ofNat (n + i + 1)), eventKey f)) ↔
        (e.network = network ∧ entry = (arrivalIndexKey network (UInt64.ofNat (n + 1)), eventKey e)) ∨
          ∃ i f, es[i]? = some f ∧ f.network = network ∧
            entry = (arrivalIndexKey network (UInt64.ofNat (n + 1 + i + 1)), eventKey f) := by
      constructor
      · rintro ⟨i, f, hi, hf, rfl⟩
        cases i with
        | zero =>
          obtain rfl : e = f := by simpa using hi
          exact Or.inl ⟨hf, rfl⟩
        | succ i => exact Or.inr ⟨i, f, by simpa using hi, hf, by rw [Nat.add_right_comm n 1 i]; rfl⟩
      · rintro (⟨he, rfl⟩ | ⟨i, f, hi, hf, rfl⟩)
        · exact ⟨0, e, rfl, he, rfl⟩
        · exact ⟨i + 1, f, by simpa using hi, hf, by rw [Nat.add_right_comm n 1 i]; rfl⟩
    rw [hsplit, ← ih, arrivalsOf]
    split_ifs with he <;> simp [he]

theorem sorted_arrivalsOf {network : Text} {n : ℕ} {es : List ThalwegEvent}
    (h : n + es.length < 2 ^ 64) :
    (arrivalsOf network n es).Pairwise fun a b => a.1 < b.1 := by
  induction es generalizing n with
  | nil => exact List.Pairwise.nil
  | cons e es ih =>
    simp only [List.length_cons] at h
    have hrest := ih (n := n + 1) (by omega)
    rw [arrivalsOf]
    split_ifs
    · refine List.Pairwise.cons (fun entry hentry => ?_) hrest
      obtain ⟨i, f, hi, -, rfl⟩ := mem_arrivalsOf_iff.mp hentry
      have hlt : i < es.length := (List.getElem?_eq_some_iff.mp hi).1
      refine arrivalIndexKey_lt ?_
      rw [UInt64.toNat_ofNat_of_lt' (show n + 1 < 2 ^ 64 by omega),
        UInt64.toNat_ofNat_of_lt' (show n + 1 + i + 1 < 2 ^ 64 by omega)]
      omega
    · exact hrest

namespace Represents

variable {store : Store} {events : List ThalwegEvent}

/-- A scan of the arrival index behind a cursor sees the later arrivals of the network. -/
theorem scan_arrivals (h : Represents store events) (network : Text) {cursor : UInt64}
    (hcursor : cursor.toNat + 1 < 2 ^ 64) (hle : cursor.toNat ≤ events.length) :
    store.scan (arrivalIndexPrefix network) (arrivalIndexKey network (cursor + 1)) =
      arrivalsOf network cursor.toNat (events.drop cursor.toNat) := by
  have hirrefl : Std.Irrefl fun a b : Text × Text => a.1 < b.1 := ⟨fun a => lt_irrefl a.1⟩
  have hanti : Std.Antisymm fun a b : Text × Text => a.1 < b.1 :=
    ⟨fun a b hab hba => absurd hab hba.asymm⟩
  have hlength := h.length_lt
  have hsucc : (cursor + 1).toNat = cursor.toNat + 1 := by
    rw [UInt64.toNat_add, UInt64.toNat_one, Nat.mod_eq_of_lt hcursor]
  have hprefix : arrivalIndexPrefix network <+: arrivalIndexKey network (cursor + 1) :=
    List.prefix_append _ _
  refine (store.sorted_scan _ _).eq_of_mem_iff (sorted_arrivalsOf ?_) fun entry => ?_
  · rw [List.length_drop]
    omega
  rw [← Prod.mk.eta (p := entry), store.mem_scan_iff hprefix,
    mem_arrivalsOf_iff]
  constructor
  · rintro ⟨hget, hseek, hpre⟩
    have hfamily : keyFamily entry.1 = .arrival := by
      rw [keyFamily_of_isPrefix (colon_mem_arrivalIndexPrefix network) hpre,
        keyFamily_arrivalIndexPrefix]
    obtain ⟨i, e, hi, hkey, hvalue⟩ := (h.arrival_iff _ _ hfamily).mp hget
    obtain ⟨rest, hrest⟩ := hpre
    obtain rfl : network = e.network :=
      (arrivalIndexPrefix_append_inj.mp (hrest.trans hkey)).1
    have hlt : i < events.length := (List.getElem?_eq_some_iff.mp hi).1
    rw [hkey, arrivalIndexKey_le_iff, hsucc,
      UInt64.toNat_ofNat_of_lt' (show i + 1 < 2 ^ 64 by omega)] at hseek
    refine ⟨i - cursor.toNat, e, ?_, rfl, Prod.ext ?_ hvalue⟩
    · rw [List.getElem?_drop, Nat.add_sub_cancel' (by omega), hi]
    · rw [hkey, Nat.add_sub_cancel' (by omega)]
  · rintro ⟨i, e, hi, rfl, hentry⟩
    obtain ⟨hkey, hvalue⟩ := Prod.ext_iff.mp hentry
    rw [List.getElem?_drop] at hi
    have hlt : cursor.toNat + i < events.length := (List.getElem?_eq_some_iff.mp hi).1
    have hfamily : keyFamily entry.1 = .arrival := by rw [hkey, keyFamily_arrivalIndexKey]
    refine ⟨(h.arrival_iff _ _ hfamily).mpr ⟨_, e, hi, hkey, hvalue⟩, ?_, ?_⟩
    · rw [hkey, arrivalIndexKey_le_iff, hsucc,
        UInt64.toNat_ofNat_of_lt' (show cursor.toNat + i + 1 < 2 ^ 64 by omega)]
      omega
    · rw [hkey]
      exact List.prefix_append _ _

/-! ### Selection -/

/-- The event of a primary key is read if its record can be. -/
theorem readEventAtKey_eq_ok_iff (h : Represents store events) {e found : ThalwegEvent}
    (he : e ∈ events) : readEventAtKey store (eventKey e) = .ok found ↔
      payloadDepth e.payload < Json.maxDepth ∧ found = e := by
  rw [← decodeEvent_eq_ok_iff (h.storable e he).payload, readEventAtKey, h.get_eventKey he]
  simp only [wrapf]
  cases decodeEvent (eventText e) <;> simp

theorem readEventsAtKeys_eq_ok (h : Represents store events) {es : List ThalwegEvent}
    (hes : ∀ e ∈ es, e ∈ events ∧ payloadDepth e.payload < Json.maxDepth) :
    readEventsAtKeys store (es.map eventKey) = .ok es := by
  induction es with
  | nil => rfl
  | cons e es ih =>
    obtain ⟨⟨he, hdepth⟩, hes⟩ := List.forall_mem_cons.mp hes
    simp only [List.map_cons, readEventsAtKeys, (h.readEventAtKey_eq_ok_iff he).mpr ⟨hdepth, rfl⟩,
      ih hes, bind, Except.bind]

end Represents

/-- What a siphon wants of the arrivals, with the resolutions that a store holds. -/
def DurableSiphonDefinition.Wants (definition : DurableSiphonDefinition) (store : Store)
    (e : ThalwegEvent) : Prop :=
  e.network = definition.network ∧ (definition.streams = [] ∨ e.stream ∈ definition.streams) ∧
    ¬ Superseded (storedEvents store) definition.network e.id

namespace Represents

variable {store : Store} {events : List ThalwegEvent} {definition : DurableSiphonDefinition}

/-- An arrival that a siphon does not pass over is one that it wants. -/
theorem wants_iff (h : Represents store events) {resolutions : List (Text × ThalwegEvent)}
    (hread : conflictResolutionsTxn store definition.network = .ok resolutions) {e : ThalwegEvent}
    (hnetwork : e.network = definition.network) : definition.Wants store e ↔
      ¬ (isSuperseded resolutions e.id = true ∨
        definition.streams ≠ [] ∧ e.stream ∉ definition.streams) := by
  rw [h.isSuperseded_iff hread, DurableSiphonDefinition.Wants]
  tauto

/-- **Selection.** A poll takes what the siphon wants of the arrivals that it goes through. -/
theorem selectArrivals_spec (h : Represents store events)
    {resolutions : List (Text × ThalwegEvent)}
    (hread : conflictResolutionsTxn store definition.network = .ok resolutions) {limit n : ℕ}
    {taken keys : List Text} {start through : UInt64} (hn : n ≤ events.length)
    (hstart : start.toNat ≤ n)
    (hskip : ∀ e ∈ segment events start.toNat n, ¬ definition.Wants store e)
    (hselect : selectArrivals store resolutions definition limit taken start
      (arrivalsOf definition.network n (events.drop n)) = .ok (keys, through)) :
    start.toNat ≤ through.toNat ∧ through.toNat ≤ events.length ∧
      keys = taken ++ (Passage.items ⟨start.toNat, through.toNat, definition.Wants store⟩
        events).map eventKey ∧
      ∀ e ∈ Passage.items ⟨start.toNat, through.toNat, definition.Wants store⟩ events,
        payloadDepth e.payload < Json.maxDepth := by
  generalize hes : events.drop n = es at hselect
  induction es generalizing n taken start with
  | nil =>
    cases hselect
    simp [Passage.items_self, hstart.trans hn]
  | cons e es ih =>
    have hget : events[n]? = some e := by
      rw [← Nat.add_zero n, ← List.getElem?_drop, hes, List.getElem?_cons_zero]
    have hlt : n < events.length := (List.getElem?_eq_some_iff.mp hget).1
    have hrest : events.drop (n + 1) = es := by
      rw [← List.drop_drop, hes, List.drop_one, List.tail_cons]
    have hlength := h.length_lt
    have hnext : (UInt64.ofNat (n + 1)).toNat = n + 1 :=
      UInt64.toNat_ofNat_of_lt' (show n + 1 < 2 ^ 64 by omega)
    rw [arrivalsOf] at hselect
    split_ifs at hselect with hnetwork
    swap
    · -- an arrival of another network has no entry
      refine ih hlt (hstart.trans (Nat.le_succ n)) ?_ hrest hselect
      rw [segment_succ hstart hget]
      simp only [List.mem_append, List.mem_singleton]
      rintro f (hf | rfl) hwants
      · exact hskip f hf hwants
      · exact hnetwork hwants.1
    simp only [selectArrivals, bind_eq_ok_iff] at hselect
    obtain ⟨next, hsequence, event, hevent, hselect⟩ := hselect
    rw [arrivalSequenceFromKey_arrivalIndexKey] at hsequence
    obtain rfl := Except.ok.inj hsequence
    obtain ⟨hdepth, rfl⟩ := (h.readEventAtKey_eq_ok_iff (List.mem_of_getElem? hget)).mp hevent
    have hstart' : start.toNat ≤ n + 1 := hstart.trans (Nat.le_succ n)
    have hself : ∀ f ∈ segment events (UInt64.ofNat (n + 1)).toNat (n + 1),
        ¬ definition.Wants store f := by
      rw [hnext, segment_self]
      exact fun f hf => absurd hf List.not_mem_nil
    by_cases hwants : definition.Wants store event
    · have hitem := Passage.items_succ hstart hget hskip hwants
      rw [if_neg ((h.wants_iff hread hnetwork).mp hwants)] at hselect
      split_ifs at hselect
      · cases hselect
        rw [hnext, hitem]
        exact ⟨hstart', hlt, rfl, by simpa using hdepth⟩
      · obtain ⟨hle, hlen, hkeys, hdepths⟩ := ih hlt hnext.le hself hrest hselect
        rw [hnext] at hle hkeys hdepths
        rw [Passage.items_append hstart' hle, hitem]
        refine ⟨hstart'.trans hle, hlen, by rw [hkeys]; simp, ?_⟩
        simpa using ⟨hdepth, hdepths⟩
    · rw [if_pos (not_not.mp ((h.wants_iff hread hnetwork).not.mp hwants))] at hselect
      obtain ⟨hle, hlen, hkeys, hdepths⟩ := ih hlt hnext.le hself hrest hselect
      rw [hnext] at hle hkeys hdepths
      have hnil : Passage.items ⟨start.toNat, n + 1, definition.Wants store⟩ events = [] := by
        refine Passage.items_of_forall_not ?_
        rw [segment_succ hstart hget]
        simp only [List.mem_append, List.mem_singleton]
        rintro f (hf | rfl)
        · exact hskip f hf
        · exact hwants
      rw [Passage.items_append hstart' hle, hnil, List.nil_append]
      exact ⟨hstart'.trans hle, hlen, hkeys, hdepths⟩

end Represents

/-! ### Steps of a siphon -/

namespace DurableSiphonDefinition

/-- How far a siphon has read. -/
def reached (definition : DurableSiphonDefinition) : UInt64 :=
  match definition.pending with
  | some pending => pending.cursorThrough
  | none => definition.cursor

/-- The cursor of a siphon without a pending delivery is within the log and is not the last
number. -/
def HasRoom (definition : DurableSiphonDefinition) (events : List ThalwegEvent) : Prop :=
  definition.pending = none →
    definition.cursor.toNat + 1 < 2 ^ 64 ∧ definition.cursor.toNat ≤ events.length

/-- What a poll makes of a siphon: it repeats the pending delivery, or it goes on to the next
arrivals and skips or takes them. -/
inductive Polls (definition : DurableSiphonDefinition) (store : Store) (events : List ThalwegEvent) :
    DurableSiphonDefinition → Prop
  | unchanged : Polls definition store events definition
  | attempt {pending : DurableSiphonPending} (updatedAt : Text) :
      definition.pending = some pending →
      Polls definition store events { definition with
        pending := some { pending with attempts := (pending.attempts + 1).bmod (2 ^ 64) }
        updatedAt }
  | skip {through : UInt64} (updatedAt : Text) : definition.pending = none →
      definition.cursor.toNat ≤ through.toNat → through.toNat ≤ events.length →
      Passage.items ⟨definition.cursor.toNat, through.toNat, definition.Wants store⟩ events = [] →
      Polls definition store events { definition with cursor := through, updatedAt }
  | take {through : UInt64} {items : List ThalwegEvent} (id createdAt updatedAt : Text) :
      definition.pending = none →
      definition.cursor.toNat ≤ through.toNat → through.toNat ≤ events.length →
      items = Passage.items ⟨definition.cursor.toNat, through.toNat, definition.Wants store⟩
        events →
      (∀ e ∈ items, payloadDepth e.payload < Json.maxDepth) →
      Polls definition store events { definition with
        pending := some ⟨id, definition.cursor, through, items.map eventKey, createdAt, 1⟩
        updatedAt }

end DurableSiphonDefinition

theorem readDurableSiphon_writeDurableSiphon (store : Store) {definition : DurableSiphonDefinition}
    (h : definition.WellFormed) :
    readDurableSiphon (writeDurableSiphon store definition) definition.network definition.name =
      .ok (some definition) := by
  rw [writeDurableSiphon, readDurableSiphon, OrderedStore.get_set_self]
  simp only [decodeDurableSiphon_marshalDurableSiphon h]
  rfl

namespace Daemon

variable {d d' : Daemon} {L : Ledger} {network name : Text} {definition : DurableSiphonDefinition}

theorem pendDurableDelivery_polls (h : Represents d.store L.events)
    (hcursor : definition.HasRoom L.events) {limit : Nat} {random : Text} {store : Store}
    {definition' : DurableSiphonDefinition}
    (hpend : d.pendDurableDelivery definition limit random = .ok (store, definition')) :
    definition.Polls d.store L.events definition' := by
  unfold pendDurableDelivery at hpend
  split at hpend
  · next hnone =>
    simp only [prepareDurableDelivery, bind_eq_ok_iff] at hpend
    obtain ⟨resolutions, hread, ⟨keys, through⟩, hselect, hpend⟩ := hpend
    obtain ⟨hroom, hle⟩ := hcursor hnone
    rw [h.scan_arrivals definition.network hroom hle] at hselect
    obtain ⟨hthrough, hlen, hkeys, hdepth⟩ := h.selectArrivals_spec hread hle le_rfl
      (by rw [segment_self]; exact fun _ he => absurd he List.not_mem_nil) hselect
    rw [List.nil_append] at hkeys
    simp only at hpend
    split_ifs at hpend with hnil
    all_goals cases hpend
    · exact .skip _ hnone hthrough hlen (List.map_eq_nil_iff.mp (hkeys.symm.trans hnil))
    · exact .unchanged
    · rw [hkeys]
      exact .take _ _ _ hnone hthrough hlen rfl hdepth
  · next pending hpending =>
    cases hpend
    exact .attempt _ hpending

/-- A poll keeps the store, or it writes the siphon that it has got. -/
theorem pendDurableDelivery_store {limit : Nat} {random : Text} {store : Store}
    {definition' : DurableSiphonDefinition}
    (hpend : d.pendDurableDelivery definition limit random = .ok (store, definition')) :
    store = d.store ∧ definition' = definition ∨ store = writeDurableSiphon d.store definition' := by
  unfold pendDurableDelivery at hpend
  split at hpend
  · simp only [prepareDurableDelivery, bind_eq_ok_iff] at hpend
    obtain ⟨resolutions, -, ⟨keys, through⟩, -, hpend⟩ := hpend
    simp only at hpend
    split_ifs at hpend
    all_goals cases hpend
    · exact Or.inr rfl
    · exact Or.inl ⟨rfl, rfl⟩
    · exact Or.inr rfl
  · cases hpend
    exact Or.inr rfl

theorem pollDurableSiphon_polls (h : d.Holds L) (hfiled : SiphonsFiled d.store)
    (hread : readDurableSiphon d.store network name = .ok (some definition))
    (hcursor : definition.HasRoom L.events) (limit : Int) (random : Text) :
    ∃ definition', readDurableSiphon (d.pollDurableSiphon network name limit random).2.store network
        name = .ok (some definition') ∧ definition.Polls d.store L.events definition' := by
  obtain ⟨hwell, rfl, rfl, -⟩ := hfiled.of_read hread
  unfold pollDurableSiphon
  simp only
  generalize (if limit = 0 then durableSiphonDefaultBatch else limit) = limit
  split
  · exact ⟨definition, hread, .unchanged⟩
  simp only [hread]
  split
  · exact ⟨definition, hread, .unchanged⟩
  next store definition' hpend =>
  obtain ⟨hwell', hn, hm, hstore⟩ :=
    pendDurableDelivery_cases h.represents.arrivalsLead hwell hpend
  split
  · exact ⟨definition, hread, .unchanged⟩
  rcases hstore with rfl | rfl
  · exact ⟨definition, hread, .unchanged⟩
  · refine ⟨definition', ?_, pendDurableDelivery_polls h.represents hcursor hpend⟩
    rw [← hn, ← hm]
    exact readDurableSiphon_writeDurableSiphon d.store hwell'

/-- An acknowledgement changes a siphon exactly if it names the pending delivery. -/
theorem acknowledgeDurableSiphon_cases (hfiled : SiphonsFiled d.store)
    (hread : readDurableSiphon d.store network name = .ok (some definition)) (deliveryID : Text) :
    (∃ e, d.acknowledgeDurableSiphon network name deliveryID = (.error e, d)) ∨
    ∃ pending info updatedAt, definition.pending = some pending ∧ pending.id = deliveryID ∧
      Text.trimSpace deliveryID ≠ [] ∧
      (d.acknowledgeDurableSiphon network name deliveryID).1 = .ok info ∧
      readDurableSiphon (d.acknowledgeDurableSiphon network name deliveryID).2.store network name =
        .ok (some { definition with
          cursor := pending.cursorThrough, pending := none, updatedAt }) := by
  obtain ⟨hwell, rfl, rfl, -⟩ := hfiled.of_read hread
  unfold acknowledgeDurableSiphon
  split
  · exact Or.inl ⟨_, rfl⟩
  next hblank =>
  simp only [hread]
  split
  · exact Or.inl ⟨_, rfl⟩
  next pending hpending =>
  split
  · exact Or.inl ⟨_, rfl⟩
  next hid =>
  have hwell' : DurableSiphonDefinition.WellFormed { definition with
      cursor := pending.cursorThrough, pending := none, updatedAt := d.clockNow.format } :=
    .of_none hwell.version_eq rfl
  exact Or.inr ⟨pending, _, d.clockNow.format, hpending, not_not.mp hid, hblank, rfl,
    readDurableSiphon_writeDurableSiphon d.store hwell'⟩

/-- A new siphon starts at the first arrival or behind the last one. -/
theorem createDurableSiphon_eq_ok (hnew : readDurableSiphon d.store network name = .ok none)
    {streams : List Text} {start : Text} {info : DurableSiphonInfo}
    (h : d.createDurableSiphon network name streams start = (.ok info, d')) :
    ∃ definition : DurableSiphonDefinition, definition.WellFormed ∧ definition.network = network ∧
      definition.name = name ∧ definition.pending = none ∧ definition.info = info ∧
      d'.store = writeDurableSiphon d.store definition ∧
      (definition.cursor = 0 ∨ readArrivalSequence d.store = .ok definition.cursor) := by
  unfold createDurableSiphon at h
  simp only [hnew] at h
  split at h
  · cases h
  split at h
  · cases h
  · cases h
  split at h
  · cases h
  split at h
  · cases h
  next cursor hcursor =>
  obtain ⟨hinfo, rfl⟩ := Prod.mk.inj h
  refine ⟨_, .of_none rfl rfl, rfl, rfl, rfl, Except.ok.inj hinfo, rfl, ?_⟩
  split at hcursor
  · exact Or.inr hcursor
  · exact Or.inl (Except.ok.inj hcursor).symm

/-- The request to create a siphon that exists changes nothing. -/
theorem createDurableSiphon_of_read
    (hread : readDurableSiphon d.store network name = .ok (some definition)) (streams : List Text)
    (start : Text) : (d.createDurableSiphon network name streams start).2.store = d.store := by
  unfold createDurableSiphon
  simp only [hread]
  split
  · rfl
  split
  · rfl
  · rfl
  split
  · rfl
  · split <;> rfl

/-- The operation acknowledges a delivery of the siphon. -/
def acknowledges (network name : Text) : Operation → Result Unit → Bool
  | .acknowledgeDurableSiphon network' name' _, .ok _ => network' = network && name' = name
  | _, _ => false

/-- **What an operation does to a siphon.** The log may grow while the siphon stays as it is;
otherwise it is polled or its pending delivery is acknowledged. -/
theorem Holds.siphon_cases (h : d.Holds L) (hfiled : SiphonsFiled d.store)
    (hread : readDurableSiphon d.store network name = .ok (some definition))
    (hcursor : definition.HasRoom L.events) {op : Operation} {r : Result Unit}
    (hp : d.Performs op r d') (hkeep : op ≠ .deleteDurableSiphon network name) :
    ∃ L' definition', d'.Holds L' ∧ L.events <+: L'.events ∧
      readDurableSiphon d'.store network name = .ok (some definition') ∧
      (acknowledges network name op r = false ∧
          (definition' = definition ∨
            L'.events = L.events ∧ definition.Polls d.store L.events definition') ∨
        acknowledges network name op r = true ∧ L'.events = L.events ∧
          ∃ pending updatedAt, definition.pending = some pending ∧
            definition' = { definition with
              cursor := pending.cursorThrough, pending := none, updatedAt }) := by
  by_cases hsiphon : siphonOf op = some (network, name)
  swap
  · obtain ⟨L', hL', hkept⟩ := h.perform hp
    refine ⟨L', definition, hL', hkept, ?_, Or.inl ⟨?_, Or.inl rfl⟩⟩
    · rw [← hread, readDurableSiphon, get_durableSiphonKey_of_performs h hfiled hp hsiphon,
        readDurableSiphon]
    · unfold acknowledges
      split
      · next network' name' _ _ =>
        have hne : ¬ (network' = network ∧ name' = name) := by
          rintro ⟨rfl, rfl⟩
          exact hsiphon rfl
        simpa using hne
      · rfl
  have hquiet : IsQuiet op := by
    cases op <;> trivial
  have hL' := h.sameCore (hp.sameCore hquiet)
  obtain ⟨fuel, hp⟩ := hp
  cases op with
  | createDurableSiphon n m streams start =>
    cases hsiphon
    obtain ⟨res, hres, -⟩ := voidResult_eq (Option.some.inj hp)
    have hstore : d'.store = d.store := by
      rw [← createDurableSiphon_of_read hread streams start, hres]
    exact ⟨_, definition, hL', List.prefix_rfl, by rw [hstore, hread], Or.inl ⟨rfl, Or.inl rfl⟩⟩
  | pollDurableSiphon n m limit random =>
    cases hsiphon
    obtain ⟨res, hres, -⟩ := voidResult_eq (Option.some.inj hp)
    obtain ⟨definition', hread', hpolls⟩ := pollDurableSiphon_polls h hfiled hread hcursor limit random
    rw [hres] at hread'
    exact ⟨_, definition', hL', List.prefix_rfl, hread', Or.inl ⟨rfl, Or.inr ⟨rfl, hpolls⟩⟩⟩
  | acknowledgeDurableSiphon n m deliveryID =>
    cases hsiphon
    obtain ⟨res, hres, hr⟩ := voidResult_eq (Option.some.inj hp)
    rcases acknowledgeDurableSiphon_cases hfiled hread deliveryID with
      ⟨e, herr⟩ | ⟨pending, info, updatedAt, hpending, -, -, hok, hread'⟩
    · obtain ⟨rfl, rfl⟩ := Prod.mk.inj (herr.symm.trans hres)
      refine ⟨_, definition, hL', List.prefix_rfl, hread, Or.inl ⟨?_, Or.inl rfl⟩⟩
      rcases hr with ⟨_, -, rfl⟩ | ⟨_, hok, -⟩
      · rfl
      · cases hok
    · rw [hres] at hok hread'
      refine ⟨_, _, hL', List.prefix_rfl, hread', Or.inr ⟨?_, rfl, pending, updatedAt, hpending, rfl⟩⟩
      rcases hr with ⟨_, herr, -⟩ | ⟨_, -, rfl⟩
      · cases hok.symm.trans herr
      · simp [acknowledges]
  | deleteDurableSiphon n m =>
    cases hsiphon
    exact absurd rfl hkeep
  | _ => cases hsiphon

end Daemon

/-! ### Siphons as consumers -/

/-- The siphon as a consumer of the log, where `items` are the events of its pending delivery. -/
def DurableSiphonDefinition.consumer (definition : DurableSiphonDefinition)
    (log items : List ThalwegEvent) : LogConsumer.State ThalwegEvent :=
  ⟨log, definition.cursor.toNat,
    definition.pending.map fun pending => (pending.cursorThrough.toNat, items)⟩

theorem DurableSiphonDefinition.reached_consumer (definition : DurableSiphonDefinition)
    (log items : List ThalwegEvent) :
    (definition.consumer log items).reached = definition.reached.toNat := by
  rw [consumer, State.reached, reached]
  cases definition.pending <;> rfl

/-- The second delivery repeats the first one. -/
structure DurableSiphonPending.RepeatedBy (pending pending' : DurableSiphonPending) : Prop where
  id : pending'.id = pending.id
  cursorFrom : pending'.cursorFrom = pending.cursorFrom
  cursorThrough : pending'.cursorThrough = pending.cursorThrough
  eventKeys : pending'.eventKeys = pending.eventKeys

namespace Daemon

variable {d d' : Daemon} {definition : DurableSiphonDefinition} {log items : List ThalwegEvent}

/-- The siphon of the daemon reads the log, and `items` are the events of its pending delivery. -/
structure Follows (d : Daemon) (definition : DurableSiphonDefinition)
    (log items : List ThalwegEvent) : Prop where
  holds : ∃ L, d.Holds L ∧ L.events = log
  filed : SiphonsFiled d.store
  read : readDurableSiphon d.store definition.network definition.name = .ok (some definition)
  keys : (definition.pending.map DurableSiphonPending.eventKeys).getD [] = items.map eventKey
  items : ∀ e ∈ items, e ∈ log ∧ payloadDepth e.payload < Json.maxDepth

namespace Follows

theorem items_eq_nil (h : d.Follows definition log items) (hnone : definition.pending = none) :
    items = [] := by
  have hkeys := h.keys
  rw [hnone] at hkeys
  exact List.map_eq_nil_iff.mp hkeys.symm

theorem unacknowledged (h : d.Follows definition log items) :
    (definition.consumer log items).unacknowledged = items := by
  rw [DurableSiphonDefinition.consumer, State.unacknowledged]
  cases hpending : definition.pending with
  | none => exact (h.items_eq_nil hpending).symm
  | some pending => rfl

end Follows

/-- The events of the pending delivery of a siphon. -/
def pendingEvents (network name : Text) (d : Daemon) : List ThalwegEvent :=
  match readDurableSiphon d.store network name with
  | .ok (some definition) =>
    match durableDeliveryFromDefinition d.store definition with
    | .ok delivery => delivery.events
    | .error _ => []
  | _ => []

theorem Follows.delivery (h : d.Follows definition log items) {pending : DurableSiphonPending}
    (hpending : definition.pending = some pending) :
    readEventsAtKeys d.store pending.eventKeys = .ok items := by
  obtain ⟨L, hL, rfl⟩ := h.holds
  have hkeys := h.keys
  rw [hpending, Option.map_some, Option.getD_some] at hkeys
  rw [hkeys]
  exact hL.represents.readEventsAtKeys_eq_ok h.items

theorem Follows.pendingEvents (h : d.Follows definition log items) :
    pendingEvents definition.network definition.name d = items := by
  simp only [Daemon.pendingEvents, h.read, durableDeliveryFromDefinition]
  cases hpending : definition.pending with
  | none => exact (h.items_eq_nil hpending).symm
  | some pending => simp only [h.delivery hpending, bind, Except.bind]

/-- One operation is one step of the consumer. -/
theorem Follows.step (h : d.Follows definition log items) (hroom : definition.HasRoom log)
    {op : Operation} {r : Result Unit} (hp : d.Performs op r d')
    (hkeep : op ≠ .deleteDurableSiphon definition.network definition.name) :
    ∃ definition' log' items', d'.Follows definition' log' items' ∧
      definition'.network = definition.network ∧ definition'.name = definition.name ∧
      definition'.streams = definition.streams ∧
      LogConsumer.Step (definition.consumer log items)
        ⟨definition.reached.toNat, definition'.reached.toNat, definition.Wants d.store⟩
        (if acknowledges definition.network definition.name op r then items else [])
        (definition'.consumer log' items') ∧
      (acknowledges definition.network definition.name op r = false →
        ∀ pending, definition.pending = some pending → items' = items ∧
          ∃ pending', definition'.pending = some pending' ∧ pending.RepeatedBy pending' ∧
            (pending.attempts < 2 ^ 63 - 1 → pending.attempts ≤ pending'.attempts)) := by
  obtain ⟨L, hL, rfl⟩ := h.holds
  obtain ⟨L', definition', hL', hlog, hread, hcases⟩ :=
    hL.siphon_cases h.filed h.read hroom hp hkeep
  have hfiled := siphonsFiled_of_performs hL h.filed hp
  have hgrown : ∀ e ∈ items, e ∈ L'.events ∧ payloadDepth e.payload < Json.maxDepth :=
    fun e he => ⟨hlog.subset (h.items e he).1, (h.items e he).2⟩
  rcases hcases with ⟨hno, rfl | ⟨hevents, hpolls⟩⟩ | ⟨hyes, hevents, pending, updatedAt, hpending, rfl⟩
  · -- the log may have grown
    refine ⟨definition', L'.events, items, ⟨⟨L', hL', rfl⟩, hfiled, hread, h.keys, hgrown⟩, rfl, rfl,
      rfl, ?_, fun _ pending hpending =>
        ⟨rfl, pending, hpending, ⟨rfl, rfl, rfl, rfl⟩, fun _ => le_rfl⟩⟩
    rw [hno, ← definition'.reached_consumer L.events items]
    exact .append _ _ _ hlog
  · rw [hno]
    cases hpolls with
    | unchanged =>
      refine ⟨definition, L'.events, items, ⟨⟨L', hL', rfl⟩, hfiled, hread, h.keys, hgrown⟩, rfl, rfl,
        rfl, ?_, fun _ pending hpending =>
          ⟨rfl, pending, hpending, ⟨rfl, rfl, rfl, rfl⟩, fun _ => le_rfl⟩⟩
      rw [← definition.reached_consumer L.events items]
      exact .append _ _ _ hlog
    | @attempt pending updatedAt hpending =>
      have hkeys := h.keys
      rw [hpending] at hkeys
      obtain ⟨hlow, -⟩ := (h.filed.of_read h.read).1.pending pending hpending
      have hf : d'.Follows { definition with
          pending := some { pending with attempts := (pending.attempts + 1).bmod (2 ^ 64) }
          updatedAt } L'.events items := ⟨⟨L', hL', rfl⟩, hfiled, hread, hkeys, hgrown⟩
      refine ⟨_, L'.events, items, hf, rfl, rfl, rfl, ?_, fun _ pending' hpending' => ?_⟩
      · rw [DurableSiphonDefinition.reached, hpending, DurableSiphonDefinition.consumer, hpending,
          hevents]
        exact .append _ _ _ List.prefix_rfl
      · obtain rfl := Option.some.inj (hpending.symm.trans hpending')
        refine ⟨rfl, _, rfl, ⟨rfl, rfl, rfl, rfl⟩, fun hlt => ?_⟩
        change pending.attempts ≤ (pending.attempts + 1).bmod (2 ^ 64)
        rw [Int.bmod_eq_of_le (by omega) (by omega)]
        omega
    | @skip through updatedAt hnone hle hlen hitems =>
      obtain rfl := h.items_eq_nil hnone
      have hf : d'.Follows { definition with cursor := through, updatedAt } L'.events [] :=
        ⟨⟨L', hL', rfl⟩, hfiled, hread, by simp [hnone], hgrown⟩
      refine ⟨_, L'.events, [], hf, rfl, rfl, rfl, ?_, fun _ pending hpending => by
        simp [hnone] at hpending⟩
      simp only [DurableSiphonDefinition.reached, DurableSiphonDefinition.consumer, hnone, hevents]
      exact .skip hle hlen hitems
    | @take through items' id createdAt updatedAt hnone hle hlen hitems hdepth =>
      obtain rfl := h.items_eq_nil hnone
      have hmem : ∀ e ∈ items', e ∈ L'.events := fun e he => by
        rw [hitems] at he
        rw [hevents]
        exact List.mem_of_mem_take (List.mem_of_mem_drop ((Passage.items_sublist _ _).subset he))
      have hf : d'.Follows { definition with
          pending := some ⟨id, definition.cursor, through, items'.map eventKey, createdAt, 1⟩
          updatedAt } L'.events items' :=
        ⟨⟨L', hL', rfl⟩, hfiled, hread, rfl, fun e he => ⟨hmem e he, hdepth e he⟩⟩
      refine ⟨_, L'.events, items', hf, rfl, rfl, rfl, ?_, fun _ pending hpending => by
        simp [hnone] at hpending⟩
      · simp only [DurableSiphonDefinition.reached, DurableSiphonDefinition.consumer, hnone, hevents,
          hitems]
        exact Step.take
          (p := ⟨definition.cursor.toNat, through.toNat, definition.Wants d.store⟩) hle hlen
  · -- an acknowledgement that is accepted
    have hf : d'.Follows { definition with
        cursor := pending.cursorThrough, pending := none, updatedAt } L'.events [] :=
      ⟨⟨L', hL', rfl⟩, hfiled, hread, rfl, by simp⟩
    refine ⟨_, L'.events, [], hf, rfl, rfl, rfl, ?_, fun hno => by simp [hno] at hyes⟩
    simp only [DurableSiphonDefinition.reached, DurableSiphonDefinition.consumer, hpending, hevents,
      hyes]
    exact .acknowledge _ _ _ _ _

/-! ### Runs -/

/-- The stretch of the log that a siphon goes through in a step. -/
def passage (network name : Text) (d d' : Daemon) : Passage ThalwegEvent :=
  match readDurableSiphon d.store network name, readDurableSiphon d'.store network name with
  | .ok (some definition), .ok (some definition') =>
    ⟨definition.reached.toNat, definition'.reached.toNat, definition.Wants d.store⟩
  | _, _ => ⟨0, 0, fun _ => False⟩

/-- A run that does not delete the siphon or run out of arrival numbers, with the stretches of the
log that the siphon goes through and the events whose deliveries are acknowledged. -/
inductive DeliveryRun (network name : Text) (d₀ : Daemon) :
    List (Passage ThalwegEvent) → List ThalwegEvent → Daemon → Prop
  | refl : DeliveryRun network name d₀ [] [] d₀
  | step {d d' : Daemon} {passages : List (Passage ThalwegEvent)}
      {acknowledged : List ThalwegEvent} {op : Operation} {r : Result Unit} :
      DeliveryRun network name d₀ passages acknowledged d → d.Performs op r d' →
      op ≠ .deleteDurableSiphon network name → readArrivalSequence d.store ≠ .ok maxUint64 →
      DeliveryRun network name d₀ (passages ++ [passage network name d d'])
        (acknowledged ++ if acknowledges network name op r then pendingEvents network name d else [])
        d'

theorem Follows.hasRoom (h : d.Follows definition log items)
    (hreached : definition.reached.toNat ≤ log.length)
    (hroom : readArrivalSequence d.store ≠ .ok maxUint64) : definition.HasRoom log := by
  intro hnone
  rw [DurableSiphonDefinition.reached, hnone] at hreached
  have hcursor : definition.cursor.toNat ≤ log.length := hreached
  obtain ⟨L, hL, rfl⟩ := h.holds
  have hlength := hL.represents.length_lt
  rw [hL.represents.readArrivalSequence] at hroom
  have hlast : L.events.length ≠ 2 ^ 64 - 1 := fun heq => hroom (by rw [heq]; rfl)
  exact ⟨by omega, hcursor⟩

/-- A run of the daemon is a run of the consumer. -/
theorem DeliveryRun.follows {d₀ : Daemon} {definition₀ : DurableSiphonDefinition}
    {log₀ acknowledged : List ThalwegEvent} {passages : List (Passage ThalwegEvent)}
    (h₀ : d₀.Follows definition₀ log₀ []) (hnone : definition₀.pending = none)
    (hcursor : definition₀.cursor.toNat ≤ log₀.length)
    (h : DeliveryRun definition₀.network definition₀.name d₀ passages acknowledged d) :
    ∃ definition log items, d.Follows definition log items ∧
      definition.network = definition₀.network ∧ definition.name = definition₀.name ∧
      definition.streams = definition₀.streams ∧
      LogConsumer.Run ⟨log₀, definition₀.cursor.toNat, none⟩ passages acknowledged
        (definition.consumer log items) := by
  induction h with
  | refl =>
    refine ⟨definition₀, log₀, [], h₀, rfl, rfl, rfl, ?_⟩
    rw [DurableSiphonDefinition.consumer, hnone]
    exact .refl
  | step hrun hp hkeep hroom ih =>
    obtain ⟨definition, log, items, hf, hn, hm, hs, hconsumer⟩ := ih
    have hreached := (hconsumer.delivered hcursor).2.1
    rw [definition.reached_consumer] at hreached
    rw [← hn, ← hm] at hkeep ⊢
    obtain ⟨definition', log', items', hf', hn', hm', hs', hstep, -⟩ :=
      hf.step (hf.hasRoom hreached hroom) hp hkeep
    refine ⟨definition', log', items', hf', hn', hm', hs'.trans hs, ?_⟩
    have hread' := hf'.read
    rw [hn', hm'] at hread'
    rw [hf.pendingEvents]
    simp only [passage, hf.read, hread']
    exact hconsumer.step hstep

/-! ### Polls and acknowledgements -/

/-- The operation neither acknowledges a delivery of the siphon nor deletes the siphon. -/
def Unacknowledged (network name : Text) : Daemon → Operation → Result Unit → Prop :=
  fun _ op r => op ≠ .deleteDurableSiphon network name ∧ acknowledges network name op r = false

/-- The count of attempts can go on. -/
def CountsOn (network name : Text) (d : Daemon) : Prop :=
  ∀ definition pending, readDurableSiphon d.store network name = .ok (some definition) →
    definition.pending = some pending → pending.attempts < 2 ^ 63 - 1

/-- A run that leaves the delivery pending. -/
theorem Follows.repeated (h : d.Follows definition log items) {pending : DurableSiphonPending}
    (hpending : definition.pending = some pending)
    {meets : Daemon → Operation → Result Unit → Prop}
    (hmeets : ∀ d op r, meets d op r →
      Unacknowledged definition.network definition.name d op r) (hrun : d.Run meets d') :
    ∃ definition' log' pending', d'.Follows definition' log' items ∧
      definition'.network = definition.network ∧ definition'.name = definition.name ∧
      definition'.pending = some pending' ∧ pending.RepeatedBy pending' ∧
      ((∀ d op r, meets d op r → d.CountsOn definition.network definition.name) →
        pending.attempts ≤ pending'.attempts) := by
  induction hrun with
  | refl => exact ⟨definition, log, pending, h, rfl, rfl, hpending, ⟨rfl, rfl, rfl, rfl⟩, fun _ => le_rfl⟩
  | tail _ hstep ih =>
    obtain ⟨definition₁, log₁, pending₁, h₁, hn₁, hm₁, hpending₁, hrepeated₁, hattempts₁⟩ := ih
    obtain ⟨op, r, hp, hop⟩ := hstep
    obtain ⟨hkeep, hno⟩ := hmeets _ op r hop
    rw [← hn₁, ← hm₁] at hkeep hno
    have hroom : definition₁.HasRoom log₁ := fun hnone => by simp [hpending₁] at hnone
    obtain ⟨definition', log', items', h', hn', hm', -, -, hkept⟩ := h₁.step hroom hp hkeep
    obtain ⟨rfl, pending', hpending', hrepeated, hattempts⟩ := hkept hno pending₁ hpending₁
    refine ⟨definition', log', pending', h', hn'.trans hn₁, hm'.trans hm₁, hpending', ?_, ?_⟩
    · exact ⟨hrepeated.id.trans hrepeated₁.id, hrepeated.cursorFrom.trans hrepeated₁.cursorFrom,
        hrepeated.cursorThrough.trans hrepeated₁.cursorThrough,
        hrepeated.eventKeys.trans hrepeated₁.eventKeys⟩
    · intro hcounts
      have hread₁ := h₁.read
      rw [hn₁, hm₁] at hread₁
      exact (hattempts₁ hcounts).trans
        (hattempts (hcounts _ op r hop definition₁ pending₁ hread₁ hpending₁))

/-- An accepted poll repeats the pending delivery. -/
theorem Follows.poll (h : d.Follows definition log items) {pending : DurableSiphonPending}
    (hpending : definition.pending = some pending) {limit : Int} (hlow : 0 ≤ limit)
    (hhigh : limit ≤ durableSiphonMaxBatch) (random : Text) :
    d.pollDurableSiphon definition.network definition.name limit random =
      (.ok ⟨durableSiphonVersion, definition.name, definition.network, pending.id,
        pending.cursorFrom, pending.cursorThrough, (pending.attempts + 1).bmod (2 ^ 64), items⟩,
      { d.tick with store := writeDurableSiphon d.store { definition with
          pending := some { pending with attempts := (pending.attempts + 1).bmod (2 ^ 64) }
          updatedAt := d.clockNow.format } }) := by
  obtain ⟨L, hL, rfl⟩ := h.holds
  have hlimit : ¬ ((if limit = 0 then durableSiphonDefaultBatch else limit) < 1 ∨
      durableSiphonMaxBatch < if limit = 0 then durableSiphonDefaultBatch else limit) := by
    simp only [durableSiphonMaxBatch, durableSiphonDefaultBatch] at hhigh ⊢
    split_ifs <;> omega
  have hkeys := h.keys
  rw [hpending, Option.map_some, Option.getD_some] at hkeys
  have hevents : ∀ definition', readEventsAtKeys (writeDurableSiphon d.store definition')
      pending.eventKeys = .ok items := fun definition' => by
    rw [hkeys]
    exact (hL.represents.set (not_isEventKey_of_keyFamily (keyFamily_durableSiphonKey _ _)
      (Or.inr (Or.inl rfl))) _).readEventsAtKeys_eq_ok h.items
  rw [pollDurableSiphon]
  simp only [if_neg hlimit, h.read, pendDurableDelivery, hpending, durableDeliveryFromDefinition,
    hevents, bind, Except.bind]

/-- A poll returns the events of the delivery that is pending after it. -/
theorem pollDurableSiphon_events (hlead : ArrivalsLead d.store) (hfiled : SiphonsFiled d.store)
    {network name : Text} {limit : Int} {random : Text} {delivery : DurableSiphonDelivery}
    (hpoll : d.pollDurableSiphon network name limit random = (.ok delivery, d')) :
    delivery.events = pendingEvents network name d' := by
  unfold pollDurableSiphon at hpoll
  simp only at hpoll
  generalize (if limit = 0 then durableSiphonDefaultBatch else limit) = limit at hpoll
  split at hpoll
  · cases hpoll
  split at hpoll
  · cases hpoll
  · cases hpoll
  next definition hread =>
  obtain ⟨hwell, rfl, rfl, -⟩ := hfiled.of_read hread
  split at hpoll
  · cases hpoll
  next store definition' hpend =>
  obtain ⟨hwell', hn, hm, -⟩ := pendDurableDelivery_cases hlead hwell hpend
  split at hpoll
  · cases hpoll
  next delivery' hdelivery =>
  cases hpoll
  have hread' : readDurableSiphon store definition.network definition.name =
      .ok (some definition') := by
    rcases pendDurableDelivery_store hpend with ⟨rfl, rfl⟩ | rfl
    · exact hread
    · rw [← hn, ← hm, readDurableSiphon_writeDurableSiphon d.store hwell']
  simp only [Daemon.pendingEvents, hread', hdelivery]

/-- Until the delivery is acknowledged, each accepted poll returns it again, with a greater
count. -/
def Redelivers (network name : Text) (d : Daemon) (pending : DurableSiphonPending) : Prop :=
  ∀ d', d.Run (Unacknowledged network name) d' →
    ∀ limit random, 0 ≤ limit → limit ≤ durableSiphonMaxBatch →
      ∃ delivery d'', d'.pollDurableSiphon network name limit random = (.ok delivery, d'') ∧
        delivery.deliveryID = pending.id ∧ delivery.cursorFrom = pending.cursorFrom ∧
        delivery.cursorThrough = pending.cursorThrough ∧
        delivery.events = pendingEvents network name d ∧
        (d.Run (fun d op r => Unacknowledged network name d op r ∧ d.CountsOn network name) d' →
          d'.CountsOn network name → pending.attempts < delivery.attempt)

theorem Follows.redelivers (h : d.Follows definition log items) {pending : DurableSiphonPending}
    (hpending : definition.pending = some pending) :
    Redelivers definition.network definition.name d pending := by
  intro d' hrun limit random hlow hhigh
  obtain ⟨definition', log', pending', h', hn, hm, hpending', hrepeated, -⟩ :=
    h.repeated hpending (fun _ _ _ hop => hop) hrun
  have hpoll := h'.poll hpending' hlow hhigh random
  rw [hn, hm] at hpoll
  refine ⟨_, _, hpoll, hrepeated.id, hrepeated.cursorFrom, hrepeated.cursorThrough,
    h.pendingEvents.symm, fun hcounted hcounts => ?_⟩
  obtain ⟨definition₁, log₁, pending₁, h₁, hn₁, hm₁, hpending₁, -, hattempts⟩ :=
    h.repeated hpending (fun _ _ _ hop => hop.1) hcounted
  have hread := h'.read
  rw [hn, hm] at hread
  have hread₁ := h₁.read
  rw [hn₁, hm₁, hread] at hread₁
  cases hread₁
  obtain rfl := Option.some.inj (hpending'.symm.trans hpending₁)
  have hbound := hcounts definition' pending' hread hpending'
  have hlow' := ((h'.filed.of_read h'.read).1.pending pending' hpending').attempts_low
  have hle := hattempts fun _ _ _ hop => hop.2
  change pending.attempts < (pending'.attempts + 1).bmod (2 ^ 64)
  rw [Int.bmod_eq_of_le (by omega) (by omega)]
  omega

/-- An acknowledgement that is missing or does not name the pending delivery is refused. -/
theorem Follows.acknowledge_refused (h : d.Follows definition log items) {deliveryID : Text}
    (hid : Text.trimSpace deliveryID = [] ∨
      ∀ pending, definition.pending = some pending → pending.id ≠ deliveryID) :
    ∃ e, d.acknowledgeDurableSiphon definition.network definition.name deliveryID = (.error e, d) := by
  rcases acknowledgeDurableSiphon_cases h.filed h.read deliveryID with
    herr | ⟨pending, -, -, hpending, heq, hblank, -⟩
  · exact herr
  · rcases hid with hnil | hne
    · exact absurd hnil hblank
    · exact absurd heq (hne pending hpending)

theorem follows_create {L : Ledger} (h : d.Holds L) (hfiled : SiphonsFiled d.store)
    {network name : Text} (hnew : readDurableSiphon d.store network name = .ok none)
    {streams : List Text} {start : Text} {info : DurableSiphonInfo}
    (hcreate : d.createDurableSiphon network name streams start = (.ok info, d')) :
    ∃ definition, d'.Follows definition L.events [] ∧ definition.network = network ∧
      definition.name = name ∧ definition.pending = none ∧ definition.info = info ∧
      definition.cursor.toNat ≤ L.events.length := by
  obtain ⟨definition, hwell, rfl, rfl, hnone, hinfo, hstore, hcursor⟩ :=
    createDurableSiphon_eq_ok hnew hcreate
  have hp : d.Performs (.createDurableSiphon definition.network definition.name streams start)
      (.ok ()) d' := ⟨0, by rw [Operation.perform, hcreate]; rfl⟩
  have hL' := h.sameCore (hp.sameCore trivial)
  refine ⟨definition, ⟨⟨_, hL', rfl⟩, siphonsFiled_of_performs h hfiled hp, ?_, ?_, by simp⟩, rfl, rfl,
    hnone, hinfo, ?_⟩
  · rw [hstore]
    exact readDurableSiphon_writeDurableSiphon d.store hwell
  · rw [hnone]
    rfl
  · rcases hcursor with hzero | hlast
    · rw [hzero]
      exact Nat.zero_le _
    · rw [h.represents.readArrivalSequence] at hlast
      rw [← Except.ok.inj hlast, UInt64.toNat_ofNat_of_lt' h.represents.length_lt]

/-- **Durable delivery.** A siphon that is created and not deleted goes through the arrivals from
its first cursor on without gaps; the acknowledged events followed by the pending ones are what it
wanted when it went through, in the order of their arrival and each once. The pending delivery is
returned again until it is acknowledged, and nothing else acknowledges it. -/
theorem Reachable.durable_delivery {d₀ : Daemon} (h : d.Reachable) {network name : Text}
    (hnew : readDurableSiphon d.store network name = .ok none) {streams : List Text} {start : Text}
    {info : DurableSiphonInfo}
    (hcreate : d.createDurableSiphon network name streams start = (.ok info, d₀))
    {passages : List (Passage ThalwegEvent)} {acknowledged : List ThalwegEvent}
    (hrun : DeliveryRun network name d₀ passages acknowledged d') :
    ∃ definition events, readDurableSiphon d'.store network name = .ok (some definition) ∧
      definition.streams = info.streams ∧ Represents d'.store events ∧
      Contiguous info.cursor.toNat passages definition.reached.toNat ∧
      definition.reached.toNat ≤ events.length ∧
      acknowledged ++ pendingEvents network name d' = passages.flatMap (·.items events) ∧
      (acknowledged ++ pendingEvents network name d').Sublist
        (segment events info.cursor.toNat definition.reached.toNat) ∧
      (∀ pending, definition.pending = some pending → Redelivers network name d' pending) ∧
      (∀ limit random delivery d'',
        d'.pollDurableSiphon network name limit random = (.ok delivery, d'') →
          delivery.events = pendingEvents network name d'') ∧
      ∀ deliveryID, (Text.trimSpace deliveryID = [] ∨
          ∀ pending, definition.pending = some pending → pending.id ≠ deliveryID) →
        ∃ e, d'.acknowledgeDurableSiphon network name deliveryID = (.error e, d') := by
  obtain ⟨L, hL⟩ := h.exists_holds.1
  obtain ⟨definition₀, hf₀, rfl, rfl, hnone, rfl, hcursor⟩ :=
    follows_create hL h.siphonsFiled hnew hcreate
  obtain ⟨definition, log, items, hf, hn, hm, hs, hconsumer⟩ := hrun.follows hf₀ hnone hcursor
  obtain ⟨hcontiguous, hreached, hdelivered⟩ := hconsumer.delivered hcursor
  rw [definition.reached_consumer] at hcontiguous hreached
  rw [hf.unacknowledged] at hdelivered
  obtain ⟨L', hL', hlog⟩ := hf.holds
  rw [← hn, ← hm]
  have hevents := hf.pendingEvents
  refine ⟨definition, log, hf.read, hs, hlog ▸ hL'.represents, hcontiguous, hreached, ?_, ?_,
    fun pending hpending => hf.redelivers hpending,
    fun limit random delivery d'' hpoll =>
      pollDurableSiphon_events hL'.represents.arrivalsLead hf.filed hpoll,
    fun deliveryID hid => hf.acknowledge_refused hid⟩
  · rw [hevents]
    exact hdelivered
  · rw [hevents, hdelivered]
    exact hcontiguous.sublist log

/-- A daemon with a network and no events. -/
def emptyNetwork : Daemon :=
  (initial ['d'] deviceName_ne_nil fun _ => noon).after 0
    [.networkCreate ['h'] (List.replicate 16 0) (List.replicate 32 0)]

/-- The daemon with a siphon of its network. -/
def emptySiphon : Daemon := (emptyNetwork.createDurableSiphon ['h'] ['s'] [] []).2

/-- The daemon after its first event. -/
def oneArrival : Daemon := (emptySiphon.ingest ['h'] ['s'] [] ['e'] ['1'] []).2

/-- The daemon that has handed out its first event. -/
def oneDelivery : Daemon := (oneArrival.pollDurableSiphon ['h'] ['s'] 0 ['r']).2

theorem emptyNetwork_reachable : emptyNetwork.Reachable := ⟨_, _, _, run_after _ _ _⟩

theorem oneDelivery_reachable : oneDelivery.Reachable := by
  have hcreate : Step anyStep emptyNetwork emptySiphon :=
    ⟨.createDurableSiphon ['h'] ['s'] [] [], _, ⟨0, rfl⟩, trivial⟩
  have hingest : Step anyStep emptySiphon oneArrival :=
    ⟨.ingest ['h'] ['s'] [] ['e'] ['1'] [], _, ⟨0, rfl⟩, trivial⟩
  have hpoll : Step anyStep oneArrival oneDelivery :=
    ⟨.pollDurableSiphon ['h'] ['s'] 0 ['r'], _, ⟨0, rfl⟩, trivial⟩
  exact ReachableBy.run emptyNetwork_reachable
    (((ReflTransGen.single hcreate).tail hingest).tail hpoll)

theorem readDurableSiphon_emptyNetwork :
    readDurableSiphon emptyNetwork.store ['h'] ['s'] = .ok none :=
  eq_ok_of_toOption (by decide +kernel)

theorem exists_createDurableSiphon_emptyNetwork : ∃ info,
    emptyNetwork.createDurableSiphon ['h'] ['s'] [] [] = (.ok info, emptySiphon) := by
  have hsome : (emptyNetwork.createDurableSiphon ['h'] ['s'] [] []).1.toOption.isSome = true := by
    decide +kernel
  obtain ⟨info, hinfo⟩ := Option.isSome_iff_exists.mp hsome
  exact ⟨info, Prod.ext (eq_ok_of_toOption hinfo) rfl⟩

theorem oneDelivery_run : DeliveryRun ['h'] ['s'] emptySiphon
    ([] ++ [passage ['h'] ['s'] emptySiphon oneArrival] ++
      [passage ['h'] ['s'] oneArrival oneDelivery]) ([] ++ [] ++ []) oneDelivery := by
  have hroom : ∀ d : Daemon, (readArrivalSequence d.store).toOption ≠ some maxUint64 →
      readArrivalSequence d.store ≠ .ok maxUint64 := fun d hne heq => hne (by rw [heq]; rfl)
  have hingest : emptySiphon.Performs (.ingest ['h'] ['s'] [] ['e'] ['1'] []) _ oneArrival :=
    ⟨0, rfl⟩
  have hpoll : oneArrival.Performs (.pollDurableSiphon ['h'] ['s'] 0 ['r']) _ oneDelivery :=
    ⟨0, rfl⟩
  have hstart : DeliveryRun ['h'] ['s'] emptySiphon [] [] emptySiphon := .refl
  have hfirst := hstart.step hingest (by simp) (hroom emptySiphon (by decide +kernel))
  exact hfirst.step hpoll (by simp) (hroom oneArrival (by decide +kernel))

theorem oneDelivery_durable_delivery : ∃ definition events,
    readDurableSiphon oneDelivery.store ['h'] ['s'] = .ok (some definition) ∧
      Represents oneDelivery.store events ∧
      [] ++ [] ++ [] ++ pendingEvents ['h'] ['s'] oneDelivery =
        ([] ++ [passage ['h'] ['s'] emptySiphon oneArrival] ++
          [passage ['h'] ['s'] oneArrival oneDelivery]).flatMap
            fun p : Passage ThalwegEvent => p.items events := by
  obtain ⟨info, hcreate⟩ := exists_createDurableSiphon_emptyNetwork
  obtain ⟨definition, events, hread, -, hrepresents, -, -, hdelivered, -⟩ :=
    emptyNetwork_reachable.durable_delivery readDurableSiphon_emptyNetwork hcreate oneDelivery_run
  exact ⟨definition, events, hread, hrepresents, hdelivered⟩

/-- A delivery can be polled any number of times before the count of attempts is exhausted. -/
theorem Follows.exists_attempts (h : d.Follows definition log items)
    {pending : DurableSiphonPending} (hpending : definition.pending = some pending) (n : ℕ)
    (hn : pending.attempts + n < 2 ^ 63) :
    ∃ d' definition' log' pending',
      d.Run (Unacknowledged definition.network definition.name) d' ∧
      d'.Follows definition' log' items ∧ definition'.network = definition.network ∧
      definition'.name = definition.name ∧ definition'.pending = some pending' ∧
      pending'.attempts = pending.attempts + n := by
  induction n with
  | zero =>
    exact ⟨d, definition, log, pending, ReflTransGen.refl, h, rfl, rfl, hpending, by simp⟩
  | succ n ih =>
    obtain ⟨d₁, definition₁, log₁, pending₁, hrun, h₁, hn₁, hm₁, hpending₁, hattempts₁⟩ :=
      ih (by omega)
    have hpoll := h₁.poll hpending₁ le_rfl (by decide) []
    have hp : d₁.Performs (.pollDurableSiphon definition₁.network definition₁.name 0 []) (.ok ())
        (d₁.pollDurableSiphon definition₁.network definition₁.name 0 []).2 :=
      ⟨0, by rw [Operation.perform, hpoll]; rfl⟩
    have hroom : definition₁.HasRoom log₁ := fun hnone => by simp [hpending₁] at hnone
    obtain ⟨definition', log', items', h', hn', hm', -, -, hkept⟩ := h₁.step hroom hp (by simp)
    obtain ⟨rfl, pending', hpending', -⟩ := hkept rfl pending₁ hpending₁
    refine ⟨_, definition', log', pending', hrun.tail ⟨_, _, hp, ?_⟩, h', hn'.trans hn₁,
      hm'.trans hm₁, hpending', ?_⟩
    · exact ⟨by simp, rfl⟩
    · have hwell := (h₁.filed.of_read h₁.read).1
      have hread := h'.read
      have hlow := (hwell.pending pending₁ hpending₁).attempts_low
      rw [hn', hm', hpoll] at hread
      have hwritten := readDurableSiphon_writeDurableSiphon d₁.store
        (wellFormed_attempt hwell hpending₁ d₁.clockNow.format)
      have heq := Option.some.inj (Except.ok.inj (hread.symm.trans hwritten))
      rw [heq] at hpending'
      rw [← Option.some.inj hpending']
      change (pending₁.attempts + 1).bmod (2 ^ 64) = _
      rw [Int.bmod_eq_of_le (by omega) (by omega), hattempts₁]
      omega

/-- A poll with a limit that is not accepted returns no delivery, and the count of attempts of a
delivery that is polled often enough becomes negative. -/
theorem oneDelivery_not_redelivered : ∃ definition pending,
    oneDelivery.Reachable ∧
    readDurableSiphon oneDelivery.store ['h'] ['s'] = .ok (some definition) ∧
    definition.pending = some pending ∧
    (∃ e, (oneDelivery.pollDurableSiphon ['h'] ['s'] (-1) []).1 = .error e) ∧
    ∃ d' delivery, oneDelivery.Run (Unacknowledged ['h'] ['s']) d' ∧
      (d'.pollDurableSiphon ['h'] ['s'] 0 []).1 = .ok delivery ∧
      delivery.attempt < pending.attempts := by
  obtain ⟨info, hcreate⟩ := exists_createDurableSiphon_emptyNetwork
  obtain ⟨L, hL⟩ := emptyNetwork_reachable.exists_holds.1
  obtain ⟨definition₀, hf₀, hn₀, hm₀, hnone, -, hcursor⟩ :=
    follows_create hL emptyNetwork_reachable.siphonsFiled readDurableSiphon_emptyNetwork hcreate
  obtain ⟨definition, log, items, hf, hn, hm, -, -⟩ :=
    DeliveryRun.follows hf₀ hnone hcursor (by rw [hn₀, hm₀]; exact oneDelivery_run)
  have hread := hf.read
  rw [hn, hm, hn₀, hm₀] at hread
  have hattempts : (((readDurableSiphon oneDelivery.store ['h'] ['s']).toOption.join.bind
      DurableSiphonDefinition.pending).map DurableSiphonPending.attempts) = some 1 := by
    decide +kernel
  rw [hread] at hattempts
  obtain ⟨pending, hpending, hone⟩ := Option.map_eq_some_iff.mp hattempts
  have hpending : definition.pending = some pending := hpending
  obtain ⟨d', definition', log', pending', hrun, hf', hn', hm', hpending', hattempts'⟩ :=
    hf.exists_attempts hpending (2 ^ 63 - 2) (by rw [hone]; decide)
  have hpoll := hf'.poll hpending' le_rfl (by decide) []
  rw [hn', hm', hn, hm, hn₀, hm₀] at hpoll
  rw [hn, hm, hn₀, hm₀] at hrun
  refine ⟨definition, pending, ?_, hread, hpending, ⟨_, rfl⟩, d', _, hrun, by rw [hpoll], ?_⟩
  · exact oneDelivery_reachable
  · change (pending'.attempts + 1).bmod (2 ^ 64) < pending.attempts
    rw [hattempts', hone]
    decide

end Daemon

end Thalweg
