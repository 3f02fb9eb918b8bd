import Thalweg.Daemon.Run

/-!
# The records of durable siphons

A durable siphon reads back from its record, and the keys of durable siphons tell them apart. In
every reachable state each key of a durable siphon holds the record of a siphon of that network and
name.

* `decodeDurableSiphon_marshalDurableSiphon`.
* `SiphonsFiled`: the siphons stand under their own keys; `Daemon.Reachable.siphonsFiled`.
-/

namespace Thalweg

open Relation

/-! ### Round trip -/

/-- The count of attempts fits its field, and the keys are keys of events. -/
structure DurableSiphonPending.WellFormed (pending : DurableSiphonPending) : Prop where
  attempts_low : -2 ^ 63 ≤ pending.attempts
  attempts_high : pending.attempts < 2 ^ 63
  keys_event : ∀ key ∈ pending.eventKeys, keyFamily key = .event

/-- The siphon is of the version that is read, and its delivery is well formed. -/
structure DurableSiphonDefinition.WellFormed (definition : DurableSiphonDefinition) : Prop where
  version_eq : definition.version = durableSiphonVersion
  pending : ∀ pending, definition.pending = some pending → pending.WellFormed

theorem DurableSiphonDefinition.WellFormed.of_none {definition : DurableSiphonDefinition}
    (hversion : definition.version = durableSiphonVersion) (hpending : definition.pending = none) :
    definition.WellFormed :=
  ⟨hversion, by simp [hpending]⟩

/-- The members of a pending delivery. -/
def pendingMembers (pending : DurableSiphonPending) : List (Text × Json) :=
  [("id".toList, .str pending.id), ("cursorFrom".toList, .num (Text.decimal pending.cursorFrom.toNat)),
    ("cursorThrough".toList, .num (Text.decimal pending.cursorThrough.toNat)),
    ("eventKeys".toList, .arr (pending.eventKeys.map .str)),
    ("createdAt".toList, .str pending.createdAt),
    ("attempts".toList, .num (Text.decimalInt pending.attempts))]

/-- The members of the record of a siphon. -/
def durableSiphonMembers (definition : DurableSiphonDefinition) : List (Text × Json) :=
  [("version".toList, .num (Text.decimalInt definition.version)),
    ("name".toList, .str definition.name), ("network".toList, .str definition.network),
    ("streams".toList, .arr (definition.streams.map .str)),
    ("cursor".toList, .num (Text.decimal definition.cursor.toNat)),
    ("createdAt".toList, .str definition.createdAt), ("updatedAt".toList, .str definition.updatedAt)] ++
      match definition.pending with
      | some pending => [("pending".toList, .obj (pendingMembers pending))]
      | none => []

theorem renderRest_map_quote (texts : List Text) :
    Json.renderRest (texts.map Json.quote) = Json.renderItems (texts.map .str) := by
  induction texts with
  | nil => rfl
  | cons t texts ih => simp [Json.renderRest, Json.renderItems, Json.render, ih]

theorem renderArray_map_quote (texts : List Text) :
    Json.renderArray (texts.map Json.quote) = Json.render (.arr (texts.map .str)) := by
  cases texts with
  | nil => rfl
  | cons t texts => simp [Json.renderArray, Json.render, renderRest_map_quote]

theorem marshalPending_eq_render (pending : DurableSiphonPending) :
    marshalPending pending = Json.render (.obj (pendingMembers pending)) := by
  rw [← Json.renderRecord_map]
  simp only [marshalPending, pendingMembers, renderArray_map_quote, List.map_cons, List.map_nil,
    Json.render]

theorem marshalDurableSiphon_eq_render (definition : DurableSiphonDefinition) :
    marshalDurableSiphon definition = Json.render (.obj (durableSiphonMembers definition)) := by
  rw [← Json.renderRecord_map]
  unfold marshalDurableSiphon durableSiphonMembers
  cases definition.pending with
  | none => simp only [renderArray_map_quote, List.append_nil, List.map_cons, List.map_nil, Json.render]
  | some pending =>
    simp only [renderArray_map_quote, marshalPending_eq_render, List.cons_append, List.nil_append,
      List.map_cons, List.map_nil, Json.render]

theorem itemsWellFormed_map_str (texts : List Text) :
    Json.ItemsWellFormed Json.IsNumber (texts.map .str) := by
  induction texts with
  | nil => trivial
  | cons t texts ih => exact ⟨trivial, ih⟩

theorem itemsDepth_map_str (texts : List Text) : Json.itemsDepth (texts.map .str) = 0 := by
  induction texts with
  | nil => rfl
  | cons t texts ih => simp [Json.itemsDepth, Json.depth, ih]

theorem pendingMembers_wellFormed (pending : DurableSiphonPending) :
    Json.MembersWellFormed Json.IsNumber (pendingMembers pending) := by
  simp [pendingMembers, Json.MembersWellFormed, Json.WellFormed, Json.isNumber_decimal,
    Json.isNumber_decimalInt, itemsWellFormed_map_str]

theorem durableSiphonMembers_wellFormed (definition : DurableSiphonDefinition) :
    Json.MembersWellFormed Json.IsNumber (durableSiphonMembers definition) := by
  unfold durableSiphonMembers
  cases definition.pending <;>
    simp [Json.MembersWellFormed, Json.WellFormed, Json.isNumber_decimal, Json.isNumber_decimalInt,
      itemsWellFormed_map_str, pendingMembers_wellFormed]

theorem durableSiphonMembers_depth (definition : DurableSiphonDefinition) :
    Json.membersDepth (durableSiphonMembers definition) + 1 ≤ Json.maxDepth := by
  have hpending : ∀ pending, Json.membersDepth (pendingMembers pending) = 1 := fun pending => by
    simp [pendingMembers, Json.membersDepth, Json.depth, itemsDepth_map_str]
  unfold durableSiphonMembers
  cases definition.pending <;>
    simp [Json.membersDepth, Json.depth, itemsDepth_map_str, hpending, Json.maxDepth]

theorem decodeTexts_map_str (texts : List Text) :
    Json.decodeTexts (.arr (texts.map .str)) = some texts := by
  unfold Json.decodeTexts
  induction texts with
  | nil => rfl
  | cons t texts ih =>
    simp only [List.map_cons, List.mapM_cons, Json.decodeText] at ih ⊢
    simp [ih]

theorem foldlM_pendingMembers {pending : DurableSiphonPending} (h : pending.WellFormed)
    (default : DurableSiphonPending) :
    (Json.rawMembers (pendingMembers pending)).foldlM (Json.setMember false pendingFields) default =
      some pending := by
  simp [Json.rawMembers, pendingMembers, Json.setMember, Json.lookupField, pendingFields,
    Json.decodeText, decodeUInt64_decimal, decodeTexts_map_str,
    Json.decodeInt_decimalInt _ h.attempts_low h.attempts_high]

theorem foldlM_durableSiphonMembers {definition : DurableSiphonDefinition}
    (h : definition.WellFormed) :
    (Json.rawMembers (durableSiphonMembers definition)).foldlM
      (Json.setMember false durableSiphonFields) ⟨0, [], [], [], 0, [], [], none⟩ =
        some definition := by
  obtain ⟨version, name, network, streams, cursor, createdAt, updatedAt, pending⟩ := definition
  obtain rfl : version = durableSiphonVersion := h.version_eq
  have hversion := Json.decodeInt_decimalInt 0 (n := durableSiphonVersion) (by decide) (by decide)
  cases pending with
  | none =>
    simp [Json.rawMembers, durableSiphonMembers, Json.setMember, Json.lookupField,
      durableSiphonFields, Json.decodeText, decodeUInt64_decimal, decodeTexts_map_str, hversion]
  | some pending =>
    have hpending : decodePending none (.obj (pendingMembers pending)) = some (some pending) := by
      simp only [decodePending, Json.decodeObject, foldlM_pendingMembers (h.pending pending rfl),
        Option.map_some]
    simp [Json.rawMembers, durableSiphonMembers, Json.setMember, Json.lookupField,
      durableSiphonFields, Json.decodeText, decodeUInt64_decimal, decodeTexts_map_str, hversion,
      hpending]

/-- A durable siphon reads back from its record. -/
theorem decodeDurableSiphon_marshalDurableSiphon {definition : DurableSiphonDefinition}
    (h : definition.WellFormed) :
    decodeDurableSiphon (marshalDurableSiphon definition) = .ok definition := by
  have hne : durableSiphonMembers definition ≠ [] := by simp [durableSiphonMembers]
  rw [decodeDurableSiphon, marshalDurableSiphon_eq_render, Json.decodeRecord_renderRecord _ _ _ hne
    (durableSiphonMembers_wellFormed _) (durableSiphonMembers_depth _),
    foldlM_durableSiphonMembers h]
  simp [h.version_eq]

/-! ### Keys -/

/-- The key of a durable siphon determines its network and its name. -/
@[simp] theorem durableSiphonKey_inj {n n' m m' : Text} :
    durableSiphonKey n m = durableSiphonKey n' m' ↔ n = n' ∧ m = m' := by
  have hshort : ∀ n m m', encodeKeyPart m' ≠ encodeKeyPart n ++ ':' :: encodeKeyPart m :=
    fun n m m' heq => colon_notMem_encodeKeyPart m' (heq ▸ by simp)
  constructor
  · intro h
    simp only [durableSiphonKey, durableSiphonPrefix, List.append_assoc,
      List.append_cancel_left_eq] at h
    split_ifs at h with hn hn' hn' <;>
      simp only [List.nil_append, List.append_assoc, List.cons_append] at h
    · exact ⟨hn.trans hn'.symm, encodeKeyPart_injective h⟩
    · exact absurd h (hshort n' m' m)
    · exact absurd h.symm (hshort n m m')
    · obtain ⟨h1, h2⟩ := Text.append_cons_inj_left (by simp) (by simp) h
      exact ⟨encodeKeyPart_injective h1, encodeKeyPart_injective h2⟩
  · rintro ⟨rfl, rfl⟩
    rfl

theorem keyFamily_durableSiphonPrefix (network : Text) :
    keyFamily (durableSiphonPrefix network) = .durableSiphon := by
  rw [durableSiphonPrefix, keyFamily_append colon_mem_families.2.2.2.2.1]
  exact keyFamily_families.2.2.2.2.1

theorem colon_mem_durableSiphonPrefix (network : Text) : ':' ∈ durableSiphonPrefix network :=
  List.mem_append_left _ colon_mem_families.2.2.2.2.1

/-! ### Filed siphons -/

/-- Every key of a durable siphon holds the record of a siphon of its network and name. -/
def SiphonsFiled (store : Store) : Prop :=
  ∀ key value, keyFamily key = .durableSiphon → store.get key = some value →
    ∃ definition : DurableSiphonDefinition, definition.WellFormed ∧
      key = durableSiphonKey definition.network definition.name ∧
      value = marshalDurableSiphon definition

namespace SiphonsFiled

variable {store store' : Store} {network name : Text}

theorem read_cases (h : SiphonsFiled store) (network name : Text) :
    (store.get (durableSiphonKey network name) = none ∧
      readDurableSiphon store network name = .ok none) ∨
    ∃ definition : DurableSiphonDefinition, definition.WellFormed ∧ definition.network = network ∧
      definition.name = name ∧
      store.get (durableSiphonKey network name) = some (marshalDurableSiphon definition) ∧
      readDurableSiphon store network name = .ok (some definition) := by
  cases hget : store.get (durableSiphonKey network name) with
  | none => exact Or.inl ⟨rfl, by rw [readDurableSiphon, hget]⟩
  | some value =>
    obtain ⟨definition, hwell, hkey, rfl⟩ := h _ _ (by simp) hget
    obtain ⟨hn, hm⟩ := durableSiphonKey_inj.mp hkey
    refine Or.inr ⟨definition, hwell, hn.symm, hm.symm, rfl, ?_⟩
    simp only [readDurableSiphon, hget, decodeDurableSiphon_marshalDurableSiphon hwell]
    rfl

/-- A siphon that is read is filed under its network and name. -/
theorem of_read (h : SiphonsFiled store) {definition : DurableSiphonDefinition}
    (hread : readDurableSiphon store network name = .ok (some definition)) :
    definition.WellFormed ∧ definition.network = network ∧ definition.name = name ∧
      store.get (durableSiphonKey network name) = some (marshalDurableSiphon definition) := by
  rcases h.read_cases network name with ⟨-, hnone⟩ | ⟨definition', hwell, hn, hm, hget, hsome⟩
  · rw [hread] at hnone
    cases hnone
  · rw [hread] at hsome
    cases hsome
    exact ⟨hwell, hn, hm, hget⟩

theorem write (h : SiphonsFiled store) {definition : DurableSiphonDefinition}
    (hwell : definition.WellFormed) : SiphonsFiled (writeDurableSiphon store definition) := by
  intro key value hkey hget
  rw [writeDurableSiphon, OrderedStore.get_set] at hget
  split_ifs at hget with heq
  · exact ⟨definition, hwell, heq, (Option.some.inj hget).symm⟩
  · exact h key value hkey hget

theorem of_get (h : SiphonsFiled store)
    (hget : ∀ key, keyFamily key = .durableSiphon →
      store'.get key = store.get key ∨ store'.get key = none) : SiphonsFiled store' := by
  intro key value hkey hvalue
  rcases hget key hkey with heq | hnone
  · exact h key value hkey (heq ▸ hvalue)
  · rw [hnone] at hvalue
    cases hvalue

end SiphonsFiled

/-! ### Operations on siphons -/

theorem wellFormed_attempt {definition : DurableSiphonDefinition} (h : definition.WellFormed)
    {pending : DurableSiphonPending} (hpending : definition.pending = some pending)
    (updatedAt : Text) :
    DurableSiphonDefinition.WellFormed { definition with
      pending := some { pending with attempts := (pending.attempts + 1).bmod (2 ^ 64) }
      updatedAt } where
  version_eq := h.version_eq
  pending := by
    rintro _ ⟨⟩
    have hlow := Int.le_bmod (x := pending.attempts + 1) (m := 2 ^ 64) (by decide)
    have hhigh := Int.bmod_lt (x := pending.attempts + 1) (m := 2 ^ 64) (by decide)
    exact ⟨by simpa using hlow, by simpa using hhigh, (h.pending pending hpending).keys_event⟩

/-- The arrival index leads to keys of events. -/
def ArrivalsLead (store : Store) : Prop :=
  ∀ key value, keyFamily key = .arrival → store.get key = some value → keyFamily value = .event

theorem Represents.arrivalsLead {store : Store} {events : List ThalwegEvent}
    (h : Represents store events) : ArrivalsLead store := by
  intro key value hkey hget
  obtain ⟨i, e, -, -, rfl⟩ := (h.arrival_iff key value hkey).mp hget
  exact keyFamily_eventKey e

theorem keyFamily_arrivalIndexPrefix (network : Text) :
    keyFamily (arrivalIndexPrefix network) = .arrival := by
  simp only [arrivalIndexPrefix, List.append_assoc]
  exact (keyFamily_append colon_mem_families.2.2.1 _).trans keyFamily_families.2.2.1

theorem colon_mem_arrivalIndexPrefix (network : Text) : ':' ∈ arrivalIndexPrefix network := by
  simp [arrivalIndexPrefix]

/-- The entries of a scan of the arrival index lead to keys of events. -/
theorem ArrivalsLead.of_mem_scan {store : Store} (h : ArrivalsLead store) {network : Text}
    {cursor : UInt64} : ∀ entry ∈ store.scan (arrivalIndexPrefix network)
      (arrivalIndexKey network cursor), keyFamily entry.2 = .event := by
  intro entry hentry
  obtain ⟨hget, -, hpre⟩ := (store.mem_scan_iff (List.prefix_append _ _)).mp hentry
  refine h entry.1 entry.2 ?_ hget
  rw [keyFamily_of_isPrefix (colon_mem_arrivalIndexPrefix network) hpre,
    keyFamily_arrivalIndexPrefix]

/-- The selected keys come from the index. -/
theorem mem_of_selectArrivals {store : Store} {resolutions : List (Text × ThalwegEvent)}
    {definition : DurableSiphonDefinition} {limit : Nat} {entries : List (Text × Text)}
    {taken keys : List Text} {through through' : UInt64}
    (h : selectArrivals store resolutions definition limit taken through entries =
      .ok (keys, through')) : ∀ key ∈ keys, key ∈ taken ∨ ∃ entry ∈ entries, entry.2 = key := by
  induction entries generalizing taken through with
  | nil =>
    cases h
    exact fun key hkey => Or.inl hkey
  | cons entry entries ih =>
    simp only [selectArrivals, bind_eq_ok_iff] at h
    obtain ⟨through₁, -, event, -, h⟩ := h
    have hrest : ∀ {taken'}, (∀ key ∈ taken', key ∈ taken ∨ key = entry.2) →
        selectArrivals store resolutions definition limit taken' through₁ entries =
          .ok (keys, through') →
        ∀ key ∈ keys, key ∈ taken ∨ ∃ e ∈ entry :: entries, e.2 = key := by
      intro taken' htaken hselect key hkey
      rcases ih hselect key hkey with hmem | ⟨e, he, rfl⟩
      · rcases htaken key hmem with hmem | rfl
        · exact Or.inl hmem
        · exact Or.inr ⟨entry, by simp, rfl⟩
      · exact Or.inr ⟨e, List.mem_cons_of_mem _ he, rfl⟩
    split_ifs at h
    · exact hrest (fun key hkey => Or.inl hkey) h
    · cases h
      intro key hkey
      rcases List.mem_append.mp hkey with hmem | hmem
      · exact Or.inl hmem
      · exact Or.inr ⟨entry, by simp, (List.mem_singleton.mp hmem).symm⟩
    · exact hrest (fun key hkey => by simpa using hkey) h

namespace Daemon

variable {d : Daemon}

/-- A poll leaves the store or writes the siphon anew. -/
theorem pendDurableDelivery_cases {definition definition' : DurableSiphonDefinition} {limit : Nat}
    {random : Text} {store : Store} (hlead : ArrivalsLead d.store) (hwell : definition.WellFormed)
    (h : d.pendDurableDelivery definition limit random = .ok (store, definition')) :
    definition'.WellFormed ∧ definition'.network = definition.network ∧
      definition'.name = definition.name ∧
      (store = d.store ∨ store = writeDurableSiphon d.store definition') := by
  unfold pendDurableDelivery at h
  split at h
  · next hnone =>
    simp only [prepareDurableDelivery, bind_eq_ok_iff] at h
    obtain ⟨resolutions, -, ⟨keys, through⟩, hselect, h⟩ := h
    simp only at h
    split_ifs at h
    all_goals cases h
    · exact ⟨.of_none hwell.version_eq hnone, rfl, rfl, Or.inr rfl⟩
    · exact ⟨hwell, rfl, rfl, Or.inl rfl⟩
    · refine ⟨⟨hwell.version_eq, ?_⟩, rfl, rfl, Or.inr rfl⟩
      rintro _ ⟨⟩
      refine ⟨by simp, by simp, fun key hkey => ?_⟩
      rcases mem_of_selectArrivals hselect key hkey with hmem | ⟨entry, hentry, rfl⟩
      · cases hmem
      · exact hlead.of_mem_scan entry hentry
  · next pending hpending =>
    cases h
    exact ⟨wellFormed_attempt hwell hpending _, rfl, rfl, Or.inr rfl⟩

/-- Every operation on a siphon leaves the store or writes a siphon of its network and name. -/
def WritesOnly (network name : Text) (store store' : Store) : Prop :=
  store' = store ∨ ∃ definition : DurableSiphonDefinition, definition.WellFormed ∧
    definition.network = network ∧ definition.name = name ∧
    store' = writeDurableSiphon store definition

theorem createDurableSiphon_writesOnly (d : Daemon) (network name : Text) (streams : List Text)
    (start : Text) :
    WritesOnly network name d.store (d.createDurableSiphon network name streams start).2.store := by
  unfold createDurableSiphon
  split
  · exact Or.inl rfl
  split
  · exact Or.inl rfl
  · exact Or.inl rfl
  split
  · exact Or.inl rfl
  split
  · exact Or.inl rfl
  · split <;> exact Or.inl rfl
  split
  · exact Or.inl rfl
  · exact Or.inr ⟨_, .of_none rfl rfl, rfl, rfl, rfl⟩

theorem pollDurableSiphon_writesOnly (hlead : ArrivalsLead d.store) (h : SiphonsFiled d.store)
    (network name : Text) (limit : Int) (random : Text) :
    WritesOnly network name d.store (d.pollDurableSiphon network name limit random).2.store := by
  unfold pollDurableSiphon
  simp only
  generalize (if limit = 0 then durableSiphonDefaultBatch else limit) = limit
  split
  · exact Or.inl rfl
  split
  · exact Or.inl rfl
  · exact Or.inl rfl
  next definition hread =>
  obtain ⟨hwell, hn, hm, -⟩ := h.of_read hread
  split
  · exact Or.inl rfl
  next store definition' hpend =>
  obtain ⟨hwell', hn', hm', hstore⟩ := pendDurableDelivery_cases hlead hwell hpend
  split
  · exact Or.inl rfl
  · rcases hstore with rfl | rfl
    · exact Or.inl rfl
    · exact Or.inr ⟨definition', hwell', hn'.trans hn, hm'.trans hm, rfl⟩

theorem acknowledgeDurableSiphon_writesOnly (h : SiphonsFiled d.store)
    (network name deliveryID : Text) :
    WritesOnly network name d.store
      (d.acknowledgeDurableSiphon network name deliveryID).2.store := by
  unfold acknowledgeDurableSiphon
  split
  · exact Or.inl rfl
  split
  · exact Or.inl rfl
  · exact Or.inl rfl
  next definition hread =>
  obtain ⟨hwell, hn, hm, -⟩ := h.of_read hread
  split
  · exact Or.inl rfl
  next pending _ =>
  split
  · exact Or.inl rfl
  exact Or.inr ⟨{ definition with
    cursor := pending.cursorThrough, pending := none, updatedAt := d.clockNow.format },
    .of_none hwell.version_eq rfl, hn, hm, rfl⟩

theorem WritesOnly.siphonsFiled {network name : Text} {store store' : Store}
    (h : WritesOnly network name store store') (hfiled : SiphonsFiled store) :
    SiphonsFiled store' := by
  rcases h with rfl | ⟨definition, hwell, -, -, rfl⟩
  · exact hfiled
  · exact hfiled.write hwell

theorem WritesOnly.arrivalsLead {network name : Text} {store store' : Store}
    (h : WritesOnly network name store store') (hlead : ArrivalsLead store) :
    ArrivalsLead store' := by
  rcases h with rfl | ⟨definition, -, -, -, rfl⟩
  · exact hlead
  · intro key value hkey hget
    rw [writeDurableSiphon, OrderedStore.get_set_of_ne _ (ne_of_keyFamily_ne (by simp [hkey]))] at hget
    exact hlead key value hkey hget

/-- Other siphons keep their records. -/
theorem WritesOnly.get {network name : Text} {store store' : Store}
    (h : WritesOnly network name store store') {key : Text}
    (hkey : key ≠ durableSiphonKey network name) : store'.get key = store.get key := by
  rcases h with rfl | ⟨definition, -, rfl, rfl, rfl⟩
  · rfl
  · exact OrderedStore.get_set_of_ne _ hkey _

/-! ### Runs -/

/-- The network and the name of the siphon that an operation is on. -/
def siphonOf : Operation → Option (Text × Text)
  | .createDurableSiphon network name _ _ | .pollDurableSiphon network name _ _
  | .acknowledgeDurableSiphon network name _ | .deleteDurableSiphon network name =>
    some (network, name)
  | _ => none

variable {d' : Daemon} {L : Ledger} {op : Operation} {r : Result Unit}

/-- Operations that are not on siphons leave the records of all siphons. -/
theorem get_of_siphonOf_eq_none (h : d.Holds L) (hp : d.Performs op r d')
    (hnone : siphonOf op = none) {key : Text} (hkey : keyFamily key = .durableSiphon) :
    d'.store.get key = d.store.get key := by
  have hne : ∀ {key' : Text}, keyFamily key' ≠ .durableSiphon → key ≠ key' := fun hkey' heq =>
    hkey' (heq ▸ hkey)
  rcases h.perform_cases hp with ⟨-, hquiet, -⟩ | ⟨-, -, -, -, -, hsame⟩
  swap
  · exact hsame.get key (not_isEventKey_of_keyFamily hkey (Or.inr (Or.inl rfl))) (hne (by simp))
  obtain ⟨fuel, hp⟩ := hp
  cases op with
  | ingest | ingestReplicated | resolveEventConflict | restart | killedReceipt
    | killedResolution => exact hquiet.elim
  | createDurableSiphon | pollDurableSiphon | acknowledgeDurableSiphon | deleteDurableSiphon =>
    cases hnone
  | recordEventConflicts networkName observations =>
    cases hp
    exact get_recordEventConflicts d networkName observations (by simp [hkey])
  | networkCreate name id secret =>
    obtain rfl : (d.networkCreate name id secret).2 = d' := congrArg Prod.snd (Option.some.inj hp)
    unfold networkCreate
    split <;> rfl
  | networkJoin invitation =>
    obtain rfl : (d.networkJoin invitation).2 = d' := congrArg Prod.snd (Option.some.inj hp)
    unfold networkJoin
    split <;> rfl
  | networkLeave name =>
    obtain rfl : (d.networkLeave name).2 = d' := congrArg Prod.snd (Option.some.inj hp)
    unfold networkLeave
    split
    · rfl
    · exact get_removeMeshPeersForNetwork _ _ (by simp [hkey])
  | persistMeshPeer networkName peerID record =>
    cases hp
    exact OrderedStore.get_set_of_ne _ (hne (by simp)) _
  | persistPeer peerID address =>
    cases hp
    exact OrderedStore.get_set_of_ne _ (hne (by simp)) _

/-- An operation on a siphon writes the record of this siphon only, or it deletes it. -/
theorem writesOnly_of_siphonOf (h : d.Holds L) (hfiled : SiphonsFiled d.store)
    (hp : d.Performs op r d') {network name : Text} (hsome : siphonOf op = some (network, name)) :
    WritesOnly network name d.store d'.store ∨ op = .deleteDurableSiphon network name ∧
      (d'.store = d.store ∨ d'.store = d.store.delete (durableSiphonKey network name)) := by
  obtain ⟨fuel, hp⟩ := hp
  have hsnd : ∀ {α : Type} {x : Result α × Daemon}, some (voidResult x) = some (r, d') → x.2 = d' :=
    fun hx => congrArg Prod.snd (Option.some.inj hx)
  cases op with
  | createDurableSiphon network name streams start =>
    cases hsome
    exact Or.inl (hsnd hp ▸ createDurableSiphon_writesOnly d network name streams start)
  | pollDurableSiphon network name limit random =>
    cases hsome
    exact Or.inl (hsnd hp ▸ pollDurableSiphon_writesOnly h.represents.arrivalsLead hfiled network
      name limit random)
  | acknowledgeDurableSiphon network name deliveryID =>
    cases hsome
    exact Or.inl (hsnd hp ▸ acknowledgeDurableSiphon_writesOnly hfiled network name deliveryID)
  | deleteDurableSiphon network name =>
    cases hsome
    obtain rfl : (d.deleteDurableSiphon network name).2 = d' :=
      congrArg Prod.snd (Option.some.inj hp)
    refine Or.inr ⟨rfl, ?_⟩
    unfold deleteDurableSiphon
    split
    · exact Or.inl rfl
    · exact Or.inl rfl
    · exact Or.inr rfl
  | _ => cases hsome

/-- Operations on other siphons leave the record of a siphon. -/
theorem get_durableSiphonKey_of_performs (h : d.Holds L) (hfiled : SiphonsFiled d.store)
    (hp : d.Performs op r d') {network name : Text} (hne : siphonOf op ≠ some (network, name)) :
    d'.store.get (durableSiphonKey network name) =
      d.store.get (durableSiphonKey network name) := by
  cases hsome : siphonOf op with
  | none => exact get_of_siphonOf_eq_none h hp hsome (by simp)
  | some siphon =>
    obtain ⟨network', name'⟩ := siphon
    have hkey : durableSiphonKey network name ≠ durableSiphonKey network' name' := by
      rw [Ne, durableSiphonKey_inj]
      rintro ⟨rfl, rfl⟩
      exact hne hsome
    rcases writesOnly_of_siphonOf h hfiled hp hsome with hwrites | ⟨-, heq | heq⟩
    · exact hwrites.get hkey
    · rw [heq]
    · rw [heq, OrderedStore.get_delete, if_neg hkey]

theorem siphonsFiled_of_performs (h : d.Holds L) (hfiled : SiphonsFiled d.store)
    (hp : d.Performs op r d') : SiphonsFiled d'.store := by
  cases hsome : siphonOf op with
  | none => exact hfiled.of_get fun key hkey => Or.inl (get_of_siphonOf_eq_none h hp hsome hkey)
  | some siphon =>
    obtain ⟨network, name⟩ := siphon
    rcases writesOnly_of_siphonOf h hfiled hp hsome with hwrites | ⟨-, heq | heq⟩
    · exact hwrites.siphonsFiled hfiled
    · rwa [heq]
    · refine hfiled.of_get fun key _ => ?_
      rw [heq, OrderedStore.get_delete]
      split_ifs
      · exact Or.inr rfl
      · exact Or.inl rfl

/-- In every reachable state the siphons stand under their own keys. -/
theorem Reachable.siphonsFiled (h : d.Reachable) : SiphonsFiled d.store := by
  refine (ReachableBy.induction (p := fun d => (∃ L, d.Holds L) ∧ SiphonsFiled d.store) ?_ ?_ h).2
  · refine fun deviceID hdeviceID now => ⟨⟨_, initial_holds deviceID hdeviceID now⟩, ?_⟩
    intro key value hkey hget
    rcases get_initialStore_eq_some_iff.mp hget with ⟨rfl, -⟩ | ⟨rfl, -⟩ | ⟨rfl, -⟩ <;> simp at hkey
  · rintro d d' ⟨⟨L, hL⟩, hfiled⟩ ⟨op, r, hp, -⟩
    obtain ⟨L', hL', -⟩ := hL.perform hp
    exact ⟨⟨L', hL'⟩, siphonsFiled_of_performs hL hfiled hp⟩

end Daemon

end Thalweg
