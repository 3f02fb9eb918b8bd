import Thalweg.Daemon.Delivery
import Thalweg.Daemon.Query

/-!
# Keys over arbitrary bytes

The keys of the store for strings of any bytes, well-formed text or not, and what a scan of a prefix
visits. The keys of texts are those of their bytes.

* `StoreKey`, what a key is for, and `StoreKey.text_injective`.
* `mem_visited_queryPrefixes` and its companions: what the scans visit.
* `keys_exact`: keys tell their parts apart, and scans visit the keys of their network.
-/

namespace Thalweg.KeySpace

/-! ### The keys of the source -/

/-- A string of any bytes as a part of a key. -/
def encodeKeyPart (value : List UInt8) : Text := Base64Url.encode value

/-- The start of the keys of the events of a network. -/
def eventNetworkPrefix (networkName : List UInt8) : Text :=
  eventKeyFamily ++ encodeKeyPart networkName ++ [':']

/-- The start of the keys of the events of a stream. -/
def eventStreamPrefix (networkName stream : List UInt8) : Text :=
  eventNetworkPrefix networkName ++ encodeKeyPart stream ++ [':']

/-- The prefixes that a query scans. -/
def queryPrefixes (networkName : List UInt8) (streams : List (List UInt8)) : List Text :=
  if streams = [] then [eventNetworkPrefix networkName]
  else streams.map (eventStreamPrefix networkName)

/-- The key of an event. -/
def eventKey (network stream : List UInt8) (occurredAt : Text) (counter : UInt64)
    (deviceID id : List UInt8) : Text :=
  eventStreamPrefix network stream ++ occurredAt ++ ':' :: Text.padDecimal 20 counter.toNat ++
    ':' :: encodeKeyPart deviceID ++ ':' :: encodeKeyPart id

/-- The start of the ID index of a network. -/
def eventIDPrefix (networkName : List UInt8) : Text :=
  eventIDFamily ++ encodeKeyPart networkName ++ [':']

/-- The key of an event ID. -/
def eventIDKey (networkName eventID : List UInt8) : Text :=
  eventIDPrefix networkName ++ encodeKeyPart eventID

/-- The start of the arrival index of a network. -/
def arrivalIndexPrefix (network : List UInt8) : Text :=
  arrivalIndexFamily ++ encodeKeyPart network ++ [':']

/-- The key of an arrival. -/
def arrivalIndexKey (network : List UInt8) (sequence : UInt64) : Text :=
  arrivalIndexPrefix network ++ Text.padDecimal 20 sequence.toNat

/-- The start of the keys of the siphons of a network. -/
def durableSiphonPrefix (network : List UInt8) : Text :=
  durableSiphonFamily ++ if network = [] then [] else encodeKeyPart network ++ [':']

/-- The key of a siphon. -/
def durableSiphonKey (network name : List UInt8) : Text :=
  durableSiphonPrefix network ++ encodeKeyPart name

/-! ### The keys of texts -/

theorem eventKey_toBytes (event : ThalwegEvent) :
    eventKey (Text.toBytes event.network) (Text.toBytes event.stream) event.occurredAt event.counter
      (Text.toBytes event.deviceID) (Text.toBytes event.id) = Thalweg.eventKey event := rfl

theorem eventIDKey_toBytes (networkName eventID : Text) :
    eventIDKey (Text.toBytes networkName) (Text.toBytes eventID) =
      Thalweg.eventIDKey networkName eventID := rfl

theorem arrivalIndexKey_toBytes (network : Text) (sequence : UInt64) :
    arrivalIndexKey (Text.toBytes network) sequence =
      Thalweg.arrivalIndexKey network sequence := rfl

theorem toBytes_eq_nil_iff {t : Text} : Text.toBytes t = [] ↔ t = [] :=
  ⟨fun h => Text.toBytes_injective (h.trans Text.toBytes_nil.symm), fun h => h ▸ Text.toBytes_nil⟩

theorem durableSiphonPrefix_toBytes (network : Text) :
    durableSiphonPrefix (Text.toBytes network) = Thalweg.durableSiphonPrefix network := by
  simp only [durableSiphonPrefix, Thalweg.durableSiphonPrefix, toBytes_eq_nil_iff]
  rfl

theorem durableSiphonKey_toBytes (network name : Text) :
    durableSiphonKey (Text.toBytes network) (Text.toBytes name) =
      Thalweg.durableSiphonKey network name := by
  rw [durableSiphonKey, durableSiphonPrefix_toBytes]
  rfl

theorem queryPrefixes_toBytes (networkName : Text) (streams : List Text) :
    queryPrefixes (Text.toBytes networkName) (streams.map Text.toBytes) =
      Thalweg.queryPrefixes networkName streams := by
  simp only [queryPrefixes, Thalweg.queryPrefixes, List.map_eq_nil_iff, List.map_map]
  rfl

/-! ### Key parts -/

@[simp] theorem encodeKeyPart_inj {a b : List UInt8} : encodeKeyPart a = encodeKeyPart b ↔ a = b :=
  Base64Url.encode_injective.eq_iff

@[simp] theorem colon_notMem_encodeKeyPart (value : List UInt8) : ':' ∉ encodeKeyPart value :=
  Base64Url.colon_notMem_encode value

/-- A part with the separator after it tells the part from the rest. -/
theorem encodeKeyPart_append_inj {a b : List UInt8} {s t : Text} :
    encodeKeyPart a ++ ':' :: s = encodeKeyPart b ++ ':' :: t ↔ a = b ∧ s = t := by
  constructor
  · intro h
    obtain ⟨hpart, hrest⟩ := Text.append_cons_inj_left (by simp) (by simp) h
    exact ⟨encodeKeyPart_inj.mp hpart, hrest⟩
  · rintro ⟨rfl, rfl⟩
    rfl

/-- A part has no separator in it, so no key goes on after another part with one. -/
theorem encodeKeyPart_ne_append (a b : List UInt8) (s : Text) :
    encodeKeyPart a ≠ encodeKeyPart b ++ ':' :: s := fun h =>
  colon_notMem_encodeKeyPart a (h ▸ by simp)

theorem eventStreamPrefix_append_inj {n n' s s' : List UInt8} {t t' : Text} :
    eventStreamPrefix n s ++ t = eventStreamPrefix n' s' ++ t' ↔ n = n' ∧ s = s' ∧ t = t' := by
  simp only [eventStreamPrefix, eventNetworkPrefix, List.append_assoc, List.append_cancel_left_eq,
    List.cons_append, List.nil_append, encodeKeyPart_append_inj]

theorem eventKey_inj {n n' s s' d d' i i' : List UInt8} {o o' : Text} {c c' : UInt64} :
    eventKey n s o c d i = eventKey n' s' o' c' d' i' ↔
      n = n' ∧ s = s' ∧ o = o' ∧ c = c' ∧ d = d' ∧ i = i' := by
  constructor
  · intro h
    simp only [eventKey, List.append_assoc, List.cons_append, eventStreamPrefix_append_inj] at h
    obtain ⟨hn, hs, h⟩ := h
    -- the occurrence time has colons in it, so the rest is split from the right
    have h' : (o ++ ':' :: Text.padDecimal 20 c.toNat ++ ':' :: encodeKeyPart d) ++
          ':' :: encodeKeyPart i =
        (o' ++ ':' :: Text.padDecimal 20 c'.toNat ++ ':' :: encodeKeyPart d') ++
          ':' :: encodeKeyPart i' := by
      simpa using h
    obtain ⟨h', hi⟩ := Text.append_cons_inj_right (by simp) (by simp) h'
    obtain ⟨h', hd⟩ := Text.append_cons_inj_right (by simp) (by simp) h'
    obtain ⟨ho, hc⟩ := Text.append_cons_inj_right (colon_notMem_padDecimal _ _)
      (colon_notMem_padDecimal _ _) h'
    exact ⟨hn, hs, ho, UInt64.toNat_inj.mp (Text.padDecimal_injective _ hc),
      encodeKeyPart_inj.mp hd, encodeKeyPart_inj.mp hi⟩
  · rintro ⟨rfl, rfl, rfl, rfl, rfl, rfl⟩
    rfl

theorem eventIDKey_inj {n n' i i' : List UInt8} :
    eventIDKey n i = eventIDKey n' i' ↔ n = n' ∧ i = i' := by
  simp only [eventIDKey, eventIDPrefix, List.append_assoc, List.append_cancel_left_eq,
    List.cons_append, List.nil_append, encodeKeyPart_append_inj, encodeKeyPart_inj]

theorem arrivalIndexKey_inj {n n' : List UInt8} {i i' : UInt64} :
    arrivalIndexKey n i = arrivalIndexKey n' i' ↔ n = n' ∧ i = i' := by
  simp only [arrivalIndexKey, arrivalIndexPrefix, List.append_assoc, List.append_cancel_left_eq,
    List.cons_append, List.nil_append, encodeKeyPart_append_inj,
    (Text.padDecimal_injective 20).eq_iff, UInt64.toNat_inj]

theorem durableSiphonKey_inj {n n' m m' : List UInt8} :
    durableSiphonKey n m = durableSiphonKey n' m' ↔ n = n' ∧ m = m' := by
  simp only [durableSiphonKey, durableSiphonPrefix, List.append_assoc, List.append_cancel_left_eq]
  split_ifs with hn hn' hn' <;>
    simp only [List.append_assoc, List.nil_append, List.cons_append, encodeKeyPart_append_inj,
      encodeKeyPart_inj]
  · simp only [hn, hn', true_and]
  · exact ⟨fun h => absurd h (encodeKeyPart_ne_append _ _ _), fun h => absurd (h.1 ▸ hn) hn'⟩
  · exact ⟨fun h => absurd h.symm (encodeKeyPart_ne_append _ _ _), fun h => absurd (h.1 ▸ hn') hn⟩

/-! ### Store keys -/

/-- What a key of the store is for, among the keys that are made of strings of any bytes. -/
inductive StoreKey where
  | event (network stream : List UInt8) (occurredAt : Text) (counter : UInt64)
      (deviceID id : List UInt8)
  | eventID (network id : List UInt8)
  | arrival (network : List UInt8) (sequence : UInt64)
  | durableSiphon (network name : List UInt8)
  deriving DecidableEq

namespace StoreKey

/-- The text of a key. -/
def text : StoreKey → Text
  | event n s o c d i => eventKey n s o c d i
  | eventID n i => eventIDKey n i
  | arrival n sequence => arrivalIndexKey n sequence
  | durableSiphon n m => durableSiphonKey n m

/-- The network that a key is made from. -/
def network : StoreKey → List UInt8
  | event n .. | eventID n _ | arrival n _ | durableSiphon n _ => n

/-- The kind of a key. -/
def family : StoreKey → KeyFamily
  | event .. => .event
  | eventID .. => .eventID
  | arrival .. => .arrival
  | durableSiphon .. => .durableSiphon

/-- The key is that of an event of one of the streams; of any stream, when there are none. -/
def IsEventIn (streams : List (List UInt8)) : StoreKey → Prop
  | event _ s .. => streams = [] ∨ s ∈ streams
  | _ => False

/-- The family of a key can be told from its text. -/
theorem keyFamily_text (k : StoreKey) : keyFamily k.text = k.family := by
  obtain ⟨hevent, heventID, harrival, -, hsiphon, -⟩ := keyFamily_families
  obtain ⟨cevent, ceventID, carrival, -, csiphon, -⟩ := colon_mem_families
  cases k with
  | event =>
    simp only [text, eventKey, eventStreamPrefix, eventNetworkPrefix, List.append_assoc,
      keyFamily_append cevent, hevent, family]
  | eventID =>
    simp only [text, eventIDKey, eventIDPrefix, List.append_assoc, keyFamily_append ceventID,
      heventID, family]
  | arrival =>
    simp only [text, arrivalIndexKey, arrivalIndexPrefix, List.append_assoc,
      keyFamily_append carrival, harrival, family]
  | durableSiphon =>
    simp only [text, durableSiphonKey, durableSiphonPrefix, List.append_assoc,
      keyFamily_append csiphon, hsiphon, family]

/-- A key determines what it is for. -/
theorem text_injective : Function.Injective text := by
  intro k l h
  have hfamily : k.family = l.family := by rw [← keyFamily_text, ← keyFamily_text, h]
  cases k <;> cases l <;> simp only [family, reduceCtorEq] at hfamily <;>
    simp only [text, eventKey_inj, eventIDKey_inj, arrivalIndexKey_inj,
      durableSiphonKey_inj] at h <;>
    simp only [h]

end StoreKey

/-! ### Prefixes -/

@[simp] theorem keyFamily_eventNetworkPrefix (n : List UInt8) :
    keyFamily (eventNetworkPrefix n) = .event := by
  rw [eventNetworkPrefix, List.append_assoc, keyFamily_eventKeyFamily_append]

@[simp] theorem keyFamily_eventStreamPrefix (n s : List UInt8) :
    keyFamily (eventStreamPrefix n s) = .event := by
  rw [eventStreamPrefix, eventNetworkPrefix, List.append_assoc, List.append_assoc,
    List.append_assoc, keyFamily_eventKeyFamily_append]

@[simp] theorem keyFamily_eventIDPrefix (n : List UInt8) :
    keyFamily (eventIDPrefix n) = .eventID := by
  rw [eventIDPrefix, List.append_assoc, keyFamily_eventIDFamily_append]

@[simp] theorem keyFamily_arrivalIndexPrefix (n : List UInt8) :
    keyFamily (arrivalIndexPrefix n) = .arrival := by
  rw [arrivalIndexPrefix, List.append_assoc, keyFamily_append colon_mem_families.2.2.1,
    keyFamily_families.2.2.1]

@[simp] theorem keyFamily_durableSiphonPrefix (n : List UInt8) :
    keyFamily (durableSiphonPrefix n) = .durableSiphon := by
  rw [durableSiphonPrefix, keyFamily_append colon_mem_families.2.2.2.2.1,
    keyFamily_families.2.2.2.2.1]

theorem colon_mem_durableSiphonPrefix (n : List UInt8) : ':' ∈ durableSiphonPrefix n :=
  List.mem_append_left _ colon_mem_families.2.2.2.2.1

/-- A key has no prefix of another family. -/
theorem not_isPrefix_of_family_ne {pre : Text} (hcolon : ':' ∈ pre) {k : StoreKey}
    (hne : k.family ≠ keyFamily pre) : ¬pre <+: k.text := fun h =>
  hne (by rw [← k.keyFamily_text, keyFamily_of_isPrefix hcolon h])

/-- After a family, the prefix of a network starts the keys of that network alone. -/
theorem networkPrefix_isPrefix_iff {fam t : Text} {n n' : List UInt8} :
    fam ++ encodeKeyPart n ++ [':'] <+: fam ++ encodeKeyPart n' ++ [':'] ++ t ↔ n' = n := by
  constructor
  · rintro ⟨u, hu⟩
    simp only [List.append_assoc, List.append_cancel_left_eq, List.cons_append, List.nil_append,
      encodeKeyPart_append_inj] at hu
    exact hu.1.symm
  · rintro rfl
    exact List.prefix_append _ _

theorem eventNetworkPrefix_isPrefix_iff {n : List UInt8} {k : StoreKey} :
    eventNetworkPrefix n <+: k.text ↔ k.IsEventIn [] ∧ k.network = n := by
  cases k with
  | event n' s o c d i =>
    have htext : (StoreKey.event n' s o c d i).text = eventNetworkPrefix n' ++
        (encodeKeyPart s ++ ':' :: (o ++ ':' :: (Text.padDecimal 20 c.toNat ++
          ':' :: (encodeKeyPart d ++ ':' :: encodeKeyPart i)))) := by
      simp [StoreKey.text, eventKey, eventStreamPrefix]
    rw [htext, eventNetworkPrefix, eventNetworkPrefix, networkPrefix_isPrefix_iff]
    simp [StoreKey.IsEventIn, StoreKey.network]
  | _ =>
    exact iff_of_false
      (not_isPrefix_of_family_ne (by simp [eventNetworkPrefix]) (by simp [StoreKey.family]))
      (fun h => h.1)

theorem eventStreamPrefix_isPrefix_iff {n s : List UInt8} {k : StoreKey} :
    eventStreamPrefix n s <+: k.text ↔ k.IsEventIn [s] ∧ k.network = n := by
  cases k with
  | event n' s' o c d i =>
    constructor
    · rintro ⟨t, ht⟩
      simp only [StoreKey.text, eventKey, List.append_assoc, eventStreamPrefix_append_inj] at ht
      exact ⟨Or.inr (by simp [ht.2.1]), ht.1.symm⟩
    · rintro ⟨hstream, rfl⟩
      obtain rfl : s' = s := by simpa [StoreKey.IsEventIn] using hstream
      simp only [StoreKey.text, StoreKey.network, eventKey, List.append_assoc]
      exact List.prefix_append _ _
  | _ =>
    exact iff_of_false
      (not_isPrefix_of_family_ne (by simp [eventStreamPrefix]) (by simp [StoreKey.family]))
      (fun h => h.1)

theorem eventIDPrefix_isPrefix_iff {n : List UInt8} {k : StoreKey} :
    eventIDPrefix n <+: k.text ↔ k.family = .eventID ∧ k.network = n := by
  cases k with
  | eventID n' i =>
    rw [StoreKey.text, eventIDKey, eventIDPrefix, eventIDPrefix, networkPrefix_isPrefix_iff]
    simp [StoreKey.family, StoreKey.network]
  | _ =>
    exact iff_of_false
      (not_isPrefix_of_family_ne (by simp [eventIDPrefix]) (by simp [StoreKey.family]))
      (by simp [StoreKey.family])

theorem arrivalIndexPrefix_isPrefix_iff {n : List UInt8} {k : StoreKey} :
    arrivalIndexPrefix n <+: k.text ↔ k.family = .arrival ∧ k.network = n := by
  cases k with
  | arrival n' i =>
    rw [StoreKey.text, arrivalIndexKey, arrivalIndexPrefix, arrivalIndexPrefix,
      networkPrefix_isPrefix_iff]
    simp [StoreKey.family, StoreKey.network]
  | _ =>
    exact iff_of_false
      (not_isPrefix_of_family_ne (by simp [arrivalIndexPrefix]) (by simp [StoreKey.family]))
      (by simp [StoreKey.family])

/-- The prefix of the empty network's siphons is that of the siphons of all networks. -/
theorem durableSiphonPrefix_isPrefix_iff {n : List UInt8} {k : StoreKey} :
    durableSiphonPrefix n <+: k.text ↔ k.family = .durableSiphon ∧ (n = [] ∨ k.network = n) := by
  cases k with
  | durableSiphon n' m =>
    simp only [StoreKey.text, StoreKey.family, StoreKey.network, durableSiphonKey,
      durableSiphonPrefix, true_and]
    split_ifs with hn hn' hn'
    · simp [hn]
    · simp [hn]
    · simp only [hn, hn', false_or, Ne.symm hn, iff_false]
      rintro ⟨t, ht⟩
      simp only [List.append_assoc, List.append_cancel_left_eq, List.nil_append,
        List.cons_append] at ht
      exact encodeKeyPart_ne_append _ _ _ ht.symm
    · simp only [hn, false_or, ← List.append_assoc, networkPrefix_isPrefix_iff]
  | _ =>
    exact iff_of_false
      (not_isPrefix_of_family_ne (colon_mem_durableSiphonPrefix n) (by simp [StoreKey.family]))
      (by simp [StoreKey.family])

/-! ### Scans -/

section Scans

variable {α : Type} (store : OrderedStore Char α)

/-- The keys that the scans of some prefixes visit, in turn. -/
def visited (prefixes : List Text) : List Text :=
  prefixes.flatMap fun pre => (store.scan pre pre).map Prod.fst

theorem mem_visited {prefixes : List Text} {key : Text} :
    key ∈ visited store prefixes ↔ (store.get key).isSome ∧ ∃ pre ∈ prefixes, pre <+: key := by
  simp only [visited, List.mem_flatMap, List.mem_map, Option.isSome_iff_exists]
  constructor
  · rintro ⟨pre, hpre, ⟨k, v⟩, hmem, rfl⟩
    obtain ⟨hget, -, hprefix⟩ := (store.mem_scan_iff (List.prefix_refl pre)).mp hmem
    exact ⟨⟨v, hget⟩, pre, hpre, hprefix⟩
  · rintro ⟨⟨v, hget⟩, pre, hpre, hprefix⟩
    exact ⟨pre, hpre, (key, v), (store.mem_scan_iff (List.prefix_refl pre)).mpr
      ⟨hget, OrderedStore.le_of_isPrefix hprefix, hprefix⟩, rfl⟩

variable (network : List UInt8)

/-- A query visits the keys of the events of its network and its streams. -/
theorem mem_visited_queryPrefixes (streams : List (List UInt8)) (k : StoreKey) :
    k.text ∈ visited store (queryPrefixes network streams) ↔
      (store.get k.text).isSome ∧ k.IsEventIn streams ∧ k.network = network := by
  rw [mem_visited, queryPrefixes]
  refine and_congr_right fun _ => ?_
  split_ifs with hstreams
  · simp only [List.mem_singleton, exists_eq_left, eventNetworkPrefix_isPrefix_iff, hstreams]
  · simp only [List.mem_map, exists_exists_and_eq_and, eventStreamPrefix_isPrefix_iff]
    constructor
    · rintro ⟨s, hs, hevent, hnetwork⟩
      refine ⟨?_, hnetwork⟩
      cases k with
      | event n' s' =>
        obtain rfl : s' = s := by simpa [StoreKey.IsEventIn] using hevent
        exact Or.inr hs
      | _ => exact hevent
    · rintro ⟨hevent, hnetwork⟩
      cases k with
      | event n' s' => exact ⟨s', hevent.resolve_left hstreams, Or.inr (by simp), hnetwork⟩
      | _ => exact absurd hevent id

theorem mem_visited_singleton {pre key : Text} :
    key ∈ visited store [pre] ↔ (store.get key).isSome ∧ pre <+: key := by
  simp only [mem_visited, List.mem_singleton, exists_eq_left]

/-- A scan stays in its family, whatever else stands in the store. -/
theorem keyFamily_of_mem_visited {pre key : Text} (hcolon : ':' ∈ pre)
    (h : key ∈ visited store [pre]) : keyFamily key = keyFamily pre :=
  keyFamily_of_isPrefix hcolon ((mem_visited_singleton store).mp h).2

theorem keyFamily_of_mem_visited_queryPrefixes {streams : List (List UInt8)} {key : Text}
    (h : key ∈ visited store (queryPrefixes network streams)) : keyFamily key = .event := by
  obtain ⟨-, pre, hpre, hprefix⟩ := (mem_visited store).mp h
  unfold queryPrefixes at hpre
  split_ifs at hpre
  · obtain rfl := List.mem_singleton.mp hpre
    rw [keyFamily_of_isPrefix (by simp [eventNetworkPrefix]) hprefix, keyFamily_eventNetworkPrefix]
  · obtain ⟨s, -, rfl⟩ := List.mem_map.mp hpre
    rw [keyFamily_of_isPrefix (by simp [eventStreamPrefix]) hprefix, keyFamily_eventStreamPrefix]

/-! ### Numbers -/

/-- The keys of the arrival index stand in the order of their numbers. -/
theorem arrivalIndexKey_lt_iff {i j : UInt64} :
    arrivalIndexKey network i < arrivalIndexKey network j ↔ i < j := by
  have hlt : ∀ {i j : UInt64}, i < j → arrivalIndexKey network i < arrivalIndexKey network j := by
    intro i j h
    rw [arrivalIndexKey, arrivalIndexKey, OrderedStore.append_lt_append_iff]
    exact Text.padDecimal_lt_padDecimal (by decide) (UInt64.lt_iff_toNat_lt.mp h)
      (j.toNat_lt.trans (by decide))
  refine ⟨fun h => ?_, hlt⟩
  rcases Nat.lt_trichotomy i.toNat j.toNat with hij | hij | hij
  · exact UInt64.lt_iff_toNat_lt.mpr hij
  · exact absurd (UInt64.toNat_inj.mp hij ▸ h) (lt_irrefl _)
  · exact absurd (h.trans (hlt (UInt64.lt_iff_toNat_lt.mpr hij))) (lt_irrefl _)

theorem arrivalSequenceFromKey_arrivalIndexKey (sequence : UInt64) :
    arrivalSequenceFromKey (arrivalIndexPrefix network) (arrivalIndexKey network sequence) =
      .ok sequence := by
  have hwidth : (Text.padDecimal 20 sequence.toNat).length = 20 :=
    Text.length_padDecimal (by decide) (sequence.toNat_lt.trans (by decide))
  rw [arrivalSequenceFromKey, arrivalIndexKey, if_neg (by rw [List.length_append, hwidth]; simp),
    List.drop_left]
  simp only [parseUint64, Text.parseDecimal_padDecimal, if_pos sequence.toNat_lt,
    UInt64.ofNat_toNat]

/-- **Keys.** A key determines the strings and numbers that it is made of, and its family. A query
visits the keys of the events of its network and streams, a scan of an index those of its network,
and a scan of siphons those of its network, or of all networks when that is empty; whatever the
store holds besides, scans stay in their family. The keys of the arrival index of a network stand in
the order of their numbers, and the numbers are read back from them. -/
theorem keys_exact (streams : List (List UInt8)) :
    Function.Injective StoreKey.text ∧ (∀ k : StoreKey, keyFamily k.text = k.family) ∧
    (∀ k : StoreKey, k.text ∈ visited store (queryPrefixes network streams) ↔
      (store.get k.text).isSome ∧ k.IsEventIn streams ∧ k.network = network) ∧
    (∀ k : StoreKey, k.text ∈ visited store [eventIDPrefix network] ↔
      (store.get k.text).isSome ∧ k.family = .eventID ∧ k.network = network) ∧
    (∀ k : StoreKey, k.text ∈ visited store [arrivalIndexPrefix network] ↔
      (store.get k.text).isSome ∧ k.family = .arrival ∧ k.network = network) ∧
    (∀ k : StoreKey, k.text ∈ visited store [durableSiphonPrefix network] ↔
      (store.get k.text).isSome ∧ k.family = .durableSiphon ∧
        (network = [] ∨ k.network = network)) ∧
    (∀ key ∈ visited store (queryPrefixes network streams), keyFamily key = .event) ∧
    (∀ key ∈ visited store [eventIDPrefix network], keyFamily key = .eventID) ∧
    (∀ key ∈ visited store [arrivalIndexPrefix network], keyFamily key = .arrival) ∧
    (∀ key ∈ visited store [durableSiphonPrefix network], keyFamily key = .durableSiphon) ∧
    (∀ i j : UInt64, arrivalIndexKey network i < arrivalIndexKey network j ↔ i < j) ∧
    ∀ sequence : UInt64,
      arrivalSequenceFromKey (arrivalIndexPrefix network) (arrivalIndexKey network sequence) =
        .ok sequence := by
  refine ⟨StoreKey.text_injective, StoreKey.keyFamily_text, mem_visited_queryPrefixes store network
    streams, fun k => ?_, fun k => ?_, fun k => ?_, fun key h => ?_, fun key h => ?_,
    fun key h => ?_, fun key h => ?_, fun i j => arrivalIndexKey_lt_iff network,
    arrivalSequenceFromKey_arrivalIndexKey network⟩
  · rw [mem_visited_singleton, eventIDPrefix_isPrefix_iff]
  · rw [mem_visited_singleton, arrivalIndexPrefix_isPrefix_iff]
  · rw [mem_visited_singleton, durableSiphonPrefix_isPrefix_iff]
  · exact keyFamily_of_mem_visited_queryPrefixes store network h
  · rw [keyFamily_of_mem_visited store (by simp [eventIDPrefix]) h, keyFamily_eventIDPrefix]
  · rw [keyFamily_of_mem_visited store (by simp [arrivalIndexPrefix]) h,
      keyFamily_arrivalIndexPrefix]
  · rw [keyFamily_of_mem_visited store (colon_mem_durableSiphonPrefix network) h,
      keyFamily_durableSiphonPrefix]

end Scans

/-- A store with one siphon, `b` of the network `a`. -/
def oneSiphonStore : OrderedStore Char Unit :=
  OrderedStore.empty.set (durableSiphonKey [97] [98]) ()

/-- The scan of the siphons of the network with the empty name visits one of another network. -/
theorem oneSiphonStore_visited :
    ¬∀ (store : OrderedStore Char Unit) (network : List UInt8) (k : StoreKey),
      k.text ∈ visited store [durableSiphonPrefix network] ↔
        (store.get k.text).isSome ∧ k.family = .durableSiphon ∧ k.network = network := by
  intro h
  have hnetwork := ((h oneSiphonStore [] (.durableSiphon [97] [98])).mp
    ((mem_visited_singleton _).mpr ⟨by decide +kernel, by decide +kernel⟩)).2.2
  exact absurd hnetwork (by decide)

end Thalweg.KeySpace
