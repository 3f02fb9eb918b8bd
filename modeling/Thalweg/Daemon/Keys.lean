import Thalweg.Daemon.DurableSiphon

/-!
# The keys of the store

The parts of a key determine it and are determined by it, whatever text they hold, and keys of
different families are different.

* `eventKey_inj`, `eventIDKey_inj`, `arrivalIndexKey_inj`.
* `keyFamily`, the kind of a key.
-/

namespace Thalweg

/-! ### Key parts -/

theorem encodeKeyPart_injective : Function.Injective encodeKeyPart := fun _ _ h =>
  Text.toBytes_injective (Base64Url.encode_injective h)

@[simp] theorem encodeKeyPart_inj {a b : Text} : encodeKeyPart a = encodeKeyPart b ↔ a = b :=
  encodeKeyPart_injective.eq_iff

@[simp] theorem colon_notMem_encodeKeyPart (value : Text) : ':' ∉ encodeKeyPart value :=
  Base64Url.colon_notMem_encode _

/-- A key part decodes to its string. -/
theorem decode_encodeKeyPart (value : Text) :
    (Base64Url.decode (encodeKeyPart value)).map Text.ofBytes = some value := by
  simp [encodeKeyPart]

theorem colon_notMem_padDecimal (width n : Nat) : ':' ∉ Text.padDecimal width n :=
  Text.notMem_padDecimal rfl width n

/-! ### Families -/

/-- The kinds of keys of the store. -/
inductive KeyFamily where
  | event
  | eventID
  | arrival
  | conflict
  | durableSiphon
  | meshPeer
  | peer
  | other
  deriving DecidableEq

/-- The kind of a key: it is told by the part up to the first colon. -/
def keyFamily (key : Text) : KeyFamily :=
  let start := key.takeWhile fun c => c != ':'
  if start ++ [':'] = eventKeyFamily then .event
  else if start ++ [':'] = eventIDFamily then .eventID
  else if start ++ [':'] = arrivalIndexFamily then .arrival
  else if start ++ [':'] = conflictFamily then .conflict
  else if start ++ [':'] = durableSiphonFamily then .durableSiphon
  else if start ++ [':'] = meshPeerFamily then .meshPeer
  else if start ++ [':'] = peerFamily then .peer
  else .other

theorem takeWhile_append_of_mem {pre : Text} (h : ':' ∈ pre) (rest : Text) :
    (pre ++ rest).takeWhile (fun c => c != ':') = pre.takeWhile fun c => c != ':' := by
  induction pre with
  | nil => simp at h
  | cons c pre ih =>
    by_cases hc : c = ':'
    · simp [hc]
    · have hpre : ':' ∈ pre := by simpa [Ne.symm hc] using h
      simpa [hc] using ih hpre

theorem keyFamily_append {pre : Text} (h : ':' ∈ pre) (rest : Text) :
    keyFamily (pre ++ rest) = keyFamily pre := by
  simp only [keyFamily, takeWhile_append_of_mem h]

/-- A key that starts with a prefix that has a colon is of the prefix's kind. -/
theorem keyFamily_of_isPrefix {pre key : Text} (h : ':' ∈ pre) (hp : pre <+: key) :
    keyFamily key = keyFamily pre := by
  obtain ⟨rest, rfl⟩ := hp
  exact keyFamily_append h rest

theorem keyFamily_families : keyFamily eventKeyFamily = .event ∧
    keyFamily eventIDFamily = .eventID ∧ keyFamily arrivalIndexFamily = .arrival ∧
    keyFamily conflictFamily = .conflict ∧ keyFamily durableSiphonFamily = .durableSiphon ∧
    keyFamily meshPeerFamily = .meshPeer ∧ keyFamily peerFamily = .peer := by
  refine ⟨?_, ?_, ?_, ?_, ?_, ?_, ?_⟩ <;> rfl

theorem colon_mem_families : ':' ∈ eventKeyFamily ∧ ':' ∈ eventIDFamily ∧ ':' ∈ arrivalIndexFamily ∧
    ':' ∈ conflictFamily ∧ ':' ∈ durableSiphonFamily ∧ ':' ∈ meshPeerFamily ∧ ':' ∈ peerFamily := by
  decide +kernel

theorem keyFamily_eventKeyFamily_append (rest : Text) :
    keyFamily (eventKeyFamily ++ rest) = .event :=
  (keyFamily_append colon_mem_families.1 rest).trans keyFamily_families.1

@[simp] theorem keyFamily_eventNetworkPrefix (networkName : Text) :
    keyFamily (eventNetworkPrefix networkName) = .event := by
  simp only [eventNetworkPrefix, List.append_assoc, keyFamily_eventKeyFamily_append]

@[simp] theorem keyFamily_eventStreamPrefix (networkName stream : Text) :
    keyFamily (eventStreamPrefix networkName stream) = .event := by
  simp only [eventStreamPrefix, eventNetworkPrefix, List.append_assoc,
    keyFamily_eventKeyFamily_append]

@[simp] theorem keyFamily_eventKey (event : ThalwegEvent) : keyFamily (eventKey event) = .event := by
  simp only [eventKey, eventStreamPrefix, eventNetworkPrefix, List.append_assoc,
    keyFamily_eventKeyFamily_append]

theorem keyFamily_eventIDFamily_append (rest : Text) :
    keyFamily (eventIDFamily ++ rest) = .eventID :=
  (keyFamily_append colon_mem_families.2.1 rest).trans keyFamily_families.2.1

@[simp] theorem keyFamily_eventIDPrefix (networkName : Text) :
    keyFamily (eventIDPrefix networkName) = .eventID := by
  simp only [eventIDPrefix, List.append_assoc, keyFamily_eventIDFamily_append]

@[simp] theorem keyFamily_eventIDKey (networkName eventID : Text) :
    keyFamily (eventIDKey networkName eventID) = .eventID := by
  simp only [eventIDKey, eventIDPrefix, List.append_assoc, keyFamily_eventIDFamily_append]

@[simp] theorem keyFamily_arrivalIndexKey (network : Text) (sequence : UInt64) :
    keyFamily (arrivalIndexKey network sequence) = .arrival := by
  simp only [arrivalIndexKey, arrivalIndexPrefix, List.append_assoc]
  exact (keyFamily_append colon_mem_families.2.2.1 _).trans keyFamily_families.2.2.1

@[simp] theorem keyFamily_conflictObservationKey (observation : ConflictObservation) :
    keyFamily (conflictObservationKey observation) = .conflict := by
  simp only [conflictObservationKey, conflictObservationPrefix, conflictNetworkPrefix,
    List.append_assoc]
  exact (keyFamily_append colon_mem_families.2.2.2.1 _).trans keyFamily_families.2.2.2.1

@[simp] theorem keyFamily_durableSiphonKey (network name : Text) :
    keyFamily (durableSiphonKey network name) = .durableSiphon := by
  simp only [durableSiphonKey, durableSiphonPrefix, List.append_assoc]
  exact (keyFamily_append colon_mem_families.2.2.2.2.1 _).trans keyFamily_families.2.2.2.2.1

@[simp] theorem keyFamily_meshPeerPrefix (networkName : Text) :
    keyFamily (meshPeerPrefix networkName) = .meshPeer := by
  simp only [meshPeerPrefix, List.append_assoc]
  exact (keyFamily_append colon_mem_families.2.2.2.2.2.1 _).trans keyFamily_families.2.2.2.2.2.1

@[simp] theorem keyFamily_meshPeerKey (networkName peerID : Text) :
    keyFamily (meshPeerKey networkName peerID) = .meshPeer := by
  simp only [meshPeerKey, meshPeerPrefix, List.append_assoc]
  exact (keyFamily_append colon_mem_families.2.2.2.2.2.1 _).trans keyFamily_families.2.2.2.2.2.1

@[simp] theorem keyFamily_peerKey (peerID : Text) : keyFamily (peerKey peerID) = .peer :=
  (keyFamily_append colon_mem_families.2.2.2.2.2.2 _).trans keyFamily_families.2.2.2.2.2.2

@[simp] theorem keyFamily_hlcStateKey : keyFamily hlcStateKey = .other := by
  rfl

@[simp] theorem keyFamily_arrivalSequenceKey : keyFamily arrivalSequenceKey = .other := by
  rfl

@[simp] theorem keyFamily_storageSchemaVersionKey : keyFamily storageSchemaVersionKey = .other := by
  rfl

/-- Keys of different kinds are different. -/
theorem ne_of_keyFamily_ne {a b : Text} (h : keyFamily a ≠ keyFamily b) : a ≠ b := fun hab =>
  h (congrArg keyFamily hab)

/-! ### Injectivity -/

theorem eventStreamPrefix_append_inj {n n' s s' t t' : Text} :
    eventStreamPrefix n s ++ t = eventStreamPrefix n' s' ++ t' ↔ n = n' ∧ s = s' ∧ t = t' := by
  constructor
  · intro h
    simp only [eventStreamPrefix, eventNetworkPrefix, List.append_assoc, List.append_cancel_left_eq,
      List.cons_append, List.nil_append] at h
    obtain ⟨hn, h⟩ := Text.append_cons_inj_left (by simp) (by simp) h
    obtain ⟨hs, h⟩ := Text.append_cons_inj_left (by simp) (by simp) h
    exact ⟨encodeKeyPart_injective hn, encodeKeyPart_injective hs, h⟩
  · rintro ⟨rfl, rfl, rfl⟩
    rfl

/-- The key of an event determines the event's network, stream, occurrence time, counter, device and
ID. -/
theorem eventKey_inj {e f : ThalwegEvent} : eventKey e = eventKey f ↔
    e.network = f.network ∧ e.stream = f.stream ∧ e.occurredAt = f.occurredAt ∧
      e.counter = f.counter ∧ e.deviceID = f.deviceID ∧ e.id = f.id := by
  constructor
  · intro h
    simp only [eventKey, List.append_assoc, List.cons_append, eventStreamPrefix_append_inj] at h
    obtain ⟨hn, hs, h⟩ := h
    -- the occurrence time may hold colons, so the rest is split from the right
    have h' : (e.occurredAt ++ ':' :: Text.padDecimal 20 e.counter.toNat ++
          ':' :: encodeKeyPart e.deviceID) ++ ':' :: encodeKeyPart e.id =
        (f.occurredAt ++ ':' :: Text.padDecimal 20 f.counter.toNat ++
          ':' :: encodeKeyPart f.deviceID) ++ ':' :: encodeKeyPart f.id := by
      simpa using h
    obtain ⟨h', hid⟩ := Text.append_cons_inj_right (by simp) (by simp) h'
    obtain ⟨h', hd⟩ := Text.append_cons_inj_right (by simp) (by simp) h'
    obtain ⟨ho, hc⟩ := Text.append_cons_inj_right (colon_notMem_padDecimal _ _)
      (colon_notMem_padDecimal _ _) h'
    exact ⟨hn, hs, ho, UInt64.toNat_inj.mp (Text.padDecimal_injective _ hc),
      encodeKeyPart_injective hd, encodeKeyPart_injective hid⟩
  · rintro ⟨hn, hs, ho, hc, hd, hid⟩
    simp only [eventKey, hn, hs, ho, hc, hd, hid]

theorem eventIDPrefix_append_inj {n n' t t' : Text} :
    eventIDPrefix n ++ t = eventIDPrefix n' ++ t' ↔ n = n' ∧ t = t' := by
  constructor
  · intro h
    simp only [eventIDPrefix, List.append_assoc, List.append_cancel_left_eq, List.cons_append,
      List.nil_append] at h
    obtain ⟨hn, h⟩ := Text.append_cons_inj_left (by simp) (by simp) h
    exact ⟨encodeKeyPart_injective hn, h⟩
  · rintro ⟨rfl, rfl⟩
    rfl

@[simp] theorem eventIDKey_inj {n n' i i' : Text} :
    eventIDKey n i = eventIDKey n' i' ↔ n = n' ∧ i = i' := by
  rw [eventIDKey, eventIDKey, eventIDPrefix_append_inj, encodeKeyPart_inj]

theorem arrivalIndexPrefix_append_inj {n n' t t' : Text} :
    arrivalIndexPrefix n ++ t = arrivalIndexPrefix n' ++ t' ↔ n = n' ∧ t = t' := by
  constructor
  · intro h
    simp only [arrivalIndexPrefix, List.append_assoc, List.append_cancel_left_eq, List.cons_append,
      List.nil_append] at h
    obtain ⟨hn, h⟩ := Text.append_cons_inj_left (by simp) (by simp) h
    exact ⟨encodeKeyPart_injective hn, h⟩
  · rintro ⟨rfl, rfl⟩
    rfl

@[simp] theorem arrivalIndexKey_inj {n n' : Text} {i i' : UInt64} :
    arrivalIndexKey n i = arrivalIndexKey n' i' ↔ n = n' ∧ i = i' := by
  rw [arrivalIndexKey, arrivalIndexKey, arrivalIndexPrefix_append_inj,
    (Text.padDecimal_injective 20).eq_iff, UInt64.toNat_inj]

/-- The events of a stream are the ones whose keys start with the prefix of the stream. -/
theorem eventStreamPrefix_isPrefix_eventKey {n s : Text} {e : ThalwegEvent} :
    eventStreamPrefix n s <+: eventKey e ↔ e.network = n ∧ e.stream = s := by
  constructor
  · rintro ⟨t, ht⟩
    simp only [eventKey, List.append_assoc, eventStreamPrefix_append_inj] at ht
    exact ⟨ht.1.symm, ht.2.1.symm⟩
  · rintro ⟨rfl, rfl⟩
    simp only [eventKey, List.append_assoc]
    exact List.prefix_append _ _

/-- The events of a network are the ones whose keys start with the prefix of the network. -/
theorem eventNetworkPrefix_isPrefix_eventKey {n : Text} {e : ThalwegEvent} :
    eventNetworkPrefix n <+: eventKey e ↔ e.network = n := by
  constructor
  · rintro ⟨t, ht⟩
    simp only [eventKey, eventStreamPrefix, eventNetworkPrefix, List.append_assoc,
      List.append_cancel_left_eq, List.cons_append, List.nil_append] at ht
    exact encodeKeyPart_injective (Text.append_cons_inj_left (by simp) (by simp) ht).1.symm
  · rintro rfl
    simp only [eventKey, eventStreamPrefix, List.append_assoc]
    exact List.prefix_append _ _

theorem eventIDPrefix_isPrefix_eventIDKey {n n' i : Text} :
    eventIDPrefix n <+: eventIDKey n' i ↔ n' = n := by
  constructor
  · rintro ⟨t, ht⟩
    rw [eventIDKey, eventIDPrefix_append_inj] at ht
    exact ht.1.symm
  · rintro rfl
    exact List.prefix_append _ _

end Thalweg
