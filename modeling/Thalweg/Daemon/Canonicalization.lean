import Thalweg.Data.Json.Value
import Thalweg.Daemon.Comparison
import Thalweg.Daemon.EventFrames

/-!
# Canonical payloads and digests

A payload is stored in a canonical form, and digests are those of normal forms. Payloads have the
same canonical form exactly if they denote the same JSON value.

An envelope is stored in its normal form and read back, and it is sent in frames. Its digest stays
the same on any such journey exactly if its normal form has timestamps with years of four digits and
its payload leaves three levels of nesting to the frames around it.

## Main definitions

* `denoted`: the JSON value that a payload denotes.
* `Hop`: an envelope is stored and read back, or it is sent in a frame.
* `KeepsDigest`: every journey gives envelopes of the same digest.

## Main results

* `normalizePayload_eq_iff`: when canonical forms are equal.
* `canonicalization`: canonical payloads, and the envelopes that keep their digests.
-/

namespace Thalweg

open Relation Daemon

/-! ### Payloads -/

/-- The JSON value that a payload denotes. -/
def denoted (payload : Text) : Option Json.Value := (Json.parse payload).map Json.value

/-- A canonical payload is its own canonical form. -/
theorem normalizePayload_canonical {payload canonical : Text}
    (h : normalizePayload payload = .ok canonical) : normalizePayload canonical = .ok canonical :=
  (isPayload_of_normalizePayload h).normalizePayload

/-- Canonical forms are equal exactly if the payloads denote the same. -/
theorem normalizePayload_eq_iff {payload payload' canonical canonical' : Text}
    (h : normalizePayload payload = .ok canonical)
    (h' : normalizePayload payload' = .ok canonical') :
    canonical = canonical' ↔ denoted payload = denoted payload' := by
  obtain ⟨v, hv, rfl⟩ := normalizePayload_eq_ok_iff.mp h
  obtain ⟨w, hw, rfl⟩ := normalizePayload_eq_ok_iff.mp h'
  have hwell : ∀ {t : Text} {u : Json}, Json.parse t = some u →
      Json.WellFormed Json.IsNumber (Json.canonical u) := fun hu =>
    (Json.canonical_spec _ (Json.parse_spec hu).1).1
  rw [denoted, denoted, hv, hw, Option.map_some, Option.map_some, Option.some.injEq,
    ← Json.canonical_eq_iff]
  exact ⟨Json.render_injective (hwell hv) (hwell hw), congrArg Json.render⟩

/-! ### Journeys -/

/-- An event that was put into a store, read back. -/
def readBack (store : Store) (event : ThalwegEvent) : Result ThalwegEvent :=
  match findEventByID store event.network event.id with
  | .error e => .error e
  | .ok none => errorf "event %q does not exist in network %q" [event.id, event.network]
  | .ok (some event) => .ok event

/-- The event at an index of those that arrived. -/
def receivedAt (index : Nat) : Result (List ThalwegEvent) → Result ThalwegEvent
  | .error e => .error e
  | .ok events =>
    match events[index]? with
    | none => errorf "peer omitted requested events" []
    | some event => .ok event

/-- An envelope whose payload leaves three levels to the frame around it. -/
def FitsFrame (event : ThalwegEvent) : Prop :=
  ∃ v, event.HasPayload v ∧ v.depth + 3 ≤ Json.maxDepth

/-- An envelope is put into the store of a daemon, in its normal form, and read back, or it is sent
among others that arrive. -/
inductive Hop (event : ThalwegEvent) : Result ThalwegEvent → Prop where
  | stored {d : Daemon} {normalized : ThalwegEvent} {clock : HlcTimestamp} {store : Store}
      (hreachable : d.Reachable) (hnormal : normalizeReplicatedEvent event = .ok normalized)
      (hfresh : findEventByID d.store normalized.network normalized.id = .ok none)
      (hput : putEvent d.store normalized clock = .ok store) : Hop event (readBack store normalized)
  | sent {before after : List ThalwegEvent} (push : Bool) (networkID : Text)
      (hothers : ∀ other ∈ before ++ after, FitsFrame other) :
      Hop event (receivedAt before.length (relayEvents push networkID (before ++ event :: after)))

/-- Wherever a journey takes the envelope, the next hop gives an envelope of its digest. -/
def KeepsDigest (event : ThalwegEvent) : Prop :=
  ∀ event', ReflTransGen (fun e f => Hop e (.ok f)) event event' → ∀ r, Hop event' r →
    ∃ f, r = .ok f ∧ eventDigest f = eventDigest event

section Journeys

variable {event normalized : ThalwegEvent}

/-- An envelope with the normal form and a payload that leaves three levels. -/
structure OnJourney (normalized event : ThalwegEvent) : Prop where
  normal : normalizeReplicatedEvent event = .ok normalized
  fits : FitsFrame event

theorem ThalwegEvent.HasPayload.sent {v : Json} (h : event.HasPayload v) :
    event.sent.HasPayload v := by
  have hspells := h.spells_compactPayload
  obtain ⟨c, u, hhead, -⟩ := hspells.head
  have hne : compactPayload event.payload ≠ [] := hhead ▸ List.cons_ne_nil c u
  rw [HasPayload, payloadOrNull, ThalwegEvent.sent, if_neg hne]
  exact hspells.parse h.depth_le

/-- What is sent has the same normal form. -/
theorem normalizeReplicatedEvent_sent (h : normalizeReplicatedEvent event = .ok normalized) :
    normalizeReplicatedEvent event.sent = .ok normalized := by
  obtain ⟨hfields, occurredAt, insertedAt, propagatedAt, payload, ho, hi, hp, hv, rfl⟩ :=
    normalizeReplicatedEvent_eq_ok_iff.mp h
  obtain ⟨v, hparse, rfl⟩ := normalizePayload_eq_ok_iff.mp hv
  refine normalizeReplicatedEvent_eq_ok_iff.mpr ⟨hfields, occurredAt, insertedAt, propagatedAt,
    _, ho, hi, hp, normalizePayload_eq_ok_iff.mpr ⟨v, ?_, rfl⟩, rfl⟩
  exact @ThalwegEvent.HasPayload.sent event v hparse

theorem exists_hasPayload (h : normalizeReplicatedEvent event = .ok normalized) :
    ∃ v, event.HasPayload v ∧ normalized.payload = Json.render (Json.canonical v) := by
  obtain ⟨-, occurredAt, insertedAt, propagatedAt, payload, -, -, -, hv, rfl⟩ :=
    normalizeReplicatedEvent_eq_ok_iff.mp h
  exact normalizePayload_eq_ok_iff.mp hv

/-- What is read back is the normal form, if it can be read. -/
theorem readBack_eq_ok_iff {d : Daemon} (hreachable : d.Reachable)
    (hnormal : normalizeReplicatedEvent event = .ok normalized)
    (haccept : ∃ resolution, parseConflictResolution normalized = .ok resolution)
    (hfresh : findEventByID d.store normalized.network normalized.id = .ok none)
    {clock : HlcTimestamp} {store : Store} (hput : putEvent d.store normalized clock = .ok store)
    {found : ThalwegEvent} :
    readBack store normalized = .ok found ↔ Findable normalized ∧ found = normalized := by
  obtain ⟨L, hL⟩ := hreachable.exists_holds.1
  have hstorable := storable_of_normalizeReplicatedEvent hnormal
  obtain ⟨hroom, rfl⟩ := (hL.represents.putEvent_eq_ok_iff hstorable).mp hput
  obtain ⟨resolution, hparse⟩ := haccept
  have hnames := names_of_parseConflictResolution hparse
  have hrepresents := hL.represents.append hstorable
    (hL.represents.findEventByID_eq_ok_none_iff.mp hfresh) hnames hroom clock
  have hmem : normalized ∈ L.events ++ [normalized] :=
    List.mem_append_right _ (List.mem_singleton.mpr rfl)
  constructor
  · intro hread
    unfold readBack at hread
    split at hread
    · cases hread
    · cases hread
    · next found' hfind =>
      obtain ⟨hfindable, hsome⟩ := (hrepresents.findEventByID_of_mem hmem).mp hfind
      exact ⟨hfindable, (Except.ok.inj hread).symm.trans (Option.some.inj hsome)⟩
  · rintro ⟨hfindable, rfl⟩
    rw [readBack, (hrepresents.findEventByID_of_mem hmem).mpr ⟨hfindable, rfl⟩]

/-- A hop goes on with the normal form and with a payload that leaves three levels. -/
theorem OnJourney.hop (haccept : ∃ resolution, parseConflictResolution normalized = .ok resolution)
    (htimes : HasReadableTimes normalized) (h : OnJourney normalized event)
    {r : Result ThalwegEvent} (hhop : Hop event r) : ∃ f, r = .ok f ∧ OnJourney normalized f := by
  obtain ⟨v, hv, hfits⟩ := h.fits
  cases hhop with
  | @stored d n clock store hreachable hnormal hfresh hput =>
    obtain rfl := Except.ok.inj (h.normal.symm.trans hnormal)
    obtain ⟨u, hu, hpayload⟩ := exists_hasPayload h.normal
    obtain rfl := Option.some.inj (hv.symm.trans hu)
    obtain ⟨hwell, hle⟩ := Json.canonical_spec v (Json.parse_spec hv).1
    have hdepth : (Json.canonical v).depth ≤ Json.maxDepth := hle.trans hv.depth_le
    have hstorable := storable_of_normalizeReplicatedEvent h.normal
    have hlt : payloadDepth normalized.payload < Json.maxDepth := by
      rw [hpayload, payloadDepth_render hwell hdepth]
      omega
    refine ⟨normalized, (readBack_eq_ok_iff hreachable h.normal haccept hfresh hput).mpr
      ⟨⟨htimes.occurredAt, hlt⟩, rfl⟩,
      normalizeReplicatedEvent_of_readable ⟨hstorable, htimes, hlt⟩, Json.canonical v, ?_, by omega⟩
    rw [ThalwegEvent.HasPayload, hstorable.payload.payloadOrNull, hpayload]
    exact Json.parse_render hwell hdepth
  | @sent before after push networkID hothers =>
    refine ⟨event.sent, ?_, normalizeReplicatedEvent_sent h.normal, v, hv.sent, hfits⟩
    have hall : ∀ other ∈ before ++ event :: after, FitsFrame other := by
      intro other hother
      rcases List.mem_append.mp hother with hmem | hmem
      · exact hothers other (List.mem_append_left _ hmem)
      · rcases List.mem_cons.mp hmem with rfl | hmem
        · exact h.fits
        · exact hothers other (List.mem_append_right _ hmem)
    rw [relayEvents_eq push networkID hall, receivedAt, List.map_append, List.map_cons,
      List.getElem?_append_right (by simp)]
    simp

theorem OnJourney.journey
    (haccept : ∃ resolution, parseConflictResolution normalized = .ok resolution)
    (htimes : HasReadableTimes normalized) (h : OnJourney normalized event) {event' : ThalwegEvent}
    (hjourney : ReflTransGen (fun e f => Hop e (.ok f)) event event') :
    OnJourney normalized event' := by
  induction hjourney with
  | refl => exact h
  | tail _ hstep ih =>
    obtain ⟨f, hf, hon⟩ := ih.hop haccept htimes hstep
    exact Except.ok.inj hf ▸ hon

/-- An envelope that a fresh store keeps with its digest has readable timestamps. -/
theorem KeepsDigest.readable (hnormal : normalizeReplicatedEvent event = .ok normalized)
    (haccept : ∃ resolution, parseConflictResolution normalized = .ok resolution)
    (h : KeepsDigest event) : HasReadableTimes normalized := by
  have hstorable := storable_of_normalizeReplicatedEvent hnormal
  have hreachable : (initial ['d'] deviceName_ne_nil fun _ => noon).Reachable := ⟨_, _, _, .refl⟩
  have hinitial : Represents (initial ['d'] deviceName_ne_nil fun _ => noon).store [] :=
    represents_initialStore
  have hfresh : findEventByID (initial ['d'] deviceName_ne_nil fun _ => noon).store
      normalized.network normalized.id = .ok none := hinitial.findEventByID_eq_none nofun
  have hput := (@Represents.putEvent_eq_ok_iff _ _ hinitial _ hstorable HlcTimestamp.zero _).mpr
    ⟨Nat.one_lt_two_pow (by decide), rfl⟩
  obtain ⟨f, hread, hdigest⟩ := h event .refl _ (.stored hreachable hnormal hfresh hput)
  obtain ⟨-, rfl⟩ := (readBack_eq_ok_iff hreachable hnormal haccept hfresh hput).mp hread
  rw [eventDigest_of_normalize hnormal] at hdigest
  exact (hstorable.eventDigest_eq_ok_iff.mp hdigest).1

/-- An envelope that arrives alone in a frame leaves three levels to it. -/
theorem KeepsDigest.fits {v : Json} (hv : event.HasPayload v) (h : KeepsDigest event) :
    v.depth + 3 ≤ Json.maxDepth := by
  obtain ⟨f, hreceived, -⟩ := h event .refl _
    (@Hop.sent event [] [] false [] (List.forall_mem_nil _))
  by_contra hdeep
  unfold receivedAt at hreceived
  split at hreceived
  · cases hreceived
  · next events hrelay =>
    refine relayEvents_ne_ok false [] ?_ List.mem_cons_self hv (Nat.lt_of_not_le hdeep) events
      hrelay
    exact List.forall_mem_singleton.mpr ⟨v, hv⟩

end Journeys

/-- **Canonical payloads and digests.** Canonical payloads are their own canonical forms, and they
are equal exactly if the payloads denote the same. An acceptable envelope keeps its digest exactly
if its normal form has readable timestamps and its payload leaves three levels to the frames around
it. -/
theorem canonicalization {payload payload' canonical canonical' : Text}
    (hpayload : normalizePayload payload = .ok canonical)
    (hpayload' : normalizePayload payload' = .ok canonical')
    {event normalized : ThalwegEvent} {resolution : Option ConflictResolutionPayload}
    (hnormal : normalizeReplicatedEvent event = .ok normalized)
    (haccept : parseConflictResolution normalized = .ok resolution) :
    normalizePayload canonical = .ok canonical ∧
      (canonical = canonical' ↔ denoted payload = denoted payload') ∧
      (KeepsDigest event ↔ HasReadableTimes normalized ∧
        payloadDepth (payloadOrNull event.payload) + 3 ≤ Json.maxDepth) := by
  obtain ⟨v, hv, -⟩ := exists_hasPayload hnormal
  rw [hv.payloadDepth_eq]
  refine ⟨normalizePayload_canonical hpayload, normalizePayload_eq_iff hpayload hpayload',
    fun h => ⟨h.readable hnormal ⟨resolution, haccept⟩, h.fits hv⟩, ?_⟩
  rintro ⟨htimes, hfits⟩ event' hjourney r hhop
  have hon := OnJourney.journey ⟨resolution, haccept⟩ htimes ⟨hnormal, v, hv, hfits⟩ hjourney
  obtain ⟨f, rfl, hf⟩ := hon.hop ⟨resolution, haccept⟩ htimes hhop
  exact ⟨f, rfl, (eventDigest_of_normalize hf.normal).trans (eventDigest_of_normalize hnormal).symm⟩

/-- An envelope whose occurrence is in the year 10000 in UTC. -/
def lateEvent : ThalwegEvent :=
  ⟨['e'], ['h'], ['s'], "9999-12-31T23:00:00-02:00".toList, noon.format, noon.format, 1, ['o'],
    ['1']⟩

/-- The normal form of the envelope. -/
def lateNormal : ThalwegEvent :=
  { lateEvent with occurredAt := "10000-01-01T01:00:00.000000000Z".toList }

theorem normalizeReplicatedEvent_lateEvent : normalizeReplicatedEvent lateEvent = .ok lateNormal :=
  eq_ok_of_toOption (by decide +kernel)

theorem parseConflictResolution_lateNormal : parseConflictResolution lateNormal = .ok none :=
  parseConflictResolution_of_stream_ne (by decide)

/-- The envelope is accepted and stored, but it cannot be read back. -/
theorem lateEvent_not_keepsDigest : normalizeReplicatedEvent lateEvent = .ok lateNormal ∧
    parseConflictResolution lateNormal = .ok none ∧ ¬ KeepsDigest lateEvent := by
  refine ⟨normalizeReplicatedEvent_lateEvent, parseConflictResolution_lateNormal, fun h => ?_⟩
  obtain ⟨t, ht, hformat⟩ := (h.readable normalizeReplicatedEvent_lateEvent
    ⟨none, parseConflictResolution_lateNormal⟩).occurredAt
  have hparse := Instant.parse_format ht
  rw [← hformat] at hparse
  have hnone : Instant.parse lateNormal.occurredAt = none := by decide +kernel
  rw [hnone] at hparse
  cases hparse

/-- An envelope whose occurrence has an offset and whose payload is not canonical. -/
def shiftedEvent : ThalwegEvent :=
  { lateEvent with
    occurredAt := "2026-01-01T14:00:00+02:00".toList
    payload := "\x7b \"b\" : [ 10 ] , \"a\" : \"\\u0061\" \x7d".toList }

/-- Its normal form. -/
def shiftedNormal : ThalwegEvent :=
  { lateEvent with occurredAt := noon.format, payload := "\x7b\"a\":\"a\",\"b\":[10]\x7d".toList }

theorem normalizeReplicatedEvent_shiftedEvent :
    normalizeReplicatedEvent shiftedEvent = .ok shiftedNormal :=
  eq_ok_of_toOption (by decide +kernel)

/-- The payloads of the envelope and of its normal form denote the same, and the envelope keeps its
digest. -/
theorem shiftedEvent_canonicalization :
    denoted shiftedEvent.payload = denoted shiftedNormal.payload ∧ KeepsDigest shiftedEvent := by
  have hpayload : normalizePayload shiftedEvent.payload = .ok shiftedNormal.payload :=
    eq_ok_of_toOption (by decide +kernel)
  have hpayload' : normalizePayload shiftedNormal.payload = .ok shiftedNormal.payload :=
    eq_ok_of_toOption (by decide +kernel)
  have hreadable : IsReadableTimestamp noon.format := ⟨noon, by decide, rfl⟩
  have hstream : shiftedNormal.stream ≠ conflictResolutionStream := by decide
  obtain ⟨-, hdenoted, hkeeps⟩ := canonicalization hpayload hpayload'
    normalizeReplicatedEvent_shiftedEvent (parseConflictResolution_of_stream_ne hstream)
  exact ⟨hdenoted.mp rfl, hkeeps.mpr ⟨⟨hreadable, hreadable, hreadable⟩, by decide +kernel⟩⟩

end Thalweg
