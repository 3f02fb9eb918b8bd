import Thalweg.Daemon.Run

/-!
# Repeated local requests

A request may be delivered again when its response is lost. The event ID decides: what is stored
under it answers the request, or the request asks for something else and is rejected.

* `Daemon.DiffersFrom`: the request asks for something else.
* `Daemon.Holds.ingest_of_stored`: the delivery of a request whose event ID is stored.
* `Daemon.DeliversOnce`, `Daemon.Reachable.ingest_exactly_once`.
-/

namespace Thalweg

namespace Daemon

/-- A request asks for another stream, another JSON value or, when it supplies an occurrence time,
another instant than the event holds. -/
def DiffersFrom (e : ThalwegEvent) (stream occurredAt payload : Text) : Prop :=
  stream ≠ e.stream ∨
  (∃ stored value, Json.parse e.payload = some stored ∧
    Json.parse (payloadOrNull payload) = some value ∧ Json.canonical stored ≠ Json.canonical value) ∨
  ∃ t u, Instant.parse e.occurredAt = some t ∧ Instant.parse occurredAt = some u ∧ u.InRange ∧ t ≠ u

theorem parse_nil_eq_none : Instant.parse [] = none := by decide

/-- An event that answers a request is not different from it. -/
theorem Answers.not_differsFrom {e : ThalwegEvent} (he : Storable e)
    {networkName stream occurredAt eventID payload : Text}
    (h : Answers e networkName stream occurredAt eventID payload) :
    ¬ DiffersFrom e stream occurredAt payload := by
  rintro (hstream | ⟨stored, value, hstored, hvalue, hne⟩ | ⟨t, u, ht, hu, hrange, hne⟩)
  · exact hstream h.stream_eq.symm
  · obtain ⟨v, hv, hev⟩ := normalizePayload_eq_ok_iff.mp he.payload.normalizePayload
    obtain ⟨w, hw, hew⟩ := normalizePayload_eq_ok_iff.mp h.payload_eq
    obtain rfl := Option.some.inj (hstored.symm.trans hv)
    obtain rfl := Option.some.inj (hvalue.symm.trans hw)
    exact hne (Json.render_injective (Json.canonical_spec _ (Json.parse_spec hstored).1).1
      (Json.canonical_spec _ (Json.parse_spec hvalue).1).1 (hev.symm.trans hew))
  · have hsupplied : occurredAt ≠ [] := by
      rintro rfl
      rw [parse_nil_eq_none] at hu
      cases hu
    obtain ⟨u', hu', heq⟩ := normalizeTimestamp_eq_ok_iff.mp (h.occurredAt_eq hsupplied)
    obtain rfl := Option.some.inj (hu.symm.trans hu')
    rw [heq, Instant.parse_format hrange] at ht
    exact hne (Option.some.inj ht).symm

/-- The delivery of a request whose event ID is stored: it leaves database, clock and subscriptions,
and returns the stored event or an error. -/
theorem Holds.ingest_of_stored {d d' : Daemon} {L : Ledger} (h : d.Holds L) {e : ThalwegEvent}
    (he : e ∈ L.events) {stream occurredAt payload random : Text} {res : Result ThalwegEvent}
    (hi : d.ingest e.network stream occurredAt e.id payload random = (res, d')) :
    (d'.store = d.store ∧ d'.hlc = d.hlc ∧ d'.broadcasts = d.broadcasts) ∧
      ∀ f, res = .ok f → f = e ∧ Answers e e.network stream occurredAt e.id payload := by
  have hid : Holds.requestedID e.id random = e.id :=
    if_neg (h.represents.storable e he).id_ne_nil
  rcases h.ingest_cases e.network stream occurredAt e.id payload random with
    ⟨err, d₁, hi', hd₁⟩ | ⟨f, hf, -, hanswers, hi'⟩ | ⟨f, hfresh, -, -, hissues, -⟩
  · rw [hi'] at hi
    cases hi
    refine ⟨?_, nofun⟩
    rcases hd₁ with rfl | rfl <;> exact ⟨rfl, rfl, rfl⟩
  · rw [hi'] at hi
    cases hi
    rw [hid] at hanswers
    obtain rfl := L.distinct.eq_of_id hf he hanswers.network_eq hanswers.id_eq
    refine ⟨⟨rfl, rfl, rfl⟩, fun g hg => ?_⟩
    obtain rfl := Except.ok.inj hg
    exact ⟨rfl, hanswers⟩
  · exact absurd (hissues.id_eq.trans hid).symm (hfresh e he hissues.network_eq.symm)

/-- A successful delivery returns an event that is stored under the requested ID. -/
theorem Holds.ingest_eq_ok {d d' : Daemon} {L : Ledger} (h : d.Holds L)
    {networkName stream occurredAt eventID payload random : Text} (hid : eventID ≠ [])
    {e : ThalwegEvent}
    (hi : d.ingest networkName stream occurredAt eventID payload random = (.ok e, d')) :
    ∃ L', d'.Holds L' ∧ e ∈ L'.events ∧
      Answers e networkName stream occurredAt eventID payload := by
  have hrequested : Holds.requestedID eventID random = eventID := if_neg hid
  rcases h.ingest_cases networkName stream occurredAt eventID payload random with
    ⟨err, d₁, hi', -⟩ | ⟨f, hf, -, hanswers, hi'⟩ | ⟨f, hfresh, d₁, -, hissues, -, hd₁, -, hi'⟩
  all_goals
    rw [hi'] at hi
    cases hi
  · exact ⟨_, h.tick, hf, hrequested ▸ hanswers⟩
  · exact ⟨_, hd₁, by simp [Ledger.record], hrequested ▸ hissues.toAnswers⟩

/-- However often a request is delivered, one event answers it. -/
structure DeliversOnce (d : Daemon) (networkName stream occurredAt eventID payload : Text) : Prop where
  at_most_one : ∀ e ∈ storedEvents d.store, ∀ f ∈ storedEvents d.store, e.network = networkName →
    f.network = networkName → e.id = eventID → f.id = eventID → e = f
  /-- A successful delivery returns an event that answers the request. It stays, and every later
  successful delivery returns it, whatever the daemon does in between. -/
  same_answer : ∀ random e d₁,
    d.ingest networkName stream occurredAt eventID payload random = (.ok e, d₁) →
    Answers e networkName stream occurredAt eventID payload ∧
    ∀ d₂, Run anyStep d₁ d₂ → e ∈ storedEvents d₂.store ∧
      ∀ random' e' d₃, d₂.ingest networkName stream occurredAt eventID payload random' =
        (.ok e', d₃) → e' = e
  /-- A delivery that finds the event ID stored changes nothing and broadcasts nothing. A request
  that asks for something else than the stored event holds is rejected. -/
  known : ∀ e ∈ storedEvents d.store, e.network = networkName → e.id = eventID → ∀ random res d',
    d.ingest networkName stream occurredAt eventID payload random = (res, d') →
    (d'.store = d.store ∧ d'.hlc = d.hlc ∧ d'.broadcasts = d.broadcasts) ∧
    (∀ f, res = .ok f → f = e) ∧
    (DiffersFrom e stream occurredAt payload → ∃ err, res = .error err)

/-- **Local ingest is exactly-once per event ID.** -/
theorem Reachable.ingest_exactly_once {d : Daemon} (h : d.Reachable)
    {networkName stream occurredAt eventID payload : Text} (hid : eventID ≠ []) :
    d.DeliversOnce networkName stream occurredAt eventID payload := by
  obtain ⟨L, hL⟩ := h.exists_holds.1
  refine ⟨?_, ?_, ?_⟩
  · rintro e he f hf rfl hn rfl hi
    rw [hL.represents.mem_storedEvents_iff] at he hf
    exact L.distinct.eq_of_id he hf hn.symm hi.symm
  · intro random e d₁ hi
    obtain ⟨L₁, hL₁, he, hanswers⟩ := hL.ingest_eq_ok hid hi
    refine ⟨hanswers, fun d₂ hrun => ?_⟩
    obtain ⟨L₂, hL₂, hkept⟩ := hL₁.run hrun
    have he₂ := hkept.subset he
    refine ⟨hL₂.represents.mem_storedEvents_iff.mpr he₂, fun random' e' d₃ hi' => ?_⟩
    obtain rfl := hanswers.network_eq
    obtain rfl := hanswers.id_eq
    exact ((hL₂.ingest_of_stored he₂ hi').2 e' rfl).1
  · rintro e he rfl rfl random res d' hi
    rw [hL.represents.mem_storedEvents_iff] at he
    obtain ⟨hsame, hres⟩ := hL.ingest_of_stored he hi
    refine ⟨hsame, fun f hf => (hres f hf).1, fun hdiffers => ?_⟩
    cases res with
    | error err => exact ⟨err, rfl⟩
    | ok f =>
      exact absurd hdiffers ((hres f rfl).2.not_differsFrom (hL.represents.storable e he))

/-- A daemon that stored the event of a request without an occurrence time. -/
def oneRequest : Daemon :=
  (initial ['d'] deviceName_ne_nil fun _ => newYear).after 0
    [.ingest ['h'] ['s'] [] ['a'] ['1'] []]

theorem oneRequest_deliversOnce :
    (oneRequest.ingest ['h'] ['s'] [] ['a'] ['1'] []).1.isOk = true ∧
      oneRequest.DeliversOnce ['h'] ['s'] [] ['a'] ['1'] :=
  ⟨by decide +kernel, Reachable.ingest_exactly_once ⟨_, _, _, run_after _ _ _⟩ (by simp)⟩

end Daemon

end Thalweg
