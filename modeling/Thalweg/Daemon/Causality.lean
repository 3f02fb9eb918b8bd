import Thalweg.Daemon.Run

/-!
# Causality of the clock

The clock state is never behind the stamp of a stored event, and ahead of those of other devices. It
never goes back, and a local event is stamped after all events that were stored before it.

* `Ledger.Causal`: the clock state is not behind.
* `Daemon.Begins.causal`, `Ledger.Causal.grows`: the step lemmas.
* `Daemon.Reachable.causality`.
-/

namespace Thalweg

open Relation

/-- The stamp of an event. -/
def ThalwegEvent.stamp (e : ThalwegEvent) : HlcTimestamp := ⟨e.insertedAt, e.counter⟩

namespace Ledger

/-- The clock state is at least the stamp of every event, and after those of other devices. -/
structure Causal (deviceID : Text) (L : Ledger) : Prop where
  canonical : L.clock.Canonical
  storable : ∀ e ∈ L.events, Storable e
  atMost : ∀ e ∈ L.events, e.stamp.AtMost L.clock
  before : ∀ e ∈ L.events, e.deviceID ≠ deviceID → e.stamp.Before L.clock

variable {deviceID : Text} {L L' : Ledger}

theorem Causal.record (h : L.Causal deviceID) {e : ThalwegEvent} (he : Storable e)
    (hfresh : L.Fresh e) {clock : HlcTimestamp} (hcanonical : clock.Canonical)
    (hclock : L.clock.Before clock) (hstamp : e.stamp.AtMost clock)
    (hother : e.deviceID ≠ deviceID → e.stamp.Before clock) :
    (L.record e hfresh clock).Causal deviceID := by
  refine ⟨hcanonical, fun f hf => ?_, fun f hf => ?_, fun f hf hne => ?_⟩
  all_goals rcases List.mem_append.mp hf with hf | hf
  · exact h.storable f hf
  · exact List.mem_singleton.mp hf ▸ he
  · exact (h.atMost f hf).trans hclock.atMost
  · exact List.mem_singleton.mp hf ▸ hstamp
  · exact (h.atMost f hf).trans_before hclock
  · obtain rfl := List.mem_singleton.mp hf
    exact hother hne

/-- An admitted event leaves a clock state that is not before the old one and after the event. -/
theorem Causal.admits (h : L.Causal deviceID) {e : ThalwegEvent} (he : Storable e)
    (hadmits : L.Admits e L') : L'.Causal deviceID ∧ L.clock.AtMost L'.clock := by
  cases hadmits with
  | known _ _ => exact ⟨h, .refl _⟩
  | new hfresh hmerge _ =>
    obtain ⟨htime, hbefore, hremote⟩ := mergeHLCTimestamp_spec h.canonical he.insertedAt hmerge
    exact ⟨h.record he hfresh (Or.inr htime) hbefore hremote.atMost fun _ => hremote, hbefore.atMost⟩

theorem Causal.grows (h : L.Causal deviceID) (hgrows : ReflTransGen Grows L L') :
    L'.Causal deviceID ∧ L.clock.AtMost L'.clock := by
  induction hgrows with
  | refl => exact ⟨h, .refl _⟩
  | tail _ hlast ih =>
    obtain ⟨hcausal, hle⟩ := ih
    cases hlast with
    | reading => exact ⟨⟨hcausal.canonical, hcausal.storable, hcausal.atMost, hcausal.before⟩, hle⟩
    | copy _ hr hadmits =>
      obtain ⟨hcausal', hle'⟩ := hcausal.admits hr.storable.recoveredCopy hadmits
      exact ⟨hcausal', hle.trans hle'⟩

end Ledger

namespace Daemon

variable {d d' : Daemon} {L L₁ : Ledger}

/-- A local event is stamped after the clock state, which it becomes. -/
theorem Holds.causal_record (h : d.Holds L) (hL : L.Causal d.deviceID) {e : ThalwegEvent}
    (hfresh : L.Fresh e) (he : Storable e) {networkName stream occurredAt eventID payload : Text}
    (hissues : d.Issues e networkName stream occurredAt eventID payload) :
    (L.record e hfresh (localStep d.hlc d.clockNow)).Causal d.deviceID ∧
      L.clock.Before e.stamp ∧ e.stamp = localStep d.hlc d.clockNow := by
  have hbefore := before_localStep hissues.hasRoom
  rw [h.clock] at hbefore
  have hstamp : e.stamp = localStep d.hlc d.clockNow := hissues.stamp_eq
  rw [h.clock] at hstamp ⊢
  refine ⟨hL.record he hfresh (Or.inr ?_) hbefore (hstamp ▸ .refl _)
    fun hne => absurd hissues.deviceID_eq hne, hstamp ▸ hbefore, hstamp⟩
  exact isTimestamp_localStep hL.canonical _

/-- What an operation begins with leaves a clock state that is not behind. -/
theorem Begins.causal (h : d.Holds L) (hL : L.Causal d.deviceID) {op : Operation}
    (hbegins : d.Begins L op L₁) : L₁.Causal d.deviceID ∧ L.clock.AtMost L₁.clock := by
  cases hbegins with
  | still => exact ⟨hL, .refl _⟩
  | restart => exact ⟨⟨hL.canonical, hL.storable, hL.atMost, hL.before⟩, .refl _⟩
  | ingest _ hfresh _ hissues hs =>
    obtain ⟨hcausal, hbefore, hstamp⟩ := h.causal_record hL hfresh hs hissues
    exact ⟨hcausal, hstamp ▸ hbefore.atMost⟩
  | resolution hfresh _ hissues hs =>
    obtain ⟨hcausal, hbefore, hstamp⟩ := h.causal_record hL hfresh hs hissues
    exact ⟨hcausal, hstamp ▸ hbefore.atMost⟩
  | receipt _ hnormal hadmits => exact hL.admits (storable_of_normalizeReplicatedEvent hnormal) hadmits

theorem Holds.causal_of_performs (h : d.Holds L) (hL : L.Causal d.deviceID) {op : Operation}
    {r : Result Unit} (hp : d.Performs op r d') :
    ∃ L', d'.Holds L' ∧ L'.Causal d'.deviceID ∧ L.clock.AtMost L'.clock := by
  rcases h.perform_cases hp with ⟨hL', -, hsame⟩ | ⟨L₁, L', hbegins, hgrows, hL', hsame⟩
  · exact ⟨_, hL', hsame.deviceID ▸ ⟨hL.canonical, hL.storable, hL.atMost, hL.before⟩, .refl _⟩
  · obtain ⟨hcausal, hle⟩ := hbegins.causal h hL
    obtain ⟨hcausal', hle'⟩ := hcausal.grows hgrows
    exact ⟨L', hL', hsame.deviceID ▸ hcausal', hle.trans hle'⟩

/-- A reachable daemon holds a ledger whose clock state is not behind. -/
theorem Reachable.exists_causal (h : d.Reachable) : ∃ L, d.Holds L ∧ L.Causal d.deviceID := by
  refine ReachableBy.induction (p := fun d => ∃ L, d.Holds L ∧ L.Causal d.deviceID) ?_ ?_ h
  · intro deviceID hdeviceID now
    exact ⟨_, initial_holds deviceID hdeviceID now, Or.inl rfl, nofun, nofun, nofun⟩
  · rintro d d' ⟨L, hL, hcausal⟩ ⟨op, r, hp, -⟩
    obtain ⟨L', hL', hcausal', -⟩ := hL.causal_of_performs hcausal hp
    exact ⟨L', hL', hcausal'⟩

/-- The events that the daemon originates in a step are stamped after all stored ones. -/
structure Originates (d : Daemon) : Prop where
  ingest : ∀ networkName stream occurredAt eventID payload random e d',
    d.ingest networkName stream occurredAt eventID payload random = (.ok e, d') →
    e ∉ storedEvents d.store → ∀ f ∈ storedEvents d.store, f.stamp.Before e.stamp
  resolution : ∀ fuel networkName eventID strategy random res d',
    d.resolveEventConflict fuel networkName eventID strategy random = some (.ok res, d') →
    res.resolutionEvent ∉ storedEvents d.store →
    ∀ f ∈ storedEvents d.store, f.stamp.Before res.resolutionEvent.stamp

theorem Holds.originates (h : d.Holds L) (hL : L.Causal d.deviceID) : d.Originates := by
  have hissued : ∀ {e : ThalwegEvent} {networkName stream occurredAt eventID payload : Text},
      L.Fresh e → Storable e → d.Issues e networkName stream occurredAt eventID payload →
      ∀ f ∈ storedEvents d.store, f.stamp.Before e.stamp := by
    intro e networkName stream occurredAt eventID payload hfresh hs hissues f hf
    rw [h.represents.mem_storedEvents_iff] at hf
    exact (hL.atMost f hf).trans_before (h.causal_record hL hfresh hs hissues).2.1
  refine ⟨?_, ?_⟩
  · intro networkName stream occurredAt eventID payload random e d' hi hnew
    rcases h.ingest_cases networkName stream occurredAt eventID payload random with
      ⟨err, d₁, hi', -⟩ | ⟨e', he, -, -, hi'⟩ | ⟨e', hfresh, d₁, -, hissues, hs, -, -, hi'⟩
    all_goals
      rw [hi'] at hi
      cases hi
    · exact absurd (h.represents.mem_storedEvents_iff.mpr he) hnew
    · exact hissued hfresh hs hissues
  · intro fuel networkName eventID strategy random res d' hrun hnew
    cases h.resolveEventConflict_spec hrun with
    | rejected err heq _ => cases heq
    | again r hr _ _ hfinish =>
      obtain ⟨res', -, ⟨err, heq, -⟩ | ⟨copy, created, -, heq⟩⟩ := finishResolution_eq_some hfinish
      · cases heq
      · obtain rfl := Except.ok.inj heq
        exact absurd (h.represents.mem_storedEvents_iff.mpr hr) hnew
    | anew r hfresh d₁ original _ _ _ _ hissues hs _ _ _ hfinish =>
      obtain ⟨res', -, ⟨err, heq, -⟩ | ⟨copy, created, -, heq⟩⟩ := finishResolution_eq_some hfinish
      · cases heq
      · obtain rfl := Except.ok.inj heq
        exact hissued hfresh hs hissues

/-- **Causality of the clock.** In every reachable state the persisted clock state is the one in
memory, at least the stamp of every stored event and after those of other devices. No step takes it
back, and the events that the daemon originates are stamped after all stored ones. -/
theorem Reachable.causality (h : d.Reachable) :
    d.store.get hlcStateKey = some (marshalHLCState d.hlc) ∧
    (∀ e ∈ storedEvents d.store, e.stamp.AtMost d.hlc ∧
      (e.deviceID ≠ d.deviceID → e.stamp.Before d.hlc)) ∧
    (∀ op r d', d.Performs op r d' → d.hlc.AtMost d'.hlc) ∧ d.Originates := by
  obtain ⟨L, hL, hcausal⟩ := h.exists_causal
  refine ⟨hL.persisted, fun e he => ?_, fun op r d' hp => ?_, hL.originates hcausal⟩
  · rw [hL.represents.mem_storedEvents_iff] at he
    rw [hL.clock]
    exact ⟨hcausal.atMost e he, hcausal.before e he⟩
  · obtain ⟨L', hL', -, hle⟩ := hL.causal_of_performs hcausal hp
    rwa [hL.clock, hL'.clock]

/-- A daemon that received an event from an hour ahead of its clock and stored a local one after
it. -/
def aheadOfClock : Daemon :=
  (initial ['d'] deviceName_ne_nil fun _ => noon).after 1
    [.ingestReplicated ⟨['r'], ['h'], ['s'], "2026-01-01T13:00:00Z".toList,
      "2026-01-01T13:00:00Z".toList, "2026-01-01T13:00:00Z".toList, 7, ['o'], ['1']⟩,
    .ingest ['h'] ['s'] [] ['a'] ['1'] []]

theorem aheadOfClock_causality :
    aheadOfClock.store.get hlcStateKey = some (marshalHLCState aheadOfClock.hlc) ∧
    (∀ e ∈ storedEvents aheadOfClock.store, e.stamp.AtMost aheadOfClock.hlc ∧
      (e.deviceID ≠ aheadOfClock.deviceID → e.stamp.Before aheadOfClock.hlc)) ∧
    (∀ op r d', aheadOfClock.Performs op r d' → aheadOfClock.hlc.AtMost d'.hlc) ∧
      aheadOfClock.Originates :=
  Reachable.causality ⟨_, _, _, run_after _ _ _⟩

example : aheadOfClock.hlc = ⟨"2026-01-01T13:00:00.000000000Z".toList, 9⟩ := by decide +kernel

end Daemon

end Thalweg
