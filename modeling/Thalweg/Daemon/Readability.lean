import Thalweg.Daemon.Reads
import Thalweg.Daemon.Run

/-!
# Readable histories

A stored event can be read again when its timestamps are of the UTC years 0000 to 9999 and its
payload nests below the limit of the record that holds it. When what is supplied to a daemon is so,
every read succeeds; the daemon also accepts events that are not so, and then reads fail.

* `Daemon.ReadsSucceed`: every read of a network succeeds.
* `readableStep`: what a step supplies is readable.
* `Daemon.Holds.allReadable_of_performs`: the step lemma.
* `Daemon.ReachableBy.readsSucceed`.
-/

namespace Thalweg

open Relation

namespace Daemon

/-- Every read of a network succeeds, and its stored events have digests. -/
structure ReadsSucceed (d : Daemon) (networkName : Text) : Prop where
  query : ∀ streams from' to' limit order, ValidQuery networkName from' to' limit order →
    ∃ events, d.queryOrdered networkName streams from' to' limit order = .ok events
  inventory : ∀ cursor limit, ValidPage networkName cursor limit →
    ∃ page, d.inventoryPage networkName cursor limit = .ok page
  find : ∀ e ∈ storedEvents d.store, e.network = networkName →
    findEventByID d.store networkName e.id = .ok (some e)
  digest : ∀ e ∈ storedEvents d.store, e.network = networkName → ∃ digest, eventDigest e = .ok digest

theorem Holds.readsSucceed_of_readable {d : Daemon} {L : Ledger} (h : d.Holds L)
    (hreadable : ∀ e ∈ L.events, Readable e) (networkName : Text) : d.ReadsSucceed networkName where
  query streams _ _ _ _ hvalid :=
    h.represents.exists_queryOrdered (fun e he _ => (hreadable e he).findable) streams hvalid
  inventory _ _ hvalid := h.represents.exists_inventoryPage (fun e he _ => hreadable e he) hvalid
  find e he hn := by
    rw [h.represents.mem_storedEvents_iff] at he
    exact hn ▸ (h.represents.findEventByID_of_mem he).mpr ⟨(hreadable e he).findable, rfl⟩
  digest e he _ := by
    rw [h.represents.mem_storedEvents_iff] at he
    exact ⟨_, eventDigest_of_readable (hreadable e he)⟩

end Daemon

/-! ### What is supplied -/

/-- A timestamp, when it is one, is of the UTC years 0000 to 9999. -/
def InRangeText (value : Text) : Prop := ∀ t, Instant.parse value = some t → t.InRange

/-- The canonical payload nests below the limit. -/
def ShallowText (payload : Text) : Prop :=
  ∀ v, Json.parse (payloadOrNull payload) = some v → (Json.canonical v).depth < Json.maxDepth

/-- All readings of the wall clock are of the UTC years 0000 to 9999. -/
def ClockInRange (now : Nat → Instant) : Prop := ∀ n, (now n).InRange

/-- What the operation supplies is readable once it is stored. -/
def Operation.SuppliesReadable : Operation → Prop
  | .ingest _ _ occurredAt _ payload _ => InRangeText occurredAt ∧ ShallowText payload
  | .ingestReplicated e | .killedReceipt e =>
    InRangeText e.occurredAt ∧ InRangeText e.propagatedAt ∧ ShallowText e.payload
  | .restart _ now => ClockInRange now
  | _ => True

/-- A step with readings of the wall clock in range that supplies what is readable. -/
def readableStep (d : Daemon) (op : Operation) (_ : Result Unit) : Prop :=
  ClockInRange d.now ∧ op.SuppliesReadable

theorem InRangeText.isReadableTimestamp {field : String} {value canonical : Text}
    (h : InRangeText value) (hn : normalizeTimestamp field value = .ok canonical) :
    IsReadableTimestamp canonical :=
  let ⟨t, ht, heq⟩ := normalizeTimestamp_eq_ok_iff.mp hn
  ⟨t, h t ht, heq⟩

theorem ShallowText.payloadDepth_lt {payload canonical : Text} (h : ShallowText payload)
    (hn : normalizePayload (payloadOrNull payload) = .ok canonical) :
    payloadDepth canonical < Json.maxDepth := by
  obtain ⟨v, hv, rfl⟩ := normalizePayload_eq_ok_iff.mp hn
  have hdepth := h v hv
  rwa [payloadDepth_render (Json.canonical_spec v (Json.parse_spec hv).1).1 hdepth.le]

/-! ### Readable ledgers -/

namespace Ledger

/-- The events of a ledger and its clock can be read. -/
structure AllReadable (L : Ledger) : Prop where
  events : ∀ e ∈ L.events, Readable e
  clock : L.clock.Readable
  now : ClockInRange L.now

/-- A merged clock state is readable. -/
theorem readable_of_merge {state remote next : HlcTimestamp} {wallTime : Instant}
    (hstate : state.Readable) (hremote : IsTimestamp remote.physical) (hwall : wallTime.InRange)
    (h : mergeHLCTimestamp state remote wallTime = .ok next) : next.Readable := by
  obtain ⟨-, hremote', hphysical, -⟩ :=
    (mergeHLCTimestamp_eq_ok_iff hstate.canonical hremote).mp h
  rw [HlcTimestamp.Readable, hphysical]
  rcases max_choice (max wallTime.format state.physical) remote.physical with hmax | hmax
  · rw [hmax]
    rcases max_choice wallTime.format state.physical with hmax | hmax
    · rw [hmax]
      exact Or.inr ⟨wallTime, hwall, rfl⟩
    · rw [hmax]
      exact hstate
  · rw [hmax]
    exact Or.inr hremote'

theorem AllReadable.tick {L : Ledger} (h : L.AllReadable) : L.tick.AllReadable :=
  ⟨h.events, h.clock, fun n => h.now (n + 1)⟩

/-- An admitted event can be read when its timestamps, but for the stamp, and its payload can. -/
theorem Admits.readable {L L' : Ledger} {e : ThalwegEvent} (h : L.Admits e L')
    (hclock : L.clock.Readable) (he : Storable e) (hoccurred : IsReadableTimestamp e.occurredAt)
    (hpropagated : IsReadableTimestamp e.propagatedAt)
    (hdepth : payloadDepth e.payload < Json.maxDepth) : Readable e := by
  cases h with
  | known _ hr => exact hr
  | new _ hmerge _ =>
    obtain ⟨-, hinserted, -⟩ :=
      (mergeHLCTimestamp_eq_ok_iff hclock.canonical he.insertedAt).mp hmerge
    exact ⟨he, ⟨hoccurred, hinserted, hpropagated⟩, hdepth⟩

theorem AllReadable.admits {L L' : Ledger} (h : L.AllReadable) {e : ThalwegEvent} (he : Readable e)
    (hadmits : L.Admits e L') : L'.AllReadable := by
  cases hadmits with
  | known _ _ => exact h
  | new _ hmerge _ =>
    refine ⟨fun f hf => ?_, ?_, fun n => h.now (n + 1)⟩
    · rcases List.mem_append.mp hf with hf | hf
      · exact h.events f hf
      · exact List.mem_singleton.mp hf ▸ he
    · exact readable_of_merge h.clock he.storable.insertedAt (h.now 0) hmerge

theorem AllReadable.record {L : Ledger} (h : L.AllReadable) {e : ThalwegEvent} (he : Readable e)
    (hfresh : L.Fresh e) {wallTime : Instant} (hwall : wallTime.InRange) :
    (L.record e hfresh (localStep L.clock wallTime)).AllReadable := by
  refine ⟨fun f hf => ?_, Or.inr (isReadableTimestamp_localStep h.clock hwall), fun n => h.now (n + 1)⟩
  rcases List.mem_append.mp hf with hf | hf
  · exact h.events f hf
  · exact List.mem_singleton.mp hf ▸ he

theorem AllReadable.grows {L L' : Ledger} (h : L.AllReadable) (hgrows : ReflTransGen Grows L L') :
    L'.AllReadable := by
  induction hgrows with
  | refl => exact h
  | tail _ hlast ih =>
    cases hlast with
    | reading => exact ih.tick
    | copy _ hr hadmits => exact ih.admits hr.recoveredCopy hadmits

end Ledger

namespace Daemon

/-- A local event can be read when what the request supplies can. -/
theorem Issues.readable {d : Daemon} {L : Ledger} (h : d.Holds L) (hL : L.AllReadable)
    {e : ThalwegEvent} (he : Storable e) {networkName stream occurredAt eventID payload : Text}
    (hi : d.Issues e networkName stream occurredAt eventID payload)
    (hoccurred : InRangeText occurredAt) (hdepth : payloadDepth e.payload < Json.maxDepth) :
    Readable e := by
  have hwall : d.clockNow.InRange := by
    have := hL.now 0
    rwa [← h.now] at this
  have hclock : d.hlc.Readable := h.clock ▸ hL.clock
  have hinserted : IsReadableTimestamp e.insertedAt := by
    have hphysical : e.insertedAt = (localStep d.hlc d.clockNow).physical :=
      congrArg HlcTimestamp.physical hi.stamp_eq
    exact hphysical ▸ isReadableTimestamp_localStep hclock hwall
  refine ⟨he, ⟨?_, hinserted, hi.propagatedAt_eq ▸ hinserted⟩, hdepth⟩
  by_cases homitted : occurredAt = []
  · obtain ⟨t, ht, heq⟩ := normalizeTimestamp_eq_ok_iff.mp (hi.occurred_now homitted)
    rw [Instant.parse_format hwall] at ht
    exact ⟨_, hwall, Option.some.inj ht ▸ heq⟩
  · exact hoccurred.isReadableTimestamp (hi.occurredAt_eq homitted)

theorem inRangeText_nil : InRangeText [] := by
  intro t ht
  rw [show Instant.parse [] = none by decide] at ht
  cases ht

/-- A step that supplies what is readable keeps the history readable. -/
theorem Holds.allReadable_of_performs {d d' : Daemon} {L : Ledger} (h : d.Holds L)
    (hevents : ∀ e ∈ L.events, Readable e) (hclock : L.clock.Readable) {op : Operation}
    {r : Result Unit} (hp : d.Performs op r d') (hm : readableStep d op r) :
    ∃ L', d'.Holds L' ∧ (∀ e ∈ L'.events, Readable e) ∧ L'.clock.Readable := by
  have hL : L.AllReadable := ⟨hevents, hclock, h.now ▸ hm.1⟩
  rcases h.perform_cases hp with ⟨hL', -⟩ | ⟨L₁, L', hbegins, hgrows, hL', -⟩
  · exact ⟨_, hL', hevents, hclock⟩
  suffices hL₁ : L₁.AllReadable from
    ⟨L', hL', (hL₁.grows hgrows).events, (hL₁.grows hgrows).clock⟩
  have hrecord : ∀ {e : ThalwegEvent} (hfresh : L.Fresh e), Readable e →
      (L.record e hfresh (localStep d.hlc d.clockNow)).AllReadable := by
    intro e hfresh hr
    rw [h.clock]
    exact hL.record hr hfresh (hm.1 0)
  have hreplicated : ∀ {incoming e : ThalwegEvent}, InRangeText incoming.occurredAt ∧
      InRangeText incoming.propagatedAt ∧ ShallowText incoming.payload →
      normalizeReplicatedEvent incoming = .ok e → L.Admits e L₁ → L₁.AllReadable := by
    rintro incoming e ⟨hoccurred, hpropagated, hshallow⟩ hnormal hadmits
    have hstorable := storable_of_normalizeReplicatedEvent hnormal
    obtain ⟨-, occurredAt, insertedAt, propagatedAt, payload, ho, -, hpr, hpa, rfl⟩ :=
      normalizeReplicatedEvent_eq_ok_iff.mp hnormal
    exact hL.admits (hadmits.readable hL.clock hstorable (hoccurred.isReadableTimestamp ho)
      (hpropagated.isReadableTimestamp hpr) (hshallow.payloadDepth_lt hpa)) hadmits
  cases hbegins with
  | still => exact hL
  | restart order now => exact ⟨hL.events, hL.clock, hm.2⟩
  | ingest random hfresh _ hissues hs =>
    exact hrecord hfresh (hissues.readable h hL hs hm.2.1 (hm.2.2.payloadDepth_lt hissues.payload_eq))
  | resolution hfresh _ hissues hs =>
    exact hrecord hfresh (hissues.readable h hL hs inRangeText_nil
      (payloadDepth_of_marshalConflictResolution hissues.payload_eq))
  | receipt hop hnormal hadmits =>
    rcases hop with rfl | rfl
    · exact hreplicated hm.2 hnormal hadmits
    · exact hreplicated hm.2 hnormal hadmits

/-- The events of a daemon that was supplied with readable values are readable. -/
theorem ReachableBy.exists_readable {d : Daemon} (h : d.ReachableBy readableStep) :
    ∃ L, d.Holds L ∧ ∀ e ∈ L.events, Readable e := by
  have hinv : ∃ L, d.Holds L ∧ (∀ e ∈ L.events, Readable e) ∧ L.clock.Readable := by
    refine ReachableBy.induction
      (p := fun d => ∃ L, d.Holds L ∧ (∀ e ∈ L.events, Readable e) ∧ L.clock.Readable) ?_ ?_ h
    · intro deviceID hdeviceID now
      exact ⟨_, initial_holds deviceID hdeviceID now, nofun, Or.inl rfl⟩
    · rintro d d' ⟨L, hL, hevents, hclock⟩ ⟨op, r, hp, hm⟩
      exact hL.allReadable_of_performs hevents hclock hp hm
  obtain ⟨L, hL, hevents, -⟩ := hinv
  exact ⟨L, hL, hevents⟩

theorem ReachableBy.readable {d : Daemon} (h : d.ReachableBy readableStep) :
    ∀ e ∈ storedEvents d.store, Readable e := by
  obtain ⟨L, hL, hevents⟩ := h.exists_readable
  exact fun e he => hevents e (hL.represents.mem_storedEvents_iff.mp he)

/-- **Readable histories.** When all that is supplied is readable once it is stored, every read of
every network succeeds. -/
theorem ReachableBy.readsSucceed {d : Daemon} (h : d.ReachableBy readableStep) (networkName : Text) :
    d.ReadsSucceed networkName := by
  obtain ⟨L, hL, hevents⟩ := h.exists_readable
  exact hL.readsSucceed_of_readable hevents networkName

/-! ### Runs -/

/-- A daemon at noon of a day of 2026, whose clock stands still. -/
def atNoon : Daemon := initial ['d'] deviceName_ne_nil fun _ => noon

/-- A local event of the last second of the year 9999. -/
def lastSecond : Operation :=
  .ingest ['h'] ['s'] "9999-12-31T23:59:59Z".toList ['a'] ['1'] []

theorem lastSecond_reachableBy : (atNoon.after 0 [lastSecond]).ReachableBy readableStep := by
  refine ⟨_, _, _, ReflTransGen.single
    ⟨lastSecond, _, ⟨0, rfl⟩, fun _ => ?_, fun t ht => ?_, fun v hv => ?_⟩⟩
  · change (0 : Int) ≤ 2026 ∧ (2026 : Int) ≤ 9999
    decide
  · have hall : (Instant.parse "9999-12-31T23:59:59Z".toList).all fun t => t.InRange := by
      decide +kernel
    exact of_decide_eq_true ((Option.all_eq_true _ _).mp hall t ht)
  · have hall : (Json.parse (payloadOrNull ['1'])).all fun v =>
        (Json.canonical v).depth < Json.maxDepth := by decide +kernel
    exact of_decide_eq_true ((Option.all_eq_true _ _).mp hall v hv)

theorem lastSecond_readsSucceed : (atNoon.after 0 [lastSecond]).ReadsSucceed ['h'] :=
  ReachableBy.readsSucceed lastSecond_reachableBy ['h']

/-- The ingests of local and of replicated events. -/
def IsIngest : Operation → Prop
  | .ingest .. | .ingestReplicated _ => True
  | _ => False

/-- A local event of an hour before the end of the year 9999, at an offset of two hours. -/
def yearTenThousand : Operation :=
  .ingest ['h'] ['s'] "9999-12-31T23:00:00-02:00".toList ['a'] ['1'] []

/-- The event is accepted, and the reads of its network fail. -/
theorem not_readsSucceed_yearTenThousand :
    (atNoon.after 0 [yearTenThousand]).ReachableBy (succeeds IsIngest) ∧
      ¬ (atNoon.after 0 [yearTenThousand]).ReadsSucceed ['h'] := by
  refine ⟨⟨_, _, _, run_after_of_allSucceed (by simp [yearTenThousand, IsIngest])
    (by decide +kernel)⟩, fun h => ?_⟩
  obtain ⟨events, hquery⟩ := h.query [] [] [] 0 [] ⟨by simp, Or.inl rfl, le_refl _, Or.inl rfl, Or.inl rfl⟩
  have hfails : ((atNoon.after 0 [yearTenThousand]).queryOrdered ['h'] [] [] [] 0 []).isOk = false := by
    decide +kernel
  rw [hquery] at hfails
  cases hfails

end Daemon

end Thalweg
