import Thalweg.Daemon.Ledger
import Thalweg.Daemon.Representation

/-!
# The receipt of events refines the ledger

A daemon holds a ledger when its store represents the ledger's events and its clock is the ledger's,
persisted and in memory. The receipt of a replicated event, with the materialization of variants,
does to the daemon what `Ledger.Accepts` and `Ledger.Rejects` say of the ledger.

## Main definitions

* `Daemon.Holds`: the daemon holds a ledger.
* `Daemon.SameElsewhere`: two daemons differ in their events and clocks only.

## Main results

* `Daemon.Holds.storeReplicated_cases`: the transaction of a receipt.
* `Daemon.Holds.materialize_spec`, `Daemon.Holds.materialize_complete`: materialization is the
  recovery of the ledger.
* `Daemon.Holds.ingestReplicated_spec`, `Daemon.Holds.ingestReplicated_complete`: receipt.
-/

namespace Thalweg

open Relation

namespace Daemon

/-- The daemon holds the ledger. -/
structure Holds (d : Daemon) (L : Ledger) : Prop where
  represents : Represents d.store L.events
  schema : d.store.get storageSchemaVersionKey = some (Text.decimal 4)
  persisted : d.store.get hlcStateKey = some (marshalHLCState d.hlc)
  clock : d.hlc = L.clock
  now : d.now = L.now
  canonical : d.hlc.Canonical
  passed : ∀ e ∈ L.events, HlcTimestamp.AtMost ⟨e.insertedAt, e.counter⟩ d.hlc

/-- The daemons differ in their events, clocks, readings and broadcasts only. -/
structure SameElsewhere (d d' : Daemon) : Prop where
  memberships : d'.memberships = d.memberships
  deviceID : d'.deviceID = d.deviceID
  get : ∀ key, ¬ IsEventKey key → key ≠ hlcStateKey → d'.store.get key = d.store.get key

theorem SameElsewhere.refl (d : Daemon) : d.SameElsewhere d := ⟨rfl, rfl, fun _ _ _ => rfl⟩

theorem SameElsewhere.tick (d : Daemon) : d.SameElsewhere d.tick := ⟨rfl, rfl, fun _ _ _ => rfl⟩

theorem SameElsewhere.trans {d d' d'' : Daemon} (h : d.SameElsewhere d') (h' : d'.SameElsewhere d'') :
    d.SameElsewhere d'' :=
  ⟨h'.memberships.trans h.memberships, h'.deviceID.trans h.deviceID,
    fun key hkey hne => (h'.get key hkey hne).trans (h.get key hkey hne)⟩

/-! ### Fuel -/

/-- A call that returns does so with any more fuel. -/
theorem returns_succ (fuel : Nat) :
    (∀ {d incoming r}, ingestReplicated fuel d incoming = some r →
      ingestReplicated (fuel + 1) d incoming = some r) ∧
    ∀ {d networkName eventID r}, materializeConflictVariant fuel d networkName eventID = some r →
      materializeConflictVariant (fuel + 1) d networkName eventID = some r := by
  induction fuel with
  | zero => exact ⟨by simp [ingestReplicated], by simp [materializeConflictVariant]⟩
  | succ fuel ih =>
    constructor
    · intro d incoming r hr
      rw [ingestReplicated] at hr ⊢
      cases hnormal : normalizeReplicatedEvent incoming with
      | error err => simpa only [hnormal] using hr
      | ok e =>
        simp only [hnormal] at hr ⊢
        cases hparse : parseConflictResolution e with
        | error err => simpa only [hparse] using hr
        | ok resolution =>
          simp only [hparse] at hr ⊢
          generalize d.storeReplicated e = stored at hr ⊢
          obtain ⟨res, d₁⟩ := stored
          cases res with
          | error err => exact hr
          | ok stored =>
            cases resolution with
            | none => exact hr
            | some payload =>
              simp only at hr ⊢
              cases hm : materializeConflictVariant fuel d₁ e.network payload.eventID with
              | none => simp [hm] at hr
              | some p =>
                rw [ih.2 hm]
                simpa only [hm] using hr
    · intro d networkName eventID r hr
      rw [materializeConflictVariant] at hr ⊢
      cases hfind : findEventByID d.store networkName eventID with
      | error err => simpa only [hfind] using hr
      | ok found =>
        cases found with
        | none => simpa only [hfind] using hr
        | some original =>
          simp only [hfind] at hr ⊢
          cases hdigest : eventDigest original with
          | error err => simpa only [hdigest] using hr
          | ok digest =>
            simp only [hdigest] at hr ⊢
            cases hi : ingestReplicated fuel d
                { original with id := recoveredConflictEventID networkName eventID digest } with
            | none => simp [hi] at hr
            | some p =>
              rw [ih.1 hi]
              simpa only [hi] using hr

theorem materializeConflictVariant_mono {fuel fuel' : Nat} (h : fuel ≤ fuel') {d : Daemon}
    {networkName eventID : Text} {r : Result (ThalwegEvent × Bool) × Daemon}
    (hr : materializeConflictVariant fuel d networkName eventID = some r) :
    materializeConflictVariant fuel' d networkName eventID = some r := by
  induction h with
  | refl => exact hr
  | step _ ih => exact (returns_succ _).2 ih

namespace Holds

variable {d : Daemon} {L : Ledger}

/-- The ledger after other readings of the wall clock. -/
theorem at_now (h : d.Holds L) (now : Nat → Instant) :
    Holds { d with now } { L with now } where
  represents := h.represents
  schema := h.schema
  persisted := h.persisted
  clock := h.clock
  now := rfl
  canonical := h.canonical
  passed := h.passed

theorem tick (h : d.Holds L) : d.tick.Holds L.tick := by
  have heq : L.tick = { L with now := d.tick.now } := by rw [Ledger.tick, Daemon.tick, h.now]
  exact heq ▸ h.at_now d.tick.now

theorem readable_of_find (h : d.Holds L) {networkName eventID : Text} {e : ThalwegEvent}
    (hfind : findEventByID d.store networkName eventID = .ok (some e)) :
    e ∈ L.events ∧ e.network = networkName ∧ e.id = eventID ∧ Findable e :=
  h.represents.findEventByID_eq_ok_some_iff.mp hfind

/-- The daemon after a transaction that stores a new event. -/
theorem commit (h : d.Holds L) {e : ThalwegEvent} (he : Storable e) (hfresh : L.Fresh e)
    (hnames : e.stream = conflictResolutionStream →
      ∃ eventID, e.names = some eventID ∧ eventID ≠ e.id)
    (hroom : L.events.length + 1 < 2 ^ 64) {clock : HlcTimestamp} (hclock : clock.Canonical)
    (hle : d.hlc.AtMost clock) (hstamp : HlcTimestamp.AtMost ⟨e.insertedAt, e.counter⟩ clock) :
    ((d.commit (writeEvent d.store e (L.events.length + 1) clock) clock).broadcast e).Holds
      ⟨L.events ++ [e], L.distinct.append hfresh, clock, d.now⟩ where
  represents := h.represents.append he hfresh hnames hroom clock
  schema := by
    have hne : storageSchemaVersionKey ≠ hlcStateKey := by decide +kernel
    exact (get_writeEvent not_isEventKey_storageSchemaVersionKey hne).trans h.schema
  persisted := OrderedStore.get_set_self _ _ _
  clock := rfl
  now := rfl
  canonical := hclock
  passed := by
    intro f hf
    rcases List.mem_append.mp hf with hf | hf
    · exact (h.passed f hf).trans hle
    · rw [List.mem_singleton.mp hf]
      exact hstamp

/-- The same after a reading of the wall clock. -/
theorem record (h : d.Holds L) {e : ThalwegEvent} (he : Storable e) (hfresh : L.Fresh e)
    (hnames : e.stream = conflictResolutionStream →
      ∃ eventID, e.names = some eventID ∧ eventID ≠ e.id)
    (hroom : L.events.length + 1 < 2 ^ 64) {clock : HlcTimestamp} (hclock : clock.Canonical)
    (hle : d.hlc.AtMost clock) (hstamp : HlcTimestamp.AtMost ⟨e.insertedAt, e.counter⟩ clock) :
    ((d.tick.commit (writeEvent d.store e (L.events.length + 1) clock) clock).broadcast e).Holds
      (L.record e hfresh clock) := by
  have hnow : d.tick.now = fun n => L.now (n + 1) := by rw [Daemon.tick, h.now]
  have := h.tick.commit he hfresh hnames hroom hclock hle hstamp
  rw [hnow] at this
  exact this

theorem sameElsewhere_record (d : Daemon) (e : ThalwegEvent) (n : Nat) (clock : HlcTimestamp) :
    d.SameElsewhere ((d.tick.commit (writeEvent d.store e n clock) clock).broadcast e) :=
  ⟨rfl, rfl, fun _ hkey hne => get_writeEvent hkey hne⟩

/-! ### One transaction -/

theorem validateReplicatedRetry_eq_ok_iff {existing incoming : ThalwegEvent}
    (h : Storable existing) : validateReplicatedRetry existing incoming = .ok () ↔
      HasReadableTimes existing ∧ existing = incoming := by
  have hiff : ∀ n, normalizeReplicatedEvent existing = .ok n ↔
      HasReadableTimes existing ∧ n = existing := fun _ => h.normalizeReplicatedEvent_eq_ok_iff
  unfold validateReplicatedRetry
  cases hn : normalizeReplicatedEvent existing with
  | error e =>
    have : ¬ HasReadableTimes existing := fun ht => by
      have := (hiff existing).mpr ⟨ht, rfl⟩
      rw [hn] at this
      cases this
    simp [wrapf, bind, Except.bind, this]
  | ok normalized =>
    obtain ⟨ht, rfl⟩ := (hiff normalized).mp hn
    by_cases heq : normalized = incoming
    · subst heq
      simp [wrapf, bind, Except.bind, ht]
    · simp [wrapf, bind, Except.bind, heq, errorf]

/-- The transaction of a receipt: the event is rejected, known, or new. -/
theorem storeReplicated_cases (h : d.Holds L) {e : ThalwegEvent} (he : Storable e)
    (hnames : e.stream = conflictResolutionStream →
      ∃ eventID, e.names = some eventID ∧ eventID ≠ e.id) :
    (∃ err d', d.storeReplicated e = (.error err, d') ∧ (d' = d ∨ d' = d.tick) ∧
      ∀ L', ¬ L.Admits e L') ∨
    (d.storeReplicated e = (.ok (e, false), d) ∧ e ∈ L.events ∧ L.Admits e L) ∨
    (∃ d' L', d.storeReplicated e = (.ok (e, true), d') ∧ L.Fresh e ∧ L.Admits e L' ∧ d'.Holds L' ∧
      d.SameElsewhere d') := by
  unfold Daemon.storeReplicated
  cases hfind : findEventByID d.store e.network e.id with
  | error err =>
    obtain ⟨f, hf, hn, hi, hfindable⟩ := h.represents.exists_of_findEventByID_eq_error hfind
    refine Or.inl ⟨err, d, rfl, Or.inl rfl, ?_⟩
    intro L' hadmits
    cases hadmits with
    | known hmem hr =>
      obtain rfl := L.distinct.eq_of_id hmem hf hn.symm hi.symm
      exact hfindable hr.findable
    | new hfresh _ _ => exact hfresh f hf hn hi
  | ok found =>
    cases found with
    | some existing =>
      obtain ⟨hmem, hn, hi, hfindable⟩ := h.readable_of_find hfind
      have hretry : validateReplicatedRetry existing e = .ok () ↔ _ :=
        validateReplicatedRetry_eq_ok_iff (h.represents.storable existing hmem)
      simp only
      cases hv : validateReplicatedRetry existing e with
      | error err =>
        refine Or.inl ⟨err, d, rfl, Or.inl rfl, ?_⟩
        intro L' hadmits
        cases hadmits with
        | known hmem' hr =>
          obtain rfl := L.distinct.eq_of_id hmem hmem' hn hi
          rw [hretry.mpr ⟨hr.times, rfl⟩] at hv
          cases hv
        | new hfresh _ _ => exact hfresh existing hmem hn hi
      | ok _ =>
        obtain ⟨htimes, rfl⟩ := hretry.mp hv
        exact Or.inr (Or.inl ⟨rfl, hmem, .known hmem ⟨he, htimes, hfindable.2⟩⟩)
    | none =>
      have hfresh : L.Fresh e := h.represents.findEventByID_eq_ok_none_iff.mp hfind
      have hnow : d.clockNow = L.now 0 := by rw [clockNow, h.now]
      simp only
      cases hm : mergeHLCTimestamp d.hlc ⟨e.insertedAt, e.counter⟩ d.clockNow with
      | error err =>
        refine Or.inl ⟨err, d.tick, rfl, Or.inr rfl, ?_⟩
        intro L' hadmits
        cases hadmits with
        | known hmem _ => exact hfresh e hmem rfl rfl
        | new _ hclock _ =>
          rw [← h.clock, ← hnow, hm] at hclock
          cases hclock
      | ok clock =>
        have hput : ∀ s, putEvent d.store e clock = .ok s ↔ _ := fun _ =>
          h.represents.putEvent_eq_ok_iff he
        simp only
        cases hp : putEvent d.store e clock with
        | error err =>
          refine Or.inl ⟨err, d.tick, rfl, Or.inr rfl, ?_⟩
          intro L' hadmits
          cases hadmits with
          | known hmem _ => exact hfresh e hmem rfl rfl
          | new _ _ hroom =>
            rw [(hput _).mpr ⟨hroom, rfl⟩] at hp
            cases hp
        | ok store =>
          obtain ⟨hroom, rfl⟩ := (hput store).mp hp
          obtain ⟨htime, hbefore, hstamp⟩ := mergeHLCTimestamp_spec h.canonical he.insertedAt hm
          refine Or.inr (Or.inr ⟨_, L.record e hfresh clock, rfl, hfresh, ?_, ?_, ?_⟩)
          · exact .new hfresh (by rw [← h.clock, ← hnow, hm]) hroom
          · exact h.record he hfresh hnames hroom (Or.inr htime) hbefore.atMost hstamp.atMost
          · exact sameElsewhere_record _ _ _ _

/-! ### Materialization -/

/-- What a stored event names. -/
theorem parseConflictResolution_of_mem (h : d.Holds L) {e : ThalwegEvent} (he : e ∈ L.events) :
    e.names = none ∧ e.stream ≠ conflictResolutionStream ∨
      ∃ eventID, e.names = some eventID ∧ eventID ≠ e.id := by
  by_cases hstream : e.stream = conflictResolutionStream
  · exact Or.inr (h.represents.names e he hstream)
  · refine Or.inl ⟨?_, hstream⟩
    rw [Option.eq_none_iff_forall_not_mem]
    exact fun eventID hname => hstream (stream_of_names hname)

/-- The receipt of an event that is no resolution. -/
theorem ingestReplicated_of_parse_none {fuel : Nat} {incoming e : ThalwegEvent}
    (hnormal : normalizeReplicatedEvent incoming = .ok e)
    (hparse : parseConflictResolution e = .ok none) :
    ingestReplicated (fuel + 1) d incoming = some (d.storeReplicated e) := by
  simp only [ingestReplicated, hnormal, hparse]
  rcases d.storeReplicated e with ⟨_ | _, _⟩ <;> rfl

/-- The receipt of a resolution. -/
theorem ingestReplicated_of_parse_some {fuel : Nat} {incoming e : ThalwegEvent}
    {payload : ConflictResolutionPayload} (hnormal : normalizeReplicatedEvent incoming = .ok e)
    (hparse : parseConflictResolution e = .ok (some payload)) :
    ingestReplicated (fuel + 1) d incoming =
      match d.storeReplicated e with
      | (.error err, d) => some (.error err, d)
      | (.ok stored, d) =>
        match materializeConflictVariant fuel d e.network payload.eventID with
        | none => none
        | some (.error err, d) => some (.error err, d)
        | some (.ok _, d) => some (.ok stored, d) := by
  rcases hstore : d.storeReplicated e with ⟨_ | stored, d'⟩
  · simp only [ingestReplicated, hnormal, hparse, hstore]
  · rcases hcopy : materializeConflictVariant fuel d' e.network payload.eventID with
      _ | ⟨_ | _, _⟩
    all_goals simp only [ingestReplicated, hnormal, hparse, hstore, hcopy]

/-- The receipt of an event that its transaction rejects. -/
theorem ingestReplicated_of_store_error {fuel : Nat} {incoming e : ThalwegEvent}
    (hnormal : normalizeReplicatedEvent incoming = .ok e)
    {resolution : Option ConflictResolutionPayload}
    (hparse : parseConflictResolution e = .ok resolution) {err : Failure} {d' : Daemon}
    (hstore : d.storeReplicated e = (.error err, d')) :
    ingestReplicated (fuel + 1) d incoming = some (.error err, d') := by
  simp only [ingestReplicated, hnormal, hparse, hstore]

theorem materialize_of_not_stored (h : d.Holds L) {networkName eventID : Text} (fuel : Nat)
    (hnone : ∀ e ∈ L.events, e.network = networkName → e.id ≠ eventID) :
    materializeConflictVariant (fuel + 1) d networkName eventID =
      some (.ok (ThalwegEvent.zero, false), d) := by
  simp only [materializeConflictVariant, h.represents.findEventByID_eq_none hnone]

/-- A pass of materialization over a readable variant is the receipt of its copy. -/
theorem materialize_succ (h : d.Holds L) {e : ThalwegEvent} (he : e ∈ L.events) (hr : Readable e)
    (fuel : Nat) : materializeConflictVariant (fuel + 1) d e.network e.id =
      match ingestReplicated fuel d (recoveredCopy e) with
      | none => none
      | some (.error err, d) =>
        some (.error (.wrap "materialize preserved conflict variant: %w" [] err), d)
      | some (.ok stored, d) => some (.ok stored, d) := by
  have hfind := (h.represents.findEventByID_of_mem he).mpr ⟨hr.findable, rfl⟩
  have hdigest := eventDigest_of_readable hr
  rcases hcopy : ingestReplicated fuel d (recoveredCopy e) with _ | ⟨_ | _, _⟩
  all_goals
    rw [recoveredCopy] at hcopy
    simp only [materializeConflictVariant, hfind, hdigest, hcopy]

/-- A variant that cannot be read stops materialization. -/
theorem materialize_of_not_readable (h : d.Holds L) {e : ThalwegEvent} (he : e ∈ L.events)
    (hr : ¬ Readable e) : ∃ err, ∀ fuel,
      materializeConflictVariant (fuel + 1) d e.network e.id = some (.error err, d) := by
  have hstorable := h.represents.storable e he
  simp only [materializeConflictVariant]
  cases hfind : findEventByID d.store e.network e.id with
  | error err => exact ⟨err, fun _ => rfl⟩
  | ok found =>
    obtain ⟨hfindable, rfl⟩ := (h.represents.findEventByID_of_mem he).mp hfind
    simp only
    cases hdigest : eventDigest e with
    | error err => exact ⟨err, fun _ => rfl⟩
    | ok digest =>
      obtain ⟨htimes, -⟩ := hstorable.eventDigest_eq_ok_iff.mp hdigest
      exact absurd ⟨hstorable, htimes, hfindable.2⟩ hr

/-- A pass of materialization ends in an error. -/
def PassFails (d : Daemon) (e : ThalwegEvent) : Prop :=
  ∃ err d', (d' = d ∨ d' = d.tick) ∧ ∀ fuel,
    materializeConflictVariant (fuel + 2) d e.network e.id = some (.error err, d')

/-- A pass of materialization stores the copy of a variant, and goes on with the event ID that the
variant names. -/
def PassStores (d : Daemon) (e : ThalwegEvent) (created : Bool) (d' : Daemon) : Prop :=
  ∀ fuel, materializeConflictVariant (fuel + 2) d e.network e.id =
    match e.names with
    | none => some (.ok (recoveredCopy e, created), d')
    | some eventID =>
      match materializeConflictVariant fuel d' e.network eventID with
      | none => none
      | some (.error err, d) =>
        some (.error (.wrap "materialize preserved conflict variant: %w" [] err), d)
      | some (.ok _, d) => some (.ok (recoveredCopy e, created), d)

theorem stuck_of_not_recovers {e : ThalwegEvent} (he : e ∈ L.events)
    (h : ∀ L', ¬ L.Recovers e.network e.id e L') : Ledger.Stuck e.network (L, e.id) := by
  refine ⟨⟨e, he, rfl, rfl⟩, ?_⟩
  rintro f L' hf
  obtain rfl := L.distinct.eq_of_id he hf.mem hf.network_eq.symm hf.id_eq.symm
  exact h L' hf

/-- A copy that would name itself is refused. -/
theorem passFails_of_names_self (h : d.Holds L) {e : ThalwegEvent} (he : e ∈ L.events)
    (hr : Readable e) (hself : e.names = some (recoveredCopy e).id) : PassFails d e := by
  cases hparse : parseConflictResolution (recoveredCopy e) with
  | error err =>
    refine ⟨.wrap "materialize preserved conflict variant: %w" [] err, d, Or.inl rfl, fun fuel => ?_⟩
    rw [h.materialize_succ he hr]
    simp only [ingestReplicated, normalizeReplicatedEvent_of_readable hr.recoveredCopy, hparse]
  | ok resolution =>
    rcases parseConflictResolution_eq_ok_iff.mp hparse with ⟨hs, -⟩ | ⟨eventID, hn, hne, -⟩
    · exact absurd (stream_of_names hself) hs
    · have hname : e.names = some eventID := hn
      rw [hself] at hname
      exact absurd (Option.some.inj hname).symm hne

/-- What a copy is a resolution of. -/
theorem parse_recoveredCopy (h : d.Holds L) {e : ThalwegEvent} (he : e ∈ L.events)
    (hself : e.names ≠ some (recoveredCopy e).id) :
    parseConflictResolution (recoveredCopy e) = .ok (e.names.map resolutionOf) := by
  rcases h.parseConflictResolution_of_mem he with ⟨hn, hs⟩ | ⟨eventID, hn, -⟩
  · rw [hn]
    exact parseConflictResolution_of_stream_ne hs
  · rw [hn]
    exact parseConflictResolution_of_names hn fun heq => hself (heq ▸ hn)

/-- What follows the transaction that stores the copy. -/
theorem passStores_of_store (h : d.Holds L) {e : ThalwegEvent} (he : e ∈ L.events)
    (hr : Readable e) (hself : e.names ≠ some (recoveredCopy e).id) {created : Bool} {d' : Daemon}
    (hstore : d.storeReplicated (recoveredCopy e) = (.ok (recoveredCopy e, created), d')) :
    PassStores d e created d' := by
  intro fuel
  have hnormal := normalizeReplicatedEvent_of_readable hr.recoveredCopy
  have hparse := h.parse_recoveredCopy he hself
  rw [h.materialize_succ he hr]
  cases hn : e.names with
  | none =>
    rw [hn] at hparse
    rw [ingestReplicated_of_parse_none hnormal hparse, hstore]
  | some eventID =>
    rw [hn] at hparse
    rw [ingestReplicated_of_parse_some hnormal hparse, hstore]
    simp only [resolutionOf, recoveredCopy]
    cases materializeConflictVariant fuel d' e.network eventID with
    | none => rfl
    | some p =>
      obtain ⟨res, d''⟩ := p
      cases res <;> rfl

/-- One pass of materialization: it fails, or stores the copy of the variant. -/
theorem materialize_pass (h : d.Holds L) {e : ThalwegEvent} (he : e ∈ L.events) :
    PassFails d e ∧ Ledger.Stuck e.network (L, e.id) ∨
    ∃ created d' L', L.Recovers e.network e.id e L' ∧ d'.Holds L' ∧ d.SameElsewhere d' ∧
      (L'.events = L.events → d' = d) ∧ PassStores d e created d' := by
  by_cases hr : Readable e
  swap
  · obtain ⟨err, herr⟩ := h.materialize_of_not_readable he hr
    exact Or.inl ⟨⟨err, d, Or.inl rfl, fun fuel => herr (fuel + 1)⟩,
      stuck_of_not_recovers he fun _ hrec => hr hrec.readable⟩
  by_cases hself : e.names = some (recoveredCopy e).id
  · exact Or.inl ⟨h.passFails_of_names_self he hr hself,
      stuck_of_not_recovers he fun _ hrec => hrec.names_ne hself⟩
  have hnames : (recoveredCopy e).stream = conflictResolutionStream →
      ∃ eventID, (recoveredCopy e).names = some eventID ∧ eventID ≠ (recoveredCopy e).id := by
    intro hs
    obtain ⟨eventID, hn, -⟩ := h.represents.names e he hs
    exact ⟨eventID, hn, fun heq => hself (heq ▸ hn)⟩
  rcases h.storeReplicated_cases hr.storable.recoveredCopy hnames with
    ⟨err, d', hstore, hd', hno⟩ | ⟨hstore, -, hadmits⟩ | ⟨d', L', hstore, hfresh, hadmits, hd', hsame⟩
  · refine Or.inl ⟨⟨.wrap "materialize preserved conflict variant: %w" [] err, d', hd',
      fun fuel => ?_⟩, stuck_of_not_recovers he fun L' hrec => hno L' hrec.admits⟩
    rw [h.materialize_succ he hr, ingestReplicated_of_store_error
      (normalizeReplicatedEvent_of_readable hr.recoveredCopy) (h.parse_recoveredCopy he hself) hstore]
  · exact Or.inr ⟨false, d, L, ⟨he, rfl, rfl, hr, hself, hadmits⟩, h, .refl d, fun _ => rfl,
      h.passStores_of_store he hr hself hstore⟩
  · refine Or.inr ⟨true, d', L', ⟨he, rfl, rfl, hr, hself, hadmits⟩, hd', hsame, ?_,
      h.passStores_of_store he hr hself hstore⟩
    intro heq
    obtain rfl := hadmits.eq_of_events_eq heq
    exact absurd rfl (hfresh _ hadmits.mem rfl)

/-- What a materialization leaves: it is the recovery of the ledger up to its end. -/
structure Materialized (d : Daemon) (L : Ledger) (networkName eventID : Text)
    (res : Result (ThalwegEvent × Bool)) (d' : Daemon) (b : Ledger × Text) (L' : Ledger) :
    Prop where
  ends : Chain.EndsAt (Ledger.Leads networkName) (L, eventID) b
  done : ∀ r, res = .ok r → Ledger.Done networkName b L'
  stuck : ∀ err, res = .error err → Ledger.Stuck networkName b ∧ (L' = b.1 ∨ L' = b.1.tick)
  holds : d'.Holds L'
  same : d.SameElsewhere d'
  unchanged : L'.events = L.events → d'.store = d.store ∧ d'.hlc = d.hlc

theorem Materialized.grows {networkName eventID : Text} {res : Result (ThalwegEvent × Bool)}
    {d' : Daemon} {b : Ledger × Text} {L' : Ledger}
    (h : Materialized d L networkName eventID res d' b L') : ReflTransGen Ledger.Grows L L' := by
  have hb := Ledger.grows_of_leads h.ends.1
  cases res with
  | error err =>
    rcases (h.stuck err rfl).2 with rfl | rfl
    · exact hb
    · exact hb.tail .reading
  | ok r => exact hb.trans (h.done r rfl).grows

/-- Materialization is the recovery of the ledger. -/
theorem materialize_spec {networkName : Text} : ∀ (fuel : Nat) {d d' : Daemon} {L : Ledger}
    {eventID : Text} {res : Result (ThalwegEvent × Bool)}, d.Holds L →
    materializeConflictVariant fuel d networkName eventID = some (res, d') →
    ∃ b L', Materialized d L networkName eventID res d' b L' := by
  intro fuel
  induction fuel using Nat.strong_induction_on with
  | _ fuel ih =>
    intro d d' L eventID res h hrun
    by_cases hstored : ∃ e ∈ L.events, e.network = networkName ∧ e.id = eventID
    swap
    · push Not at hstored
      cases fuel with
      | zero => simp [materializeConflictVariant] at hrun
      | succ fuel =>
        rw [h.materialize_of_not_stored fuel hstored] at hrun
        cases hrun
        have hdone : Ledger.Done networkName (L, eventID) L := Or.inl ⟨hstored, rfl⟩
        exact ⟨_, L, Chain.endsAt_self fun b => hdone.not_leads, fun _ _ => hdone, nofun, h,
          .refl d, fun _ => ⟨rfl, rfl⟩⟩
    obtain ⟨e, he, rfl, rfl⟩ := hstored
    match fuel with
    | 0 => simp [materializeConflictVariant] at hrun
    | 1 =>
      by_cases hr : Readable e
      · rw [h.materialize_succ he hr] at hrun
        simp [ingestReplicated] at hrun
      · obtain ⟨err, herr⟩ := h.materialize_of_not_readable he hr
        rw [herr 0] at hrun
        cases hrun
        have hstuck := stuck_of_not_recovers he fun _ hrec => hr hrec.readable
        exact ⟨_, L, Chain.endsAt_self fun b => hstuck.not_leads, nofun,
          fun _ _ => ⟨hstuck, Or.inl rfl⟩, h, .refl d, fun _ => ⟨rfl, rfl⟩⟩
    | fuel + 2 =>
      rcases h.materialize_pass he with
        ⟨⟨err, d₁, hd₁, herr⟩, hstuck⟩ | ⟨created, d₁, L₁, hrecovers, hd₁, hsame, hunchanged, hpass⟩
      · rw [herr fuel] at hrun
        cases hrun
        rcases hd₁ with rfl | rfl
        · exact ⟨_, L, Chain.endsAt_self fun b => hstuck.not_leads, nofun,
            fun _ _ => ⟨hstuck, Or.inl rfl⟩, h, .refl _, fun _ => ⟨rfl, rfl⟩⟩
        · exact ⟨_, L.tick, Chain.endsAt_self fun b => hstuck.not_leads, nofun,
            fun _ _ => ⟨hstuck, Or.inr rfl⟩, h.tick, .tick d, fun _ => ⟨rfl, rfl⟩⟩
      · rw [hpass fuel] at hrun
        cases hname : e.names with
        | none =>
          rw [hname] at hrun
          cases hrun
          have hdone : Ledger.Done e.network (L, e.id) L₁ := Or.inr ⟨e, hrecovers, hname⟩
          exact ⟨_, L₁, Chain.endsAt_self fun b => hdone.not_leads, fun _ _ => hdone, nofun, hd₁,
            hsame, fun heq => by rw [hunchanged heq]; exact ⟨rfl, rfl⟩⟩
        | some next =>
          rw [hname] at hrun
          have hleads : Ledger.Leads e.network (L, e.id) (L₁, next) := ⟨e, hrecovers, hname⟩
          cases hrest : materializeConflictVariant fuel d₁ e.network next with
          | none => simp [hrest] at hrun
          | some p =>
            obtain ⟨res', d₂⟩ := p
            obtain ⟨b, L₂, hm⟩ := ih fuel (by omega) hd₁ hrest
            have hkept := Ledger.prefix_of_grows hm.grows
            have hL₁ : L.events <+: L₁.events := hrecovers.admits.kept
            have hun : L₂.events = L.events → d₂.store = d.store ∧ d₂.hlc = d.hlc := by
              intro heq
              have h₁ : L₁.events = L.events :=
                (hL₁.eq_of_length_le (heq ▸ hkept.length_le)).symm
              obtain ⟨hs, hc⟩ := hm.unchanged (heq.trans h₁.symm)
              rw [hs, hc, hunchanged h₁]
              exact ⟨rfl, rfl⟩
            refine ⟨b, L₂, hm.ends.head hleads, ?_, ?_, ?_, ?_, ?_⟩
            all_goals cases res' <;> simp only [hrest, Option.some.injEq, Prod.mk.injEq] at hrun
            all_goals obtain ⟨rfl, rfl⟩ := hrun
            · exact nofun
            · exact fun _ _ => hm.done _ rfl
            · exact fun _ _ => hm.stuck _ rfl
            · exact nofun
            · exact hm.holds
            · exact hm.holds
            · exact hsame.trans hm.same
            · exact hsame.trans hm.same
            · exact hun
            · exact hun

/-- A recovery that ends is materialized with enough fuel. -/
theorem materialize_complete {networkName : Text} {a b : Ledger × Text}
    (hends : Chain.EndsAt (Ledger.Leads networkName) a b) {d : Daemon} (h : d.Holds a.1) :
    ∃ fuel r, materializeConflictVariant fuel d networkName a.2 = some r := by
  obtain ⟨hreach, hend⟩ := hends
  induction hreach using ReflTransGen.head_induction_on generalizing d with
  | refl =>
    by_cases hstored : ∃ e ∈ b.1.events, e.network = networkName ∧ e.id = b.2
    swap
    · push Not at hstored
      exact ⟨1, _, h.materialize_of_not_stored 0 hstored⟩
    obtain ⟨e, he, rfl, hid⟩ := hstored
    rw [← hid]
    rcases h.materialize_pass he with
      ⟨⟨err, d₁, -, herr⟩, -⟩ | ⟨created, d₁, L₁, hrecovers, -, -, -, hpass⟩
    · exact ⟨2, _, herr 0⟩
    · have hpass := hpass 0
      cases hname : e.names with
      | none =>
        rw [hname] at hpass
        exact ⟨2, _, hpass⟩
      | some next => exact absurd ⟨e, hid ▸ hrecovers, hname⟩ (hend (L₁, next))
  | @head a c hac _ ih =>
    obtain ⟨L, eventID⟩ := a
    obtain ⟨e, hrecovers, hname⟩ := hac
    obtain rfl := hrecovers.network_eq
    obtain rfl := hrecovers.id_eq
    rcases h.materialize_pass hrecovers.mem with
      ⟨-, hstuck⟩ | ⟨created, d₁, L₁, hrecovers', hd₁, -, -, hpass⟩
    · exact absurd hrecovers (hstuck.2 e c.1)
    · obtain ⟨-, rfl⟩ := hrecovers.unique hrecovers'
      obtain ⟨fuel, ⟨res, d₂⟩, hr⟩ := ih hd₁
      have hpass := hpass fuel
      rw [hname] at hpass
      simp only [hr] at hpass
      cases res <;> exact ⟨fuel + 2, _, hpass⟩

/-! ### Receipt -/

/-- What the receipt of an event leaves. -/
structure Received (d : Daemon) (L : Ledger) (incoming : ThalwegEvent)
    (res : Result (ThalwegEvent × Bool)) (d' : Daemon) (L' : Ledger) : Prop where
  accepts : ∀ r, res = .ok r → ∃ e, normalizeReplicatedEvent incoming = .ok e ∧ r.1 = e ∧
    (∃ p, parseConflictResolution e = .ok p) ∧ L.Accepts e L' ∧ (r.2 = true ↔ L.Fresh e)
  rejects : ∀ err, res = .error err →
    ((∀ e, normalizeReplicatedEvent incoming = .ok e →
      ∃ err, parseConflictResolution e = .error err) ∧ L' = L) ∨
    ∃ e L₁, normalizeReplicatedEvent incoming = .ok e ∧
      (∃ p, parseConflictResolution e = .ok p) ∧ L.Rejects e L₁ ∧ (L' = L₁ ∨ L' = L₁.tick)
  holds : d'.Holds L'
  same : d.SameElsewhere d'
  unchanged : L'.events = L.events → d'.store = d.store ∧ d'.hlc = d.hlc

/-- The receipt of an event is its receipt by the ledger. -/
theorem ingestReplicated_spec (h : d.Holds L) {fuel : Nat} {incoming : ThalwegEvent}
    {res : Result (ThalwegEvent × Bool)} {d' : Daemon}
    (hrun : ingestReplicated fuel d incoming = some (res, d')) :
    ∃ L', Received d L incoming res d' L' := by
  cases fuel with
  | zero => simp [ingestReplicated] at hrun
  | succ fuel =>
    cases hnormal : normalizeReplicatedEvent incoming with
    | error err =>
      simp only [ingestReplicated, hnormal] at hrun
      cases hrun
      refine ⟨L, nofun, fun _ _ => Or.inl ⟨?_, rfl⟩, h, .refl d, fun _ => ⟨rfl, rfl⟩⟩
      intro e he
      rw [hnormal] at he
      cases he
    | ok e =>
      cases hparse : parseConflictResolution e with
      | error err =>
        simp only [ingestReplicated, hnormal, hparse] at hrun
        cases hrun
        refine ⟨L, nofun, fun _ _ => Or.inl ⟨?_, rfl⟩, h, .refl d, fun _ => ⟨rfl, rfl⟩⟩
        intro e' he'
        rw [hnormal] at he'
        cases he'
        exact ⟨err, hparse⟩
      | ok resolution =>
        have hstorable := storable_of_normalizeReplicatedEvent hnormal
        have hnames := names_of_parseConflictResolution hparse
        -- what follows the transaction that stores the event or finds it
        have hrest : ∀ {created : Bool} {d₁ : Daemon} {L₁ : Ledger},
            d.storeReplicated e = (.ok (e, created), d₁) → L.Admits e L₁ → d₁.Holds L₁ →
            d.SameElsewhere d₁ → (created = true ↔ L.Fresh e) →
            (L₁.events = L.events → d₁ = d) → ∃ L', Received d L incoming res d' L' := by
          intro created d₁ L₁ hstore hadmits hd₁ hsame hcreated hunchanged
          rcases parseConflictResolution_eq_ok_iff.mp hparse with
            ⟨hne, rfl⟩ | ⟨eventID, hn, hne, rfl⟩
          · rw [ingestReplicated_of_parse_none hnormal hparse, hstore] at hrun
            cases hrun
            have hn : e.names = none := by
              rw [Option.eq_none_iff_forall_not_mem]
              exact fun _ hname => hne (stream_of_names hname)
            refine ⟨L₁, ?_, nofun, hd₁, hsame, fun heq => by rw [hunchanged heq]; exact ⟨rfl, rfl⟩⟩
            rintro r ⟨⟩
            exact ⟨e, hnormal, rfl, ⟨_, hparse⟩, Or.inl ⟨hn, hadmits⟩, hcreated⟩
          · rw [ingestReplicated_of_parse_some hnormal hparse, hstore] at hrun
            cases hm : materializeConflictVariant fuel d₁ e.network eventID with
            | none => simp [resolutionOf, hm] at hrun
            | some p =>
              obtain ⟨res', d₂⟩ := p
              obtain ⟨b, L₂, hspec⟩ := hd₁.materialize_spec fuel hm
              have hL₁ := hadmits.kept
              have hL₂ := Ledger.prefix_of_grows hspec.grows
              have hun : L₂.events = L.events → d₂.store = d.store ∧ d₂.hlc = d.hlc := by
                intro heq
                have h₁ : L₁.events = L.events :=
                  (hL₁.eq_of_length_le (heq ▸ hL₂.length_le)).symm
                obtain ⟨hs, hc⟩ := hspec.unchanged (heq.trans h₁.symm)
                rw [hs, hc, hunchanged h₁]
                exact ⟨rfl, rfl⟩
              cases res' with
              | error err =>
                simp only [resolutionOf, hm, Option.some.injEq, Prod.mk.injEq] at hrun
                obtain ⟨rfl, rfl⟩ := hrun
                obtain ⟨hstuck, hL₂'⟩ := hspec.stuck err rfl
                refine ⟨_, nofun, fun _ _ => Or.inr ⟨e, b.1, hnormal, ⟨_, hparse⟩, ?_, hL₂'⟩,
                  hspec.holds, hsame.trans hspec.same, hun⟩
                exact Or.inr ⟨eventID, L₁, b, hn, hadmits, hspec.ends, hstuck, rfl⟩
              | ok r =>
                simp only [resolutionOf, hm, Option.some.injEq, Prod.mk.injEq] at hrun
                obtain ⟨rfl, rfl⟩ := hrun
                refine ⟨L₂, ?_, nofun, hspec.holds, hsame.trans hspec.same, hun⟩
                rintro r ⟨⟩
                exact ⟨e, hnormal, rfl, ⟨_, hparse⟩, Or.inr ⟨eventID, L₁, b, hn, hadmits,
                  hspec.ends, hspec.done _ rfl⟩, hcreated⟩
        rcases h.storeReplicated_cases hstorable hnames with
          ⟨err, d₁, hstore, hd₁, hno⟩ | ⟨hstore, hmem, hadmits⟩ |
            ⟨d₁, L₁, hstore, hfresh, hadmits, hd₁, hsame⟩
        · rw [ingestReplicated_of_store_error hnormal hparse hstore] at hrun
          cases hrun
          have hrejects : L.Rejects e L := Or.inl ⟨hno, rfl⟩
          rcases hd₁ with rfl | rfl
          · exact ⟨L, nofun, fun _ _ => Or.inr ⟨e, L, hnormal, ⟨_, hparse⟩, hrejects, Or.inl rfl⟩, h,
              .refl _, fun _ => ⟨rfl, rfl⟩⟩
          · exact ⟨L.tick, nofun,
              fun _ _ => Or.inr ⟨e, L, hnormal, ⟨_, hparse⟩, hrejects, Or.inr rfl⟩, h.tick,
              .tick d, fun _ => ⟨rfl, rfl⟩⟩
        · refine hrest hstore hadmits h (.refl d) ?_ fun _ => rfl
          simp only [Bool.false_eq_true, false_iff]
          exact fun hfresh => hfresh e hmem rfl rfl
        · refine hrest hstore hadmits hd₁ hsame (by simp [hfresh]) ?_
          intro heq
          obtain rfl := hadmits.eq_of_events_eq heq
          exact absurd rfl (hfresh _ hadmits.mem rfl)

/-- A receipt admits the event and recovers copies, or it stores nothing. -/
theorem Received.grows {incoming : ThalwegEvent} {res : Result (ThalwegEvent × Bool)} {d' : Daemon}
    {L' : Ledger} (h : Received d L incoming res d' L') : (L' = L ∨ L' = L.tick) ∨
      ∃ e L₁, normalizeReplicatedEvent incoming = .ok e ∧ L.Admits e L₁ ∧
        ReflTransGen Ledger.Grows L₁ L' := by
  cases res with
  | ok r =>
    obtain ⟨e, hnormal, -, -, haccepts, -⟩ := h.accepts r rfl
    obtain ⟨L₁, hadmits, hgrows⟩ := haccepts.grows
    exact Or.inr ⟨e, L₁, hnormal, hadmits, hgrows⟩
  | error err =>
    rcases h.rejects err rfl with ⟨-, rfl⟩ | ⟨e, L₂, hnormal, -, hrejects, hL'⟩
    · exact Or.inl (Or.inl rfl)
    rcases hrejects.grows with rfl | ⟨L₁, hadmits, hgrows⟩
    · exact Or.inl hL'
    · refine Or.inr ⟨e, L₁, hnormal, hadmits, ?_⟩
      rcases hL' with rfl | rfl
      · exact hgrows
      · exact hgrows.tail .reading

/-- The receipt of an event whose recovery ends returns with enough fuel. -/
theorem ingestReplicated_complete (h : d.Holds L) {incoming : ThalwegEvent}
    (hends : ∀ e eventID L₁, normalizeReplicatedEvent incoming = .ok e → e.names = some eventID →
      eventID ≠ e.id → L.Admits e L₁ → ∃ b, Chain.EndsAt (Ledger.Leads e.network) (L₁, eventID) b) :
    ∃ fuel r, ingestReplicated fuel d incoming = some r := by
  cases hnormal : normalizeReplicatedEvent incoming with
  | error err =>
    refine ⟨1, (.error err, d), ?_⟩
    simp only [ingestReplicated, hnormal]
  | ok e =>
    cases hparse : parseConflictResolution e with
    | error err =>
      refine ⟨1, (.error err, d), ?_⟩
      simp only [ingestReplicated, hnormal, hparse]
    | ok resolution =>
      have hstorable := storable_of_normalizeReplicatedEvent hnormal
      rcases parseConflictResolution_eq_ok_iff.mp hparse with ⟨-, rfl⟩ | ⟨eventID, hn, hne, rfl⟩
      · exact ⟨1, _, ingestReplicated_of_parse_none hnormal hparse⟩
      · have hrest : ∀ {created : Bool} {d₁ : Daemon} {L₁ : Ledger},
            d.storeReplicated e = (.ok (e, created), d₁) → L.Admits e L₁ → d₁.Holds L₁ →
            ∃ fuel r, ingestReplicated fuel d incoming = some r := by
          intro created d₁ L₁ hstore hadmits hd₁
          obtain ⟨b, hb⟩ := hends e eventID L₁ hnormal hn hne hadmits
          obtain ⟨fuel, ⟨res, d₂⟩, hr⟩ := materialize_complete hb hd₁
          have hpass : ingestReplicated (fuel + 1) d incoming = _ :=
            ingestReplicated_of_parse_some hnormal hparse
          rw [hstore] at hpass
          simp only [resolutionOf, hr] at hpass
          cases res <;> exact ⟨fuel + 1, _, hpass⟩
        rcases h.storeReplicated_cases hstorable fun _ => ⟨eventID, hn, hne⟩ with
          ⟨err, d₁, hstore, -, -⟩ | ⟨hstore, -, hadmits⟩ | ⟨d₁, L₁, hstore, -, hadmits, hd₁, -⟩
        · exact ⟨1, _, ingestReplicated_of_store_error hnormal hparse hstore⟩
        · exact hrest hstore hadmits h
        · exact hrest hstore hadmits hd₁

end Holds

end Daemon

end Thalweg
