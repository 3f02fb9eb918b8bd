import Thalweg.Daemon.Run

/-!
# Termination of materialization

The recursion of a receipt follows stored resolutions: from an event ID to the one that the event
stored under it names, once the copy of this event is stored. It ends exactly if it does not come
back to an event ID, and so does the reconciliation at a start.

* `Daemon.Holds.ingestReplicated_returns_iff`, `Daemon.Holds.materialize_returns_iff`.
* `Ledger.Hangs`, `Daemon.StartHangs`: a start comes to a recovery that does not end.
* `Daemon.Reachable.materialization_returns_iff`.
-/

namespace Thalweg

open Relation

/-- Recoveries from event IDs, one after the other, come to one that comes back to an event ID. -/
inductive Ledger.Hangs (networkName : Text) : Ledger → List Text → Prop
  | here {L : Ledger} {eventID : Text} {eventIDs : List Text} :
      Chain.Returns (Leads networkName) Prod.snd (L, eventID) →
      Hangs networkName L (eventID :: eventIDs)
  | later {L L' : Ledger} {eventID : Text} {eventIDs : List Text} {b : Ledger × Text} :
      Chain.EndsAt (Leads networkName) (L, eventID) b → Done networkName b L' →
      Hangs networkName L' eventIDs → Hangs networkName L (eventID :: eventIDs)

namespace Daemon

/-- The recovery that the receipt of an event starts comes back to an event ID. -/
def ReceiptHangs (L : Ledger) (incoming : ThalwegEvent) : Prop :=
  ∃ e eventID L₁, normalizeReplicatedEvent incoming = .ok e ∧ e.names = some eventID ∧
    eventID ≠ e.id ∧ L.Admits e L₁ ∧
    Chain.Returns (Ledger.Leads e.network) Prod.snd (L₁, eventID)

variable {d d' : Daemon} {L : Ledger}

/-- A receipt returns exactly if its recovery does not come back to an event ID. -/
theorem Holds.ingestReplicated_returns_iff (h : d.Holds L) (incoming : ThalwegEvent) :
    (∃ fuel r, ingestReplicated fuel d incoming = some r) ↔ ¬ ReceiptHangs L incoming := by
  constructor
  · rintro ⟨fuel, ⟨res, d'⟩, hrun⟩ ⟨e, eventID, L₁, hnormal, hname, hself, hadmits, hreturns⟩
    have hends : ∀ {L₂ : Ledger} {b : Ledger × Text} {eventID' : Text},
        e.names = some eventID' → L.Admits e L₂ →
        Chain.EndsAt (Ledger.Leads e.network) (L₂, eventID') b → False := by
      intro L₂ b eventID' hname' hadmits' hb
      obtain rfl := Option.some.inj (hname.symm.trans hname')
      obtain rfl := hadmits.unique hadmits'
      exact (Ledger.exists_endsAt_iff _ _).mp ⟨b, hb⟩ hreturns
    obtain ⟨L', hreceived⟩ := h.ingestReplicated_spec hrun
    cases res with
    | ok r =>
      obtain ⟨f, hf, -, -, haccepts, -⟩ := hreceived.accepts r rfl
      obtain rfl := Except.ok.inj (hnormal.symm.trans hf)
      rcases haccepts with ⟨hnone, -⟩ | ⟨X, L₂, b, hX, hadmits', hb, -⟩
      · rw [hname] at hnone
        cases hnone
      · exact hends hX hadmits' hb
    | error err =>
      rcases hreceived.rejects err rfl with ⟨hparse, -⟩ | ⟨f, L₂, hf, -, hrejects, -⟩
      · obtain ⟨err', herr⟩ := hparse e hnormal
        rw [parseConflictResolution_of_names hname hself] at herr
        cases herr
      · obtain rfl := Except.ok.inj (hnormal.symm.trans hf)
        rcases hrejects with ⟨hno, -⟩ | ⟨X, L₂, b, hX, hadmits', hb, -⟩
        · exact hno L₁ hadmits
        · exact hends hX hadmits' hb
  · intro hhangs
    refine h.ingestReplicated_complete fun e eventID L₁ hnormal hname hself hadmits => ?_
    rw [Ledger.exists_endsAt_iff]
    exact fun hreturns => hhangs ⟨e, eventID, L₁, hnormal, hname, hself, hadmits, hreturns⟩

/-- A materialization returns exactly if the recovery does not come back to an event ID. -/
theorem Holds.materialize_returns_iff (h : d.Holds L) (networkName eventID : Text) :
    (∃ fuel r, materializeConflictVariant fuel d networkName eventID = some r) ↔
      ¬ Chain.Returns (Ledger.Leads networkName) Prod.snd (L, eventID) := by
  rw [← Ledger.exists_endsAt_iff]
  constructor
  · rintro ⟨fuel, ⟨res, d'⟩, hrun⟩
    obtain ⟨b, L', hm⟩ := h.materialize_spec fuel hrun
    exact ⟨b, hm.ends⟩
  · rintro ⟨b, hb⟩
    exact Holds.materialize_complete hb h

/-! ### Starting -/

theorem materializeAll_mono {fuel fuel' : Nat} (hle : fuel ≤ fuel') {networkName : Text}
    {eventIDs : List Text} {r : Result Unit × Daemon}
    (hr : materializeAll fuel networkName d eventIDs = some r) :
    materializeAll fuel' networkName d eventIDs = some r := by
  induction eventIDs generalizing d with
  | nil => exact hr
  | cons eventID eventIDs ih =>
    rw [materializeAll] at hr ⊢
    cases hm : materializeConflictVariant fuel d networkName eventID with
    | none => simp [hm] at hr
    | some p =>
      rw [materializeConflictVariant_mono hle hm]
      obtain ⟨res, d₁⟩ := p
      cases res with
      | error err => simpa only [hm] using hr
      | ok stored =>
        simp only [hm] at hr
        exact ih hr

/-- Materializations one after the other return exactly if none of them comes back to an event
ID. -/
theorem Holds.materializeAll_returns_iff (h : d.Holds L) (networkName : Text) (eventIDs : List Text) :
    (∃ fuel r, materializeAll fuel networkName d eventIDs = some r) ↔
      ¬ L.Hangs networkName eventIDs := by
  induction eventIDs generalizing d L with
  | nil => exact iff_of_true ⟨0, _, rfl⟩ nofun
  | cons eventID eventIDs ih =>
    constructor
    · rintro ⟨fuel, r, hrun⟩ hhangs
      rw [materializeAll] at hrun
      cases hm : materializeConflictVariant fuel d networkName eventID with
      | none => simp [hm] at hrun
      | some p =>
        obtain ⟨res, d₁⟩ := p
        obtain ⟨b, L₁, hspec⟩ := h.materialize_spec fuel hm
        cases hhangs with
        | here hreturns =>
          exact (h.materialize_returns_iff networkName eventID).mp ⟨fuel, _, hm⟩ hreturns
        | later hb hdone hrest =>
          obtain rfl := hspec.ends.unique (Ledger.Leads.unique networkName) hb
          cases res with
          | error err => exact (hspec.stuck err rfl).1.not_done _ hdone
          | ok stored =>
            obtain rfl := (hspec.done stored rfl).unique hdone
            simp only [hm] at hrun
            exact (ih hspec.holds).mp ⟨fuel, r, hrun⟩ hrest
    · intro hhangs
      obtain ⟨fuel, ⟨res, d₁⟩, hm⟩ := (h.materialize_returns_iff networkName eventID).mpr
        fun hreturns => hhangs (.here hreturns)
      obtain ⟨b, L₁, hspec⟩ := h.materialize_spec fuel hm
      cases res with
      | error err => exact ⟨fuel, (.error err, d₁), by rw [materializeAll, hm]⟩
      | ok stored =>
        obtain ⟨fuel', r, hrest⟩ := (ih hspec.holds).mpr
          fun hrest => hhangs (.later hspec.ends (hspec.done stored rfl) hrest)
        refine ⟨max fuel fuel', r, ?_⟩
        rw [materializeAll, materializeConflictVariant_mono (le_max_left _ _) hm]
        exact materializeAll_mono (le_max_right _ _) hrest

/-- The reconciliation of networks, one after the other, comes to a materialization that comes back
to an event ID. -/
inductive StartHangs (order : List Text → List Text) : Daemon → List NetworkMembershipInfo → Prop
  | here {d : Daemon} {L : Ledger} {membership : NetworkMembershipInfo}
      {memberships : List NetworkMembershipInfo} {resolutions : List (Text × ThalwegEvent)} :
      d.Holds L → conflictResolutionsTxn d.store membership.name = .ok resolutions →
      L.Hangs membership.name (order (resolvedEventIDs resolutions)) →
      StartHangs order d (membership :: memberships)
  | later {d d' : Daemon} {fuel : Nat} {membership : NetworkMembershipInfo}
      {memberships : List NetworkMembershipInfo} {resolutions : List (Text × ThalwegEvent)} :
      conflictResolutionsTxn d.store membership.name = .ok resolutions →
      materializeAll fuel membership.name d (order (resolvedEventIDs resolutions)) = some (.ok (), d') →
      StartHangs order d' memberships → StartHangs order d (membership :: memberships)

theorem reconcileNetworks_mono {fuel fuel' : Nat} (hle : fuel ≤ fuel') {order : List Text → List Text}
    {memberships : List NetworkMembershipInfo} {r : Result Unit × Daemon}
    (hr : reconcileNetworks fuel order d memberships = some r) :
    reconcileNetworks fuel' order d memberships = some r := by
  induction memberships generalizing d with
  | nil => exact hr
  | cons membership memberships ih =>
    rw [reconcileNetworks] at hr ⊢
    cases hread : conflictResolutionsTxn d.store membership.name with
    | error err => simpa only [hread] using hr
    | ok resolutions =>
      simp only [hread] at hr ⊢
      cases hm : materializeAll fuel membership.name d (order (resolvedEventIDs resolutions)) with
      | none => simp [hm] at hr
      | some p =>
        rw [materializeAll_mono hle hm]
        obtain ⟨res, d₁⟩ := p
        cases res with
        | error err => simpa only [hm] using hr
        | ok stored =>
          simp only [hm] at hr
          exact ih hr

theorem Holds.reconcileNetworks_returns_iff (h : d.Holds L) (order : List Text → List Text)
    (memberships : List NetworkMembershipInfo) :
    (∃ fuel r, reconcileNetworks fuel order d memberships = some r) ↔
      ¬ StartHangs order d memberships := by
  induction memberships generalizing d L with
  | nil => exact iff_of_true ⟨0, _, rfl⟩ nofun
  | cons membership memberships ih =>
    obtain ⟨resolutions, hread, -⟩ := h.represents.conflictResolutionsTxn_spec membership.name
    constructor
    · rintro ⟨fuel, r, hrun⟩ hhangs
      rw [reconcileNetworks, hread] at hrun
      simp only at hrun
      cases hm : materializeAll fuel membership.name d (order (resolvedEventIDs resolutions)) with
      | none => simp [hm] at hrun
      | some p =>
        obtain ⟨res, d₁⟩ := p
        obtain ⟨L₁, hL₁, -⟩ := h.materializeAll_spec hm
        cases hhangs with
        | here hL₂ hread' hhangs =>
          obtain rfl := Except.ok.inj (hread.symm.trans hread')
          exact (hL₂.materializeAll_returns_iff _ _).mp ⟨fuel, _, hm⟩ hhangs
        | @later _ d₂ fuel₂ _ _ _ hread' hm' hhangs =>
          obtain rfl := Except.ok.inj (hread.symm.trans hread')
          -- both runs with the greater fuel
          have heq := materializeAll_mono (le_max_left fuel fuel₂) hm
          rw [materializeAll_mono (le_max_right fuel fuel₂) hm'] at heq
          cases heq
          simp only [hm] at hrun
          exact (ih hL₁).mp ⟨fuel, r, hrun⟩ hhangs
    · intro hhangs
      obtain ⟨fuel, ⟨res, d₁⟩, hm⟩ := (h.materializeAll_returns_iff membership.name
        (order (resolvedEventIDs resolutions))).mpr fun hall => hhangs (.here h hread hall)
      obtain ⟨L₁, hL₁, -⟩ := h.materializeAll_spec hm
      cases res with
      | error err => exact ⟨fuel, (.error err, d₁), by simp only [reconcileNetworks, hread, hm]⟩
      | ok stored =>
        obtain ⟨fuel', r, hrest⟩ := (ih hL₁).mpr fun hrest => hhangs (.later hread hm hrest)
        refine ⟨max fuel fuel', r, ?_⟩
        simp only [reconcileNetworks, hread, materializeAll_mono (le_max_left fuel fuel') hm]
        exact reconcileNetworks_mono (le_max_right _ _) hrest

/-- A start returns exactly if the clock state cannot be read or no materialization comes back to an
event ID. -/
theorem Holds.newWithConfig_returns_iff (h : d.Holds L) (order : List Text → List Text)
    (now : Nat → Instant) : (∃ fuel r, d.newWithConfig fuel order now = some r) ↔
      ¬ ((∃ hlc, loadHLC d.store = .ok hlc) ∧
        StartHangs order (Holds.restarted d now) d.memberships.list) := by
  have hreconcile := (h.holds_restarted now).reconcileNetworks_returns_iff order d.memberships.list
  cases hload : loadHLC d.store with
  | error err =>
    refine iff_of_true ⟨0, (.error err, d), ?_⟩ fun hhangs => ?_
    · rw [h.newWithConfig_eq, hload]
    · obtain ⟨⟨hlc, hok⟩, -⟩ := hhangs
      cases hok
  | ok hlc =>
    have heq : ∀ fuel, d.newWithConfig fuel order now = _ := fun fuel => h.newWithConfig_eq fuel order now
    simp only [hload] at heq
    constructor
    · rintro ⟨fuel, r, hrun⟩ ⟨-, hhangs⟩
      refine hreconcile.mp ?_ hhangs
      rw [heq] at hrun
      cases hr : reconcileConflictResolutions fuel order (Holds.restarted d now) with
      | none => simp [hr] at hrun
      | some p => exact ⟨fuel, p, hr⟩
    · intro hhangs
      obtain ⟨fuel, ⟨res, d₁⟩, hr⟩ := hreconcile.mpr fun hall => hhangs ⟨⟨hlc, rfl⟩, hall⟩
      have hr : reconcileConflictResolutions fuel order (Holds.restarted d now) = some (res, d₁) := hr
      have := heq fuel
      simp only [hr] at this
      cases res <;> exact ⟨fuel, _, this⟩

/-- **Termination of materialization.** From a reachable state, the receipt of an event returns
exactly if the recovery that it starts does not come back to an event ID, and so does a start. -/
theorem Reachable.materialization_returns_iff (h : d.Reachable) : ∃ L, d.Holds L ∧
    (∀ incoming, (∃ fuel r, ingestReplicated fuel d incoming = some r) ↔ ¬ ReceiptHangs L incoming) ∧
    ∀ order now, (∃ fuel r, d.newWithConfig fuel order now = some r) ↔
      ¬ ((∃ hlc, loadHLC d.store = .ok hlc) ∧
        StartHangs order (Holds.restarted d now) d.memberships.list) :=
  let ⟨L, hL⟩ := h.exists_holds.1
  ⟨L, hL, hL.ingestReplicated_returns_iff, hL.newWithConfig_returns_iff⟩

/-! ### A cycle -/

/-- A resolution of another device, made at noon. -/
def foreignResolution (id eventID : Text) : ThalwegEvent :=
  ⟨id, ['h'], conflictResolutionStream, noon.format, noon.format, noon.format, 1, ['o'],
    Json.render (.obj (resolutionMembers eventID))⟩

theorem foreignResolution_readable {id : Text} (hid : id ≠ []) (eventID : Text) :
    Readable (foreignResolution id eventID) := by
  have htime : IsReadableTimestamp noon.format := ⟨noon, by decide, rfl⟩
  have hpayload := isPayload_of_normalizePayload (normalizePayload_marshalConflictResolution eventID)
  have hstream : conflictResolutionStream ≠ [] := by decide
  refine ⟨⟨hid, by simp [foreignResolution], hstream, by simp [foreignResolution],
    htime.isTimestamp, htime.isTimestamp, htime.isTimestamp, hpayload⟩, ⟨htime, htime, htime⟩, ?_⟩
  rw [foreignResolution, payloadDepth_render (resolutionMembers_wellFormed eventID)
    (depth_resolutionMembers_lt eventID).le]
  exact depth_resolutionMembers_lt eventID

theorem names_foreignResolution (id : Text) {eventID : Text} (heventID : eventID ≠ []) :
    (foreignResolution id eventID).names = some eventID :=
  names_of_resolutionMembers heventID rfl rfl

/-- A daemon that received a resolution of the event ID `b`, stored under `a`. -/
def halfCycle : Daemon :=
  (initial ['d'] deviceName_ne_nil fun _ => noon).after 2 [.ingestReplicated (foreignResolution ['a'] ['b'])]

/-- What the half cycle holds. -/
theorem halfCycle_holds : ∃ L : Ledger, halfCycle.Holds L ∧
    L.events = [foreignResolution ['a'] ['b']] ∧ L.clock = ⟨noon.format, 2⟩ ∧
    ∀ n < 3, (L.now n).format = noon.format := by
  obtain ⟨L, hL⟩ := (show halfCycle.Reachable from ⟨_, _, _, run_after _ _ _⟩).exists_holds.1
  have hfind : findEventByID halfCycle.store ['h'] ['a'] = .ok (some (foreignResolution ['a'] ['b'])) :=
    eq_ok_of_toOption (by decide +kernel)
  have hmem := (hL.represents.findEventByID_eq_ok_some_iff.mp hfind).1
  have hcount : halfCycle.store.get arrivalSequenceKey = some (Text.decimal 1) := by decide +kernel
  rw [hL.represents.sequence, Option.some.injEq, Text.decimal_injective.eq_iff] at hcount
  obtain ⟨e, he⟩ := List.length_eq_one_iff.mp hcount
  rw [he, List.mem_singleton] at hmem
  refine ⟨L, hL, hmem ▸ he, ?_, ?_⟩
  · rw [← hL.clock]
    decide +kernel
  · rw [← hL.now]
    decide +kernel

/-- A merge of stamps of one time, which is the wall clock's, counts on. -/
theorem mergeHLCTimestamp_of_same_time {time : Text} (htime : IsReadableTimestamp time)
    {wallTime : Instant} (hwall : wallTime.format = time) {logical remote : UInt64}
    (hle : remote ≤ logical) (hroom : logical ≠ maxUint64) :
    mergeHLCTimestamp ⟨time, logical⟩ ⟨time, remote⟩ wallTime = .ok ⟨time, logical + 1⟩ := by
  have hstate : HlcTimestamp.Readable ⟨time, logical⟩ := Or.inr htime
  have hatMost : HlcTimestamp.AtMost ⟨time, remote⟩ ⟨time, logical⟩ := Or.inr ⟨rfl, hle⟩
  rw [mergeHLCTimestamp_of_atMost htime hatMost hstate]
  refine ⟨Or.inr hroom, ?_⟩
  rw [localStep, hwall, if_neg (lt_irrefl _)]

/-- The receipt of a resolution of `a`, stored under `b`, does not return. -/
theorem halfCycle_not_returns : halfCycle.Reachable ∧
    ∀ fuel, ingestReplicated fuel halfCycle (foreignResolution ['b'] ['a']) = none := by
  refine ⟨⟨_, _, _, run_after _ _ _⟩, ?_⟩
  obtain ⟨L, hL, hevents, hclock, hnow⟩ := halfCycle_holds
  set a := foreignResolution ['a'] ['b'] with ha
  set b := foreignResolution ['b'] ['a'] with hb
  have hra : Readable a := foreignResolution_readable (by simp) ['b']
  have hrb : Readable b := foreignResolution_readable (by simp) ['a']
  have hna : a.names = some ['b'] := names_foreignResolution _ (by simp)
  have hnb : b.names = some ['a'] := names_foreignResolution _ (by simp)
  -- the IDs of the two copies are new
  have hcopies : (recoveredCopy a).id ≠ ['a'] ∧ (recoveredCopy a).id ≠ ['b'] ∧
      (recoveredCopy b).id ≠ ['a'] ∧ (recoveredCopy b).id ≠ ['b'] ∧
      (recoveredCopy a).id ≠ (recoveredCopy b).id := by
    rw [ha, hb]
    decide +kernel
  obtain ⟨haa, hab, hba, hbb, hcc⟩ := hcopies
  have htime : IsReadableTimestamp noon.format := ⟨noon, by decide, rfl⟩
  have hmerge₁ : mergeHLCTimestamp ⟨noon.format, 2⟩ ⟨noon.format, 1⟩ (L.now 0) = .ok ⟨noon.format, 3⟩ :=
    mergeHLCTimestamp_of_same_time htime (hnow 0 (by omega)) (by decide) (by decide +kernel)
  have hmerge₂ : mergeHLCTimestamp ⟨noon.format, 3⟩ ⟨noon.format, 1⟩ (L.now 1) = .ok ⟨noon.format, 4⟩ :=
    mergeHLCTimestamp_of_same_time htime (hnow 1 (by omega)) (by decide) (by decide +kernel)
  have hmerge₃ : mergeHLCTimestamp ⟨noon.format, 4⟩ ⟨noon.format, 1⟩ (L.now 2) = .ok ⟨noon.format, 5⟩ :=
    mergeHLCTimestamp_of_same_time htime (hnow 2 (by omega)) (by decide) (by decide +kernel)
  have hfresh₁ : L.Fresh b := by
    intro f hf _
    rw [hevents, List.mem_singleton] at hf
    rw [hf]
    decide
  let L₁ := L.record b hfresh₁ ⟨noon.format, 3⟩
  have hevents₁ : L₁.events = [a, b] := by
    change L.events ++ [b] = _
    rw [hevents]
    rfl
  have hfresh₂ : L₁.Fresh (recoveredCopy a) := by
    intro f hf _
    rw [hevents₁] at hf
    rcases List.mem_pair.mp hf with rfl | rfl
    · exact haa.symm
    · exact hab.symm
  let L₂ := L₁.record (recoveredCopy a) hfresh₂ ⟨noon.format, 4⟩
  have hevents₂ : L₂.events = [a, b, recoveredCopy a] := by
    change L₁.events ++ [recoveredCopy a] = _
    rw [hevents₁]
    rfl
  have hfresh₃ : L₂.Fresh (recoveredCopy b) := by
    intro f hf _
    rw [hevents₂] at hf
    simp only [List.mem_cons, List.not_mem_nil, or_false] at hf
    rcases hf with rfl | rfl | rfl
    · exact hba.symm
    · exact hbb.symm
    · exact hcc
  have hadmits : L.Admits b L₁ := .new hfresh₁ (hclock ▸ hmerge₁) (by rw [hevents]; decide)
  have hleads₁ : Ledger.Leads ['h'] (L₁, ['a']) (L₂, ['b']) := by
    refine ⟨a, ⟨by simp [hevents₁], rfl, rfl, hra, ?_, .new hfresh₂ hmerge₂ (by rw [hevents₁]; decide)⟩, hna⟩
    rw [hna]
    exact fun heq => hab (Option.some.inj heq).symm
  have hleads₂ : Ledger.Leads ['h'] (L₂, ['b'])
      (L₂.record (recoveredCopy b) hfresh₃ ⟨noon.format, 5⟩, ['a']) := by
    refine ⟨b, ⟨by simp [hevents₂], rfl, rfl, hrb, ?_, .new hfresh₃ hmerge₃ (by rw [hevents₂]; decide)⟩, hnb⟩
    rw [hnb]
    exact fun heq => hba (Option.some.inj heq).symm
  have hhangs : ReceiptHangs L b := ⟨b, ['a'], L₁, normalizeReplicatedEvent_of_readable hrb, hnb,
    by decide, hadmits, (L₁, ['a']), _, ReflTransGen.refl,
    (TransGen.single hleads₁).tail hleads₂, rfl⟩
  intro fuel
  rw [Option.eq_none_iff_forall_ne_some]
  exact fun r hrun => (hL.ingestReplicated_returns_iff b).mp ⟨fuel, r, hrun⟩ hhangs

theorem halfCycle_returns_iff : ∃ L, halfCycle.Holds L ∧
    (∀ incoming, (∃ fuel r, ingestReplicated fuel halfCycle incoming = some r) ↔
      ¬ ReceiptHangs L incoming) ∧
    ∀ order now, (∃ fuel r, halfCycle.newWithConfig fuel order now = some r) ↔
      ¬ ((∃ hlc, loadHLC halfCycle.store = .ok hlc) ∧
        StartHangs order (Holds.restarted halfCycle now) halfCycle.memberships.list) :=
  Reachable.materialization_returns_iff ⟨_, _, _, run_after _ _ _⟩

end Daemon

end Thalweg
