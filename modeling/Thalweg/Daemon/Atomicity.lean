import Thalweg.Daemon.Termination

/-!
# Atomicity of failed receipts

A receipt that fails leaves the events, their indexes and the clock as they were, unless it fails in
the recovery that a conflict resolution starts, after an event was stored: this one stays.

* `ReceiptStrands`: the receipt gets stuck after it stored an event.
* `Daemon.Reachable.receipt_atomic_iff`.
-/

namespace Thalweg

open Relation

namespace Daemon

/-- The recovery that the receipt of an event starts gets stuck, and the receipt or the recovery
stored an event before: the event is a resolution, and on the way from the event that it names to
the next one that this names there is one that cannot be read or whose copy is not admitted. The
copy has an ID that another event holds or that the event itself names, is stored and cannot be
read, or finds no room in the clock or the arrival counter. -/
def ReceiptStrands (L : Ledger) (incoming : ThalwegEvent) : Prop :=
  ∃ e eventID L₁ b, normalizeReplicatedEvent incoming = .ok e ∧ e.names = some eventID ∧
    eventID ≠ e.id ∧ L.Admits e L₁ ∧ Chain.EndsAt (Ledger.Leads e.network) (L₁, eventID) b ∧
    Ledger.Stuck e.network b ∧ b.1.events ≠ L.events

variable {d d' : Daemon} {L L' : Ledger}

/-- Daemons that hold the same under the keys of events hold the same events. -/
theorem Holds.events_subset_of_sameCore (h : d.Holds L) (h' : d'.Holds L') (hsame : d.SameCore d') :
    L'.events ⊆ L.events := by
  intro e he
  have hrepresents := (h.sameCore hsame).represents
  exact hrepresents.mem_storedEvents_iff.mp (h'.represents.mem_storedEvents_iff.mpr he)

theorem Ledger.events_eq_of_subset (hkept : L.events <+: L'.events) (hsubset : L'.events ⊆ L.events) :
    L'.events = L.events := by
  obtain ⟨tail, htail⟩ := hkept
  cases tail with
  | nil => rw [← htail, List.append_nil]
  | cons e tail =>
    have hdistinct := L'.distinct
    rw [← htail, Distinct, List.pairwise_append] at hdistinct
    have he : e ∈ L.events := hsubset (htail ▸ by simp)
    exact absurd rfl (hdistinct.2.2 e he e (by simp) rfl)

/-- A failed receipt leaves the keys of events and the clock exactly if it does not get stuck after
it stored an event. -/
theorem Holds.receipt_unchanged_iff (h : d.Holds L) (incoming : ThalwegEvent) :
    (∀ fuel err d', ingestReplicated fuel d incoming = some (.error err, d') → d.SameCore d') ↔
      ¬ ReceiptStrands L incoming := by
  constructor
  · rintro hatomic ⟨e, eventID, L₁, b, hnormal, hname, hself, hadmits, hends, hstuck, hne⟩
    have hreturns : ¬ ReceiptHangs L incoming := by
      rintro ⟨f, X, L₂, hnormal', hname', -, hadmits', hreturns⟩
      obtain rfl := Except.ok.inj (hnormal.symm.trans hnormal')
      obtain rfl := Option.some.inj (hname.symm.trans hname')
      obtain rfl := hadmits.unique hadmits'
      exact (Ledger.exists_endsAt_iff _ _).mp ⟨b, hends⟩ hreturns
    obtain ⟨fuel, ⟨res, d'⟩, hrun⟩ := (h.ingestReplicated_returns_iff incoming).mpr hreturns
    obtain ⟨L', hreceived⟩ := h.ingestReplicated_spec hrun
    cases res with
    | ok r =>
      obtain ⟨f, hf, -, -, haccepts, -⟩ := hreceived.accepts r rfl
      obtain rfl := Except.ok.inj (hnormal.symm.trans hf)
      rcases haccepts with ⟨hnone, -⟩ | ⟨X, L₂, c, hX, hadmits', hc, hdone⟩
      · rw [hname] at hnone
        cases hnone
      · obtain rfl := Option.some.inj (hname.symm.trans hX)
        obtain rfl := hadmits.unique hadmits'
        obtain rfl := hends.unique (Ledger.Leads.unique _) hc
        exact hstuck.not_done _ hdone
    | error err =>
      rcases hreceived.rejects err rfl with ⟨hparse, -⟩ | ⟨f, L₂, hf, -, hrejects, hL'⟩
      · obtain ⟨err', herr⟩ := hparse e hnormal
        rw [parseConflictResolution_of_names hname hself] at herr
        cases herr
      · obtain rfl := Except.ok.inj (hnormal.symm.trans hf)
        rcases hrejects with ⟨hno, -⟩ | ⟨X, L₃, c, hX, hadmits', hc, -, rfl⟩
        · exact hno L₁ hadmits
        · obtain rfl := Option.some.inj (hname.symm.trans hX)
          obtain rfl := hadmits.unique hadmits'
          obtain rfl := hends.unique (Ledger.Leads.unique _) hc
          have hevents : L'.events = b.1.events := by rcases hL' with rfl | rfl <;> rfl
          have hkept := hadmits.kept.trans (Ledger.prefix_of_leads hends.1)
          rw [← hevents] at hne hkept
          exact hne (Ledger.events_eq_of_subset hkept
            (h.events_subset_of_sameCore hreceived.holds (hatomic fuel err d' hrun)))
  · intro hstrands fuel err d' hrun
    obtain ⟨L', hreceived⟩ := h.ingestReplicated_spec hrun
    have hsame : L'.events = L.events → d.SameCore d' := fun heq =>
      let ⟨hs, hc⟩ := hreceived.unchanged heq
      .of_store_eq hs hc hreceived.same.deviceID
    rcases hreceived.rejects err rfl with ⟨-, rfl⟩ | ⟨e, L₁, hnormal, ⟨p, hparse⟩, hrejects, hL'⟩
    · exact hsame rfl
    have hevents : L'.events = L₁.events := by rcases hL' with rfl | rfl <;> rfl
    rcases hrejects with ⟨-, rfl⟩ | ⟨eventID, L₂, b, hname, hadmits, hends, hstuck, rfl⟩
    · exact hsame hevents
    · refine hsame (hevents.trans ?_)
      by_contra hne
      have hself : eventID ≠ e.id := by
        rcases parseConflictResolution_eq_ok_iff.mp hparse with ⟨hs, -⟩ | ⟨X, hX, hself, -⟩
        · exact absurd (stream_of_names hname) hs
        · rwa [Option.some.inj (hname.symm.trans hX)]
      exact hstrands ⟨e, eventID, L₂, b, hnormal, hname, hself, hadmits, hends, hstuck, hne⟩

/-- **Atomicity of failed receipts.** In a reachable state, the failed receipts of an event leave
the events, their indexes, the arrival counter and the clock, persisted and in memory, exactly if
the receipt does not get stuck after it stored an event. -/
theorem Reachable.receipt_atomic_iff (h : d.Reachable) : ∃ L, d.Holds L ∧ ∀ incoming,
    (∀ fuel err d', ingestReplicated fuel d incoming = some (.error err, d') → d.SameCore d') ↔
      ¬ ReceiptStrands L incoming :=
  let ⟨L, hL⟩ := h.exists_holds.1
  ⟨L, hL, hL.receipt_unchanged_iff⟩

/-- A local event of the daemon at noon. -/
def localEvent (id payload : Text) (counter : UInt64) : ThalwegEvent :=
  ⟨id, ['h'], ['s'], noon.format, noon.format, noon.format, counter, ['d'], payload⟩

/-- A daemon with a local event and another one under the ID of its recovered copy. -/
def squatted : Daemon :=
  (initial ['d'] deviceName_ne_nil fun _ => noon).after 0
    [.ingest ['h'] ['s'] [] ['x'] ['1'] [],
      .ingest ['h'] ['s'] [] (recoveredCopy (localEvent ['x'] ['1'] 0)).id ['2'] []]

/-- The receipt of a resolution of the first event fails, and the resolution stays. -/
theorem squatted_not_atomic : squatted.Reachable ∧ ∃ err d',
    ingestReplicated 4 squatted (foreignResolution ['r'] ['x']) = some (.error err, d') ∧
      ¬ squatted.SameCore d' := by
  refine ⟨⟨_, _, _, run_after _ _ _⟩, ?_⟩
  have hrun : (ingestReplicated 4 squatted (foreignResolution ['r'] ['x'])).map (fun p =>
      (p.1.isOk, (p.2.store.get (eventIDKey ['h'] ['r'])).isSome)) = some (false, true) := by
    decide +kernel
  obtain ⟨⟨res, d'⟩, hrun, heq⟩ := Option.map_eq_some_iff.mp hrun
  obtain ⟨hres, hstored⟩ := Prod.mk.inj heq
  cases res with
  | ok r => cases hres
  | error err =>
    refine ⟨err, d', hrun, fun hsame => ?_⟩
    have hbefore : squatted.store.get (eventIDKey ['h'] ['r']) = none := by decide +kernel
    rw [hsame.get _ (Or.inl (Or.inr (Or.inl (keyFamily_eventIDKey _ _)))), hbefore] at hstored
    cases hstored

theorem squatted_atomic_iff : ∃ L, squatted.Holds L ∧ ∀ incoming,
    (∀ fuel err d', ingestReplicated fuel squatted incoming = some (.error err, d') →
      squatted.SameCore d') ↔ ¬ ReceiptStrands L incoming :=
  Reachable.receipt_atomic_iff ⟨_, _, _, run_after _ _ _⟩

end Daemon

end Thalweg
