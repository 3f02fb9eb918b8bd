import Mathlib.Data.Set.Card
import Thalweg.Data.Absorb
import Thalweg.Daemon.Closure
import Thalweg.Daemon.Comparison
import Thalweg.Daemon.Paging
import Thalweg.Daemon.RequestedEvents

/-!
# The convergence of sessions

A session of two daemons that succeeds, where neither has a conflict resolution in the network,
leaves each of them with its own events and those of the other one whose IDs it did not have. A
further session between them transfers nothing, and devices that are connected by sessions that
transfer nothing hold the same events.

A side takes in what it misses of a page, then of the pages before a cursor and after it. What the
pages come to is `Absorb.absorb` of the other side's events of the network.

## Main definitions

* `Ledger.TakesIn`, `Daemon.Phase`: what a side does with the events that the other one lists.
* `Daemon.Converged`: what a session does.

## Main results

* `Daemon.Holds.pushInventory`, `Daemon.Holds.pullInventory`: the run lemmas of the two phases.
* `Daemon.Holds.synchronizePeer`: the run lemma of a session.
* `Daemon.Reachable.converged`, `Daemon.Reachable.further_session_quiet`.
* `Daemon.inventories_eq_of_quietPairs`.
-/

namespace Thalweg

open Absorb

/-- What identifies an event. -/
def ThalwegEvent.ident (e : ThalwegEvent) : Text × Text := (e.network, e.id)

theorem ThalwegEvent.ident_ne_iff {e f : ThalwegEvent} :
    e.ident ≠ f.ident ↔ (e.network = f.network → e.id ≠ f.id) := by
  simp [ThalwegEvent.ident, Prod.ext_iff]

/-- The event is no conflict resolution. -/
def ThalwegEvent.Ordinary (e : ThalwegEvent) : Prop := e.stream ≠ conflictResolutionStream

theorem ThalwegEvent.Ordinary.names {e : ThalwegEvent} (h : e.Ordinary) : e.names = none := by
  exact if_pos h

namespace Ledger

variable {L L' L'' : Ledger} {es es' : List ThalwegEvent} {n n' : Nat}

theorem injOn_ident (L : Ledger) : Set.InjOn ThalwegEvent.ident L.eventSet := by
  intro e he f hf hident
  obtain ⟨hn, hi⟩ := Prod.mk.inj hident
  exact L.distinct.eq_of_id he hf hn hi

theorem fresh_iff {e : ThalwegEvent} : L.Fresh e ↔ ∀ f ∈ L.events, f.ident ≠ e.ident :=
  forall₂_congr fun _ _ => ThalwegEvent.ident_ne_iff.symm

/-- The ledger takes in those of the events whose IDs it does not have, `n` in number. -/
structure TakesIn (L : Ledger) (es : List ThalwegEvent) (n : Nat) (L' : Ledger) : Prop where
  exists_new : ∃ new, L'.events = L.events ++ new ∧ new.length = n ∧
    ∀ e, e ∈ new ↔ e ∈ es ∧ L.Fresh e

theorem TakesIn.of_events_eq (h : L'.events = L.events)
    (hes : ∀ e ∈ es, ¬ L.Fresh e) : L.TakesIn es 0 L' :=
  ⟨[], by rw [h, List.append_nil], rfl, fun e => by simpa using hes e⟩

theorem fresh_congr (h : L'.events = L.events) {e : ThalwegEvent} : L'.Fresh e ↔ L.Fresh e := by
  rw [Fresh, Fresh, h]

/-- Only the events of the ledger matter. -/
theorem TakesIn.congr (h : L'.TakesIn es n L'') (hevents : L'.events = L.events) :
    L.TakesIn es n L'' := by
  obtain ⟨new, heq, hlength, hnew⟩ := h.exists_new
  exact ⟨new, hevents ▸ heq, hlength, fun e => by rw [hnew, fresh_congr hevents]⟩

theorem TakesIn.mem_iff (h : L.TakesIn es n L') {e : ThalwegEvent} :
    e ∈ L'.events ↔ e ∈ L.events ∨ e ∈ es ∧ L.Fresh e := by
  obtain ⟨new, hevents, -, hnew⟩ := h.exists_new
  rw [hevents, List.mem_append, hnew]

/-- One list of events after the other. -/
theorem TakesIn.append (h : L.TakesIn es n L') (h' : L'.TakesIn es' n' L'')
    (hes : ∀ e ∈ es, ∀ e' ∈ es', e.ident ≠ e'.ident) : L.TakesIn (es ++ es') (n + n') L'' := by
  obtain ⟨new, hevents, hlength, hnew⟩ := h.exists_new
  obtain ⟨new', hevents', hlength', hnew'⟩ := h'.exists_new
  refine ⟨new ++ new', ?_, ?_, fun e => ?_⟩
  · rw [hevents', hevents, List.append_assoc]
  · rw [List.length_append, hlength, hlength']
  · have hfresh : e ∈ es' → (L'.Fresh e ↔ L.Fresh e) := fun he => by
      simp only [fresh_iff, h.mem_iff]
      exact ⟨fun hf f hf' => hf f (Or.inl hf'),
        fun hf f hf' => hf'.elim (hf f) fun hf' => hes f hf'.1 e he⟩
    rw [List.mem_append, List.mem_append, hnew, hnew', or_and_right]
    exact or_congr_right (and_congr_right hfresh)

end Ledger

namespace Daemon

variable {fuel n : Nat} {d d' : Daemon} {L : Ledger}

/-! ### Receipts -/

/-- The receipt of events that are new, readable and no resolutions stores them. -/
theorem Holds.ingestEvents_new (h : d.Holds L) {events : List ThalwegEvent}
    (hreadable : ∀ e ∈ events, Readable e) (hordinary : ∀ e ∈ events, e.Ordinary)
    (hfresh : ∀ e ∈ events, L.Fresh e) (hdistinct : events.Pairwise fun e f => e.ident ≠ f.ident)
    (hrun : d.ingestEvents fuel events = some (.ok n, d')) :
    n = events.length ∧ ∃ L', d'.Holds L' ∧ L'.events = L.events ++ events := by
  induction events generalizing d L n with
  | nil =>
    cases hrun
    exact ⟨rfl, L, h, (List.append_nil _).symm⟩
  | cons e events ih =>
    obtain ⟨hread, hreadable⟩ := List.forall_mem_cons.mp hreadable
    obtain ⟨hord, hordinary⟩ := List.forall_mem_cons.mp hordinary
    obtain ⟨hnew, hfresh⟩ := List.forall_mem_cons.mp hfresh
    obtain ⟨hne, hdistinct⟩ := List.pairwise_cons.mp hdistinct
    rw [ingestEvents] at hrun
    split at hrun
    · cases hrun
    · cases hrun
    · next stored created d₁ hi =>
      obtain ⟨L₁, hreceived⟩ := h.ingestReplicated_spec hi
      obtain ⟨e', hnormal, -, -, haccepts, hcreated⟩ := hreceived.accepts _ rfl
      obtain rfl := Except.ok.inj ((normalizeReplicatedEvent_of_readable hread).symm.trans hnormal)
      have hadmits : L.Admits e L₁ := by
        rcases haccepts with ⟨-, hadmits⟩ | ⟨eventID, _, _, hnames, -⟩
        · exact hadmits
        · rw [hord.names] at hnames
          cases hnames
      have hevents : L₁.events = L.events ++ [e] := by
        rcases hadmits.events_eq with ⟨-, he⟩ | ⟨hevents, -⟩
        · exact absurd rfl (hnew e he rfl)
        · exact hevents
      have hfresh₁ : ∀ f ∈ events, L₁.Fresh f := fun f hf => by
        rw [Ledger.fresh_iff, hevents, List.forall_mem_append, List.forall_mem_singleton,
          ← Ledger.fresh_iff]
        exact ⟨hfresh f hf, hne f hf⟩
      split at hrun
      · cases hrun
      · cases hrun
      · next hrest =>
        cases hrun
        obtain ⟨rfl, L', hL', hevents'⟩ :=
          ih hreceived.holds hreadable hordinary hfresh₁ hdistinct hrest
        have hcreated : created = true := hcreated.mpr hnew
        refine ⟨by rw [if_pos hcreated, List.length_cons], L', hL', ?_⟩
        rw [hevents', hevents, List.append_assoc, List.singleton_append]

/-! ### Comparisons -/

/-- The missing IDs of a comparison are IDs of the page, in its order. -/
theorem sublist_missing {store : Store} {networkName : Text} {entries : List InventoryEntry}
    {comparison : InventoryComparison}
    (h : compareEntries store networkName entries = .ok comparison) :
    comparison.missing.Sublist (entries.map InventoryEntry.id) := by
  induction entries generalizing comparison with
  | nil =>
    cases h
    exact List.Sublist.refl _
  | cons entry entries ih =>
    rw [compareEntries] at h
    obtain ⟨found, -, h⟩ := bind_eq_ok_iff.mp h
    cases found with
    | none =>
      obtain ⟨rest, hrest, h⟩ := bind_eq_ok_iff.mp h
      cases h
      exact (ih hrest).cons_cons _
    | some event =>
      obtain ⟨digest, -, h⟩ := bind_eq_ok_iff.mp h
      obtain ⟨rest, hrest, h⟩ := bind_eq_ok_iff.mp h
      split_ifs at h <;>
        · cases h
          exact (ih hrest).cons _

/-- The events are under one ID and have different digests. -/
def Disagree (e f : ThalwegEvent) : Prop := eventDigest e ≠ eventDigest f

/-- The comparison of a page of the entries of readable events of the network: the IDs that are
missing and those under which another event is stored. -/
structure Compared (networkName : Text) (L : Ledger) (es : List ThalwegEvent)
    (missing conflicts : List Text) : Prop where
  missing_nodup : missing.Nodup
  mem_missing_iff : ∀ id, id ∈ missing ↔ ∃ e ∈ es, e.id = id ∧ L.Fresh e
  mem_conflicts_iff : ∀ id, id ∈ conflicts ↔
    ∃ f ∈ L.events, ∃ e ∈ es, f.ident = (networkName, id) ∧ e.ident = (networkName, id) ∧
      Disagree f e

theorem Compared.congr {networkName : Text} {L L' : Ledger} {es : List ThalwegEvent}
    {missing conflicts : List Text} (h : Compared networkName L es missing conflicts)
    (hevents : L'.events = L.events) : Compared networkName L' es missing conflicts :=
  ⟨h.missing_nodup, fun id => by simp only [h.mem_missing_iff, Ledger.fresh_congr hevents],
    fun id => by rw [hevents, h.mem_conflicts_iff]⟩

theorem Holds.compareInventory (h : d.Holds L) {networkName : Text} {entries : List InventoryEntry}
    {es : List ThalwegEvent} (hentries : entries.Perm (es.map entryOf)) (hne : entries ≠ [])
    (hnetwork : ∀ e ∈ es, e.network = networkName) (hreadable : ∀ e ∈ es, Readable e)
    {missing conflicts : List Text}
    (hrun : d.compareInventory networkName entries = (.ok (missing, conflicts), d')) :
    Compared networkName L es missing conflicts ∧ ∃ L', d'.Holds L' ∧ L'.events = L.events := by
  obtain ⟨hvalid, comparison, hcompare, hlists⟩ :=
    compareInventory_eq_ok hne (congrArg Prod.fst hrun)
  obtain ⟨rfl, rfl⟩ := Prod.mk.inj hlists
  obtain ⟨hmissing, hconflicts, -⟩ := compareEntries_spec hcompare
  have hsorted := (validateInventoryEntries_eq_ok_iff.mp hvalid).2.2
  have hmem : ∀ {p : InventoryEntry → Prop},
      (∃ entry ∈ entries, p entry) ↔ ∃ e ∈ es, p (entryOf e) := by
    intro p
    simp only [hentries.mem_iff, List.mem_map, exists_exists_and_eq_and]
  refine ⟨⟨?_, fun id => ?_, fun id => ?_⟩, ?_⟩
  · exact (sublist_missing hcompare).nodup (hsorted.imp ne_of_lt)
  · rw [hmissing, hmem]
    refine exists_congr fun e => and_congr_right fun he => and_congr_right fun hid => ?_
    rw [h.represents.findEventByID_eq_ok_none_iff]
    subst hid
    rw [← hnetwork e he]
    exact Iff.rfl
  · rw [hconflicts, hmem]
    constructor
    · rintro ⟨e, he, hid, f, digest, hfind, hdigest, hne⟩
      obtain ⟨hf, hn, hi, -⟩ := h.represents.findEventByID_eq_ok_some_iff.mp hfind
      refine ⟨f, hf, e, he, Prod.ext hn hi, Prod.ext (hnetwork e he) hid, fun heq => hne ?_⟩
      rw [hdigest, eventDigest_of_readable (hreadable e he)] at heq
      exact Except.ok.inj heq
    · rintro ⟨f, hf, e, he, hfi, hei, hne⟩
      obtain ⟨hfn, hfi⟩ := Prod.mk.inj hfi
      obtain ⟨-, hid⟩ := Prod.mk.inj hei
      rcases (compareEntries_spec hcompare).2.2 (entryOf e)
        (hentries.mem_iff.mpr (List.mem_map_of_mem he)) with hnone | ⟨g, digest, hfind, hdigest⟩
      · refine absurd (hfi.trans hid.symm) ?_
        exact h.represents.findEventByID_eq_ok_none_iff.mp hnone f hf hfn
      · obtain ⟨hg, hgn, hgi, -⟩ := h.represents.findEventByID_eq_ok_some_iff.mp hfind
        obtain rfl := h.represents.distinct.eq_of_id hf hg (hfn.trans hgn.symm)
          (hfi.trans (hid.symm.trans hgi.symm))
        refine ⟨e, he, hid, f, digest, hid ▸ hfind, hdigest, fun heq => hne ?_⟩
        rw [hdigest, eventDigest_of_readable (hreadable e he), heq]
        rfl
  · have hd' : d' = d.recordEventConflicts networkName comparison.observations := by
      unfold Daemon.compareInventory at hrun
      rw [if_neg hne] at hrun
      simp only [hvalid, hcompare] at hrun
      exact (Prod.mk.inj hrun).2.symm
    subst hd'
    exact ⟨_, h.sameCore (sameCore_recordEventConflicts d _ _), rfl⟩

/-! ### Requests -/

/-- A frame that arrives is as it was sent; it is within the limit and parses. -/
theorem transmit_spec {frame arrived : SyncFrame} (h : transmit frame = .ok arrived) :
    arrived = frame ∧ ∃ encoded, marshalFrame frame = .ok encoded ∧
      (Text.toBytes encoded).length ≤ syncMaxFrameBytes ∧ ∃ v, Json.parse encoded = some v := by
  rw [transmit] at h
  obtain ⟨encoded, hencoded, h⟩ := bind_eq_ok_iff.mp h
  split_ifs at h with hlength hparse
  · cases h
  · cases h
    rw [Option.isNone_iff_eq_none] at hparse
    exact ⟨rfl, encoded, hencoded, Nat.not_lt.mp hlength, Option.ne_none_iff_exists'.mp hparse⟩

/-- The request and the answer of a successful exchange arrive, and the request is served. -/
theorem exchange_spec {membership : NetworkMembership} {body answer : SyncBody}
    (h : exchange fuel d membership body = some (.ok answer, d')) :
    (∃ request, transmit ⟨syncProtocolVersion, membership.id, body⟩ = .ok request) ∧
      d.serveSyncBody fuel membership.name body = some (.ok answer, d') ∧
      ∃ response, transmit ⟨syncProtocolVersion, membership.id, answer⟩ = .ok response := by
  unfold exchange at h
  split at h
  · cases h
  · next request hrequest =>
    obtain rfl := (transmit_spec hrequest).1
    split at h
    · cases h
    · cases h
    · next response d₁ hserve =>
      split at h
      · cases h
      · next arrived harrived =>
        obtain rfl := (transmit_spec harrived).1
        unfold serveSyncRequest at hserve
        simp only [ne_eq, not_true_eq_false, if_false] at hserve
        split_ifs at h
        · cases h
        · cases h
        · split at hserve
          · cases hserve
          · cases hserve
          · next hbody =>
            cases hserve
            cases h
            exact ⟨⟨_, hrequest⟩, hbody, _, harrived⟩

/-- A request that is answered was served. -/
theorem serveSyncBody_of_exchange {membership : NetworkMembership} {body answer : SyncBody}
    (h : exchange fuel d membership body = some (.ok answer, d')) :
    d.serveSyncBody fuel membership.name body = some (.ok answer, d') :=
  (exchange_spec h).2.1

/-- The stored events of a page of requested IDs. -/
theorem Holds.eventsByIDs (h : d.Holds L) {networkName : Text} {ids : List Text}
    {events : List ThalwegEvent} (hrun : d.eventsByIDs networkName ids = .ok events) :
    events.map ThalwegEvent.id = ids ∧ ∀ e ∈ events, e ∈ L.events ∧ e.network = networkName := by
  obtain ⟨-, -, hfound⟩ := bind_eq_ok_iff.mp hrun
  clear hrun
  induction ids generalizing events with
  | nil =>
    cases hfound
    exact ⟨rfl, nofun⟩
  | cons id ids ih =>
    rw [findEventsByIDs] at hfound
    obtain ⟨found, hfind, hfound⟩ := bind_eq_ok_iff.mp hfound
    cases found with
    | none => cases hfound
    | some event =>
      obtain ⟨rest, hrest, hfound⟩ := bind_eq_ok_iff.mp hfound
      cases hfound
      obtain ⟨hevent, hn, hi, -⟩ := h.represents.findEventByID_eq_ok_some_iff.mp hfind
      obtain ⟨hmap, hrest⟩ := ih hrest
      exact ⟨by rw [List.map_cons, hmap, hi], List.forall_mem_cons.mpr ⟨⟨hevent, hn⟩, hrest⟩⟩

/-- Events in normal form are pushed as they are. -/
theorem normalizePushedEvents_of_readable {networkName : Text} {events : List ThalwegEvent}
    (hreadable : ∀ e ∈ events, Readable e) (hnetwork : ∀ e ∈ events, e.network = networkName) :
    normalizePushedEvents networkName events = .ok events := by
  induction events with
  | nil => rfl
  | cons e events ih =>
    obtain ⟨hread, hreadable⟩ := List.forall_mem_cons.mp hreadable
    obtain ⟨hn, hnetwork⟩ := List.forall_mem_cons.mp hnetwork
    simp only [normalizePushedEvents, normalizeReplicatedEvent_of_readable hread, bind, Except.bind,
      ih hreadable hnetwork, hn, ne_eq, not_true_eq_false, if_false]

/-! ### Pages -/

/-- The page of a network's inventory lists readable events of one ledger: of different IDs, and
none of them a resolution. -/
structure PageOf (networkName : Text) (L : Ledger) (es : List ThalwegEvent) : Prop where
  mem : ∀ e ∈ es, e ∈ L.events
  network_eq : ∀ e ∈ es, e.network = networkName
  readable : ∀ e ∈ es, Readable e
  ordinary : ∀ e ∈ es, e.Ordinary
  nodup : es.Nodup

/-- The events that were fetched for the missing IDs of a page are the page's fresh events. -/
theorem PageOf.mem_fetched_iff {networkName : Text} {K : Ledger} {es events : List ThalwegEvent}
    {missing conflicts : List Text} (h : PageOf networkName K es)
    (hcompared : Compared networkName L es missing conflicts)
    (hids : (events.map ThalwegEvent.id).Perm missing)
    (hevents : ∀ e ∈ events, e ∈ K.events ∧ e.network = networkName) {e : ThalwegEvent} :
    e ∈ events ↔ e ∈ es ∧ L.Fresh e := by
  have hsame : ∀ {f g : ThalwegEvent}, f ∈ K.events → f.network = networkName → g ∈ es →
      f.id = g.id → f = g := fun hf hn hg hid =>
    K.distinct.eq_of_id hf (h.mem _ hg) (hn.trans (h.network_eq _ hg).symm) hid
  constructor
  · intro he
    obtain ⟨f, hf, hid, hfresh⟩ := (hcompared.mem_missing_iff e.id).mp
      (hids.mem_iff.mp (List.mem_map_of_mem he))
    obtain ⟨hmem, hn⟩ := hevents e he
    obtain rfl := hsame hmem hn hf hid.symm
    exact ⟨hf, hfresh⟩
  · rintro ⟨he, hfresh⟩
    have hid := (hcompared.mem_missing_iff e.id).mpr ⟨e, he, rfl, hfresh⟩
    obtain ⟨f, hf, hid⟩ := List.mem_map.mp (hids.mem_iff.mpr hid)
    obtain ⟨hmem, hn⟩ := hevents f hf
    exact hsame hmem hn he hid ▸ hf

/-- The receipt of the events that were fetched for the missing IDs of a page. -/
theorem Holds.takesIn_fetched (h : d.Holds L) {networkName : Text} {K : Ledger}
    {es events : List ThalwegEvent} {missing conflicts : List Text}
    (hpage : PageOf networkName K es)
    (hcompared : Compared networkName L es missing conflicts)
    (hids : (events.map ThalwegEvent.id).Perm missing)
    (hevents : ∀ e ∈ events, e ∈ K.events ∧ e.network = networkName)
    (hrun : d.ingestEvents fuel events = some (.ok n, d')) :
    n = events.length ∧ ∃ L', d'.Holds L' ∧ L.TakesIn es n L' := by
  have hmem : ∀ e, e ∈ events ↔ e ∈ es ∧ L.Fresh e := fun e =>
    hpage.mem_fetched_iff hcompared hids hevents
  have hnodup : (events.map ThalwegEvent.id).Nodup := hids.nodup_iff.mpr hcompared.missing_nodup
  have hdistinct : events.Pairwise fun e f => e.ident ≠ f.ident :=
    (List.pairwise_map.mp hnodup).imp fun hne heq => hne (Prod.mk.inj heq).2
  obtain ⟨rfl, L', hL', hevents'⟩ := h.ingestEvents_new
    (fun e he => hpage.readable e ((hmem e).mp he).1)
    (fun e he => hpage.ordinary e ((hmem e).mp he).1)
    (fun e he => ((hmem e).mp he).2) hdistinct hrun
  exact ⟨rfl, L', hL', events, hevents', rfl, hmem⟩

/-- Nothing is missing of a page. -/
theorem Compared.takesIn_nil {networkName : Text} {es : List ThalwegEvent} {conflicts : List Text}
    (h : Compared networkName L es [] conflicts) {L' : Ledger} (hevents : L'.events = L.events) :
    L.TakesIn es 0 L' :=
  .of_events_eq hevents fun e he hfresh =>
    List.not_mem_nil ((h.mem_missing_iff e.id).mpr ⟨e, he, rfl, hfresh⟩)

/-! ### Phases -/

/-- What a side of a session does with events that the other one lists: it takes in the ones that it
misses, `n` in number, and the conflicts that are reported grow by the IDs under which it has
others. -/
structure Phase (networkName : Text) (L : Ledger) (es : List ThalwegEvent) (n : Nat) (L' : Ledger)
    (conflicts conflicts' : List Text) : Prop where
  takesIn : L.TakesIn es n L'
  mem_iff : ∀ id, id ∈ conflicts' ↔ id ∈ conflicts ∨ ∃ f ∈ L.events, ∃ e ∈ es,
    f.ident = (networkName, id) ∧ e.ident = (networkName, id) ∧ Disagree f e

/-- One list of events after the other. -/
theorem Phase.append {networkName : Text} {L L' L'' : Ledger} {es es' : List ThalwegEvent}
    {n n' : Nat} {conflicts conflicts' conflicts'' : List Text}
    (h : Phase networkName L es n L' conflicts conflicts')
    (h' : Phase networkName L' es' n' L'' conflicts' conflicts'')
    (hes : ∀ e ∈ es, ∀ e' ∈ es', e.ident ≠ e'.ident) :
    Phase networkName L (es ++ es') (n + n') L'' conflicts conflicts'' := by
  refine ⟨h.takesIn.append h'.takesIn hes, fun id => ?_⟩
  have hkept : (∃ f ∈ L'.events, ∃ e ∈ es', f.ident = (networkName, id) ∧
      e.ident = (networkName, id) ∧ Disagree f e) ↔ ∃ f ∈ L.events, ∃ e ∈ es',
        f.ident = (networkName, id) ∧ e.ident = (networkName, id) ∧ Disagree f e := by
    constructor
    · rintro ⟨f, hf, e, he, hfi, hei, hne⟩
      rcases h.takesIn.mem_iff.mp hf with hf | ⟨hf, -⟩
      · exact ⟨f, hf, e, he, hfi, hei, hne⟩
      · exact absurd (hfi.trans hei.symm) (hes f hf e he)
    · rintro ⟨f, hf, he⟩
      exact ⟨f, h.takesIn.mem_iff.mpr (Or.inl hf), he⟩
  rw [h'.mem_iff, h.mem_iff, hkept, or_assoc]
  refine or_congr_right ?_
  simp only [List.mem_append, or_and_right, exists_or, and_or_left]

/-- The phase of a page, the events of which were fetched. -/
theorem Compared.phase {networkName : Text} {L L' : Ledger} {es : List ThalwegEvent}
    {missing found : List Text} (h : Compared networkName L es missing found)
    (htakes : L.TakesIn es n L') (conflicts : List Text) :
    Phase networkName L es n L' conflicts (appendUniqueStrings conflicts found) :=
  ⟨htakes, fun id => by rw [mem_appendUniqueStrings, h.mem_conflicts_iff]⟩

section Push

variable {membership : NetworkMembership} {initiator responder responder' : Daemon} {K : Ledger}
  {es : List ThalwegEvent} {result result' : SyncResult}

/-- The events that a responder misses of a page are pushed. -/
theorem Holds.pushNeeded (hi : initiator.Holds K) (hr : responder.Holds L)
    (hpage : PageOf membership.name K es) {missing found : List Text}
    (hcompared : Compared membership.name L es missing found)
    (hrun : pushNeeded fuel initiator responder membership missing result =
      some (.ok result', responder')) :
    ∃ n L', responder'.Holds L' ∧ L.TakesIn es n L' ∧
      result' = { result with pushed := result.pushed + n } := by
  unfold Thalweg.pushNeeded at hrun
  split_ifs at hrun with hmissing
  · cases hrun
    subst hmissing
    exact ⟨0, L, hr, hcompared.takesIn_nil rfl, rfl⟩
  · split at hrun
    · cases hrun
    · next events hevents =>
      obtain ⟨hids, hstored⟩ := hi.eventsByIDs hevents
      split at hrun
      · cases hrun
      · next received created responder₁ hpush =>
        have hserve := serveSyncBody_of_exchange hpush
        have hread : ∀ e ∈ events, Readable e := fun e he =>
          hpage.readable e ((hpage.mem_fetched_iff hcompared (hids ▸ .refl _) hstored).mp he).1
        simp only [serveSyncBody, normalizePushedEvents_of_readable hread
          fun e he => (hstored e he).2] at hserve
        split_ifs at hserve
        · cases hserve
        · split at hserve
          · cases hserve
          · cases hserve
          · next hingest =>
            cases hserve
            obtain ⟨rfl, L', hL', htakes⟩ :=
              hr.takesIn_fetched hpage hcompared (hids ▸ .refl _) hstored hingest
            simp only [ne_eq, not_true_eq_false, if_false, Nat.sub_self, Nat.add_zero] at hrun
            cases hrun
            exact ⟨events.length, L', hL', htakes, rfl⟩
      · cases hrun
      · cases hrun

/-- A page of the initiator's inventory is pushed. -/
theorem Holds.pushPage (hi : initiator.Holds K) (hr : responder.Holds L)
    (hpage : PageOf membership.name K es) {entries : List InventoryEntry}
    (hentries : entries.Perm (es.map entryOf))
    (hrun : pushPage fuel initiator responder membership entries result =
      some (.ok result', responder')) :
    ∃ n L' conflicts, responder'.Holds L' ∧
      Phase membership.name L es n L' result.conflicts conflicts ∧
      result' = { result with
        inventoried := result.inventoried + es.length
        pushed := result.pushed + n
        conflicts } := by
  have hlength : entries.length = es.length := by rw [hentries.length_eq, List.length_map]
  unfold Thalweg.pushPage at hrun
  split_ifs at hrun with hne
  · cases hrun
    subst hne
    obtain rfl : es = [] := List.length_eq_zero_iff.mp hlength.symm
    exact ⟨0, L, result.conflicts, hr, ⟨.of_events_eq rfl nofun, by simp⟩, rfl⟩
  · split at hrun
    · cases hrun
    · next missing found responder₁ hoffer =>
      have hserve := serveSyncBody_of_exchange hoffer
      simp only [serveSyncBody] at hserve
      split at hserve
      · cases hserve
      · split at hserve
        · cases hserve
        · next hcompare =>
          cases hserve
          obtain ⟨hcompared, L₁, hL₁, hevents₁⟩ := hr.compareInventory hentries hne
            hpage.network_eq hpage.readable hcompare
          obtain ⟨n, L', hL', htakes, rfl⟩ :=
            hi.pushNeeded hL₁ hpage (hcompared.congr hevents₁) hrun
          refine ⟨n, L', _, hL', hcompared.phase (htakes.congr hevents₁) _, ?_⟩
          rw [hlength]
    · cases hrun
    · cases hrun

end Push

/-! ### Inventories -/

/-- The list holds the events of the network that come after a cursor, each once. -/
structure ListedFrom (networkName : Text) (K : Ledger) (cursor : Text) (es : List ThalwegEvent) :
    Prop where
  mem_iff : ∀ e, e ∈ es ↔ e ∈ K.events ∧ e.network = networkName ∧ IsAfter cursor e
  nodup : es.Nodup

/-- Without resolutions all events of a network are visible. -/
theorem Holds.mem_visible_iff (h : d.Holds L) {networkName : Text}
    (hordinary : ∀ e ∈ L.events, e.network = networkName → e.Ordinary) {e : ThalwegEvent} :
    e ∈ visible (storedEvents d.store) networkName ↔ e ∈ L.events ∧ e.network = networkName := by
  rw [h.represents.mem_visible_iff]
  refine and_congr_right fun _ => and_iff_left ?_
  rintro ⟨r, hr, hn, hname⟩
  rw [(hordinary r (h.represents.mem_storedEvents_iff.mp hr) hn).names] at hname
  cases hname

section Inventory

variable {networkName cursor : Text} {page : InventoryPage} {es rest : List ThalwegEvent}

theorem Holds.pageOf_lists (h : d.Holds L)
    (hordinary : ∀ e ∈ L.events, e.network = networkName → e.Ordinary)
    (hlists : page.Lists (visible (storedEvents d.store) networkName) cursor es) :
    PageOf networkName L es := by
  have hmem : ∀ e ∈ es, e ∈ L.events ∧ e.network = networkName := fun e he =>
    (h.mem_visible_iff hordinary).mp ((hlists.mem_iff e).mp he).1
  exact ⟨fun e he => (hmem e he).1, fun e he => (hmem e he).2, hlists.readable,
    fun e he => hordinary e (hmem e he).1 (hmem e he).2, hlists.nodup⟩

/-- The last page. -/
theorem Holds.listedFrom_last (h : d.Holds L)
    (hordinary : ∀ e ∈ L.events, e.network = networkName → e.Ordinary)
    (hlists : page.Lists (visible (storedEvents d.store) networkName) cursor es)
    (hdone : page.done = true) : ListedFrom networkName L cursor es :=
  ⟨fun e => by rw [hlists.mem_iff, h.mem_visible_iff hordinary]; simp [hdone, and_assoc],
    hlists.nodup⟩

/-- A page and the events after it. -/
theorem Holds.listedFrom_append (h : d.Holds L)
    (hordinary : ∀ e ∈ L.events, e.network = networkName → e.Ordinary)
    (hlists : page.Lists (visible (storedEvents d.store) networkName) cursor es)
    (hdone : page.done = false) (hrest : ListedFrom networkName L page.nextCursor rest) :
    (∀ e ∈ es, ∀ f ∈ rest, e.ident ≠ f.ident) ∧ ListedFrom networkName L cursor (es ++ rest) := by
  have hadvances := hlists.advances hdone
  have hafter : ∀ e, IsAfter page.nextCursor e ↔ page.nextCursor < position e := fun e =>
    or_iff_right fun hnil => List.not_lt_nil _ (hnil ▸ hadvances)
  have hpage : ∀ e, e ∈ es ↔ e ∈ L.events ∧ e.network = networkName ∧ IsAfter cursor e ∧
      position e ≤ page.nextCursor := fun e => by
    rw [hlists.mem_iff, h.mem_visible_iff hordinary]
    simp [hdone, and_assoc]
  have hapart : ∀ e ∈ es, ∀ f ∈ rest, position e < position f := by
    intro e he f hf
    obtain ⟨-, -, -, hle⟩ := (hpage e).mp he
    obtain ⟨-, -, hlt⟩ := (hrest.mem_iff f).mp hf
    exact hle.trans_lt ((hafter f).mp hlt)
  refine ⟨fun e he f hf hident => ?_, fun e => ?_, ?_⟩
  · have hlt := hapart e he f hf
    rw [position, position, (Prod.mk.inj hident).2] at hlt
    exact lt_irrefl _ hlt
  · rw [List.mem_append, hpage, hrest.mem_iff, hafter]
    constructor
    · rintro (⟨he, hn, hlt, -⟩ | ⟨he, hn, hlt⟩)
      · exact ⟨he, hn, hlt⟩
      · exact ⟨he, hn, Or.inr (hadvances.trans hlt)⟩
    · rintro ⟨he, hn, hlt⟩
      rcases le_or_gt (position e) page.nextCursor with hle | hgt
      · exact Or.inl ⟨he, hn, hlt, hle⟩
      · exact Or.inr ⟨he, hn, hgt⟩
  · refine List.nodup_append.mpr ⟨hlists.nodup, hrest.nodup, fun e he f hf heq => ?_⟩
    exact lt_irrefl _ (heq ▸ hapart e he f hf)

end Inventory

/-- The initiator pushes its inventory. -/
theorem Holds.pushInventory {membership : NetworkMembership}
    {initiator responder responder' : Daemon} {K L : Ledger} {result result' : SyncResult}
    {cursor : Text} (hi : initiator.Holds K)
    (hordinary : ∀ e ∈ K.events, e.network = membership.name → e.Ordinary) (hr : responder.Holds L)
    (hrun : pushInventory fuel initiator responder membership cursor result =
      some (.ok result', responder')) :
    ∃ es n L' conflicts, ListedFrom membership.name K cursor es ∧ responder'.Holds L' ∧
      Phase membership.name L es n L' result.conflicts conflicts ∧
      result' = { result with
        inventoried := result.inventoried + es.length
        pushed := result.pushed + n
        conflicts } := by
  induction fuel generalizing responder L cursor result with
  | zero => cases hrun
  | succ fuel ih =>
    rw [Thalweg.pushInventory] at hrun
    split at hrun
    · cases hrun
    · next page hok =>
      obtain ⟨es, hlists⟩ := hi.represents.inventoryPage_lists hok
      have hpage := hi.pageOf_lists hordinary hlists
      split at hrun
      · cases hrun
      · cases hrun
      · next result₁ responder₁ hpush =>
        obtain ⟨n, L₁, conflicts, hL₁, hphase, rfl⟩ :=
          hi.pushPage hr hpage hlists.entries_perm hpush
        split_ifs at hrun with hdone
        · cases hrun
          exact ⟨es, n, L₁, conflicts, hi.listedFrom_last hordinary hlists hdone, hL₁, hphase, rfl⟩
        · obtain ⟨rest, n', L', conflicts', hrest, hL', hphase', rfl⟩ := ih hL₁ hrun
          obtain ⟨hapart, hlisted⟩ :=
            hi.listedFrom_append hordinary hlists (Bool.eq_false_iff.mpr hdone) hrest
          refine ⟨es ++ rest, n + n', L', conflicts', hlisted, hL',
            hphase.append hphase' hapart, ?_⟩
          rw [List.length_append, ← Nat.add_assoc, ← Nat.add_assoc]

/-! ### The pull -/

section Pull

variable {membership : NetworkMembership} {initiator initiator' responder responder' : Daemon}
  {K : Ledger} {es : List ThalwegEvent} {result result' : SyncResult}

/-- A request that only reads leaves the responder as it was. -/
theorem eq_of_exchange_inventoryRequest {cursor : Text} {limit : Nat} {answer : SyncBody}
    (h : exchange fuel responder membership (.inventoryRequest cursor limit) =
      some (.ok answer, responder')) :
    responder' = responder ∧ ∃ page, answer = .inventoryPage page ∧
      responder.inventoryPage membership.name cursor limit = .ok page := by
  have hserve := serveSyncBody_of_exchange h
  simp only [serveSyncBody] at hserve
  split at hserve
  · cases hserve
  · next page hpage =>
    cases hserve
    exact ⟨rfl, page, rfl, hpage⟩

theorem eq_of_exchange_eventsRequest {ids : List Text} {answer : SyncBody}
    (h : exchange fuel responder membership (.eventsRequest ids) = some (.ok answer, responder')) :
    responder' = responder ∧ ∃ events, answer = .eventsPage events ∧
      responder.eventsByIDs membership.name ids = .ok events := by
  have hserve := serveSyncBody_of_exchange h
  simp only [serveSyncBody] at hserve
  split at hserve
  · cases hserve
  · split at hserve
    · cases hserve
    · next events hevents =>
      cases hserve
      exact ⟨rfl, events, rfl, hevents⟩

/-- The events that the initiator misses of a page are fetched. -/
theorem Holds.pullMissing (hr : responder.Holds K) (hi : initiator.Holds L)
    (hpage : PageOf membership.name K es) {missing found : List Text}
    (hcompared : Compared membership.name L es missing found)
    (hrun : pullMissing fuel initiator responder membership missing result =
      some (.ok result', initiator', responder')) :
    responder' = responder ∧ ∃ n L', initiator'.Holds L' ∧ L.TakesIn es n L' ∧
      result' = { result with pulled := result.pulled + n } := by
  unfold Thalweg.pullMissing at hrun
  split_ifs at hrun with hmissing
  · cases hrun
    subst hmissing
    exact ⟨rfl, 0, L, hi, hcompared.takesIn_nil rfl, rfl⟩
  · split at hrun
    · cases hrun
    · next events responder₁ hexchange =>
      obtain ⟨rfl, events', hanswer, hfetched⟩ := eq_of_exchange_eventsRequest hexchange
      cases hanswer
      obtain ⟨hids, hstored⟩ := hr.eventsByIDs hfetched
      split at hrun
      · cases hrun
      · split at hrun
        · cases hrun
        · cases hrun
        · next hingest =>
          obtain ⟨rfl, L', hL', htakes⟩ :=
            hi.takesIn_fetched hpage hcompared (hids ▸ .refl _) hstored hingest
          simp only [Nat.sub_self, Nat.add_zero] at hrun
          cases hrun
          exact ⟨rfl, events.length, L', hL', htakes, rfl⟩
    · cases hrun
    · cases hrun

/-- A page of the responder's inventory is pulled. -/
theorem Holds.pullPage (hr : responder.Holds K) (hi : initiator.Holds L)
    (hordinary : ∀ e ∈ K.events, e.network = membership.name → e.Ordinary) {cursor : Text}
    {page : InventoryPage}
    (hrun : pullPage fuel initiator responder membership cursor result =
      some (.ok (result', page), initiator', responder')) :
    responder' = responder ∧ ∃ es n L' conflicts,
      page.Lists (visible (storedEvents responder.store) membership.name) cursor es ∧
      initiator'.Holds L' ∧ Phase membership.name L es n L' result.conflicts conflicts ∧
      result' = { result with pulled := result.pulled + n, conflicts } := by
  unfold Thalweg.pullPage at hrun
  split at hrun
  · cases hrun
  · next answered responder₁ hexchange =>
    obtain ⟨rfl, page', hanswer, hok⟩ := eq_of_exchange_inventoryRequest hexchange
    cases hanswer
    obtain ⟨es, hlists⟩ := hr.represents.inventoryPage_lists hok
    have hpage := hr.pageOf_lists hordinary hlists
    split at hrun
    · cases hrun
    · next missing found initiator₁ hcompare =>
      obtain ⟨hcompared, L₁, hL₁, hevents₁⟩ : Compared membership.name L es missing found ∧
          ∃ L₁, initiator₁.Holds L₁ ∧ L₁.events = L.events := by
        by_cases hne : answered.entries = []
        · have hes : es = [] := by
            have hlength := hlists.entries_perm.length_eq
            rw [hne, List.length_map] at hlength
            exact List.length_eq_zero_iff.mp hlength.symm
          rw [hne, Daemon.compareInventory, if_pos rfl] at hcompare
          cases hcompare
          exact ⟨⟨List.nodup_nil, by simp [hes], by simp [hes]⟩, L, hi, rfl⟩
        · exact hi.compareInventory hlists.entries_perm hne hpage.network_eq hpage.readable hcompare
      split at hrun
      · cases hrun
      · cases hrun
      · next hmissing =>
        cases hrun
        obtain ⟨rfl, n, L', hL', htakes, rfl⟩ :=
          hr.pullMissing hL₁ hpage (hcompared.congr hevents₁) hmissing
        exact ⟨rfl, es, n, L', _, hlists, hL', hcompared.phase (htakes.congr hevents₁) _, rfl⟩
  · cases hrun
  · cases hrun

/-- The initiator pulls the responder's inventory. -/
theorem Holds.pullInventory {cursor : Text} (hr : responder.Holds K)
    (hordinary : ∀ e ∈ K.events, e.network = membership.name → e.Ordinary) (hi : initiator.Holds L)
    (hrun : pullInventory fuel initiator responder membership cursor result =
      some (.ok result', initiator', responder')) :
    responder' = responder ∧ ∃ es n L' conflicts, ListedFrom membership.name K cursor es ∧
      initiator'.Holds L' ∧ Phase membership.name L es n L' result.conflicts conflicts ∧
      result' = { result with pulled := result.pulled + n, conflicts } := by
  induction fuel generalizing initiator responder L cursor result with
  | zero => cases hrun
  | succ fuel ih =>
    rw [Thalweg.pullInventory] at hrun
    split at hrun
    · cases hrun
    · cases hrun
    · next result₁ page initiator₁ responder₁ hpull =>
      obtain ⟨rfl, es, n, L₁, conflicts, hlists, hL₁, hphase, rfl⟩ := hr.pullPage hi hordinary hpull
      split_ifs at hrun with hdone hcursor
      · cases hrun
        exact ⟨rfl, es, n, L₁, conflicts, hr.listedFrom_last hordinary hlists hdone, hL₁, hphase,
          rfl⟩
      · cases hrun
      · obtain ⟨rfl, rest, n', L', conflicts', hrest, hL', hphase', rfl⟩ := ih hr hL₁ hrun
        obtain ⟨hapart, hlisted⟩ :=
          hr.listedFrom_append hordinary hlists (Bool.eq_false_iff.mpr hdone) hrest
        refine ⟨rfl, es ++ rest, n + n', L', conflicts', hlisted, hL',
          hphase.append hphase' hapart, ?_⟩
        rw [← Nat.add_assoc]

end Pull

/-! ### Sessions -/

/-- The events of a set that are of a network. -/
def ofNetwork (networkName : Text) (S : Set ThalwegEvent) : Set ThalwegEvent :=
  {e | e ∈ S ∧ e.network = networkName}

/-- The IDs under which both sets have events of the network that differ. -/
def conflictingIDs (networkName : Text) (S T : Set ThalwegEvent) : Set Text :=
  {id | (networkName, id) ∈ clashes ThalwegEvent.ident Disagree S T}

/-- Two daemons after a session for a network: each has absorbed what the other one held of it. -/
structure Converged (networkName : Text) (initiator responder initiator' responder' : Daemon)
    (result : SyncResult) : Prop where
  initiator_eq : storedEvents initiator'.store =
    absorb ThalwegEvent.ident (storedEvents initiator.store)
      (ofNetwork networkName (storedEvents responder.store))
  responder_eq : storedEvents responder'.store =
    absorb ThalwegEvent.ident (storedEvents responder.store)
      (ofNetwork networkName (storedEvents initiator.store))
  conflicts_eq : {id | id ∈ result.conflicts} =
    conflictingIDs networkName (storedEvents initiator.store) (storedEvents responder.store)
  inventoried_eq : result.inventoried = (ofNetwork networkName (storedEvents initiator.store)).ncard
  pushed_eq : (storedEvents responder'.store).ncard =
    (storedEvents responder.store).ncard + result.pushed
  pulled_eq : (storedEvents initiator'.store).ncard =
    (storedEvents initiator.store).ncard + result.pulled
  duplicates_eq : result.duplicates = 0

/-- No conflict resolution is stored in the network. -/
def NoResolutions (networkName : Text) (d : Daemon) : Prop :=
  ∀ e ∈ storedEvents d.store, e.network = networkName → e.Ordinary

theorem ListedFrom.mem_iff_ofNetwork {networkName : Text} {K : Ledger} {es : List ThalwegEvent}
    (h : ListedFrom networkName K [] es) {e : ThalwegEvent} :
    e ∈ es ↔ e ∈ ofNetwork networkName K.eventSet := by
  rw [h.mem_iff]
  simp [ofNetwork, IsAfter, Ledger.eventSet]

theorem ListedFrom.length_eq {networkName : Text} {K : Ledger} {es : List ThalwegEvent}
    (h : ListedFrom networkName K [] es) :
    es.length = (ofNetwork networkName K.eventSet).ncard := by
  rw [← List.toFinset_card_of_nodup h.nodup, ← Set.ncard_coe_finset]
  congr 1
  ext e
  simp [h.mem_iff_ofNetwork]

theorem absorb_of_takesIn {networkName : Text} {L L' K : Ledger} {es : List ThalwegEvent}
    (hes : ListedFrom networkName K [] es) (h : L.TakesIn es n L') :
    L'.eventSet = absorb ThalwegEvent.ident L.eventSet (ofNetwork networkName K.eventSet) := by
  ext e
  rw [mem_absorb_iff, ← hes.mem_iff_ofNetwork]
  show e ∈ L'.events ↔ _
  rw [h.mem_iff, Ledger.fresh_iff]
  rfl

theorem ncard_of_takesIn {L L' : Ledger} {es : List ThalwegEvent} (h : L.TakesIn es n L') :
    L'.eventSet.ncard = L.eventSet.ncard + n := by
  have hncard : ∀ L : Ledger, L.eventSet.ncard = L.events.length := fun L => by
    have hnodup : L.events.Nodup := L.distinct.imp fun hef heq =>
      hef (congrArg _ heq) (congrArg _ heq)
    rw [← List.toFinset_card_of_nodup hnodup, ← Set.ncard_coe_finset]
    congr 1
    ext e
    simp [Ledger.eventSet]
  obtain ⟨new, hevents, hlength, -⟩ := h.exists_new
  rw [hncard, hncard, hevents, List.length_append, hlength]

/-- The conflicts that the phases of a session report: those that the pull finds, in which the push
has no part. -/
theorem mem_conflicts_of_phases {networkName : Text} {K K' L L' : Ledger}
    {es fs : List ThalwegEvent} {n m : Nat} {conflicts conflicts' : List Text}
    (hes : ListedFrom networkName K [] es) (hpush : Phase networkName L es n L' [] conflicts)
    (hfs : ListedFrom networkName L' [] fs)
    (hpull : Phase networkName K fs m K' conflicts conflicts') {id : Text} :
    id ∈ conflicts' ↔ id ∈ conflictingIDs networkName K.eventSet L.eventSet := by
  rw [hpull.mem_iff, hpush.mem_iff]
  constructor
  · rintro ((hnil | ⟨f, hf, e, he, hfi, hei, hne⟩) | ⟨f, hf, e, he, hfi, hei, hne⟩)
    · cases hnil
    · exact ⟨e, ((hes.mem_iff e).mp he).1, f, hf, hei, hfi, hne.symm⟩
    · rcases hpush.takesIn.mem_iff.mp ((hfs.mem_iff e).mp he).1 with heL | ⟨heK, -⟩
      · exact ⟨f, hf, e, heL, hfi, hei, hne⟩
      · obtain rfl := K.injOn_ident hf ((hes.mem_iff e).mp heK).1 (hfi.trans hei.symm)
        exact absurd rfl hne
  · rintro ⟨f, hf, e, he, hfi, hei, hne⟩
    have hlisted : e ∈ fs := (hfs.mem_iff e).mpr
      ⟨hpush.takesIn.mem_iff.mpr (Or.inl he), congrArg Prod.fst hei, Or.inl rfl⟩
    exact Or.inr ⟨f, hf, e, hlisted, hfi, hei, hne⟩

theorem name_of_openAuthenticatedMeshStream {initiator responder : Daemon} {networkName : Text}
    {membership : NetworkMembership} (hnamed : initiator.Named)
    (h : openAuthenticatedMeshStream initiator responder networkName = .ok membership) :
    membership.name = networkName := by
  unfold openAuthenticatedMeshStream at h
  split at h
  · cases h
  · next hget =>
    split_ifs at h
    · cases h
      exact hnamed _ _ hget
    · cases h

/-- No resolutions are stored exactly if none are read. -/
theorem Reachable.noResolutions_iff (h : d.Reachable) {networkName : Text} :
    NoResolutions networkName d ↔ conflictResolutionsTxn d.store networkName = .ok [] := by
  obtain ⟨L, hL⟩ := h.exists_holds.1
  obtain ⟨resolutions, hread, hmem⟩ := hL.represents.conflictResolutionsTxn_spec networkName
  rw [hread, Except.ok.injEq, List.eq_nil_iff_forall_not_mem]
  constructor
  · rintro hordinary ⟨eventID, r⟩ hr
    obtain ⟨hr, hn, hname⟩ := (hmem eventID r).mp hr
    rw [(hordinary r (hL.represents.mem_storedEvents_iff.mpr hr) hn).names] at hname
    cases hname
  · intro hnone e he hn hstream
    rw [hL.represents.mem_storedEvents_iff] at he
    obtain ⟨eventID, hname, -⟩ := hL.represents.names e he hstream
    exact hnone (eventID, e) ((hmem eventID e).mpr ⟨he, hn, hname⟩)

/-- A daemon with the network `h` after some operations. -/
def member (deviceID : Text) (hdeviceID : deviceID ≠ []) (ops : List Operation) : Daemon :=
  (initial deviceID hdeviceID fun _ => newYear).after 2 (.networkCreate ['h']
    (List.replicate networkIDBytes 0) (List.replicate networkSecretBytes 0) :: ops)

theorem member_reachable (deviceID : Text) (hdeviceID : deviceID ≠ []) (ops : List Operation) :
    (member deviceID hdeviceID ops).Reachable := ⟨_, _, _, run_after _ _ _⟩

/-- A device without events. -/
def firstMember : Daemon := member ['d'] (by decide) []

/-- A device with an event. -/
def secondMember : Daemon := member ['e'] (by decide) [.ingest ['h'] ['s'] [] ['b'] ['2'] []]

theorem firstMember_noResolutions : NoResolutions ['h'] firstMember :=
  (member_reachable _ _ _).noResolutions_iff.mpr (eq_ok_of_toOption (by decide +kernel))

theorem secondMember_noResolutions : NoResolutions ['h'] secondMember :=
  (member_reachable _ _ _).noResolutions_iff.mpr (eq_ok_of_toOption (by decide +kernel))

/-- The event is pulled. -/
theorem members_synchronize : ∃ result initiator' responder',
    synchronizePeer 3 firstMember secondMember ['h'] = some (.ok result, initiator', responder') ∧
      result.pulled = 1 := by
  have hrun : (synchronizePeer 3 firstMember secondMember ['h']).map (fun r =>
      r.1.toOption.map SyncResult.pulled) = some (some 1) := by
    decide +kernel
  obtain ⟨⟨result, initiator', responder'⟩, hrun, hresult⟩ := Option.map_eq_some_iff.mp hrun
  cases result with
  | error err => cases hresult
  | ok result => exact ⟨result, initiator', responder', hrun, Option.some.inj hresult⟩

/-- A session of daemons that hold ledgers. -/
theorem Holds.synchronizePeer {networkName : Text}
    {initiator responder initiator' responder' : Daemon} {result : SyncResult} {K L : Ledger}
    (hK : initiator.Holds K) (hL : responder.Holds L) (hnamed : initiator.Named)
    (hordinary : NoResolutions networkName initiator)
    (hordinary' : NoResolutions networkName responder)
    (hrun : synchronizePeer fuel initiator responder networkName =
      some (.ok result, initiator', responder')) :
    Converged networkName initiator responder initiator' responder' result := by
  unfold Thalweg.synchronizePeer at hrun
  split at hrun
  · cases hrun
  · next membership hopen =>
    obtain rfl : membership.name = networkName := name_of_openAuthenticatedMeshStream hnamed hopen
    split at hrun
    · cases hrun
    · cases hrun
    · next pushedResult responder₁ hpush =>
      have hordK : ∀ e ∈ K.events, e.network = membership.name → e.Ordinary := fun e he =>
        hordinary e (hK.represents.mem_storedEvents_iff.mpr he)
      obtain ⟨es, n, L', conflicts, hes, hL', hphase, rfl⟩ := hK.pushInventory hordK hL hpush
      have hordL : ∀ e ∈ L'.events, e.network = membership.name → e.Ordinary := fun e he hn => by
        rcases hphase.takesIn.mem_iff.mp he with he | ⟨he, -⟩
        · exact hordinary' e (hL.represents.mem_storedEvents_iff.mpr he) hn
        · exact hordK e ((hes.mem_iff e).mp he).1 hn
      obtain ⟨rfl, fs, m, K', conflicts', hfs, hK', hphase', rfl⟩ :=
        hL'.pullInventory hordL hK hrun
      have hpushed := absorb_of_takesIn hes hphase.takesIn
      have hpulled := absorb_of_takesIn hfs hphase'.takesIn
      constructor
      · rw [hK'.storedEvents_eq, hK.storedEvents_eq, hL.storedEvents_eq, hpulled]
        refine absorb_congr ?_ ?_
        · rintro e ⟨he, hn⟩
          exact ⟨hpushed ▸ subset_absorb he, hn⟩
        · rintro e ⟨he, hn⟩
          rw [hpushed] at he
          exact he.elim (fun he => Or.inr ⟨he, hn⟩) fun he => Or.inl he.1.1
      · rw [hL'.storedEvents_eq, hL.storedEvents_eq, hK.storedEvents_eq, hpushed]
      · rw [hK.storedEvents_eq, hL.storedEvents_eq]
        exact Set.ext fun id => mem_conflicts_of_phases hes hphase hfs hphase'
      · simpa [hK.storedEvents_eq] using hes.length_eq
      · rw [hL'.storedEvents_eq, hL.storedEvents_eq, ncard_of_takesIn hphase.takesIn]
        simp
      · rw [hK'.storedEvents_eq, hK.storedEvents_eq, ncard_of_takesIn hphase'.takesIn]
        simp
      · rfl

/-- **Convergence.** A session that succeeds, of two reachable daemons without resolutions in the
network, leaves each of them with its own events and those of the other one whose IDs it did not
have; the result counts them, and it names exactly the IDs under which both had different events. -/
theorem Reachable.converged {networkName : Text}
    {initiator responder initiator' responder' : Daemon} {result : SyncResult}
    (hi : initiator.Reachable) (hr : responder.Reachable)
    (hordinary : NoResolutions networkName initiator)
    (hordinary' : NoResolutions networkName responder)
    (hrun : synchronizePeer fuel initiator responder networkName =
      some (.ok result, initiator', responder')) :
    Converged networkName initiator responder initiator' responder' result := by
  obtain ⟨⟨K, hK⟩, hnamed⟩ := hi.exists_holds
  obtain ⟨⟨L, hL⟩, -⟩ := hr.exists_holds
  exact hK.synchronizePeer hL hnamed hordinary hordinary' hrun

theorem members_converged : ∃ result initiator' responder',
    synchronizePeer 3 firstMember secondMember ['h'] = some (.ok result, initiator', responder') ∧
      Converged ['h'] firstMember secondMember initiator' responder' result := by
  obtain ⟨result, initiator', responder', hrun, -⟩ := members_synchronize
  exact ⟨result, initiator', responder', hrun, Reachable.converged (member_reachable _ _ _)
    (member_reachable _ _ _) firstMember_noResolutions secondMember_noResolutions hrun⟩

/-! ### Further sessions -/

section Further

variable {networkName : Text} {initiator responder initiator' responder' : Daemon}
  {result : SyncResult}

theorem mem_ofNetwork_absorb_iff {S T : Set ThalwegEvent} {e : ThalwegEvent} :
    e ∈ ofNetwork networkName (absorb ThalwegEvent.ident S (ofNetwork networkName T)) ↔
      e ∈ absorb ThalwegEvent.ident (ofNetwork networkName S) (ofNetwork networkName T) := by
  constructor
  · rintro ⟨he | ⟨he, hfresh⟩, hn⟩
    · exact Or.inl ⟨he, hn⟩
    · exact Or.inr ⟨he, fun s hs => hfresh s hs.1⟩
  · rintro (⟨he, hn⟩ | ⟨he, hfresh⟩)
    · exact ⟨Or.inl he, hn⟩
    · refine ⟨Or.inr ⟨he, fun s hs hident => ?_⟩, he.2⟩
      exact hfresh s ⟨hs, (Prod.mk.inj hident).1.trans he.2⟩ hident

/-- The events of the network after a session. -/
theorem Converged.ofNetwork_eq
    (h : Converged networkName initiator responder initiator' responder' result) :
    ofNetwork networkName (storedEvents initiator'.store) = absorb ThalwegEvent.ident
      (ofNetwork networkName (storedEvents initiator.store))
      (ofNetwork networkName (storedEvents responder.store)) ∧
    ofNetwork networkName (storedEvents responder'.store) = absorb ThalwegEvent.ident
      (ofNetwork networkName (storedEvents responder.store))
      (ofNetwork networkName (storedEvents initiator.store)) := by
  rw [h.initiator_eq, h.responder_eq]
  exact ⟨Set.ext fun _ => mem_ofNetwork_absorb_iff, Set.ext fun _ => mem_ofNetwork_absorb_iff⟩

/-- A session stores no resolutions where there were none. -/
theorem Converged.noResolutions
    (h : Converged networkName initiator responder initiator' responder' result)
    (hi : NoResolutions networkName initiator) (hr : NoResolutions networkName responder) :
    NoResolutions networkName initiator' ∧ NoResolutions networkName responder' := by
  constructor
  · intro e he hn
    rw [h.initiator_eq] at he
    exact he.elim (fun he => hi e he hn) fun he => hr e he.1.1 hn
  · intro e he hn
    rw [h.responder_eq] at he
    exact he.elim (fun he => hr e he hn) fun he => hi e he.1.1 hn

theorem reachable_of_synchronizePeer (hi : initiator.Reachable) (hr : responder.Reachable)
    (hrun : synchronizePeer fuel initiator responder networkName =
      some (.ok result, initiator', responder')) : initiator'.Reachable ∧ responder'.Reachable := by
  have hany : ∀ {a b : Daemon}, Run (succeeds IsExchange) a b → Run anyStep a b := fun h =>
    Relation.ReflTransGen.mono (fun _ _ => Step.mono fun _ _ _ _ => trivial) _ _ h
  obtain ⟨hrunI, hrunR⟩ := run_of_synchronizePeer hrun
  exact ⟨hi.run (hany hrunI), hr.run (hany hrunR)⟩

/-- The IDs in conflict are those of events of the network. -/
theorem conflictingIDs_eq {S T : Set ThalwegEvent} : conflictingIDs networkName S T =
    conflictingIDs networkName (ofNetwork networkName S) (ofNetwork networkName T) := by
  ext id
  constructor
  · rintro ⟨s, hs, t, ht, hsi, hti, hne⟩
    exact ⟨s, ⟨hs, congrArg Prod.fst hsi⟩, t, ⟨ht, congrArg Prod.fst hti⟩, hsi, hti, hne⟩
  · rintro ⟨s, hs, t, ht, hid⟩
    exact ⟨s, hs.1, t, ht.1, hid⟩

/-- The session transfers nothing, and finds the conflicts. -/
structure Quiet (initiator responder initiator' responder' : Daemon) (result : SyncResult)
    (conflicts : Set Text) : Prop where
  initiator_eq : storedEvents initiator'.store = storedEvents initiator.store
  responder_eq : storedEvents responder'.store = storedEvents responder.store
  pushed_eq : result.pushed = 0
  pulled_eq : result.pulled = 0
  duplicates_eq : result.duplicates = 0
  conflicts_eq : {id | id ∈ result.conflicts} = conflicts

/-- A session of two daemons with events of the network under the same IDs. -/
theorem Converged.quiet
    (h : Converged networkName initiator responder initiator' responder' result)
    (hi : ∀ f ∈ ofNetwork networkName (storedEvents responder.store),
      ∃ e ∈ storedEvents initiator.store, e.ident = f.ident)
    (hr : ∀ f ∈ ofNetwork networkName (storedEvents initiator.store),
      ∃ e ∈ storedEvents responder.store, e.ident = f.ident) :
    Quiet initiator responder initiator' responder' result
      (conflictingIDs networkName (storedEvents initiator.store)
        (storedEvents responder.store)) := by
  have hinitiator := h.initiator_eq.trans (absorb_eq_self hi)
  have hresponder := h.responder_eq.trans (absorb_eq_self hr)
  have hpushed := h.pushed_eq
  have hpulled := h.pulled_eq
  rw [hresponder] at hpushed
  rw [hinitiator] at hpulled
  exact ⟨hinitiator, hresponder, by omega, by omega, h.duplicates_eq, h.conflicts_eq⟩

/-- What a daemon has absorbed of another one is known to it. -/
theorem exists_ident_of_converged {A A' B B' : Set ThalwegEvent}
    (hA : A' = absorb ThalwegEvent.ident A (ofNetwork networkName B))
    (hB : B' = absorb ThalwegEvent.ident B (ofNetwork networkName A)) :
    ∀ f ∈ ofNetwork networkName B', ∃ e ∈ A', e.ident = f.ident := by
  rintro f ⟨hf, hn⟩
  rw [hB] at hf
  rw [hA, exists_mem_absorb_iff]
  rcases hf with hf | ⟨hf, -⟩
  · exact Or.inr ⟨f, ⟨hf, hn⟩, rfl⟩
  · exact Or.inl ⟨f, hf.1, rfl⟩

theorem Reachable.injOn_ident (h : d.Reachable) :
    Set.InjOn ThalwegEvent.ident (storedEvents d.store) := by
  obtain ⟨L, hL⟩ := h.exists_holds.1
  rw [hL.storedEvents_eq]
  exact L.injOn_ident

/-- The conflicts of two daemons after a session are those before it. -/
theorem Converged.conflictingIDs_eq (hi : initiator.Reachable) (hr : responder.Reachable)
    (h : Converged networkName initiator responder initiator' responder' result) :
    conflictingIDs networkName (storedEvents initiator'.store) (storedEvents responder'.store) =
      conflictingIDs networkName (storedEvents initiator.store) (storedEvents responder.store) := by
  have hsub : ∀ {a : Daemon}, a.Reachable →
      Set.InjOn ThalwegEvent.ident (ofNetwork networkName (storedEvents a.store)) := fun ha =>
    ha.injOn_ident.mono fun _ he => he.1
  rw [Daemon.conflictingIDs_eq, h.ofNetwork_eq.1, h.ofNetwork_eq.2, conflictingIDs,
    clashes_absorb_swap (hsub hi) (hsub hr) fun _ hne => hne rfl]
  exact Daemon.conflictingIDs_eq.symm

theorem conflictingIDs_comm {S T : Set ThalwegEvent} :
    conflictingIDs networkName S T = conflictingIDs networkName T S := by
  ext id
  constructor <;>
    · rintro ⟨s, hs, t, ht, hsi, hti, hne⟩
      exact ⟨t, ht, s, hs, hti, hsi, hne.symm⟩

/-- **A further session transfers nothing.** After a session that succeeds, of daemons without
resolutions in the network, a further one between the two that succeeds, whichever of them starts
it, stores no event and reports the same conflicts. -/
theorem Reachable.further_session_quiet (hi : initiator.Reachable) (hr : responder.Reachable)
    (hordinary : NoResolutions networkName initiator)
    (hordinary' : NoResolutions networkName responder)
    (hrun : synchronizePeer fuel initiator responder networkName =
      some (.ok result, initiator', responder')) {fuel' : Nat} {result' : SyncResult}
    {a b : Daemon} :
    (synchronizePeer fuel' initiator' responder' networkName = some (.ok result', a, b) →
      Quiet initiator' responder' a b result' {id | id ∈ result.conflicts}) ∧
    (synchronizePeer fuel' responder' initiator' networkName = some (.ok result', b, a) →
      Quiet responder' initiator' b a result' {id | id ∈ result.conflicts}) := by
  obtain ⟨⟨K, hK⟩, hnamed⟩ := hi.exists_holds
  obtain ⟨⟨L, hL⟩, -⟩ := hr.exists_holds
  have hconverged := hK.synchronizePeer hL hnamed hordinary hordinary' hrun
  obtain ⟨hi', hr'⟩ := reachable_of_synchronizePeer hi hr hrun
  obtain ⟨⟨K', hK'⟩, hnamed'⟩ := hi'.exists_holds
  obtain ⟨⟨L', hL'⟩, hnamedL'⟩ := hr'.exists_holds
  obtain ⟨hord, hord'⟩ := hconverged.noResolutions hordinary hordinary'
  have hknown := exists_ident_of_converged hconverged.initiator_eq hconverged.responder_eq
  have hknown' := exists_ident_of_converged hconverged.responder_eq hconverged.initiator_eq
  have hconflicts := hconverged.conflicts_eq.trans (hconverged.conflictingIDs_eq hi hr).symm
  constructor
  · intro hrun'
    rw [hconflicts]
    exact (hK'.synchronizePeer hL' hnamed' hord hord' hrun').quiet hknown hknown'
  · intro hrun'
    rw [hconflicts, conflictingIDs_comm]
    exact (hL'.synchronizePeer hK' hnamedL' hord' hord hrun').quiet hknown' hknown

theorem members_further_session_quiet : ∃ result initiator' responder',
    synchronizePeer 3 firstMember secondMember ['h'] = some (.ok result, initiator', responder') ∧
    result.pulled = 1 ∧ ∀ fuel result' a b,
      (synchronizePeer fuel initiator' responder' ['h'] = some (.ok result', a, b) →
        Quiet initiator' responder' a b result' {id | id ∈ result.conflicts}) ∧
      (synchronizePeer fuel responder' initiator' ['h'] = some (.ok result', b, a) →
        Quiet responder' initiator' b a result' {id | id ∈ result.conflicts}) := by
  obtain ⟨result, initiator', responder', hrun, hpulled⟩ := members_synchronize
  exact ⟨result, initiator', responder', hrun, hpulled, fun _ _ _ _ =>
    Reachable.further_session_quiet (member_reachable _ _ _) (member_reachable _ _ _)
      firstMember_noResolutions secondMember_noResolutions hrun⟩

/-! ### Networks of devices -/

/-- The IDs of a network's events with the digests of the events. -/
def inventoryOf (networkName : Text) (d : Daemon) : Set (Text × Result Text) :=
  (fun e => (e.id, eventDigest e)) '' ofNetwork networkName (storedEvents d.store)

/-- Some session of the two succeeds that transfers nothing and finds no conflict. -/
def QuietPair (networkName : Text) (a b : Daemon) : Prop :=
  ∃ fuel result a' b', synchronizePeer fuel a b networkName = some (.ok result, a', b') ∧
    result.pushed = 0 ∧ result.pulled = 0 ∧ result.conflicts = []

/-- Where one side has absorbed nothing, it had the events of the other one. -/
theorem exists_of_ncard_eq {S S' T : Set ThalwegEvent} (hfinite : S'.Finite)
    (h : S' = absorb ThalwegEvent.ident S T) (hcard : S'.ncard = S.ncard) :
    ∀ t ∈ T, ∃ s ∈ S, s.ident = t.ident := by
  have heq : S = S' :=
    Set.eq_of_subset_of_ncard_le (h ▸ subset_absorb) hcard.le hfinite
  intro t ht
  obtain ⟨s, hs, hident⟩ := exists_mem_absorb_iff.mpr
    (Or.inr ⟨t, ht, rfl⟩ : (∃ s ∈ S, s.ident = t.ident) ∨ ∃ t' ∈ T, t'.ident = t.ident)
  exact ⟨s, heq ▸ h ▸ hs, hident⟩

theorem Reachable.finite_storedEvents (h : d.Reachable) : (storedEvents d.store).Finite := by
  obtain ⟨L, hL⟩ := h.exists_holds.1
  rw [hL.storedEvents_eq]
  exact List.finite_toSet L.events

/-- Every event of one set is in the other one, under its ID and with its digest. -/
theorem inventoryOf_subset {a b : Daemon}
    (hknown : ∀ e ∈ ofNetwork networkName (storedEvents a.store),
      ∃ f ∈ storedEvents b.store, f.ident = e.ident)
    (hnone : conflictingIDs networkName (storedEvents a.store) (storedEvents b.store) = ∅) :
    inventoryOf networkName a ⊆ inventoryOf networkName b := by
  rintro - ⟨e, he, rfl⟩
  obtain ⟨f, hf, hident⟩ := hknown e he
  obtain ⟨hn, hid⟩ := Prod.mk.inj hident
  refine ⟨f, ⟨hf, hn.trans he.2⟩, Prod.ext hid ?_⟩
  by_contra hne
  have hmem : e.id ∈ conflictingIDs networkName (storedEvents a.store) (storedEvents b.store) :=
    ⟨e, he.1, f, hf, Prod.ext he.2 rfl, Prod.ext (hn.trans he.2) hid, Ne.symm hne⟩
  rw [hnone] at hmem
  exact hmem

theorem QuietPair.inventoryOf_eq {a b : Daemon} (ha : a.Reachable) (hb : b.Reachable)
    (hordinary : NoResolutions networkName a) (hordinary' : NoResolutions networkName b)
    (h : QuietPair networkName a b) : inventoryOf networkName a = inventoryOf networkName b := by
  obtain ⟨fuel, result, a', b', hrun, hpushed, hpulled, hconflicts⟩ := h
  obtain ⟨⟨K, hK⟩, hnamed⟩ := ha.exists_holds
  obtain ⟨⟨L, hL⟩, -⟩ := hb.exists_holds
  have hconverged := hK.synchronizePeer hL hnamed hordinary hordinary' hrun
  obtain ⟨ha', hb'⟩ := reachable_of_synchronizePeer ha hb hrun
  have hnone : conflictingIDs networkName (storedEvents a.store) (storedEvents b.store) = ∅ := by
    rw [← hconverged.conflicts_eq, hconflicts]
    simp
  have hcardA := hconverged.pulled_eq
  have hcardB := hconverged.pushed_eq
  rw [hpulled, Nat.add_zero] at hcardA
  rw [hpushed, Nat.add_zero] at hcardB
  refine Set.Subset.antisymm ?_ ?_
  · exact inventoryOf_subset
      (exists_of_ncard_eq hb'.finite_storedEvents hconverged.responder_eq hcardB) hnone
  · refine inventoryOf_subset
      (exists_of_ncard_eq ha'.finite_storedEvents hconverged.initiator_eq hcardA) ?_
    rw [conflictingIDs_comm, hnone]

/-- **Quiet sessions connect equal inventories.** Devices without resolutions in the network that
are connected by pairs with quiet sessions hold events under the same IDs with the same digests;
where no two of their events have one digest, they hold the same events of the network. -/
theorem inventories_eq_of_quietPairs {ι : Type*} {devices : ι → Daemon}
    (hreachable : ∀ i, (devices i).Reachable)
    (hordinary : ∀ i, NoResolutions networkName (devices i)) {i j : ι}
    (h : Relation.EqvGen (fun i j => QuietPair networkName (devices i) (devices j)) i j) :
    inventoryOf networkName (devices i) = inventoryOf networkName (devices j) ∧
      ((∀ e ∈ storedEvents (devices i).store, ∀ f ∈ storedEvents (devices j).store,
          eventDigest e = eventDigest f → e = f) →
        ofNetwork networkName (storedEvents (devices i).store) =
          ofNetwork networkName (storedEvents (devices j).store)) := by
  have heq : inventoryOf networkName (devices i) = inventoryOf networkName (devices j) := by
    induction h with
    | rel i j hquiet =>
      exact hquiet.inventoryOf_eq (hreachable i) (hreachable j) (hordinary i) (hordinary j)
    | refl i => rfl
    | symm i j _ ih => exact ih.symm
    | trans i j k _ _ ih ih' => exact ih.trans ih'
  refine ⟨heq, fun hinjective => Set.Subset.antisymm ?_ ?_⟩
  · rintro e he
    obtain ⟨f, hf, hef⟩ : (e.id, eventDigest e) ∈ inventoryOf networkName (devices j) :=
      heq ▸ ⟨e, he, rfl⟩
    rw [hinjective e he.1 f hf.1 (congrArg Prod.snd hef).symm]
    exact hf
  · rintro f hf
    obtain ⟨e, he, hef⟩ : (f.id, eventDigest f) ∈ inventoryOf networkName (devices i) :=
      heq ▸ ⟨f, hf, rfl⟩
    rw [← hinjective e he.1 f hf.1 (congrArg Prod.snd hef)]
    exact he

/-- Devices with one event, which the second one has received. -/
def twoMembers (first : Bool) : Daemon :=
  if first then member ['d'] (by decide) [.ingest ['h'] ['s'] [] ['a'] ['1'] []]
  else member ['e'] (by decide) [.ingestReplicated
    ⟨['a'], ['h'], ['s'], newYear.format, newYear.format, newYear.format, 0, ['d'], ['1']⟩]

theorem twoMembers_quietPair : QuietPair ['h'] (twoMembers true) (twoMembers false) := by
  have hrun : (synchronizePeer 3 (twoMembers true) (twoMembers false) ['h']).map (fun r =>
      r.1.toOption.map fun result =>
        decide (result.pushed = 0 ∧ result.pulled = 0 ∧ result.conflicts = [])) =
          some (some true) := by
    decide +kernel
  obtain ⟨⟨result, a, b⟩, hrun, hresult⟩ := Option.map_eq_some_iff.mp hrun
  cases result with
  | error err => cases hresult
  | ok result => exact ⟨3, result, a, b, hrun, of_decide_eq_true (Option.some.inj hresult)⟩

theorem twoMembers_inventories_eq :
    inventoryOf ['h'] (twoMembers true) = inventoryOf ['h'] (twoMembers false) ∧
      ((∀ e ∈ storedEvents (twoMembers true).store, ∀ f ∈ storedEvents (twoMembers false).store,
          eventDigest e = eventDigest f → e = f) →
        ofNetwork ['h'] (storedEvents (twoMembers true).store) =
          ofNetwork ['h'] (storedEvents (twoMembers false).store)) := by
  have hreachable : ∀ first, (twoMembers first).Reachable := by
    rintro (_ | _) <;> exact member_reachable _ _ _
  refine inventories_eq_of_quietPairs hreachable (fun first => ?_) (.rel _ _ twoMembers_quietPair)
  refine (hreachable first).noResolutions_iff.mpr (eq_ok_of_toOption ?_)
  cases first <;> decide +kernel

end Further

end Daemon

end Thalweg
