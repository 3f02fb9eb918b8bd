import Thalweg.Daemon.Atomicity
import Thalweg.Daemon.Delivery
import Thalweg.Daemon.Sync

/-!
# Recovered copies of superseded events

Reads omit the events whose ID a stored resolution names; each of them should be stored as a
recovered copy too. A copy is made when a resolution arrives, not when an event arrives under an ID
that a stored resolution names already.

## Main definitions

* `Closed`: every stored event that a stored resolution names has its recovered copy.
* `Daemon.HidesNothing`: what reads omit has its recovered copy.
* `Daemon.StoresCovered`: the events that an operation stores are not superseded from the start.

## Main results

* `Ledger.Accepts.closed`: the receipt of an event and the recovery that it starts.
* `Daemon.ReachableBy.hidesNothing`: runs whose operations store covered events.
* `Daemon.run_of_synchronizePeer`: a session is a run of receipts for each side.
-/

namespace Thalweg

open Relation

/-! ### Closed sets of events -/

/-- Every event that a resolution names has its recovered copy. -/
def Closed (S : Set ThalwegEvent) : Prop :=
  ∀ r ∈ S, ∀ v ∈ S, v.network = r.network → r.names = some v.id → recoveredCopy v ∈ S

/-- No resolution names the ID of the event, or its recovered copy is there. -/
def Covered (S : Set ThalwegEvent) (e : ThalwegEvent) : Prop :=
  ∀ r ∈ S, e.network = r.network → r.names = some e.id → recoveredCopy e ∈ S

/-- No event has the network and ID of the event. -/
def Unused (S : Set ThalwegEvent) (e : ThalwegEvent) : Prop :=
  ∀ f ∈ S, f.network = e.network → f.id ≠ e.id

/-- A new event is covered, and so is the copy of the event that it names, if that is new too. -/
structure Joins (S : Set ThalwegEvent) (e : ThalwegEvent) : Prop where
  covered : Covered S e
  copy : ∀ v ∈ S, v.network = e.network → e.names = some v.id → recoveredCopy v ∉ S →
    Covered (insert e S) (recoveredCopy v)

/-- A new event that is covered keeps a set closed, once what it names has its copy. -/
theorem Closed.insert {S : Set ThalwegEvent} (h : Closed S) {e : ThalwegEvent}
    (hcovered : Covered S e) (hself : e.names ≠ some e.id)
    (hcopy : ∀ v ∈ S, v.network = e.network → e.names = some v.id → recoveredCopy v ∈ insert e S) :
    Closed (insert e S) := by
  rintro r (rfl | hr) v (rfl | hv) hn hname
  · exact absurd hname hself
  · exact hcopy v hv hn hname
  · exact Or.inr (hcovered r hr hn hname)
  · exact Or.inr (h r hr v hv hn hname)

/-- The same with the copy of the one event that it names. -/
theorem Closed.insert_copy {S : Set ThalwegEvent} (h : Closed S) {e v : ThalwegEvent}
    (hcovered : Covered S e) (hself : e.names ≠ some e.id) (hv : v ∈ S)
    (hunique : ∀ f ∈ S, f.network = v.network → f.id = v.id → f = v)
    (hnetwork : v.network = e.network) (hname : e.names = some v.id)
    (hnames : v.names ≠ some (recoveredCopy v).id)
    (hcopy : Covered (Insert.insert e S) (recoveredCopy v)) :
    Closed (Insert.insert (recoveredCopy v) (Insert.insert e S)) := by
  rintro r hr f hf hn hr'
  rcases hf with rfl | hf
  · -- the copy itself is covered
    rcases hr with rfl | hr
    · exact absurd hr' hnames
    · exact Or.inr (hcopy r hr hn hr')
  rcases hr with rfl | hr
  · -- the copy names what the event names
    rcases hf with rfl | hf
    · exact Or.inr (Or.inr (hcovered v hv hn hr'))
    · exact Or.inr (Or.inr (h v hv f hf hn hr'))
  rcases hr with rfl | hr <;> rcases hf with rfl | hf
  · exact absurd hr' hself
  · obtain rfl := hunique f hf (hn.trans hnetwork.symm) (Option.some.inj (hr'.symm.trans hname))
    exact Or.inl rfl
  · exact Or.inr (Or.inr (hcovered r hr hn hr'))
  · exact Or.inr (Or.inr (h r hr f hf hn hr'))

/-! ### Closed ledgers -/

namespace Ledger

/-- The events of a ledger as a set. -/
def eventSet (L : Ledger) : Set ThalwegEvent := {e | e ∈ L.events}

theorem eventSet_record (L : Ledger) (e : ThalwegEvent) (hfresh : L.Fresh e)
    (clock : HlcTimestamp) :
    (L.record e hfresh clock).eventSet = insert e L.eventSet := by
  ext f
  simp [eventSet, record, or_comm]

theorem Admits.eventSet_eq {L L' : Ledger} {e : ThalwegEvent} (h : L.Admits e L') :
    L'.eventSet = insert e L.eventSet := by
  ext f
  exact h.mem_iff.trans or_comm

/-- In a closed ledger there is nothing left to recover. -/
theorem Recovers.eq_of_closed {L L' : Ledger} {networkName eventID : Text} {v : ThalwegEvent}
    (h : L.Recovers networkName eventID v L') (hclosed : Closed L.eventSet)
    (hnamed : ∃ r ∈ L.events, r.network = networkName ∧ r.names = some eventID) : L' = L := by
  obtain ⟨r, hr, hn, hname⟩ := hnamed
  have hcopy : recoveredCopy v ∈ L.events :=
    hclosed r hr v h.mem (h.network_eq.trans hn.symm) (hname.trans (congrArg some h.id_eq.symm))
  exact h.admits.unique (.known hcopy h.readable.recoveredCopy)

theorem eq_of_closed {L L' : Ledger} {networkName eventID : Text} {b : Ledger × Text}
    (hclosed : Closed L.eventSet)
    (hnamed : ∃ r ∈ L.events, r.network = networkName ∧ r.names = some eventID)
    (hreach : ReflTransGen (Leads networkName) (L, eventID) b) (hdone : Done networkName b L') :
    L' = L := by
  generalize ha : (L, eventID) = a at hreach
  induction hreach using ReflTransGen.head_induction_on generalizing eventID with
  | refl =>
    subst ha
    rcases hdone with ⟨-, rfl⟩ | ⟨v, hv, -⟩
    · rfl
    · exact hv.eq_of_closed hclosed hnamed
  | @head a c hac _ ih =>
    subst ha
    obtain ⟨v, hv, hname⟩ := hac
    have hc := hv.eq_of_closed hclosed hnamed
    exact ih ⟨v, hv.mem, hv.network_eq, hname⟩ (Prod.ext hc.symm rfl)

/-- The copy of the event that a new one names closes the ledger again. -/
theorem Recovers.closed {L L₁ L₂ : Ledger} {e v : ThalwegEvent} {eventID : Text}
    (h : L₁.Recovers e.network eventID v L₂) (hclosed : Closed L.eventSet)
    (hjoins : Joins L.eventSet e) (hL₁ : L₁.eventSet = insert e L.eventSet)
    (hname : e.names = some eventID) (hne : eventID ≠ e.id) : Closed L₂.eventSet := by
  have hself : e.names ≠ some e.id := fun heq => hne (Option.some.inj (hname.symm.trans heq))
  have hmem : ∀ f, f ∈ L.eventSet → f ∈ L₁.events := fun f hf =>
    hL₁.symm.subset (Set.mem_insert_of_mem e hf)
  have hv : v ∈ L.eventSet := by
    refine (hL₁.subset h.mem : v ∈ insert e L.eventSet).resolve_left ?_
    rintro rfl
    exact hne h.id_eq.symm
  have hunique : ∀ f ∈ L.eventSet, f.network = v.network → f.id = v.id → f = v := fun f hf hn hi =>
    L₁.distinct.eq_of_id (hmem f hf) h.mem hn hi
  have hv' : e.names = some v.id := hname.trans (congrArg some h.id_eq.symm)
  have hnames : v.names ≠ some (recoveredCopy v).id := h.names_ne
  rw [h.admits.eventSet_eq, hL₁]
  by_cases hstored : recoveredCopy v ∈ insert e L.eventSet
  · rw [Set.insert_eq_of_mem hstored]
    refine hclosed.insert hjoins.covered hself fun f hf hn hf' => ?_
    obtain rfl := hunique f hf (hn.trans h.network_eq.symm)
      (Option.some.inj (hf'.symm.trans hv'))
    exact hstored
  · refine hclosed.insert_copy hjoins.covered hself hv hunique h.network_eq hv' hnames ?_
    exact hjoins.copy v hv h.network_eq hv' fun hin => hstored (Or.inr hin)

/-- The recovery that a new event starts leaves a closed ledger. -/
theorem closed_of_recovery {L L₁ L' : Ledger} {e : ThalwegEvent} {eventID : Text}
    {b : Ledger × Text} (hclosed : Closed L.eventSet) (hjoins : Joins L.eventSet e)
    (hL₁ : L₁.eventSet = insert e L.eventSet) (hname : e.names = some eventID)
    (hne : eventID ≠ e.id) (hreach : ReflTransGen (Leads e.network) (L₁, eventID) b)
    (hdone : Done e.network b L') :
    Closed L'.eventSet := by
  rcases hreach.cases_head with rfl | ⟨c, ⟨v, hv, hnext⟩, hrest⟩
  · rcases hdone with ⟨hnone, rfl⟩ | ⟨v, hv, -⟩
    · rw [hL₁]
      refine hclosed.insert hjoins.covered ?_ fun v hv hn hname' => ?_
      · exact fun heq => hne (Option.some.inj (hname.symm.trans heq))
      · refine absurd (Option.some.inj (hname'.symm.trans hname)) (hnone v ?_ hn)
        exact hL₁.symm.subset (Set.mem_insert_of_mem e hv)
    · exact hv.closed hclosed hjoins hL₁ hname hne
  · have hc := hv.closed hclosed hjoins hL₁ hname hne
    obtain ⟨L₂, next⟩ := c
    have hmem : v ∈ L₂.events := hv.admits.kept.subset hv.mem
    rw [eq_of_closed hc ⟨v, hmem, hv.network_eq, hnext⟩ hrest hdone]
    exact hc

/-- **Receipt.** An event that joins a closed ledger leaves it closed, with the recovery that it
starts. -/
theorem Accepts.closed {L L' : Ledger} {e : ThalwegEvent} (h : L.Accepts e L')
    (hclosed : Closed L.eventSet) (hself : e.names ≠ some e.id)
    (hjoins : Unused L.eventSet e → Joins L.eventSet e) : Closed L'.eventSet := by
  rcases h with ⟨hnone, hadmits⟩ | ⟨eventID, L₁, b, hname, hadmits, hends, hdone⟩
  · rcases hadmits.events_eq with ⟨rfl, -⟩ | ⟨-, hfresh⟩
    · exact hclosed
    · rw [hadmits.eventSet_eq]
      refine hclosed.insert (hjoins hfresh).covered hself fun v _ _ hv => ?_
      rw [hnone] at hv
      cases hv
  · rcases hadmits.events_eq with ⟨rfl, he⟩ | ⟨-, hfresh⟩
    · rw [eq_of_closed hclosed ⟨e, he, rfl, hname⟩ hends.1 hdone]
      exact hclosed
    · refine closed_of_recovery hclosed (hjoins hfresh) hadmits.eventSet_eq hname ?_ hends.1 hdone
      rintro rfl
      exact hself hname

end Ledger

namespace Daemon

/-! ### Operations -/

/-- The operations that a daemon brings to an end while it runs. -/
def IsOrdinary : Operation → Prop
  | .restart .. | .killedReceipt _ | .killedResolution .. => False
  | _ => True

/-- The events that the operation stores under unused IDs join the stored ones. -/
def StoresCovered (d : Daemon) : Operation → Prop
  | .ingest networkName stream occurredAt eventID payload random => ∀ e,
      d.Issues e networkName stream occurredAt (Holds.requestedID eventID random) payload →
      Unused (storedEvents d.store) e → Joins (storedEvents d.store) e
  | .ingestReplicated incoming => ∀ e, normalizeReplicatedEvent incoming = .ok e →
      Unused (storedEvents d.store) e → Joins (storedEvents d.store) e
  | .resolveEventConflict networkName eventID _ random =>
      (∀ r ∈ storedEvents d.store, r.network = networkName → r.names ≠ some eventID) → ∀ e,
      d.Issues e networkName conflictResolutionStream [] (randomID "evt" random)
        (marshalConflictResolution (resolutionOf eventID)) →
      Unused (storedEvents d.store) e → Joins (storedEvents d.store) e
  | _ => True

/-- An operation that succeeds and stores covered events. -/
def CoversStored (d : Daemon) (op : Operation) (r : Result Unit) : Prop :=
  IsOrdinary op ∧ r = .ok () ∧ d.StoresCovered op

theorem Holds.storedEvents_eq {d : Daemon} {L : Ledger} (h : d.Holds L) :
    storedEvents d.store = L.eventSet :=
  Set.ext fun _ => h.represents.mem_storedEvents_iff

theorem names_ne_of_parse {e : ThalwegEvent}
    (h : ∃ p, parseConflictResolution e = .ok p) : e.names ≠ some e.id := by
  obtain ⟨p, hp⟩ := h
  intro hname
  obtain ⟨eventID, hname', hne⟩ := names_of_parseConflictResolution hp (stream_of_names hname)
  exact hne (Option.some.inj (hname'.symm.trans hname))

variable {d d' : Daemon} {L : Ledger}

theorem closed_ingest (h : d.Holds L) (hclosed : Closed (storedEvents d.store))
    {networkName stream occurredAt eventID payload random : Text} {e : ThalwegEvent}
    (hrun : d.ingest networkName stream occurredAt eventID payload random = (.ok e, d'))
    (hcovers : d.StoresCovered (.ingest networkName stream occurredAt eventID payload random)) :
    ∃ L', d'.Holds L' ∧ Closed L'.eventSet := by
  rw [StoresCovered, h.storedEvents_eq] at hcovers
  rw [h.storedEvents_eq] at hclosed
  rcases h.ingest_cases networkName stream occurredAt eventID payload random with
    ⟨err, d₁, hi, -⟩ | ⟨f, hf, -, -, hi⟩ | ⟨f, hfresh, d₁, hs, hissues, -, hd₁, -, hi⟩
  all_goals
    obtain ⟨hres, rfl⟩ := Prod.mk.inj (hi.symm.trans hrun)
  · cases hres
  · exact ⟨_, h.tick, hclosed⟩
  · have hnone : ∀ X, f.names ≠ some X := fun X hX =>
      hs (hissues.stream_eq.symm.trans (stream_of_names hX))
    refine ⟨_, hd₁, ?_⟩
    rw [Ledger.eventSet_record]
    exact hclosed.insert (hcovers f hissues hfresh).covered (hnone _) fun v _ _ hv =>
      absurd hv (hnone _)

theorem closed_ingestReplicated (h : d.Holds L) (hclosed : Closed (storedEvents d.store))
    {fuel : Nat} {incoming : ThalwegEvent} {r : ThalwegEvent × Bool}
    (hrun : ingestReplicated fuel d incoming = some (.ok r, d'))
    (hcovers : d.StoresCovered (.ingestReplicated incoming)) :
    ∃ L', d'.Holds L' ∧ Closed L'.eventSet := by
  rw [StoresCovered, h.storedEvents_eq] at hcovers
  rw [h.storedEvents_eq] at hclosed
  obtain ⟨L', hreceived⟩ := h.ingestReplicated_spec hrun
  obtain ⟨e, hnormal, -, hparse, haccepts, -⟩ := hreceived.accepts r rfl
  exact ⟨L', hreceived.holds,
    haccepts.closed hclosed (names_ne_of_parse hparse) (hcovers e hnormal)⟩

theorem closed_resolveEventConflict (h : d.Holds L) (hclosed : Closed (storedEvents d.store))
    {fuel : Nat} {networkName eventID strategy random : Text} {r : EventConflictResolutionResult}
    (hrun : d.resolveEventConflict fuel networkName eventID strategy random = some (.ok r, d'))
    (hcovers : d.StoresCovered (.resolveEventConflict networkName eventID strategy random)) :
    ∃ L', d'.Holds L' ∧ Closed L'.eventSet := by
  rw [StoresCovered, h.storedEvents_eq] at hcovers
  rw [h.storedEvents_eq] at hclosed
  cases h.resolveEventConflict_spec hrun with
  | rejected err herr _ => cases herr
  | again e he hn hname hfinish =>
    obtain ⟨res', hm, ⟨err, herr, -⟩ | ⟨copy, created, rfl, -⟩⟩ :=
      Holds.finishResolution_eq_some hfinish
    · cases herr
    · obtain ⟨b, L', hspec⟩ := h.materialize_spec fuel hm
      refine ⟨L', hspec.holds, ?_⟩
      rw [Ledger.eq_of_closed hclosed ⟨e, he, hn, hname⟩ hspec.ends.1 (hspec.done _ rfl)]
      exact hclosed
  | anew e hfresh d₁ original hnone horiginal hon hoi hissues _ hname hd₁ _ hfinish =>
    obtain ⟨res', hm, ⟨err, herr, -⟩ | ⟨copy, created, rfl, -⟩⟩ :=
      Holds.finishResolution_eq_some hfinish
    · cases herr
    · obtain ⟨b, L', hspec⟩ := hd₁.materialize_spec fuel hm
      refine ⟨L', hspec.holds, ?_⟩
      have hnetwork := hissues.network_eq
      subst hnetwork
      refine Ledger.closed_of_recovery hclosed (hcovers hnone e hissues hfresh)
        (Ledger.eventSet_record L e hfresh _) hname ?_ hspec.ends.1 (hspec.done _ rfl)
      rintro rfl
      exact hfresh original horiginal hon hoi

/-- **One operation.** An operation that succeeds and stores covered events keeps the store
closed. -/
theorem Performs.closed (h : d.Holds L) (hclosed : Closed (storedEvents d.store)) {op : Operation}
    {r : Result Unit} (hp : d.Performs op r d') (hcovers : d.CoversStored op r) :
    ∃ L', d'.Holds L' ∧ Closed (storedEvents d'.store) := by
  suffices hsuff : ∃ L', d'.Holds L' ∧ Closed L'.eventSet by
    obtain ⟨L', hL', hc⟩ := hsuff
    exact ⟨L', hL', hL'.storedEvents_eq ▸ hc⟩
  obtain ⟨hordinary, rfl, hcovered⟩ := hcovers
  by_cases hquiet : IsQuiet op
  · refine ⟨_, h.sameCore (hp.sameCore hquiet), ?_⟩
    rw [h.storedEvents_eq] at hclosed
    exact hclosed
  obtain ⟨fuel, hp⟩ := hp
  cases op with
  | ingest networkName stream occurredAt eventID payload random =>
    obtain ⟨res, hi, ⟨err, -, herr⟩ | ⟨e, rfl, -⟩⟩ := voidResult_eq (Option.some.inj hp)
    · cases herr
    · exact closed_ingest h hclosed hi hcovered
  | ingestReplicated incoming =>
    obtain ⟨p, hi, hv⟩ := Option.map_eq_some_iff.mp hp
    obtain ⟨res, rfl, ⟨err, -, herr⟩ | ⟨e, rfl, -⟩⟩ := voidResult_eq hv
    · cases herr
    · exact closed_ingestReplicated h hclosed hi hcovered
  | resolveEventConflict networkName eventID strategy random =>
    obtain ⟨p, hi, hv⟩ := Option.map_eq_some_iff.mp hp
    obtain ⟨res, rfl, ⟨err, -, herr⟩ | ⟨e, rfl, -⟩⟩ := voidResult_eq hv
    · cases herr
    · exact closed_resolveEventConflict h hclosed hi hcovered
  | restart order now => exact hordinary.elim
  | killedReceipt incoming => exact hordinary.elim
  | killedResolution networkName eventID random => exact hordinary.elim
  | recordEventConflicts | createDurableSiphon | pollDurableSiphon | acknowledgeDurableSiphon
    | deleteDurableSiphon | networkCreate | networkJoin | networkLeave | persistMeshPeer
    | persistPeer => exact absurd trivial hquiet

/-! ### What reads omit -/

/-- What the reads of a network omit has its recovered copy: superseded events, events that a query
without bounds does not return, events between two cursors that are not on their page, and events of
a siphon's streams that it does not want. -/
structure HidesNothing (d : Daemon) : Prop where
  closed : Closed (storedEvents d.store)
  queried : ∀ networkName order xs, d.queryOrdered networkName [] [] [] 0 order = .ok xs →
    ∀ e ∈ storedEvents d.store, e.network = networkName → e ∉ xs →
      recoveredCopy e ∈ storedEvents d.store
  listed : ∀ networkName cursor limit page, d.inventoryPage networkName cursor limit = .ok page →
    ∀ e ∈ storedEvents d.store, e.network = networkName → IsAfter cursor e →
      (page.done = true ∨ position e ≤ page.nextCursor) → entryOf e ∉ page.entries →
      recoveredCopy e ∈ storedEvents d.store
  delivered : ∀ definition : DurableSiphonDefinition, ∀ e ∈ storedEvents d.store,
    e.network = definition.network → (definition.streams = [] ∨ e.stream ∈ definition.streams) →
      ¬ definition.Wants d.store e → recoveredCopy e ∈ storedEvents d.store

/-- A query without bounds omits superseded events only. -/
theorem mem_or_superseded_of_queryOrdered (h : d.Holds L) {networkName order : Text}
    {xs : List ThalwegEvent} (hok : d.queryOrdered networkName [] [] [] 0 order = .ok xs)
    {e : ThalwegEvent} (he : e ∈ storedEvents d.store) (hnetwork : e.network = networkName) :
    e ∈ xs ∨ Superseded (storedEvents d.store) networkName e.id := by
  have hrepresents := h.represents
  obtain ⟨hvalid, from₁, to₁, resolutions, found, hfrom, hto, hread, hfound⟩ :=
    queryOrdered_eq_ok hok
  obtain rfl : from₁ = [] := (Except.ok.inj hfrom).symm
  obtain rfl : to₁ = [] := (Except.ok.inj hto).symm
  obtain rfl := Except.ok.inj (hok.symm.trans (queryOrdered_eq hvalid hfrom hto hread hfound))
  obtain ⟨ys, hys, rest, hrest, hsum⟩ : ∃ ys, collectEvents resolutions [] []
      (d.store.scan (eventNetworkPrefix networkName) (eventNetworkPrefix networkName)) = .ok ys ∧
      ∃ rest, rest = ([] : List ThalwegEvent) ∧ found = ys ++ rest := by
    obtain ⟨ys, hys, hfound⟩ := bind_eq_ok_iff.mp hfound
    obtain ⟨rest, hrest, hfound⟩ := bind_eq_ok_iff.mp hfound
    exact ⟨ys, hys, rest, (Except.ok.inj hrest).symm, (Except.ok.inj hfound).symm⟩
  subst hrest hsum
  obtain ⟨es, hes, hmem, -⟩ := hrepresents.scan_events (keyFamily_eventNetworkPrefix networkName)
    (by simp [eventNetworkPrefix])
  rw [hes, collectEvents_eq_ok_iff fun f hf => hrepresents.storable f ((hmem f).mp hf).1] at hys
  obtain ⟨-, rfl⟩ := hys
  have hin : e ∈ es := (hmem e).mpr ⟨hrepresents.mem_storedEvents_iff.mp he,
    eventNetworkPrefix_isPrefix_eventKey.mpr hnetwork⟩
  rw [← hrepresents.isSuperseded_iff hread]
  by_cases hsup : isSuperseded resolutions e.id = true
  · exact Or.inr hsup
  · refine Or.inl ?_
    rw [Bool.not_eq_true] at hsup
    simp [limited, (arranged_perm order _).mem_iff, hin, keepsEvent, hsup, inRange]

theorem hidesNothing_of_closed (h : d.Holds L) (hclosed : Closed (storedEvents d.store)) :
    d.HidesNothing := by
  have hcopy : ∀ {networkName : Text}, ∀ e ∈ storedEvents d.store, e.network = networkName →
      Superseded (storedEvents d.store) networkName e.id →
      recoveredCopy e ∈ storedEvents d.store := by
    rintro networkName e he hn ⟨r, hr, hrn, hname⟩
    exact hclosed r hr e he (hn.trans hrn.symm) hname
  refine ⟨hclosed, fun networkName order xs hok e he hn hnot => ?_,
    fun networkName cursor limit page hok e he hn hafter hbefore hnot => ?_,
    fun definition e he hn hstream hnot => ?_⟩
  · exact hcopy e he hn ((mem_or_superseded_of_queryOrdered h hok he hn).resolve_left hnot)
  · obtain ⟨es, hlists⟩ := h.represents.inventoryPage_lists hok
    refine hcopy e he hn (by_contra fun hsup => hnot ?_)
    have hvisible : e ∈ visible (storedEvents d.store) networkName := ⟨he, hn, hsup⟩
    rw [hlists.entries_perm.mem_iff]
    exact List.mem_map_of_mem ((hlists.mem_iff e).mpr ⟨hvisible, hafter, hbefore⟩)
  · exact hcopy e he hn (by_contra fun hsup => hnot ⟨hn, hstream, hsup⟩)

/-- **Nothing is silently hidden** in a run whose operations all succeed and store covered
events. -/
theorem ReachableBy.hidesNothing {d : Daemon} (h : d.ReachableBy CoversStored) :
    d.HidesNothing := by
  obtain ⟨L, hL, hclosed⟩ : ∃ L, d.Holds L ∧ Closed (storedEvents d.store) := by
    refine ReachableBy.induction (p := fun d => ∃ L, d.Holds L ∧ Closed (storedEvents d.store))
      (fun deviceID hdeviceID now => ?_) ?_ h
    · have hholds := initial_holds deviceID hdeviceID now
      refine ⟨_, hholds, ?_⟩
      rw [hholds.storedEvents_eq]
      exact fun r hr => absurd hr List.not_mem_nil
    · rintro d d' ⟨L, hL, hclosed⟩ ⟨op, r, hp, hcovers⟩
      exact hp.closed hL hclosed hcovers
  exact hidesNothing_of_closed hL hclosed

/-! ### Sessions -/

/-- What a session does to one of its sides. -/
def IsExchange : Operation → Prop
  | .ingestReplicated _ | .recordEventConflicts .. => True
  | _ => False

theorem run_ingestEvents {fuel n : Nat} {events : List ThalwegEvent}
    (h : d.ingestEvents fuel events = some (.ok n, d')) : Run (succeeds IsExchange) d d' := by
  induction events generalizing d n with
  | nil =>
    cases h
    exact ReflTransGen.refl
  | cons e events ih =>
    unfold ingestEvents at h
    split at h
    · cases h
    · cases h
    · next d₁ hi =>
      split at h
      · cases h
      · cases h
      · next d₂ hrest =>
        cases h
        refine ReflTransGen.head ⟨.ingestReplicated e, .ok (), ⟨fuel, ?_⟩, trivial, rfl⟩ (ih hrest)
        simp only [Operation.perform, hi, Option.map_some]
        rfl

theorem run_recordEventConflicts (d : Daemon) (networkName : Text)
    (observations : List ConflictObservation) :
    Run (succeeds IsExchange) d (d.recordEventConflicts networkName observations) :=
  ReflTransGen.single
    ⟨.recordEventConflicts networkName observations, .ok (), ⟨0, rfl⟩, trivial, rfl⟩

theorem run_compareInventory {networkName : Text} {entries : List InventoryEntry}
    {comparison : List Text × List Text}
    (h : d.compareInventory networkName entries = (.ok comparison, d')) :
    Run (succeeds IsExchange) d d' := by
  unfold compareInventory at h
  split at h
  · cases h
    exact ReflTransGen.refl
  · split at h
    · cases h
    · split at h
      · cases h
      · cases h
        exact run_recordEventConflicts d networkName _

theorem run_serveSyncBody {fuel : Nat} {networkName : Text} {body answer : SyncBody}
    (h : d.serveSyncBody fuel networkName body = some (.ok answer, d')) :
    Run (succeeds IsExchange) d d' := by
  unfold serveSyncBody at h
  split at h
  · split at h
    · cases h
    · split at h
      · cases h
      · next hcompare =>
        cases h
        exact run_compareInventory hcompare
  · split at h
    · cases h
    · cases h
      exact ReflTransGen.refl
  · split at h
    · cases h
    · split at h
      · cases h
      · cases h
        exact ReflTransGen.refl
  · split at h
    · cases h
    · split at h
      · cases h
      · split at h
        · cases h
        · cases h
        · next hingest =>
          cases h
          exact run_ingestEvents hingest
  · cases h

theorem run_serveSyncRequest {fuel : Nat} {membership : NetworkMembership}
    {request answer : SyncFrame}
    (h : d.serveSyncRequest fuel membership request = some (.ok answer, d')) :
    Run (succeeds IsExchange) d d' := by
  unfold serveSyncRequest at h
  split_ifs at h
  · cases h
  · cases h
  · split at h
    · cases h
    · cases h
    · next hserve =>
      cases h
      exact run_serveSyncBody hserve

theorem run_exchange {fuel : Nat} {membership : NetworkMembership} {body answer : SyncBody}
    (h : exchange fuel d membership body = some (.ok answer, d')) :
    Run (succeeds IsExchange) d d' := by
  unfold exchange at h
  split at h
  · cases h
  · split at h
    · cases h
    · cases h
    · next hserve =>
      split at h
      · cases h
      · split_ifs at h
        · cases h
        · cases h
        · cases h
          exact run_serveSyncRequest hserve

section Session

variable {fuel : Nat} {initiator initiator' responder responder' : Daemon}
  {membership : NetworkMembership} {result result' : SyncResult}

theorem run_pushNeeded {ids : List Text} (h : pushNeeded fuel initiator responder membership ids
      result = some (.ok result', responder')) :
    Run (succeeds IsExchange) responder responder' := by
  unfold pushNeeded at h
  split_ifs at h
  · cases h
    exact ReflTransGen.refl
  · split at h
    · cases h
    · split at h
      · cases h
      · next hexchange =>
        split_ifs at h
        · cases h
        · cases h
          exact run_exchange hexchange
      · cases h
      · cases h

theorem run_pushPage {entries : List InventoryEntry} (h : pushPage fuel initiator responder
      membership entries result = some (.ok result', responder')) :
    Run (succeeds IsExchange) responder responder' := by
  unfold pushPage at h
  split_ifs at h
  · cases h
    exact ReflTransGen.refl
  · split at h
    · cases h
    · next hexchange => exact (run_exchange hexchange).trans (run_pushNeeded h)
    · cases h
    · cases h

theorem run_pushInventory {cursor : Text} (h : pushInventory fuel initiator responder membership
      cursor result = some (.ok result', responder')) :
    Run (succeeds IsExchange) responder responder' := by
  induction fuel generalizing responder cursor result with
  | zero => cases h
  | succ fuel ih =>
    rw [pushInventory] at h
    split at h
    · cases h
    · split at h
      · cases h
      · cases h
      · next hpage =>
        split_ifs at h
        · cases h
          exact run_pushPage hpage
        · exact (run_pushPage hpage).trans (ih h)

theorem run_pullMissing {missing : List Text} (h : pullMissing fuel initiator responder membership
      missing result = some (.ok result', initiator', responder')) :
    Run (succeeds IsExchange) initiator initiator' ∧
      Run (succeeds IsExchange) responder responder' := by
  unfold pullMissing at h
  split_ifs at h
  · cases h
    exact ⟨ReflTransGen.refl, ReflTransGen.refl⟩
  · split at h
    · cases h
    · next hexchange =>
      split at h
      · cases h
      · split at h
        · cases h
        · cases h
        · next hingest =>
          cases h
          exact ⟨run_ingestEvents hingest, run_exchange hexchange⟩
    · cases h
    · cases h

theorem run_pullPage {cursor : Text} {page : InventoryPage} (h : pullPage fuel initiator responder
      membership cursor result = some (.ok (result', page), initiator', responder')) :
    Run (succeeds IsExchange) initiator initiator' ∧
      Run (succeeds IsExchange) responder responder' := by
  unfold pullPage at h
  split at h
  · cases h
  · next hexchange =>
    split at h
    · cases h
    · next hcompare =>
      split at h
      · cases h
      · cases h
      · next hmissing =>
        cases h
        obtain ⟨hinitiator, hresponder⟩ := run_pullMissing hmissing
        exact ⟨(run_compareInventory hcompare).trans hinitiator,
          (run_exchange hexchange).trans hresponder⟩
  · cases h
  · cases h

theorem run_pullInventory {cursor : Text} (h : pullInventory fuel initiator responder membership
      cursor result = some (.ok result', initiator', responder')) :
    Run (succeeds IsExchange) initiator initiator' ∧
      Run (succeeds IsExchange) responder responder' := by
  induction fuel generalizing initiator responder cursor result with
  | zero => cases h
  | succ fuel ih =>
    rw [pullInventory] at h
    split at h
    · cases h
    · cases h
    · next hpage =>
      split_ifs at h
      · cases h
        exact run_pullPage hpage
      · cases h
      · obtain ⟨hinitiator, hresponder⟩ := run_pullPage hpage
        obtain ⟨hinitiator', hresponder'⟩ := ih h
        exact ⟨hinitiator.trans hinitiator', hresponder.trans hresponder'⟩

/-- A session that succeeds is, for each side, a run of receipts that succeed and of recordings of
conflicts. -/
theorem run_of_synchronizePeer {networkName : Text} (h : synchronizePeer fuel initiator responder
      networkName = some (.ok result, initiator', responder')) :
    Run (succeeds IsExchange) initiator initiator' ∧
      Run (succeeds IsExchange) responder responder' := by
  unfold synchronizePeer at h
  split at h
  · cases h
  · split at h
    · cases h
    · cases h
    · next hpush =>
      obtain ⟨hinitiator, hresponder⟩ := run_pullInventory h
      exact ⟨hinitiator, (run_pushInventory hpush).trans hresponder⟩

end Session

/-! ### The order of an event and its resolution -/

/-- A daemon with a local event. -/
def unresolved : Daemon :=
  (initial ['d'] deviceName_ne_nil fun _ => noon).after 0 [.ingest ['h'] ['s'] [] ['x'] ['1'] []]

/-- The daemon after it received a resolution of the event. -/
def resolved : Daemon := unresolved.after 4 [.ingestReplicated (foreignResolution ['r'] ['x'])]

/-- A daemon that received the resolution before the event was ingested. -/
def preempted : Daemon :=
  (initial ['d'] deviceName_ne_nil fun _ => noon).after 4
    [.ingestReplicated (foreignResolution ['r'] ['x']), .ingest ['h'] ['s'] [] ['x'] ['1'] []]

theorem unresolved_events : storedEvents unresolved.store = {localEvent ['x'] ['1'] 0} := by
  obtain ⟨L, hL⟩ := (show unresolved.Reachable from ⟨_, _, _, run_after _ _ _⟩).exists_holds.1
  have hfind : findEventByID unresolved.store ['h'] ['x'] = .ok (some (localEvent ['x'] ['1'] 0)) :=
    eq_ok_of_toOption (by decide +kernel)
  have hmem := (hL.represents.findEventByID_eq_ok_some_iff.mp hfind).1
  have hcount : unresolved.store.get arrivalSequenceKey = some (Text.decimal 1) := by decide +kernel
  rw [hL.represents.sequence, Option.some.injEq, Text.decimal_injective.eq_iff] at hcount
  obtain ⟨e, he⟩ := List.length_eq_one_iff.mp hcount
  rw [he, List.mem_singleton] at hmem
  ext f
  rw [hL.represents.mem_storedEvents_iff, he, List.mem_singleton, hmem, Set.mem_singleton_iff]

theorem unresolved_covers :
    unresolved.StoresCovered (.ingestReplicated (foreignResolution ['r'] ['x'])) := by
  intro e hnormal _
  have hreadable := @foreignResolution_readable ['r'] (by decide) ['x']
  obtain rfl := Except.ok.inj ((normalizeReplicatedEvent_of_readable hreadable).symm.trans hnormal)
  have hname : (foreignResolution ['r'] ['x']).names = some ['x'] :=
    names_foreignResolution _ (by decide)
  have hnone : (localEvent ['x'] ['1'] 0).names = none := by decide +kernel
  rw [unresolved_events]
  refine ⟨?_, ?_⟩
  · rintro r rfl - hr
    rw [hnone] at hr
    cases hr
  · rintro v rfl - - - r (rfl | rfl) - hr
    · have hne : (recoveredCopy (localEvent ['x'] ['1'] 0)).id ≠ ['x'] := by decide +kernel
      exact absurd (Option.some.inj (hr.symm.trans hname)) hne
    · rw [hnone] at hr
      cases hr

theorem run_after_singleton {fuel : Nat} {op : Operation} (hordinary : IsOrdinary op)
    (hcovered : d.StoresCovered op) (hok : d.allSucceed fuel [op] = true) :
    Run CoversStored d (d.after fuel [op]) := by
  rw [allSucceed] at hok
  split at hok
  · next d₁ hp =>
    rw [after, hp]
    exact ReflTransGen.single ⟨op, .ok (), ⟨fuel, hp⟩, hordinary, rfl, hcovered⟩
  · cases hok

theorem resolved_hidesNothing : resolved.HidesNothing := by
  have hfirst : Run CoversStored (initial ['d'] deviceName_ne_nil fun _ => noon) unresolved := by
    refine run_after_singleton trivial ?_ (by decide +kernel)
    intro e _ _
    rw [(initial_holds _ _ _).storedEvents_eq]
    exact ⟨fun r hr => absurd hr List.not_mem_nil, fun v hv => absurd hv List.not_mem_nil⟩
  have hsecond : Run CoversStored unresolved resolved :=
    run_after_singleton trivial unresolved_covers (by decide +kernel)
  exact ReachableBy.hidesNothing ⟨_, _, _, hfirst.trans hsecond⟩

/-- The event is stored, no query returns it, and its recovered copy is missing. -/
theorem preempted_not_hidesNothing : preempted.ReachableBy (succeeds IsOrdinary) ∧
    localEvent ['x'] ['1'] 3 ∈ storedEvents preempted.store ∧
    preempted.queryOrdered ['h'] [['s']] [] [] 0 [] = .ok [] ∧ ¬ preempted.HidesNothing := by
  obtain ⟨L, hL⟩ := (show preempted.Reachable from ⟨_, _, _, run_after _ _ _⟩).exists_holds.1
  have hfind : ∀ {id e}, findEventByID preempted.store ['h'] id = .ok (some e) →
      e ∈ storedEvents preempted.store := fun h =>
    hL.represents.mem_storedEvents_iff.mpr (hL.represents.findEventByID_eq_ok_some_iff.mp h).1
  have hevent : localEvent ['x'] ['1'] 3 ∈ storedEvents preempted.store :=
    @hfind ['x'] _ (eq_ok_of_toOption (by decide +kernel))
  have hresolution : foreignResolution ['r'] ['x'] ∈ storedEvents preempted.store :=
    @hfind ['r'] _ (eq_ok_of_toOption (by decide +kernel))
  refine ⟨⟨_, _, _, run_after_of_allSucceed ?_ (by decide +kernel)⟩, hevent,
    eq_ok_of_toOption (by decide +kernel), fun h => ?_⟩
  · simp [IsOrdinary]
  · have hcopy := h.closed _ hresolution _ hevent rfl (names_foreignResolution _ (by decide))
    have hindex := hL.represents.get_eventIDKey (hL.represents.mem_storedEvents_iff.mp hcopy)
    have hnone : preempted.store.get (eventIDKey (recoveredCopy (localEvent ['x'] ['1'] 3)).network
        (recoveredCopy (localEvent ['x'] ['1'] 3)).id) = none := by decide +kernel
    rw [hnone] at hindex
    cases hindex

end Daemon

end Thalweg
