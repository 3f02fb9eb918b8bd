import Mathlib.Data.Prod.Lex
import Thalweg.Daemon.SiphonRecords

/-!
# The public requests on durable siphons

The siphons whose names start with the reserved prefix belong to the registry runtime. A public
request is out of their reach if it leaves their records and if the daemon answers as if they did
not exist.

* `handlePublicSiphon`: the four public requests.
* `Daemon.OutOfReach`: a sequence of requests neither changes nor reveals a reserved siphon.
* `Daemon.Reachable.outOfReach_iff`: this holds exactly if none of the requests polls or
  acknowledges a reserved siphon; these two requests do not look at the prefix.
-/

namespace Thalweg

open Relation

/-- The start of the names of the registry's siphons. -/
def registryReservedPrefix : Text := "thalweg.registry.v1.".toList

/-- The public requests on durable siphons. The last arguments of a poll are the random parts of
delivery IDs, one for each time it wakes, and whether the daemon is closed meanwhile. -/
inductive PublicSiphonRequest where
  | durableSiphonCreate (network name : Text) (streams : List Text) (start : Text)
  | durableSiphonList (network : Text)
  | durableSiphonPoll (network name : Text) (limit waitMillis : Int) (random : Text) (closed : Bool)
      (wakes : List Text)
  | durableSiphonAck (network name deliveryID : Text)

/-- The answers to public requests on durable siphons. -/
inductive PublicSiphonAnswer where
  | info (info : DurableSiphonInfo)
  | infos (infos : List DurableSiphonInfo)
  | delivery (delivery : DurableSiphonDelivery)

/-- Answer a public request. -/
def Daemon.handlePublicSiphon (d : Daemon) : PublicSiphonRequest → Result PublicSiphonAnswer × Daemon
  | .durableSiphonCreate network name streams start =>
    if registryReservedPrefix <+: name then
      (errorf "durable siphon names beginning with %q are reserved" [registryReservedPrefix], d)
    else
      let r := d.createDurableSiphon network name streams start
      (r.1.map .info, r.2)
  | .durableSiphonList network =>
    ((d.listDurableSiphons network).map fun infos => .infos
      (infos.filter fun info => !registryReservedPrefix.isPrefixOf info.name), d)
  | .durableSiphonPoll network name limit waitMillis random closed wakes =>
    if waitMillis < 0 ∨ 25000 < waitMillis then
      (errorf "waitMillis must be between 0 and 25000" [], d)
    else
      let r := d.waitForDurableSiphon network name limit waitMillis random closed wakes
      (r.1.map .delivery, r.2)
  | .durableSiphonAck network name deliveryID =>
    let r := d.acknowledgeDurableSiphon network name deliveryID
    (r.1.map .info, r.2)

/-! ### Reach -/

/-- The key of a reserved siphon. -/
def IsReservedKey (key : Text) : Prop :=
  ∃ network name, registryReservedPrefix <+: name ∧ key = durableSiphonKey network name

/-- The second store lacks some, or all, of the reserved siphons. -/
def LacksReserved (store store' : Store) : Prop :=
  ∀ key, store'.get key = store.get key ∨ IsReservedKey key ∧ store'.get key = none

namespace Daemon

/-- The request neither changes nor reveals a reserved siphon: the answer is the same on a daemon
without it. -/
structure OutOfReachOf (d : Daemon) (request : PublicSiphonRequest) : Prop where
  unchanged : ∀ key, IsReservedKey key →
    (d.handlePublicSiphon request).2.store.get key = d.store.get key
  unrevealed : ∀ store, LacksReserved d.store store →
    (handlePublicSiphon { d with store } request).1 = (d.handlePublicSiphon request).1

/-- None of the requests, one after the other, changes or reveals a reserved siphon. -/
def OutOfReach : Daemon → List PublicSiphonRequest → Prop
  | _, [] => True
  | d, request :: requests =>
    d.OutOfReachOf request ∧ OutOfReach (d.handlePublicSiphon request).2 requests

/-- The request is a valid poll or acknowledgement of a reserved siphon that exists. -/
def NamesReserved (d : Daemon) : PublicSiphonRequest → Prop
  | .durableSiphonCreate .. | .durableSiphonList _ => False
  | .durableSiphonPoll network name limit waitMillis _ _ _ =>
    registryReservedPrefix <+: name ∧ 0 ≤ waitMillis ∧ waitMillis ≤ 25000 ∧ 0 ≤ limit ∧
      limit ≤ durableSiphonMaxBatch ∧ (d.store.get (durableSiphonKey network name)).isSome
  | .durableSiphonAck network name deliveryID =>
    registryReservedPrefix <+: name ∧ Text.trimSpace deliveryID ≠ [] ∧
      (d.store.get (durableSiphonKey network name)).isSome

end Daemon

/-! ### Stores without reserved siphons -/

theorem keyFamily_of_isReservedKey {key : Text} (h : IsReservedKey key) :
    keyFamily key = .durableSiphon := by
  obtain ⟨network, name, -, rfl⟩ := h
  exact keyFamily_durableSiphonKey network name

@[simp] theorem isReservedKey_durableSiphonKey {network name : Text} :
    IsReservedKey (durableSiphonKey network name) ↔ registryReservedPrefix <+: name := by
  constructor
  · rintro ⟨network', name', hname, hkey⟩
    rwa [(durableSiphonKey_inj.mp hkey).2]
  · exact fun hname => ⟨network, name, hname, rfl⟩

namespace LacksReserved

variable {store store' : Store}

theorem refl (store : Store) : LacksReserved store store := fun _ => Or.inl rfl

/-- A siphon that does not exist does not exist without reserved siphons either. -/
theorem get_eq_none (h : LacksReserved store store') {key : Text} (hnone : store.get key = none) :
    store'.get key = none := by
  rcases h key with heq | ⟨-, heq⟩
  · rw [heq, hnone]
  · exact heq

theorem get (h : LacksReserved store store') {key : Text} (hkey : ¬ IsReservedKey key) :
    store'.get key = store.get key :=
  (h key).resolve_right fun hreserved => hkey hreserved.1

theorem get_of_keyFamily (h : LacksReserved store store') {key : Text}
    (hkey : keyFamily key ≠ .durableSiphon) : store'.get key = store.get key :=
  h.get fun hreserved => hkey (keyFamily_of_isReservedKey hreserved)

theorem write (h : LacksReserved store store') (definition : DurableSiphonDefinition) :
    LacksReserved (writeDurableSiphon store definition) (writeDurableSiphon store' definition) := by
  intro key
  simp only [writeDurableSiphon, OrderedStore.get_set]
  split_ifs
  · exact Or.inl rfl
  · exact h key

theorem scan (h : LacksReserved store store') {pre seek : Text} (hpre : pre <+: seek)
    (hcolon : ':' ∈ pre) (hfamily : keyFamily pre ≠ .durableSiphon) :
    store'.scan pre seek = store.scan pre seek :=
  OrderedStore.scan_congr hpre fun key hkey =>
    h.get_of_keyFamily (by rwa [keyFamily_of_isPrefix hcolon hkey])

theorem conflictResolutionsTxn (h : LacksReserved store store') (networkName : Text) :
    conflictResolutionsTxn store' networkName = conflictResolutionsTxn store networkName := by
  have hscan : store'.scan (eventStreamPrefix networkName conflictResolutionStream) _ = _ :=
    h.scan List.prefix_rfl (by simp [eventStreamPrefix]) (by simp)
  simp only [Thalweg.conflictResolutionsTxn, hscan]

theorem readEventAtKey (h : LacksReserved store store') {key : Text} (hkey : keyFamily key = .event) :
    readEventAtKey store' key = readEventAtKey store key := by
  unfold Thalweg.readEventAtKey
  rw [h.get_of_keyFamily (by simp [hkey])]

theorem readEventsAtKeys (h : LacksReserved store store') {keys : List Text}
    (hkeys : ∀ key ∈ keys, keyFamily key = .event) :
    readEventsAtKeys store' keys = readEventsAtKeys store keys := by
  induction keys with
  | nil => rfl
  | cons key keys ih =>
    obtain ⟨hkey, hkeys⟩ := List.forall_mem_cons.mp hkeys
    simp only [Thalweg.readEventsAtKeys, h.readEventAtKey hkey, ih hkeys]

theorem selectArrivals (h : LacksReserved store store') {entries : List (Text × Text)}
    (hentries : ∀ entry ∈ entries, keyFamily entry.2 = .event)
    (resolutions : List (Text × ThalwegEvent)) (definition : DurableSiphonDefinition) (limit : Nat)
    (taken : List Text) (through : UInt64) :
    selectArrivals store' resolutions definition limit taken through entries =
      selectArrivals store resolutions definition limit taken through entries := by
  induction entries generalizing taken through with
  | nil => rfl
  | cons entry entries ih =>
    obtain ⟨hentry, hentries⟩ := List.forall_mem_cons.mp hentries
    simp only [Thalweg.selectArrivals, h.readEventAtKey hentry, ih hentries]

theorem readArrivalSequence (h : LacksReserved store store') :
    readArrivalSequence store' = readArrivalSequence store := by
  unfold Thalweg.readArrivalSequence
  rw [h.get_of_keyFamily (by simp)]

theorem readDurableSiphon (h : LacksReserved store store') {network name : Text}
    (hname : ¬ registryReservedPrefix <+: name) :
    readDurableSiphon store' network name = readDurableSiphon store network name := by
  unfold Thalweg.readDurableSiphon
  rw [h.get (by rwa [isReservedKey_durableSiphonKey])]

theorem durableDeliveryFromDefinition (h : LacksReserved store store')
    {definition : DurableSiphonDefinition} (hwell : definition.WellFormed) :
    durableDeliveryFromDefinition store' definition =
      durableDeliveryFromDefinition store definition := by
  unfold Thalweg.durableDeliveryFromDefinition
  cases hpending : definition.pending with
  | none => rfl
  | some pending => simp only [h.readEventsAtKeys (hwell.pending pending hpending).keys_event]

end LacksReserved

/-! ### Requests on other siphons -/

namespace Daemon

variable {d : Daemon} {store : Store} {network name : Text}

theorem createDurableSiphon_lacksReserved (h : LacksReserved d.store store)
    (hname : ¬ registryReservedPrefix <+: name) (streams : List Text) (start : Text) :
    (createDurableSiphon { d with store } network name streams start).1 =
      (d.createDurableSiphon network name streams start).1 := by
  unfold createDurableSiphon
  simp only [h.readDurableSiphon hname, h.readArrivalSequence, clockNow]
  repeat' split
  all_goals rfl

theorem acknowledgeDurableSiphon_lacksReserved
    (hread : readDurableSiphon store network name = readDurableSiphon d.store network name)
    (deliveryID : Text) :
    (acknowledgeDurableSiphon { d with store } network name deliveryID).1 =
      (d.acknowledgeDurableSiphon network name deliveryID).1 := by
  unfold acknowledgeDurableSiphon
  simp only [hread, clockNow]
  repeat' split
  all_goals rfl

/-- The results of a call on two daemons of which the second lacks reserved siphons. -/
def SameResults {α : Type} (r r' : Result α × Daemon) : Prop :=
  r'.1 = r.1 ∧ ∃ store, LacksReserved r.2.store store ∧ r'.2 = { r.2 with store }

theorem pendDurableDelivery_lacksReserved (hlead : ArrivalsLead d.store)
    (h : LacksReserved d.store store) (definition : DurableSiphonDefinition) (limit : Nat)
    (random : Text) :
    (∃ e, d.pendDurableDelivery definition limit random = .error e ∧
      pendDurableDelivery { d with store } definition limit random = .error e) ∨
    ∃ store₁ store₂ definition', LacksReserved store₁ store₂ ∧
      d.pendDurableDelivery definition limit random = .ok (store₁, definition') ∧
      pendDurableDelivery { d with store } definition limit random = .ok (store₂, definition') := by
  unfold pendDurableDelivery
  cases definition.pending with
  | some pending => exact Or.inr ⟨_, _, _, h.write _, rfl, rfl⟩
  | none =>
    have hscan : store.scan (arrivalIndexPrefix definition.network)
        (arrivalIndexKey definition.network (definition.cursor + 1)) = _ :=
      h.scan (List.prefix_append _ _) (colon_mem_arrivalIndexPrefix _)
        (by simp [keyFamily_arrivalIndexPrefix])
    simp only [prepareDurableDelivery, h.conflictResolutionsTxn, hscan,
      h.selectArrivals hlead.of_mem_scan, clockNow]
    cases conflictResolutionsTxn d.store definition.network with
    | error e => exact Or.inl ⟨e, rfl, rfl⟩
    | ok resolutions =>
      simp only [bind, Except.bind]
      cases selectArrivals d.store resolutions definition limit [] definition.cursor
          (d.store.scan (arrivalIndexPrefix definition.network)
            (arrivalIndexKey definition.network (definition.cursor + 1))) with
      | error e => exact Or.inl ⟨e, rfl, rfl⟩
      | ok selected =>
        simp only
        split_ifs
        · exact Or.inr ⟨_, _, _, h.write _, rfl, rfl⟩
        · exact Or.inr ⟨_, _, _, h, rfl, rfl⟩
        · exact Or.inr ⟨_, _, _, h.write _, rfl, rfl⟩

theorem pollDurableSiphon_lacksReserved (hlead : ArrivalsLead d.store)
    (hfiled : SiphonsFiled d.store) (h : LacksReserved d.store store)
    (hread : readDurableSiphon store network name = readDurableSiphon d.store network name)
    (limit : Int) (random : Text) :
    SameResults (d.pollDurableSiphon network name limit random)
      (pollDurableSiphon { d with store } network name limit random) := by
  unfold pollDurableSiphon
  simp only [hread]
  generalize (if limit = 0 then durableSiphonDefaultBatch else limit) = limit
  split_ifs
  · exact ⟨rfl, store, h, rfl⟩
  cases hsiphon : readDurableSiphon d.store network name with
  | error e => exact ⟨rfl, store, h, rfl⟩
  | ok found =>
    cases found with
    | none => exact ⟨rfl, store, h, rfl⟩
    | some definition =>
      rcases pendDurableDelivery_lacksReserved hlead h definition limit.toNat random with
        ⟨e, h1, h2⟩ | ⟨store₁, store₂, definition', hlacks, h1, h2⟩
      · simp only [h1, h2]
        exact ⟨rfl, store, h, rfl⟩
      · have hwell := (pendDurableDelivery_cases hlead (hfiled.of_read hsiphon).1 h1).1
        simp only [h1, h2, hlacks.durableDeliveryFromDefinition hwell]
        split
        · exact ⟨rfl, store, h, rfl⟩
        · exact ⟨rfl, store₂, hlacks, rfl⟩

theorem awaitDurableDelivery_lacksReserved (hname : ¬ registryReservedPrefix <+: name) (limit : Int)
    (closed : Bool) (wakes : List Text) (random : Text) (hlead : ArrivalsLead d.store)
    (hfiled : SiphonsFiled d.store) (h : LacksReserved d.store store) :
    SameResults (awaitDurableDelivery network name limit closed wakes random d)
      (awaitDurableDelivery network name limit closed wakes random { d with store }) := by
  induction wakes generalizing d store random with
  | nil =>
    obtain ⟨hsame, store', hlacks, hd⟩ :=
      pollDurableSiphon_lacksReserved hlead hfiled h (h.readDurableSiphon hname) limit random
    unfold awaitDurableDelivery
    cases hpoll : d.pollDurableSiphon network name limit random with
    | mk res d₁ =>
      rw [hpoll] at hsame hlacks hd
      rw [show pollDurableSiphon { d with store } network name limit random =
        (res, { d₁ with store := store' }) from Prod.ext hsame hd]
      cases res with
      | error e => exact ⟨rfl, store', hlacks, rfl⟩
      | ok delivery =>
        simp only
        split_ifs <;> exact ⟨rfl, store', hlacks, rfl⟩
  | cons wake wakes ih =>
    obtain ⟨hsame, store', hlacks, hd⟩ :=
      pollDurableSiphon_lacksReserved hlead hfiled h (h.readDurableSiphon hname) limit random
    have hwrites := pollDurableSiphon_writesOnly hlead hfiled network name limit random
    unfold awaitDurableDelivery
    cases hpoll : d.pollDurableSiphon network name limit random with
    | mk res d₁ =>
      rw [hpoll] at hsame hlacks hd hwrites
      rw [show pollDurableSiphon { d with store } network name limit random =
        (res, { d₁ with store := store' }) from Prod.ext hsame hd]
      cases res with
      | error e => exact ⟨rfl, store', hlacks, rfl⟩
      | ok delivery =>
        simp only
        split_ifs
        · exact ⟨rfl, store', hlacks, rfl⟩
        · exact ih wake (hwrites.arrivalsLead hlead) (hwrites.siphonsFiled hfiled) hlacks

end Daemon

/-! ### Lists -/

/-- Elements can be left out before or after a list is sorted. -/
theorem filter_insertionSort {α : Type*} (r : α → α → Prop) [DecidableRel r] [Std.Total r]
    [IsTrans α r] (p : α → Bool) (l : List α) :
    (l.insertionSort r).filter p = (l.filter p).insertionSort r := by
  have hfirst : ∀ (a : α) (l : List α), (∀ b ∈ l, r a b) → l.orderedInsert r a = a :: l := by
    intro a l hl
    cases l with
    | nil => rfl
    | cons b l => exact List.orderedInsert_cons_of_le r l (hl b (by simp))
  have hinsert : ∀ (a : α) (l : List α), l.Pairwise r → (l.orderedInsert r a).filter p =
      if p a then (l.filter p).orderedInsert r a else l.filter p := by
    intro a l hl
    induction l with
    | nil => by_cases ha : p a <;> simp [ha]
    | cons b l ih =>
      obtain ⟨hb, hl⟩ := List.pairwise_cons.mp hl
      by_cases hab : r a b
      · have hall : ∀ c ∈ b :: l, r a c := by
          intro c hc
          rcases List.mem_cons.mp hc with rfl | hc
          · exact hab
          · exact trans_of r hab (hb c hc)
        rw [List.orderedInsert_cons, if_pos hab, List.filter_cons,
          hfirst a _ fun c hc => hall c (List.mem_filter.mp hc).1]
      · rw [List.orderedInsert_cons, if_neg hab, List.filter_cons, ih hl, List.filter_cons]
        by_cases hpb : p b <;> by_cases hpa : p a <;> simp [hpa, hpb, hab]
  induction l with
  | nil => rfl
  | cons a l ih =>
    rw [List.insertionSort_cons, hinsert a _ (List.pairwise_insertionSort r l), ih,
      List.filter_cons]
    split_ifs <;> rfl

open scoped Classical in
/-- The siphons of a scan without the reserved ones. -/
theorem exists_durableSiphonInfos {store : Store} (hfiled : SiphonsFiled store)
    {entries : List (Text × Text)}
    (hentries : ∀ e ∈ entries, keyFamily e.1 = .durableSiphon ∧ store.get e.1 = some e.2) :
    ∃ infos, durableSiphonInfos entries = .ok infos ∧
      durableSiphonInfos (entries.filter fun e => decide (¬ IsReservedKey e.1)) =
        .ok (infos.filter fun info => !registryReservedPrefix.isPrefixOf info.name) := by
  induction entries with
  | nil => exact ⟨[], rfl, rfl⟩
  | cons entry entries ih =>
    obtain ⟨⟨hfamily, hget⟩, hentries⟩ := List.forall_mem_cons.mp hentries
    obtain ⟨infos, hinfos, hkept⟩ := ih hentries
    obtain ⟨definition, hwell, hkey, hvalue⟩ := hfiled _ _ hfamily hget
    have hdecode : decodeDurableSiphon entry.2 = .ok definition := by
      rw [hvalue, decodeDurableSiphon_marshalDurableSiphon hwell]
    refine ⟨definition.info :: infos, by simp only [durableSiphonInfos, hdecode, hinfos]; rfl, ?_⟩
    have hname : definition.info.name = definition.name := rfl
    by_cases hreserved : registryReservedPrefix <+: definition.name
    · have hdrop : ¬ decide (¬ IsReservedKey entry.1) = true := by simpa [hkey] using hreserved
      rw [List.filter_cons_of_neg (by exact hdrop), hkept, List.filter_cons_of_neg]
      simpa [hname] using hreserved
    · have hkeep : decide (¬ IsReservedKey entry.1) = true := by simpa [hkey] using hreserved
      rw [List.filter_cons_of_pos (by exact hkeep), List.filter_cons_of_pos]
      · simp only [durableSiphonInfos, hdecode, hkept]
        rfl
      · simpa [hname, ← List.isPrefixOf_iff_prefix] using hreserved

namespace Daemon

variable {d : Daemon} {store : Store}

open scoped Classical in
/-- Without the reserved siphons, the list is the same whether they exist or not. -/
theorem listDurableSiphons_lacksReserved (hfiled : SiphonsFiled d.store)
    (h : LacksReserved d.store store) (network : Text) :
    (listDurableSiphons { d with store } network).map
        (List.filter fun info => !registryReservedPrefix.isPrefixOf info.name) =
      (d.listDurableSiphons network).map
        (List.filter fun info => !registryReservedPrefix.isPrefixOf info.name) := by
  have hfiled' : SiphonsFiled store := hfiled.of_get fun key _ => (h key).imp_right And.right
  have hentries : ∀ store : Store, ∀ e ∈ store.scan (durableSiphonPrefix network)
      (durableSiphonPrefix network), keyFamily e.1 = .durableSiphon ∧ store.get e.1 = some e.2 := by
    intro store e he
    obtain ⟨hget, -, hpre⟩ := (store.mem_scan_iff List.prefix_rfl).mp he
    rw [keyFamily_of_isPrefix (colon_mem_durableSiphonPrefix network) hpre]
    exact ⟨keyFamily_durableSiphonPrefix network, hget⟩
  obtain ⟨infos, hinfos, hkept⟩ := exists_durableSiphonInfos hfiled (hentries d.store)
  obtain ⟨infos', hinfos', hkept'⟩ := exists_durableSiphonInfos hfiled' (hentries store)
  have hscan : (store.scan (durableSiphonPrefix network) (durableSiphonPrefix network)).filter
        (fun e => decide (¬ IsReservedKey e.1)) =
      (d.store.scan (durableSiphonPrefix network) (durableSiphonPrefix network)).filter
        fun e => decide (¬ IsReservedKey e.1) := by
    have hirrefl : Std.Irrefl fun a b : Text × Text => a.1 < b.1 := ⟨fun a => lt_irrefl a.1⟩
    have hanti : Std.Antisymm fun a b : Text × Text => a.1 < b.1 :=
      ⟨fun a b hab hba => absurd hab hba.asymm⟩
    refine ((store.sorted_scan _ _).filter _).eq_of_mem_iff ((d.store.sorted_scan _ _).filter _)
      fun e => ?_
    rw [← Prod.mk.eta (p := e), List.mem_filter, List.mem_filter, store.mem_scan_iff List.prefix_rfl,
      d.store.mem_scan_iff List.prefix_rfl]
    refine and_congr_left fun hreserved => ?_
    rw [h.get (by simpa using hreserved)]
  have hfilter : (infos'.filter fun info => !registryReservedPrefix.isPrefixOf info.name) =
      infos.filter fun info => !registryReservedPrefix.isPrefixOf info.name := by
    rw [hscan, hkept] at hkept'
    exact (Except.ok.inj hkept').symm
  have hlex : ∀ a b : DurableSiphonInfo, (a.network < b.network ∨
      a.network = b.network ∧ a.name ≤ b.name) ↔ toLex (a.network, a.name) ≤ toLex (b.network, b.name) :=
    fun a b => by rw [Prod.Lex.toLex_le_toLex]
  have htotal : Std.Total fun a b : DurableSiphonInfo =>
      a.network < b.network ∨ a.network = b.network ∧ a.name ≤ b.name :=
    ⟨fun a b => by simpa only [hlex] using le_total _ _⟩
  have htrans : IsTrans DurableSiphonInfo fun a b =>
      a.network < b.network ∨ a.network = b.network ∧ a.name ≤ b.name :=
    ⟨fun a b c => by simpa only [hlex] using le_trans⟩
  have hlist : ∀ {store : Store} {xs}, durableSiphonInfos (store.scan (durableSiphonPrefix network)
      (durableSiphonPrefix network)) = .ok xs → listDurableSiphons { d with store } network =
        .ok (xs.insertionSort _) := fun hxs => by
    simp only [listDurableSiphons, hxs]
    rfl
  rw [hlist hinfos', show listDurableSiphons d network = _ from hlist hinfos]
  simp only [Except.map, filter_insertionSort, hfilter]

/-! ### Requests -/

variable {network name : Text}

/-- A poll that waits ends with the answer of its last poll, unless the daemon is closed. What every
poll keeps holds before the last one. -/
theorem awaitDurableDelivery_last {p : Daemon → Prop} {limit : Int}
    (hp : ∀ d random, p d → p (d.pollDurableSiphon network name limit random).2) (closed : Bool)
    (wakes : List Text) (random : Text) (hd : p d) :
    ∃ d₁ random₁, p d₁ ∧
      (awaitDurableDelivery network name limit closed wakes random d).2 =
        (d₁.pollDurableSiphon network name limit random₁).2 ∧
      ((awaitDurableDelivery network name limit closed wakes random d).1 =
          (d₁.pollDurableSiphon network name limit random₁).1 ∨
        (awaitDurableDelivery network name limit closed wakes random d).1 =
          .error (.external "context")) := by
  induction wakes generalizing d random with
  | nil =>
    refine ⟨d, random, hd, ?_⟩
    unfold awaitDurableDelivery
    split
    · next hres => simp [hres]
    · next hres =>
      simp only
      split_ifs <;> simp [hres]
  | cons wake wakes ih =>
    have hnext := hp d random hd
    unfold awaitDurableDelivery
    split
    · next hres => exact ⟨d, random, hd, by simp [hres]⟩
    · next hres =>
      rw [hres] at hnext
      simp only
      split_ifs
      · exact ⟨d, random, hd, by simp [hres]⟩
      · exact ih wake hnext

/-- A public request is a run of the daemon. -/
theorem run_handlePublicSiphon (d : Daemon) (request : PublicSiphonRequest) :
    Run anyStep d (d.handlePublicSiphon request).2 := by
  have hpoll : ∀ (d : Daemon) network name limit random,
      Step anyStep d (d.pollDurableSiphon network name limit random).2 :=
    fun d network name limit random =>
      ⟨.pollDurableSiphon network name limit random, _, ⟨0, rfl⟩, trivial⟩
  cases request with
  | durableSiphonCreate network name streams start =>
    simp only [handlePublicSiphon]
    split_ifs
    · exact ReflTransGen.refl
    · exact ReflTransGen.single
        ⟨.createDurableSiphon network name streams start, _, ⟨0, rfl⟩, trivial⟩
  | durableSiphonList network => exact ReflTransGen.refl
  | durableSiphonPoll network name limit waitMillis random closed wakes =>
    simp only [handlePublicSiphon, waitForDurableSiphon]
    split_ifs
    · exact ReflTransGen.refl
    · exact ReflTransGen.single (hpoll _ _ _ _ _)
    · obtain ⟨d₁, random₁, hrun, hlast, -⟩ := awaitDurableDelivery_last (p := Run anyStep d)
        (fun d₁ random hrun => hrun.tail (hpoll d₁ network name limit random)) closed wakes random
        ReflTransGen.refl
      rw [hlast]
      exact hrun.tail (hpoll d₁ network name limit random₁)
  | durableSiphonAck network name deliveryID =>
    exact ReflTransGen.single
      ⟨.acknowledgeDurableSiphon network name deliveryID, _, ⟨0, rfl⟩, trivial⟩

/-- The error of a request on a siphon that does not exist. -/
def notRegistered (network name : Text) : Failure :=
  .errorf "durable siphon %q is not registered in network %q" [name, network]

theorem readEventAtKey_ne_notRegistered {store : Store} {key : Text} :
    readEventAtKey store key ≠ .error (notRegistered network name) := by
  unfold readEventAtKey notRegistered
  split
  · simp [errorf]
  · cases decodeEvent _ <;> simp [wrapf]

theorem readEventsAtKeys_ne_notRegistered {store : Store} {keys : List Text} :
    readEventsAtKeys store keys ≠ .error (notRegistered network name) := by
  induction keys with
  | nil => nofun
  | cons key keys ih =>
    rw [readEventsAtKeys, Ne, bind_eq_error_iff]
    rintro (herr | ⟨event, -, herr⟩)
    · exact readEventAtKey_ne_notRegistered herr
    · rcases bind_eq_error_iff.mp herr with herr | ⟨events, -, ⟨⟩⟩
      exact ih herr

theorem selectArrivals_ne_notRegistered {store : Store} {resolutions : List (Text × ThalwegEvent)}
    {definition : DurableSiphonDefinition} {limit : Nat} {taken : List Text} {through : UInt64}
    {entries : List (Text × Text)} :
    selectArrivals store resolutions definition limit taken through entries ≠
      .error (notRegistered network name) := by
  induction entries generalizing taken through with
  | nil => nofun
  | cons entry entries ih =>
    rw [selectArrivals, Ne, bind_eq_error_iff]
    rintro (herr | ⟨through, -, herr⟩)
    · unfold arrivalSequenceFromKey notRegistered at herr
      split_ifs at herr
      · simp [errorf] at herr
      · split at herr <;> simp at herr
    · rcases bind_eq_error_iff.mp herr with herr | ⟨event, -, herr⟩
      · exact readEventAtKey_ne_notRegistered herr
      · split_ifs at herr
        · exact ih herr
        · exact ih herr

theorem pendDurableDelivery_ne_notRegistered {L : Ledger} (h : d.Holds L)
    (definition : DurableSiphonDefinition) (limit : Nat) (random : Text) :
    d.pendDurableDelivery definition limit random ≠ .error (notRegistered network name) := by
  unfold pendDurableDelivery
  split
  · obtain ⟨resolutions, hresolutions, -⟩ :=
      h.represents.conflictResolutionsTxn_spec definition.network
    rw [prepareDurableDelivery, hresolutions, Ne, bind_eq_error_iff]
    rintro (⟨⟨⟩⟩ | ⟨resolutions, -, herr⟩)
    rcases bind_eq_error_iff.mp herr with herr | ⟨selected, -, herr⟩
    · exact selectArrivals_ne_notRegistered herr
    · simp only at herr
      split_ifs at herr
  · simp

theorem durableDeliveryFromDefinition_ne_notRegistered {store : Store}
    {definition : DurableSiphonDefinition} :
    durableDeliveryFromDefinition store definition ≠ .error (notRegistered network name) := by
  unfold durableDeliveryFromDefinition
  split
  · nofun
  · rw [Ne, bind_eq_error_iff]
    rintro (herr | ⟨events, -, ⟨⟩⟩)
    exact readEventsAtKeys_ne_notRegistered herr

/-- A poll of a siphon that exists does not answer that it does not. -/
theorem pollDurableSiphon_ne_notRegistered (hfiled : SiphonsFiled d.store) {L : Ledger}
    (h : d.Holds L) (hsome : (d.store.get (durableSiphonKey network name)).isSome) (limit : Int)
    (random : Text) :
    (d.pollDurableSiphon network name limit random).1 ≠ .error (notRegistered network name) := by
  rcases hfiled.read_cases network name with ⟨hnone, -⟩ | ⟨definition, -, -, -, -, hread⟩
  · simp [hnone] at hsome
  simp only [pollDurableSiphon, hread]
  generalize (if limit = 0 then durableSiphonDefaultBatch else limit) = limit
  split
  · simp [errorf, notRegistered]
  split
  · next e herr =>
    exact fun heq => pendDurableDelivery_ne_notRegistered h definition limit.toNat random
      (herr.trans (congrArg Except.error (Except.error.inj heq)))
  split
  · next e herr =>
    exact fun heq => durableDeliveryFromDefinition_ne_notRegistered
      (herr.trans (congrArg Except.error (Except.error.inj heq)))
  · simp

theorem isSome_of_writesOnly {store store' : Store} (h : WritesOnly network name store store')
    (hsome : (store.get (durableSiphonKey network name)).isSome) :
    (store'.get (durableSiphonKey network name)).isSome := by
  rcases h with rfl | ⟨definition, -, rfl, rfl, rfl⟩
  · exact hsome
  · simp [writeDurableSiphon]

theorem awaitDurableDelivery_ne_notRegistered (limit : Int) (closed : Bool) (wakes : List Text)
    (random : Text) (h : d.Reachable)
    (hsome : (d.store.get (durableSiphonKey network name)).isSome) :
    (awaitDurableDelivery network name limit closed wakes random d).1 ≠
      .error (notRegistered network name) := by
  have hkeep : ∀ (d : Daemon) (random : Text),
      d.Reachable ∧ (d.store.get (durableSiphonKey network name)).isSome →
      (d.pollDurableSiphon network name limit random).2.Reachable ∧
        ((d.pollDurableSiphon network name limit random).2.store.get
          (durableSiphonKey network name)).isSome := by
    rintro d random ⟨h, hsome⟩
    obtain ⟨L, hL⟩ := h.exists_holds.1
    have hwrites := pollDurableSiphon_writesOnly hL.represents.arrivalsLead h.siphonsFiled network
      name limit random
    exact ⟨ReachableBy.run h (ReflTransGen.single
      ⟨.pollDurableSiphon network name limit random, _, ⟨0, rfl⟩, trivial⟩),
      isSome_of_writesOnly hwrites hsome⟩
  obtain ⟨d₁, random₁, ⟨hd₁, hsome₁⟩, -, hlast⟩ :=
    awaitDurableDelivery_last hkeep closed wakes random ⟨h, hsome⟩
  obtain ⟨L, hL⟩ := hd₁.exists_holds.1
  rcases hlast with hlast | hlast <;> rw [hlast]
  · exact pollDurableSiphon_ne_notRegistered hd₁.siphonsFiled hL hsome₁ limit random₁
  · simp [notRegistered]

theorem get_waitForDurableSiphon (hlead : ArrivalsLead d.store) (hfiled : SiphonsFiled d.store)
    {limit wait : Int} {random : Text} {closed : Bool} {wakes : List Text} {key : Text}
    (hkey : key ≠ durableSiphonKey network name) :
    (d.waitForDurableSiphon network name limit wait random closed wakes).2.store.get key =
      d.store.get key := by
  unfold waitForDurableSiphon
  split_ifs
  · exact (pollDurableSiphon_writesOnly hlead hfiled network name limit random).get hkey
  · obtain ⟨d₁, random₁, ⟨hlead₁, hfiled₁, hget⟩, hlast, -⟩ := awaitDurableDelivery_last
      (p := fun d₁ => ArrivalsLead d₁.store ∧ SiphonsFiled d₁.store ∧
        d₁.store.get key = d.store.get key) (fun d₁ random ⟨hlead, hfiled, hget⟩ =>
          have hwrites := pollDurableSiphon_writesOnly hlead hfiled network name limit random
          ⟨hwrites.arrivalsLead hlead, hwrites.siphonsFiled hfiled, (hwrites.get hkey).trans hget⟩)
      closed wakes random ⟨hlead, hfiled, rfl⟩
    rw [hlast, ← hget]
    exact (pollDurableSiphon_writesOnly hlead₁ hfiled₁ network name limit random₁).get hkey

theorem map_ne_error {α β : Type} {f : α → β} {x : Result α} {e : Failure} (h : x ≠ .error e) :
    x.map f ≠ .error e := by
  cases x with
  | ok a => nofun
  | error err => exact fun heq => h (congrArg Except.error (Except.error.inj heq))

/-- A store without one reserved siphon. -/
theorem lacksReserved_delete (store : Store) (network : Text) (hname : registryReservedPrefix <+: name) :
    LacksReserved store (store.delete (durableSiphonKey network name)) := by
  intro key
  rw [OrderedStore.get_delete]
  split_ifs with hkey
  · exact Or.inr ⟨⟨network, name, hname, hkey⟩, rfl⟩
  · exact Or.inl rfl

theorem readDurableSiphon_delete (store : Store) (network name : Text) :
    readDurableSiphon (store.delete (durableSiphonKey network name)) network name = .ok none := by
  rw [readDurableSiphon, OrderedStore.get_delete, if_pos rfl]

theorem pollDurableSiphon_delete (d : Daemon) (network name : Text) {limit : Int} (random : Text)
    (hlow : 0 ≤ limit) (hhigh : limit ≤ durableSiphonMaxBatch) :
    pollDurableSiphon { d with store := d.store.delete (durableSiphonKey network name) } network name
      limit random = (.error (notRegistered network name),
        { d with store := d.store.delete (durableSiphonKey network name) }) := by
  have hlimit : ¬ ((if limit = 0 then durableSiphonDefaultBatch else limit) < 1 ∨
      durableSiphonMaxBatch < if limit = 0 then durableSiphonDefaultBatch else limit) := by
    unfold durableSiphonMaxBatch durableSiphonDefaultBatch at *
    split_ifs <;> omega
  simp only [pollDurableSiphon, if_neg hlimit, readDurableSiphon_delete]
  rfl

/-- A valid poll or acknowledgement of a reserved siphon reveals it at least. -/
theorem not_outOfReachOf_of_namesReserved (h : d.Reachable) {request : PublicSiphonRequest}
    (hnames : d.NamesReserved request) : ¬ d.OutOfReachOf request := by
  intro hout
  obtain ⟨L, hL⟩ := h.exists_holds.1
  cases request with
  | durableSiphonCreate | durableSiphonList => exact hnames
  | durableSiphonPoll network name limit waitMillis random closed wakes =>
    obtain ⟨hname, hwait, hwait', hlow, hhigh, hsome⟩ := hnames
    have hreveal := hout.unrevealed _ (lacksReserved_delete d.store network hname)
    have hpoll := pollDurableSiphon_delete d network name random hlow hhigh
    have hvalid : ¬ (waitMillis < 0 ∨ 25000 < waitMillis) := by omega
    simp only [handlePublicSiphon, if_neg hvalid, waitForDurableSiphon] at hreveal
    split_ifs at hreveal
    · rw [hpoll] at hreveal
      exact map_ne_error (pollDurableSiphon_ne_notRegistered h.siphonsFiled hL hsome limit random)
        hreveal.symm
    · have hawait : (awaitDurableDelivery network name limit closed wakes random
          { d with store := d.store.delete (durableSiphonKey network name) }).1 =
            .error (notRegistered network name) := by
        unfold awaitDurableDelivery
        rw [hpoll]
      rw [hawait] at hreveal
      exact map_ne_error (awaitDurableDelivery_ne_notRegistered limit closed wakes random h hsome)
        hreveal.symm
  | durableSiphonAck network name deliveryID =>
    obtain ⟨hname, hid, hsome⟩ := hnames
    have hreveal := hout.unrevealed _ (lacksReserved_delete d.store network hname)
    rcases h.siphonsFiled.read_cases network name with ⟨hnone, -⟩ | ⟨definition, -, -, -, -, hread⟩
    · simp [hnone] at hsome
    simp only [handlePublicSiphon, acknowledgeDurableSiphon, if_neg hid, readDurableSiphon_delete,
      hread] at hreveal
    split at hreveal
    · simp [errorf, Except.map] at hreveal
    · split_ifs at hreveal
      · simp [errorf, Except.map] at hreveal
      · simp [errorf, Except.map] at hreveal

/-- An invalid poll, or one of a siphon that does not exist, fails in the same way. -/
theorem exists_pollDurableSiphon_eq_error {limit : Int} (random : Text)
    (h : 0 ≤ limit → limit ≤ durableSiphonMaxBatch →
      d.store.get (durableSiphonKey network name) = none) :
    ∃ e, ∀ store, LacksReserved d.store store →
      pollDurableSiphon { d with store } network name limit random = (.error e, { d with store }) := by
  unfold pollDurableSiphon
  by_cases hlimit : (if limit = 0 then durableSiphonDefaultBatch else limit) < 1 ∨
      durableSiphonMaxBatch < if limit = 0 then durableSiphonDefaultBatch else limit
  · exact ⟨_, fun store _ => if_pos hlimit⟩
  · have hnone : d.store.get (durableSiphonKey network name) = none := by
      unfold durableSiphonMaxBatch durableSiphonDefaultBatch at *
      apply h <;> split_ifs at hlimit <;> omega
    refine ⟨notRegistered network name, fun store hlacks => ?_⟩
    simp only [if_neg hlimit, readDurableSiphon, hlacks.get_eq_none hnone]
    rfl

theorem outOfReachOf_poll (h : d.Reachable) {limit waitMillis : Int} {random : Text} {closed : Bool}
    {wakes : List Text} (hwait : ¬ (waitMillis < 0 ∨ 25000 < waitMillis))
    (hnames : registryReservedPrefix <+: name → 0 ≤ limit → limit ≤ durableSiphonMaxBatch →
      d.store.get (durableSiphonKey network name) = none) :
    d.OutOfReachOf (.durableSiphonPoll network name limit waitMillis random closed wakes) := by
  obtain ⟨L, hL⟩ := h.exists_holds.1
  have hlead := hL.represents.arrivalsLead
  have hfiled := h.siphonsFiled
  by_cases hname : registryReservedPrefix <+: name
  · obtain ⟨e, he⟩ := exists_pollDurableSiphon_eq_error random (hnames hname)
    have hanswer : ∀ store, LacksReserved d.store store →
        waitForDurableSiphon { d with store } network name limit waitMillis random closed wakes =
          (.error e, { d with store }) := by
      intro store hlacks
      unfold waitForDurableSiphon
      split_ifs
      · exact he store hlacks
      · unfold awaitDurableDelivery
        rw [he store hlacks]
    have hself := hanswer d.store (.refl _)
    constructor
    · intro key _
      simp only [handlePublicSiphon, if_neg hwait]
      rw [hself]
    · intro store hlacks
      simp only [handlePublicSiphon, if_neg hwait, hanswer store hlacks]
      rw [hself]
  · have hsame : ∀ store, LacksReserved d.store store → SameResults
        (d.waitForDurableSiphon network name limit waitMillis random closed wakes)
        (waitForDurableSiphon { d with store } network name limit waitMillis random closed wakes) := by
      intro store hlacks
      unfold waitForDurableSiphon
      split_ifs
      · exact pollDurableSiphon_lacksReserved hlead hfiled hlacks (hlacks.readDurableSiphon hname)
          limit random
      · exact awaitDurableDelivery_lacksReserved hname limit closed wakes random hlead hfiled hlacks
    constructor
    · intro key hkey
      simp only [handlePublicSiphon, if_neg hwait]
      refine get_waitForDurableSiphon hlead hfiled ?_
      rintro rfl
      exact hname (isReservedKey_durableSiphonKey.mp hkey)
    · intro store hlacks
      simp only [handlePublicSiphon, if_neg hwait, (hsame store hlacks).1]

/-- Other requests leave the reserved siphons and answer as if they did not exist. -/
theorem outOfReachOf_of_not_namesReserved (h : d.Reachable) {request : PublicSiphonRequest}
    (hnames : ¬ d.NamesReserved request) : d.OutOfReachOf request := by
  have hfiled := h.siphonsFiled
  cases request with
  | durableSiphonCreate network name streams start =>
    by_cases hname : registryReservedPrefix <+: name
    · constructor
      · intro key _
        simp only [handlePublicSiphon, if_pos hname]
      · intro store _
        simp only [handlePublicSiphon, if_pos hname]
    · have hwrites := createDurableSiphon_writesOnly d network name streams start
      constructor
      · intro key hkey
        simp only [handlePublicSiphon, if_neg hname]
        refine hwrites.get ?_
        rintro rfl
        exact hname (isReservedKey_durableSiphonKey.mp hkey)
      · intro store hlacks
        simp only [handlePublicSiphon, if_neg hname,
          createDurableSiphon_lacksReserved hlacks hname streams start]
  | durableSiphonList network =>
    have hmap : ∀ r : Result (List DurableSiphonInfo), (r.map fun infos => PublicSiphonAnswer.infos
        (infos.filter fun info => !registryReservedPrefix.isPrefixOf info.name)) =
          (r.map (List.filter fun info => !registryReservedPrefix.isPrefixOf info.name)).map .infos :=
      fun r => by cases r <;> rfl
    refine ⟨fun _ _ => rfl, fun store hlacks => ?_⟩
    simp only [handlePublicSiphon, hmap, listDurableSiphons_lacksReserved hfiled hlacks]
  | durableSiphonPoll network name limit waitMillis random closed wakes =>
    by_cases hwait : waitMillis < 0 ∨ 25000 < waitMillis
    · constructor
      · intro key _
        simp only [handlePublicSiphon, if_pos hwait]
      · intro store _
        simp only [handlePublicSiphon, if_pos hwait]
    · refine outOfReachOf_poll h hwait fun hname hlow hhigh => ?_
      rw [← Option.not_isSome_iff_eq_none]
      exact fun hsome => hnames ⟨hname, by omega, by omega, hlow, hhigh, hsome⟩
  | durableSiphonAck network name deliveryID =>
    by_cases hname : registryReservedPrefix <+: name
    · have hanswer : ∃ e, ∀ store, LacksReserved d.store store →
          acknowledgeDurableSiphon { d with store } network name deliveryID =
            (.error e, { d with store }) := by
        unfold acknowledgeDurableSiphon
        by_cases hid : Text.trimSpace deliveryID = []
        · exact ⟨_, fun store _ => if_pos hid⟩
        · have hnone : d.store.get (durableSiphonKey network name) = none := by
            rw [← Option.not_isSome_iff_eq_none]
            exact fun hsome => hnames ⟨hname, hid, hsome⟩
          refine ⟨notRegistered network name, fun store hlacks => ?_⟩
          simp only [if_neg hid, readDurableSiphon, hlacks.get_eq_none hnone]
          rfl
      obtain ⟨e, he⟩ := hanswer
      have hself := he d.store (.refl _)
      constructor
      · intro key _
        simp only [handlePublicSiphon]
        rw [hself]
      · intro store hlacks
        simp only [handlePublicSiphon, he store hlacks]
        rw [hself]
    · have hwrites := acknowledgeDurableSiphon_writesOnly hfiled network name deliveryID
      constructor
      · intro key hkey
        refine hwrites.get ?_
        rintro rfl
        exact hname (isReservedKey_durableSiphonKey.mp hkey)
      · intro store hlacks
        simp only [handlePublicSiphon, acknowledgeDurableSiphon_lacksReserved
          (hlacks.readDurableSiphon hname)]

/-- What a sequence of requests names is decided before the first of them. -/
theorem OutOfReachOf.namesReserved_iff {request : PublicSiphonRequest} (h : d.OutOfReachOf request)
    (request' : PublicSiphonRequest) :
    (d.handlePublicSiphon request).2.NamesReserved request' ↔ d.NamesReserved request' := by
  have hget : ∀ {network name : Text}, registryReservedPrefix <+: name →
      (d.handlePublicSiphon request).2.store.get (durableSiphonKey network name) =
        d.store.get (durableSiphonKey network name) :=
    fun hname => h.unchanged _ (isReservedKey_durableSiphonKey.mpr hname)
  cases request' with
  | durableSiphonCreate | durableSiphonList => rfl
  | durableSiphonPoll => exact and_congr_right fun hname => by rw [hget hname]
  | durableSiphonAck => exact and_congr_right fun hname => by rw [hget hname]

/-- **Reach of public requests.** In every reachable state, a sequence of public requests neither
changes nor reveals a reserved siphon exactly if none of them is a valid poll or acknowledgement of
a reserved siphon that exists. -/
theorem Reachable.outOfReach_iff (h : d.Reachable) (requests : List PublicSiphonRequest) :
    d.OutOfReach requests ↔ ∀ request ∈ requests, ¬ d.NamesReserved request := by
  induction requests generalizing d with
  | nil => simp [OutOfReach]
  | cons request requests ih =>
    have hnext := ih (ReachableBy.run h (run_handlePublicSiphon d request))
    rw [OutOfReach, List.forall_mem_cons]
    constructor
    · rintro ⟨hout, hrest⟩
      refine ⟨fun hnames => not_outOfReachOf_of_namesReserved h hnames hout, fun r hr hnames => ?_⟩
      exact hnext.mp hrest r hr ((hout.namesReserved_iff r).mpr hnames)
    · rintro ⟨hnames, hrest⟩
      have hout := outOfReachOf_of_not_namesReserved h hnames
      exact ⟨hout, hnext.mpr fun r hr hnames' => hrest r hr ((hout.namesReserved_iff r).mp hnames')⟩

/-- A daemon whose registry has polled an event from a siphon of its own. -/
def registryPolled : Daemon :=
  (initial ['d'] deviceName_ne_nil fun _ => noon).after 0
    [.networkCreate ['h'] (List.replicate 16 0) (List.replicate 32 0),
      .createDurableSiphon ['h'] (registryReservedPrefix ++ ['x']) [] [],
      .ingest ['h'] ['s'] [] ['e'] ['1'] [],
      .pollDurableSiphon ['h'] (registryReservedPrefix ++ ['x']) 0 ['r']]

theorem registryPolled_reachable : registryPolled.Reachable := ⟨_, _, _, run_after _ _ _⟩

theorem registryPolled_list_outOfReach :
    registryPolled.OutOfReach [.durableSiphonList [], .durableSiphonAck ['h'] ['y'] ['z']] := by
  refine (registryPolled_reachable.outOfReach_iff _).mpr fun request hrequest => ?_
  rcases List.mem_pair.mp hrequest with rfl | rfl
  · exact id
  · exact fun hnames => absurd hnames.1 (by decide)

/-- A client acknowledges the delivery that the registry has not processed. -/
theorem registryPolled_ack_not_outOfReach : registryPolled.Reachable ∧
    ¬ registryPolled.OutOfReach [.durableSiphonAck ['h'] (registryReservedPrefix ++ ['x'])
      (randomID "delivery" ['r'])] := by
  refine ⟨registryPolled_reachable, fun hout => ?_⟩
  have hkey : IsReservedKey (durableSiphonKey ['h'] (registryReservedPrefix ++ ['x'])) :=
    isReservedKey_durableSiphonKey.mpr (List.prefix_append _ _)
  have hchanged : (registryPolled.handlePublicSiphon (.durableSiphonAck ['h']
      (registryReservedPrefix ++ ['x']) (randomID "delivery" ['r']))).2.store.get
        (durableSiphonKey ['h'] (registryReservedPrefix ++ ['x'])) ≠
      registryPolled.store.get (durableSiphonKey ['h'] (registryReservedPrefix ++ ['x'])) := by
    decide +kernel
  exact hchanged (hout.1.unchanged _ hkey)

end Daemon

end Thalweg
