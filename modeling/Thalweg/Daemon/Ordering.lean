import Mathlib.Data.Prod.Lex
import Thalweg.Daemon.Selection
import Thalweg.Data.KeySort

/-!
# The order of a query

The documented order compares events by occurrence time, insertion time, counter, device, stream and
ID, one after the other. A query compares them by one text that joins these with colons, so that a
device or a stream that another one extends may come after it.

* `orderingTuple`: the documented order.
* `MayReturn`: what a query returns if its sort is not stable.
* `chronologicalKey_lt_of_tuple`: the texts follow it unless a device or a stream extends another.
* `Reachable.orderedByTuple_iff`: the queries of a network follow it exactly if every two of its
  events that extend each other do.
-/

namespace Thalweg

/-! ### Tuples and texts -/

/-- What events are ordered by, component by component. -/
def orderingTuple (e : ThalwegEvent) : Text ×ₗ Text ×ₗ Nat ×ₗ Text ×ₗ Text ×ₗ Text :=
  toLex (e.occurredAt, toLex (e.insertedAt, toLex (e.counter.toNat,
    toLex (e.deviceID, toLex (e.stream, e.id)))))

/-- Two events of one time and counter of which the first one's device, or its stream if the device
is the same, is a proper prefix of the other one's. -/
structure Extends (e f : ThalwegEvent) : Prop where
  occurredAt_eq : e.occurredAt = f.occurredAt
  insertedAt_eq : e.insertedAt = f.insertedAt
  counter_eq : e.counter = f.counter
  extended : e.deviceID <+: f.deviceID ∧ e.deviceID ≠ f.deviceID ∨
    e.deviceID = f.deviceID ∧ e.stream <+: f.stream ∧ e.stream ≠ f.stream

theorem orderingTuple_lt_iff {e f : ThalwegEvent} : orderingTuple e < orderingTuple f ↔
    e.occurredAt < f.occurredAt ∨ e.occurredAt = f.occurredAt ∧
      (e.insertedAt < f.insertedAt ∨ e.insertedAt = f.insertedAt ∧
        (e.counter.toNat < f.counter.toNat ∨ e.counter.toNat = f.counter.toNat ∧
          (e.deviceID < f.deviceID ∨ e.deviceID = f.deviceID ∧
            (e.stream < f.stream ∨ e.stream = f.stream ∧ e.id < f.id)))) := by
  simp only [orderingTuple, Prod.Lex.toLex_lt_toLex]

theorem orderingTuple_inj {e f : ThalwegEvent} (h : orderingTuple e = orderingTuple f) :
    e.id = f.id := by
  simp only [orderingTuple, toLex_inj, Prod.mk.injEq] at h
  exact h.2.2.2.2.2

/-- A proper prefix is smaller. -/
theorem lt_of_isPrefix {a b : Text} (h : a <+: b) (hne : a ≠ b) : a < b :=
  lt_of_le_of_ne (OrderedStore.le_of_isPrefix h) hne

theorem Extends.tuple_lt {e f : ThalwegEvent} (h : Extends e f) :
    orderingTuple e < orderingTuple f := by
  rw [orderingTuple_lt_iff]
  refine Or.inr ⟨h.occurredAt_eq, Or.inr ⟨h.insertedAt_eq, Or.inr
    ⟨congrArg UInt64.toNat h.counter_eq, ?_⟩⟩⟩
  rcases h.extended with ⟨hpre, hne⟩ | ⟨heq, hpre, hne⟩
  · exact Or.inl (lt_of_isPrefix hpre hne)
  · exact Or.inr ⟨heq, Or.inl (lt_of_isPrefix hpre hne)⟩

/-- Canonical timestamps of the range have one length. -/
theorem Instant.length_format {t : Instant} (ht : t.InRange) : t.format.length = 30 := by
  obtain ⟨hyear, hyear'⟩ := ht
  obtain ⟨-, hmonth, -, hday⟩ := t.date.isDate
  obtain ⟨hhour, hminute, hsecond, hnano⟩ := t.isTime
  have hdays : daysIn t.date.month t.date.year ≤ 31 := by
    unfold daysIn
    split_ifs <;> decide
  simp only [Instant.format, Instant.formatYear_of_nonneg hyear, List.length_append,
    List.length_cons, List.length_nil,
    Text.length_padDecimal (show 0 < 4 by decide) (by omega : t.date.year.natAbs < 10 ^ 4),
    Text.length_padDecimal (show 0 < 2 by decide) (by omega : t.date.month < 10 ^ 2),
    Text.length_padDecimal (show 0 < 2 by decide) (by omega : t.date.day < 10 ^ 2),
    Text.length_padDecimal (show 0 < 2 by decide) (by omega : t.hour < 10 ^ 2),
    Text.length_padDecimal (show 0 < 2 by decide) (by omega : t.minute < 10 ^ 2),
    Text.length_padDecimal (show 0 < 2 by decide) (by omega : t.second < 10 ^ 2),
    Text.length_padDecimal (show 0 < 9 by decide) hnano]

theorem IsReadableTimestamp.length_eq {value : Text} (h : IsReadableTimestamp value) :
    value.length = 30 := by
  obtain ⟨t, ht, rfl⟩ := h
  exact Instant.length_format ht

theorem toNat_lt_tenPow (n : UInt64) : n.toNat < 10 ^ 20 :=
  n.toNat_lt.trans (by decide)

/-- The order of the texts, with the fields of fixed length split off. -/
theorem chronologicalKey_lt_iff {e f : ThalwegEvent} (he : HasReadableTimes e)
    (hf : HasReadableTimes f) : chronologicalKey e < chronologicalKey f ↔
    e.occurredAt < f.occurredAt ∨ e.occurredAt = f.occurredAt ∧
      (e.insertedAt < f.insertedAt ∨ e.insertedAt = f.insertedAt ∧
        (e.counter.toNat < f.counter.toNat ∨ e.counter.toNat = f.counter.toNat ∧
          e.deviceID ++ ':' :: (e.stream ++ ':' :: e.id) <
            f.deviceID ++ ':' :: (f.stream ++ ':' :: f.id))) := by
  simp only [chronologicalKey, List.append_assoc, List.cons_append]
  rw [FieldOrder.append_lt_append_iff (he.occurredAt.length_eq.trans hf.occurredAt.length_eq.symm),
    List.cons_lt_cons_self,
    FieldOrder.append_lt_append_iff (he.insertedAt.length_eq.trans hf.insertedAt.length_eq.symm),
    List.cons_lt_cons_self, Instant.padDecimal_append_lt_iff (by decide) (toNat_lt_tenPow _)
      (toNat_lt_tenPow _), List.cons_lt_cons_self]

/-- The texts follow the documented order unless a device or a stream extends another one. -/
theorem chronologicalKey_lt_of_tuple {e f : ThalwegEvent} (he : HasReadableTimes e)
    (hf : HasReadableTimes f) (h : orderingTuple e < orderingTuple f) (hnot : ¬ Extends e f) :
    chronologicalKey e < chronologicalKey f := by
  rw [chronologicalKey_lt_iff he hf]
  rw [orderingTuple_lt_iff] at h
  refine h.imp_right fun ⟨hoccurred, h⟩ => ⟨hoccurred, h.imp_right fun ⟨hinserted, h⟩ =>
    ⟨hinserted, h.imp_right fun ⟨hcounter, h⟩ => ⟨hcounter, ?_⟩⟩⟩
  have hcounter' := UInt64.toNat_inj.mp hcounter
  rcases h with hdevice | ⟨hdevice, hstream | ⟨hstream, hid⟩⟩
  · refine FieldOrder.append_lt_append_of_lt hdevice (fun hpre => hnot ?_) _ _
    exact ⟨hoccurred, hinserted, hcounter', Or.inl ⟨hpre, hdevice.ne⟩⟩
  · rw [hdevice, OrderedStore.append_lt_append_iff, List.cons_lt_cons_self]
    refine FieldOrder.append_lt_append_of_lt hstream (fun hpre => hnot ?_) _ _
    exact ⟨hoccurred, hinserted, hcounter', Or.inr ⟨hdevice, hpre, hstream.ne⟩⟩
  · rw [hdevice, hstream, OrderedStore.append_lt_append_iff, List.cons_lt_cons_self,
      OrderedStore.append_lt_append_iff, List.cons_lt_cons_self]
    exact hid

/-! ### Queries -/

/-- The events of a stream can be decoded. -/
def StreamDecodes (S : Set ThalwegEvent) (networkName stream : Text) : Prop :=
  ∀ e ∈ S, e.network = networkName → e.stream = stream → payloadDepth e.payload < Json.maxDepth

/-- The queries of a network are answered in the documented order: upwards by the tuples, downwards
in reverse, and in the same way wherever the same events are stored and however the streams are
listed. -/
structure OrderedByTuple (d : Daemon) (networkName : Text) : Prop where
  sorted : ∀ streams from' to' xs,
    d.queryOrdered networkName streams from' to' 0 "asc".toList = .ok xs →
      xs.Pairwise fun a b => orderingTuple a ≤ orderingTuple b
  reversed : ∀ streams from' to' xs,
    d.queryOrdered networkName streams from' to' 0 "asc".toList = .ok xs →
      d.queryOrdered networkName streams from' to' 0 "desc".toList = .ok xs.reverse
  independent : ∀ d' : Daemon, d'.Reachable → storedEvents d'.store = storedEvents d.store →
    ∀ (streams streams' : List Text) (from' to' order : Text) (limit : Int) (xs : List ThalwegEvent),
      streams.Perm streams' → d.queryOrdered networkName streams from' to' limit order = .ok xs →
        d'.queryOrdered networkName streams' from' to' limit order = .ok xs

/-- The order in which a query sorts two events. -/
def InOrder (order : Text) (a b : ThalwegEvent) : Prop :=
  if order = "desc".toList then chronologicalKey b ≤ chronologicalKey a
  else chronologicalKey a ≤ chronologicalKey b

/-- What a query may return when its sort is free to leave events of one text in any order. -/
def MayReturn (d : Daemon) (networkName : Text) (streams : List Text) (from' to' : Text)
    (limit : Int) (order : Text) (xs : List ThalwegEvent) : Prop :=
  ValidQuery networkName from' to' limit order ∧ ∃ from₁ to₁ resolutions events sorted,
    normalizeBound "from" from' = .ok from₁ ∧ normalizeBound "to" to' = .ok to₁ ∧
    conflictResolutionsTxn d.store networkName = .ok resolutions ∧
    collectPrefixes d.store resolutions from₁ to₁ (queryPrefixes networkName streams) =
      .ok events ∧
    sorted.Perm events ∧ sorted.Pairwise (InOrder order) ∧ xs = limited limit sorted

/-- Events that extend each other have texts in the order of their tuples, as far as queries can
read them. -/
def ExtensionsInOrder (S : Set ThalwegEvent) (networkName : Text) : Prop :=
  ∀ e ∈ visible S networkName, ∀ f ∈ visible S networkName,
    StreamDecodes S networkName e.stream → StreamDecodes S networkName f.stream →
      Extends e f → chronologicalKey e < chronologicalKey f

/-- Different events have different texts and are in the same order by texts and by tuples. -/
def KeysFollow (found : List ThalwegEvent) : Prop :=
  ∀ e ∈ found, ∀ f ∈ found, (chronologicalKey e ≤ chronologicalKey f →
    orderingTuple e ≤ orderingTuple f) ∧ (chronologicalKey e = chronologicalKey f → e = f)

/-- However the events are sorted, the result is the same. -/
theorem KeysFollow.eq_arranged {found sorted : List ThalwegEvent} (h : KeysFollow found)
    (hperm : sorted.Perm found) {order : Text} (hsorted : sorted.Pairwise (InOrder order)) :
    sorted = arranged order found := by
  have hinj : ∀ e ∈ found, ∀ f ∈ found, chronologicalKey e = chronologicalKey f → e = f :=
    fun e he f hf => (h e he f hf).2
  unfold arranged
  unfold InOrder at hsorted
  split_ifs at hsorted ⊢
  · exact KeySort.eq_downwards hinj hperm hsorted
  · exact KeySort.eq_upwards hinj hperm hsorted

theorem pairwise_arranged (order : Text) (events : List ThalwegEvent) :
    (arranged order events).Pairwise (InOrder order) := by
  unfold arranged InOrder
  split_ifs
  · exact KeySort.pairwise_downwards _ _
  · exact KeySort.pairwise_upwards _ _

theorem KeysFollow.arranged_eq {found found' : List ThalwegEvent} (h : KeysFollow found)
    (hperm : found.Perm found') (order : Text) : arranged order found = arranged order found' :=
  (h.eq_arranged ((arranged_perm order found').trans hperm.symm) (pairwise_arranged order _)).symm

namespace Represents

variable {d : Daemon} {events : List ThalwegEvent} {networkName from' to' from₁ to₁ : Text}
  {streams : List Text}

/-- The events that an answered query has read can be found. -/
theorem findable_of_queryOrdered (h : Represents d.store events)
    (hyears : ∀ e ∈ events, e.network = networkName → HasReadableTimes e) {limit : Int}
    {order : Text} {xs : List ThalwegEvent}
    (hquery : d.queryOrdered networkName streams from' to' limit order = .ok xs) :
    ∀ e ∈ events, e.network = networkName → IsListed streams e.stream → Findable e := by
  obtain ⟨-, _, _, _, _, -, -, -, hevents⟩ := queryOrdered_eq_ok hquery
  exact fun e he hn hlisted =>
    ⟨(hyears e he hn).occurredAt, h.payloadDepth_lt_of_collectPrefixes hevents he hn hlisted⟩

/-- The events of a query follow the documented order. -/
theorem keysFollow (h : Represents d.store events)
    (hyears : ∀ e ∈ events, e.network = networkName → HasReadableTimes e)
    (hextensions : ExtensionsInOrder (storedEvents d.store) networkName)
    {found : List ThalwegEvent} (hfound : ∀ e ∈ found, e ∈ visible (storedEvents d.store) networkName ∧
      StreamDecodes (storedEvents d.store) networkName e.stream) : KeysFollow found := by
  intro e he f hf
  obtain ⟨hevis, hedecodes⟩ := hfound e he
  obtain ⟨hfvis, hfdecodes⟩ := hfound f hf
  obtain ⟨hemem, hen, -⟩ := h.mem_visible_iff.mp hevis
  obtain ⟨hfmem, hfn, -⟩ := h.mem_visible_iff.mp hfvis
  have hlt : ∀ {a b : ThalwegEvent}, a ∈ visible (storedEvents d.store) networkName →
      b ∈ visible (storedEvents d.store) networkName →
      StreamDecodes (storedEvents d.store) networkName a.stream →
      StreamDecodes (storedEvents d.store) networkName b.stream →
      orderingTuple a < orderingTuple b → chronologicalKey a < chronologicalKey b := by
    intro a b ha hb ha' hb' htuple
    by_cases hext : Extends a b
    · exact hextensions a ha b hb ha' hb' hext
    · obtain ⟨hamem, han, -⟩ := h.mem_visible_iff.mp ha
      obtain ⟨hbmem, hbn, -⟩ := h.mem_visible_iff.mp hb
      exact chronologicalKey_lt_of_tuple (hyears a hamem han) (hyears b hbmem hbn) htuple hext
  rcases lt_trichotomy (orderingTuple e) (orderingTuple f) with hef | hef | hfe
  · exact ⟨fun _ => hef.le, fun heq =>
      absurd heq (hlt hevis hfvis hedecodes hfdecodes hef).ne⟩
  · exact ⟨fun _ => hef.le, fun _ =>
      h.distinct.eq_of_id hemem hfmem (hen.trans hfn.symm) (orderingTuple_inj hef)⟩
  · have hgt := hlt hfvis hevis hfdecodes hedecodes hfe
    exact ⟨fun hle => absurd hle hgt.not_ge, fun heq => absurd heq hgt.ne'⟩

end Represents

/-- The same events are read where the same events are stored, in whatever order streams are
listed. -/
theorem Represents.found_perm {d d' : Daemon} (hstored : storedEvents d'.store = storedEvents d.store)
    {networkName from₁ to₁ : Text} {streams streams' : List Text} (hperm : streams.Perm streams')
    {found found' : List ThalwegEvent}
    (hmem : ∀ e, e ∈ found ↔ e ∈ visible (storedEvents d.store) networkName ∧
      IsListed streams e.stream ∧ inRange e from₁ to₁ = true)
    (hcount : ∀ e ∈ found, found.count e = timesNamed streams e.stream)
    (hmem' : ∀ e, e ∈ found' ↔ e ∈ visible (storedEvents d'.store) networkName ∧
      IsListed streams' e.stream ∧ inRange e from₁ to₁ = true)
    (hcount' : ∀ e ∈ found', found'.count e = timesNamed streams' e.stream) :
    found.Perm found' := by
  have hnil : streams = [] ↔ streams' = [] :=
    ⟨fun h => by rwa [h, List.nil_perm] at hperm, fun h => by rwa [h, List.perm_nil] at hperm⟩
  have hlisted : ∀ stream, IsListed streams stream ↔ IsListed streams' stream := fun stream =>
    or_congr hnil hperm.mem_iff
  have hnamed : ∀ stream, timesNamed streams stream = timesNamed streams' stream := by
    intro stream
    simp only [timesNamed, hnil, hperm.count_eq]
  have hsame : ∀ e, e ∈ found ↔ e ∈ found' := by
    intro e
    rw [hmem, hmem', hstored, hlisted]
  rw [List.perm_iff_count]
  intro e
  by_cases he : e ∈ found
  · rw [hcount e he, hcount' e ((hsame e).mp he), hnamed]
  · rw [List.count_eq_zero_of_not_mem he,
      List.count_eq_zero_of_not_mem fun he' => he ((hsame e).mpr he')]

/-- The events that an answered query has read follow the documented order. -/
theorem Represents.exists_found_keysFollow {d : Daemon} {events : List ThalwegEvent}
    (h : Represents d.store events) {networkName from' to' order : Text} {limit : Int}
    {streams : List Text} {xs : List ThalwegEvent}
    (hyears : ∀ e ∈ events, e.network = networkName → HasReadableTimes e)
    (hextensions : ExtensionsInOrder (storedEvents d.store) networkName)
    (hquery : d.queryOrdered networkName streams from' to' limit order = .ok xs) :
    ∃ from₁ to₁ found, normalizeBound "from" from' = .ok from₁ ∧ normalizeBound "to" to' = .ok to₁ ∧
      (∀ e, e ∈ found ↔ e ∈ visible (storedEvents d.store) networkName ∧
        IsListed streams e.stream ∧ inRange e from₁ to₁ = true) ∧
      (∀ e ∈ found, found.count e = timesNamed streams e.stream) ∧ KeysFollow found ∧
      ∀ (limit : Int) (order : Text), ValidQuery networkName from' to' limit order →
        d.queryOrdered networkName streams from' to' limit order =
          .ok (limited limit (arranged order found)) := by
  have hfindable := h.findable_of_queryOrdered hyears hquery
  obtain ⟨-, from₁, to₁, -, -, hfrom, hto, -⟩ := queryOrdered_eq_ok hquery
  obtain ⟨found, hmem, hcount, hanswer⟩ := h.exists_found hfindable hfrom hto
  refine ⟨from₁, to₁, found, hfrom, hto, hmem, hcount,
    h.keysFollow hyears hextensions fun e he => ?_, hanswer⟩
  obtain ⟨hvis, hlisted, -⟩ := (hmem e).mp he
  refine ⟨hvis, fun g hg hn hs => ?_⟩
  exact (hfindable g (h.mem_storedEvents_iff.mp hg) hn (hs ▸ hlisted)).2

namespace Daemon

/-- When the extensions are in order, the queries are. -/
theorem Holds.orderedByTuple {d : Daemon} {L : Ledger} (hL : d.Holds L) {networkName : Text}
    (hyears : ∀ e ∈ L.events, e.network = networkName → HasReadableTimes e)
    (hextensions : ExtensionsInOrder (storedEvents d.store) networkName) :
    OrderedByTuple d networkName where
  sorted streams from' to' xs hquery := by
    obtain ⟨_, _, found, -, -, -, -, hfollow, hanswer⟩ :=
      hL.represents.exists_found_keysFollow hyears hextensions hquery
    rw [hanswer 0 _ (queryOrdered_eq_ok hquery).1, limited_zero] at hquery
    obtain rfl := Except.ok.inj hquery
    have hmem : ∀ e, e ∈ arranged "asc".toList found ↔ e ∈ found := fun e =>
      (arranged_perm _ _).mem_iff
    refine (KeySort.pairwise_upwards chronologicalKey found).imp_of_mem fun {e f} he hf hle => ?_
    exact (hfollow e ((hmem e).mp he) f ((hmem f).mp hf)).1 hle
  reversed streams from' to' xs hquery := by
    obtain ⟨_, _, found, -, -, -, -, hfollow, hanswer⟩ :=
      hL.represents.exists_found_keysFollow hyears hextensions hquery
    have hvalid := (queryOrdered_eq_ok hquery).1
    rw [hanswer 0 _ hvalid, limited_zero] at hquery
    obtain rfl := Except.ok.inj hquery
    rw [hanswer 0 _ { hvalid with order_eq := Or.inr (Or.inr rfl) }, limited_zero]
    exact congrArg Except.ok (KeySort.downwards_eq_reverse fun e he f hf => (hfollow e he f hf).2)
  independent d' hd' hstored streams streams' from' to' order limit xs hperm hquery := by
    obtain ⟨L', hL'⟩ := hd'.exists_holds.1
    have hsame : ∀ e, e ∈ L'.events ↔ e ∈ L.events := by
      intro e
      rw [← hL'.represents.mem_storedEvents_iff, hstored, hL.represents.mem_storedEvents_iff]
    have hlisted : ∀ stream, IsListed streams' stream → IsListed streams stream := fun stream =>
      Or.imp (fun hnil => by rwa [hnil, List.perm_nil] at hperm) hperm.mem_iff.mpr
    have hfindable := hL.represents.findable_of_queryOrdered hyears hquery
    obtain ⟨from₁, to₁, found, hfrom, hto, hmem, hcount, hfollow, hanswer⟩ :=
      hL.represents.exists_found_keysFollow hyears hextensions hquery
    obtain ⟨found', hmem', hcount', hanswer'⟩ := hL'.represents.exists_found
      (fun e he hn hs => hfindable e ((hsame e).mp he) hn (hlisted _ hs)) hfrom hto
    have hvalid := (queryOrdered_eq_ok hquery).1
    have hfound := Represents.found_perm hstored hperm hmem hcount hmem' hcount'
    rw [hanswer' limit order hvalid, ← hfollow.arranged_eq hfound, ← hanswer limit order hvalid,
      hquery]

/-- When the extensions are in order, a query returns the same however it is sorted. -/
theorem Holds.queryOrdered_of_mayReturn {d : Daemon} {L : Ledger} (hL : d.Holds L)
    {networkName : Text} (hyears : ∀ e ∈ L.events, e.network = networkName → HasReadableTimes e)
    (hextensions : ExtensionsInOrder (storedEvents d.store) networkName) {streams : List Text}
    {from' to' order : Text} {limit : Int} {xs : List ThalwegEvent}
    (h : MayReturn d networkName streams from' to' limit order xs) :
    d.queryOrdered networkName streams from' to' limit order = .ok xs := by
  obtain ⟨hvalid, from₁, to₁, resolutions, events, sorted, hfrom, hto, hread, hevents, hperm,
    hsorted, rfl⟩ := h
  have hquery := queryOrdered_eq hvalid hfrom hto hread hevents
  have hzero : ValidQuery networkName from' to' 0 order := { hvalid with limit_nonneg := le_refl 0 }
  obtain ⟨_, _, found, -, -, -, -, hfollow, hanswer⟩ :=
    hL.represents.exists_found_keysFollow hyears hextensions hquery
  have hsame := (hanswer 0 order hzero).symm.trans (queryOrdered_eq hzero hfrom hto hread hevents)
  rw [limited_zero, limited_zero] at hsame
  have hfound : found.Perm events := (arranged_perm order found).symm.trans
    (Except.ok.inj hsame ▸ arranged_perm order events)
  rw [hquery, ← hfollow.arranged_eq hfound, hfollow.eq_arranged (hperm.trans hfound.symm) hsorted]

/-- When the queries are in order, the extensions are. -/
theorem Holds.extensionsInOrder {d : Daemon} {L : Ledger} (hL : d.Holds L) {networkName : Text}
    (hyears : ∀ e ∈ L.events, e.network = networkName → HasReadableTimes e)
    (hordered : OrderedByTuple d networkName) :
    ExtensionsInOrder (storedEvents d.store) networkName := by
  intro e he f hf hedecodes hfdecodes hext
  obtain ⟨hemem, hen, -⟩ := hL.represents.mem_visible_iff.mp he
  have hfindable : ∀ g ∈ L.events, g.network = networkName →
      IsListed [e.stream, f.stream] g.stream → Findable g := by
    intro g hg hn hlisted
    refine ⟨(hyears g hg hn).occurredAt, ?_⟩
    have hstored := hL.represents.mem_storedEvents_iff.mpr hg
    rcases hlisted with hnil | hlisted
    · cases hnil
    · rcases List.mem_cons.mp hlisted with hs | hs
      · exact hedecodes g hstored hn hs
      · exact hfdecodes g hstored hn (List.mem_singleton.mp hs)
  have hvalid : ∀ order, order = "asc".toList ∨ order = "desc".toList →
      ValidQuery networkName [] [] 0 order := fun order horder =>
    ⟨hen ▸ (hL.represents.storable e hemem).network_ne_nil, Or.inr horder, le_refl _, Or.inl rfl,
      Or.inl rfl⟩
  obtain ⟨found, hmem, -, hanswer⟩ := hL.represents.exists_found hfindable
    (show normalizeBound "from" [] = .ok [] from rfl) (show normalizeBound "to" [] = .ok [] from rfl)
  have hasc := hanswer 0 _ (hvalid _ (Or.inl rfl))
  have hdesc := hanswer 0 _ (hvalid _ (Or.inr rfl))
  rw [limited_zero] at hasc hdesc
  have hsorted := hordered.sorted _ _ _ _ hasc
  have hreversed := hordered.reversed _ _ _ _ hasc
  rw [hdesc] at hreversed
  have hreversed := Except.ok.inj hreversed
  have hlt := hext.tuple_lt
  by_contra hnot
  have hle := not_lt.mp hnot
  -- no list sorted by tuples has `f` before `e`, but equal texts keep their places both ways
  have hafter : ¬ [f, e].Sublist (arranged "asc".toList found) := by
    intro hsub
    have hpair := hsorted.sublist hsub
    simp only [List.pairwise_cons, List.mem_singleton, forall_eq] at hpair
    exact absurd hpair.1 hlt.not_ge
  have hvisible : ∀ g, g ∈ visible (storedEvents d.store) networkName →
      g.stream ∈ [e.stream, f.stream] → g ∈ found := fun g hg hs =>
    (hmem g).mpr ⟨hg, Or.inr hs, by simp [inRange]⟩
  have hne : e ≠ f := fun heq => hlt.ne (heq ▸ rfl)
  rcases KeySort.pair_sublist_or (hvisible e he (by simp)) (hvisible f hf (by simp)) hne with
    hsub | hsub
  · have hdown := KeySort.pair_sublist_downwards hle hsub
    have hdown : [e, f].Sublist (arranged "asc".toList found).reverse := hreversed ▸ hdown
    exact hafter (by simpa using hdown.reverse)
  · exact hafter (KeySort.pair_sublist_upwards hle hsub)

/-- **The order of queries.** In a reachable state whose events of a network are of the years 0000
to 9999, the queries of the network follow the documented order exactly if its events do that extend
each other. It then does not matter whether the sort is stable. -/
theorem Reachable.orderedByTuple_iff {d : Daemon} (h : d.Reachable) {networkName : Text}
    (hyears : ∀ e ∈ storedEvents d.store, e.network = networkName → HasReadableTimes e) :
    (OrderedByTuple d networkName ↔ ExtensionsInOrder (storedEvents d.store) networkName) ∧
    (ExtensionsInOrder (storedEvents d.store) networkName → ∀ streams from' to' limit order xs,
      MayReturn d networkName streams from' to' limit order xs →
        d.queryOrdered networkName streams from' to' limit order = .ok xs) := by
  obtain ⟨L, hL⟩ := h.exists_holds.1
  simp only [hL.represents.mem_storedEvents_iff] at hyears
  exact ⟨⟨hL.extensionsInOrder hyears, hL.orderedByTuple hyears⟩,
    fun hextensions _ _ _ _ _ _ => hL.queryOrdered_of_mayReturn hyears hextensions⟩

theorem orderedByTuple_lastSecond :
    (OrderedByTuple (atNoon.after 0 [lastSecond]) ['h'] ↔
      ExtensionsInOrder (storedEvents (atNoon.after 0 [lastSecond]).store) ['h']) ∧
    (ExtensionsInOrder (storedEvents (atNoon.after 0 [lastSecond]).store) ['h'] →
      ∀ streams from' to' limit order xs,
        MayReturn (atNoon.after 0 [lastSecond]) ['h'] streams from' to' limit order xs →
          (atNoon.after 0 [lastSecond]).queryOrdered ['h'] streams from' to' limit order =
            .ok xs) :=
  Reachable.orderedByTuple_iff ⟨_, _, _, run_after _ _ _⟩
    fun e he _ => (lastSecond_reachableBy.readable e he).times

/-! ### A device that extends another one -/

/-- An event of a device at noon. -/
def deviceEvent (id deviceID : Text) : ThalwegEvent :=
  ⟨id, ['h'], ['s'], noon.format, noon.format, noon.format, 0, deviceID, ['1']⟩

theorem deviceEvent_times (id deviceID : Text) : HasReadableTimes (deviceEvent id deviceID) :=
  have htime : IsReadableTimestamp noon.format := ⟨noon, by decide, rfl⟩
  ⟨htime, htime, htime⟩

/-- A daemon that received events of the devices `a` and `a-b`. -/
def extendedDevice : Daemon :=
  atNoon.after 1 [.ingestReplicated (deviceEvent ['x'] ['a']),
    .ingestReplicated (deviceEvent ['y'] ['a', '-', 'b'])]

/-- The event of the longer device name comes first. -/
theorem not_orderedByTuple_extendedDevice : extendedDevice.Reachable ∧
    (∀ e ∈ storedEvents extendedDevice.store, HasReadableTimes e) ∧
      ¬ OrderedByTuple extendedDevice ['h'] := by
  have hreachable : extendedDevice.Reachable := ⟨_, _, _, run_after _ _ _⟩
  refine ⟨hreachable, ?_, fun hordered => ?_⟩
  · obtain ⟨L, hL⟩ := hreachable.exists_holds.1
    have hx : findEventByID extendedDevice.store ['h'] ['x'] =
        .ok (some (deviceEvent ['x'] ['a'])) := eq_ok_of_toOption (by decide +kernel)
    have hy : findEventByID extendedDevice.store ['h'] ['y'] =
        .ok (some (deviceEvent ['y'] ['a', '-', 'b'])) := eq_ok_of_toOption (by decide +kernel)
    have hcount : extendedDevice.store.get arrivalSequenceKey = some (Text.decimal 2) := by
      decide +kernel
    rw [hL.represents.sequence, Option.some.injEq, Text.decimal_injective.eq_iff] at hcount
    have hsub : [deviceEvent ['x'] ['a'], deviceEvent ['y'] ['a', '-', 'b']] ⊆ L.events := by
      simp [(hL.represents.findEventByID_eq_ok_some_iff.mp hx).1,
        (hL.represents.findEventByID_eq_ok_some_iff.mp hy).1]
    have hperm := (List.subperm_of_subset (by decide) hsub).perm_of_length_le hcount.le
    intro e he
    rw [hL.represents.mem_storedEvents_iff, ← hperm.mem_iff] at he
    simp only [List.mem_cons, List.not_mem_nil, or_false] at he
    rcases he with rfl | rfl <;> exact deviceEvent_times _ _
  · have hquery : extendedDevice.queryOrdered ['h'] [] [] [] 0 "asc".toList =
        .ok [deviceEvent ['y'] ['a', '-', 'b'], deviceEvent ['x'] ['a']] :=
      eq_ok_of_toOption (by decide +kernel)
    have hpair := hordered.sorted _ _ _ _ hquery
    simp only [List.pairwise_cons, List.mem_singleton, forall_eq] at hpair
    exact absurd hpair.1 (not_le.mpr (Extends.tuple_lt
      ⟨rfl, rfl, rfl, Or.inl ⟨by decide, by decide⟩⟩))

end Daemon

end Thalweg
