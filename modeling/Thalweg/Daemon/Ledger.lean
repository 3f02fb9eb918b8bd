import Thalweg.Daemon.Clock
import Thalweg.Daemon.Resolution
import Thalweg.Data.Chain

/-!
# Ledgers

What a daemon holds, without the layout of its store: its events in the order of their arrival, its
clock and the coming readings of the wall clock. A ledger admits an event that it knows or that is
new; the recovery of conflict variants goes from one event ID to the next.

## Main definitions

* `Ledger.Admits`: the ledger after the receipt of one event.
* `Ledger.Recovers`, `Ledger.Leads`: the recovery of the variant that is stored under an ID, and the
  ID that it leads to when the variant is itself a resolution.
* `Ledger.Done`, `Ledger.Stuck`: the ends of a recovery.
* `Ledger.Accepts`, `Ledger.Rejects`: what the receipt of an event with its recovery comes to.

## Main results

* `Ledger.Leads.unique`, `Ledger.Done.unique`: a recovery is a chain with one end.
* `Ledger.exists_endsAt_iff`: it ends exactly if it does not return to an event ID.
-/

namespace Thalweg

open Relation

/-- What a daemon holds. -/
structure Ledger where
  events : List ThalwegEvent
  distinct : Distinct events
  clock : HlcTimestamp
  now : Nat → Instant

namespace Ledger

/-- No event of the ledger has the network and ID of the event. -/
def Fresh (L : Ledger) (e : ThalwegEvent) : Prop :=
  ∀ f ∈ L.events, f.network = e.network → f.id ≠ e.id

/-- The ledger after a new event and the clock state after it. -/
def record (L : Ledger) (e : ThalwegEvent) (hfresh : L.Fresh e) (clock : HlcTimestamp) : Ledger :=
  ⟨L.events ++ [e], L.distinct.append hfresh, clock, fun n => L.now (n + 1)⟩

/-- The ledger after a reading of the wall clock. -/
def tick (L : Ledger) : Ledger := { L with now := fun n => L.now (n + 1) }

/-- The ledger after the receipt of an event: it is known or new. -/
inductive Admits (L : Ledger) (e : ThalwegEvent) : Ledger → Prop
  | known : e ∈ L.events → Readable e → Admits L e L
  | new {clock : HlcTimestamp} (hfresh : L.Fresh e) :
      mergeHLCTimestamp L.clock ⟨e.insertedAt, e.counter⟩ (L.now 0) = .ok clock →
      L.events.length + 1 < 2 ^ 64 → Admits L e (L.record e hfresh clock)

theorem Admits.unique {L L' L'' : Ledger} {e : ThalwegEvent} (h : L.Admits e L')
    (h' : L.Admits e L'') : L' = L'' := by
  cases h with
  | known he _ =>
    cases h' with
    | known _ _ => rfl
    | new hfresh _ _ => exact absurd rfl (hfresh e he rfl)
  | new hfresh hclock _ =>
    cases h' with
    | known he _ => exact absurd rfl (hfresh e he rfl)
    | new _ hclock' _ =>
      rw [hclock] at hclock'
      rw [Except.ok.inj hclock']

/-- The events of the ledger, which grow at the end only. -/
theorem Admits.events_eq {L L' : Ledger} {e : ThalwegEvent} (h : L.Admits e L') :
    L' = L ∧ e ∈ L.events ∨ L'.events = L.events ++ [e] ∧ L.Fresh e := by
  cases h with
  | known he _ => exact Or.inl ⟨rfl, he⟩
  | new hfresh _ _ => exact Or.inr ⟨rfl, hfresh⟩

theorem Admits.kept {L L' : Ledger} {e : ThalwegEvent} (h : L.Admits e L') :
    L.events <+: L'.events := by
  rcases h.events_eq with ⟨rfl, -⟩ | ⟨h, -⟩
  · exact List.prefix_rfl
  · exact h ▸ List.prefix_append _ _

theorem Admits.mem {L L' : Ledger} {e : ThalwegEvent} (h : L.Admits e L') : e ∈ L'.events := by
  rcases h.events_eq with ⟨rfl, he⟩ | ⟨h, -⟩
  · exact he
  · simp [h]

theorem Admits.mem_iff {L L' : Ledger} {e f : ThalwegEvent} (h : L.Admits e L') :
    f ∈ L'.events ↔ f ∈ L.events ∨ f = e := by
  rcases h.events_eq with ⟨rfl, he⟩ | ⟨h, -⟩
  · exact ⟨Or.inl, fun hf => hf.elim id fun hf => hf ▸ he⟩
  · simp [h]

/-- A receipt that adds no event changes nothing. -/
theorem Admits.eq_of_events_eq {L L' : Ledger} {e : ThalwegEvent} (h : L.Admits e L')
    (heq : L'.events = L.events) : L' = L := by
  rcases h.events_eq with ⟨rfl, -⟩ | ⟨h, -⟩
  · rfl
  · rw [h] at heq
    simp at heq

/-! ### Recovery -/

/-- The variant that is stored under an ID is readable, and its recovered copy is admitted. -/
structure Recovers (L : Ledger) (networkName eventID : Text) (e : ThalwegEvent) (L' : Ledger) :
    Prop where
  mem : e ∈ L.events
  network_eq : e.network = networkName
  id_eq : e.id = eventID
  readable : Readable e
  names_ne : e.names ≠ some (recoveredCopy e).id
  admits : L.Admits (recoveredCopy e) L'

/-- A recovery goes on from an event ID to the one that the recovered variant names. -/
def Leads (networkName : Text) (a b : Ledger × Text) : Prop :=
  ∃ e, a.1.Recovers networkName a.2 e b.1 ∧ e.names = some b.2

/-- A recovery is done: nothing is stored under the event ID, or a variant that names none. -/
def Done (networkName : Text) (a : Ledger × Text) (L' : Ledger) : Prop :=
  (∀ e ∈ a.1.events, e.network = networkName → e.id ≠ a.2) ∧ L' = a.1 ∨
    ∃ e, a.1.Recovers networkName a.2 e L' ∧ e.names = none

/-- A recovery is stuck: the variant that is stored under the event ID cannot be recovered. -/
def Stuck (networkName : Text) (a : Ledger × Text) : Prop :=
  (∃ e ∈ a.1.events, e.network = networkName ∧ e.id = a.2) ∧
    ∀ e L', ¬ a.1.Recovers networkName a.2 e L'

theorem Recovers.unique {L L' L'' : Ledger} {networkName eventID : Text} {e f : ThalwegEvent}
    (h : L.Recovers networkName eventID e L') (h' : L.Recovers networkName eventID f L'') :
    e = f ∧ L' = L'' := by
  obtain rfl := L.distinct.eq_of_id h.mem h'.mem (h.network_eq.trans h'.network_eq.symm)
    (h.id_eq.trans h'.id_eq.symm)
  exact ⟨rfl, h.admits.unique h'.admits⟩

theorem Leads.unique (networkName : Text) (a b c : Ledger × Text) (hb : Leads networkName a b)
    (hc : Leads networkName a c) : b = c := by
  obtain ⟨e, he, hname⟩ := hb
  obtain ⟨f, hf, hname'⟩ := hc
  obtain ⟨rfl, heq⟩ := he.unique hf
  rw [hname] at hname'
  exact Prod.ext heq (Option.some.inj hname')

theorem Leads.kept {networkName : Text} {a b : Ledger × Text} (h : Leads networkName a b) :
    a.1.events <+: b.1.events :=
  let ⟨_, he, _⟩ := h
  he.admits.kept

theorem prefix_of_leads {networkName : Text} {a b : Ledger × Text}
    (h : ReflTransGen (Leads networkName) a b) : a.1.events <+: b.1.events := by
  induction h with
  | refl => exact List.prefix_rfl
  | tail _ hbc ih => exact ih.trans hbc.kept

theorem Done.kept {networkName : Text} {a : Ledger × Text} {L : Ledger}
    (h : Done networkName a L) : a.1.events <+: L.events := by
  rcases h with ⟨-, rfl⟩ | ⟨e, he, -⟩
  · exact List.prefix_rfl
  · exact he.admits.kept

theorem Done.not_leads {networkName : Text} {a b : Ledger × Text} {L : Ledger}
    (h : Done networkName a L) : ¬ Leads networkName a b := by
  rintro ⟨e, he, hname⟩
  rcases h with ⟨hnone, -⟩ | ⟨f, hf, hname'⟩
  · exact hnone e he.mem he.network_eq he.id_eq
  · obtain ⟨rfl, -⟩ := he.unique hf
    rw [hname] at hname'
    cases hname'

theorem Stuck.not_leads {networkName : Text} {a b : Ledger × Text} (h : Stuck networkName a) :
    ¬ Leads networkName a b := by
  rintro ⟨e, he, -⟩
  exact h.2 e b.1 he

theorem Stuck.not_done {networkName : Text} {a : Ledger × Text} (h : Stuck networkName a)
    (L : Ledger) : ¬ Done networkName a L := by
  rintro (⟨hnone, -⟩ | ⟨e, he, -⟩)
  · obtain ⟨e, he, hn, hi⟩ := h.1
    exact hnone e he hn hi
  · exact h.2 e L he

theorem Done.unique {networkName : Text} {a : Ledger × Text} {L L' : Ledger}
    (h : Done networkName a L) (h' : Done networkName a L') : L = L' := by
  rcases h with ⟨hnone, rfl⟩ | ⟨e, he, -⟩ <;> rcases h' with ⟨hnone', rfl⟩ | ⟨f, hf, -⟩
  · rfl
  · exact absurd hf.id_eq (hnone f hf.mem hf.network_eq)
  · exact absurd he.id_eq (hnone' e he.mem he.network_eq)
  · exact (he.unique hf).2

/-! ### Termination -/

/-- The event IDs that the events of a ledger name. -/
def named (L : Ledger) : Set Text := {eventID | ∃ e ∈ L.events, e.names = some eventID}

theorem finite_named (L : Ledger) : L.named.Finite := by
  have h : L.named ⊆ {eventID | eventID ∈ L.events.filterMap ThalwegEvent.names} := by
    rintro eventID ⟨e, he, hname⟩
    exact List.mem_filterMap.mpr ⟨e, he, hname⟩
  exact (List.finite_toSet _).subset h

/-- A recovered copy names what its original names, so a recovery adds no names. -/
theorem Leads.named_eq {networkName : Text} {a b : Ledger × Text} (h : Leads networkName a b) :
    b.1.named = a.1.named ∧ b.2 ∈ a.1.named := by
  obtain ⟨e, he, hname⟩ := h
  refine ⟨Set.ext fun eventID => ⟨?_, ?_⟩, e, he.mem, hname⟩
  · rintro ⟨f, hf, hf'⟩
    rcases he.admits.mem_iff.mp hf with hf | rfl
    · exact ⟨f, hf, hf'⟩
    · exact ⟨e, he.mem, hf'⟩
  · rintro ⟨f, hf, hf'⟩
    exact ⟨f, he.admits.mem_iff.mpr (Or.inl hf), hf'⟩

theorem named_of_leads {networkName : Text} {a b : Ledger × Text}
    (h : ReflTransGen (Leads networkName) a b) :
    b.1.named = a.1.named ∧ b.2 ∈ insert a.2 a.1.named := by
  induction h with
  | refl => exact ⟨rfl, Set.mem_insert _ _⟩
  | tail _ hbc ih =>
    obtain ⟨hnamed, hmem⟩ := hbc.named_eq
    exact ⟨hnamed.trans ih.1, Or.inr (ih.1 ▸ hmem)⟩

/-- A ledger that holds all events that a recovery made has nothing left to recover on its way. -/
theorem Leads.of_subset {networkName : Text} {a b : Ledger × Text} (h : Leads networkName a b)
    {L : Ledger} (hL : b.1.events ⊆ L.events) : Leads networkName (L, a.2) (L, b.2) := by
  obtain ⟨e, he, hname⟩ := h
  exact ⟨e, ⟨hL (he.admits.kept.subset he.mem), he.network_eq, he.id_eq, he.readable, he.names_ne,
    .known (hL he.admits.mem) he.readable.recoveredCopy⟩, hname⟩

theorem transGen_leads_of_subset {networkName : Text} {a b : Ledger × Text}
    (h : TransGen (Leads networkName) a b) {L : Ledger} (hL : b.1.events ⊆ L.events) :
    TransGen (Leads networkName) (L, a.2) (L, b.2) := by
  induction h with
  | single h => exact TransGen.single (h.of_subset hL)
  | tail _ hbc ih => exact (ih fun _ hx => hL (hbc.kept.subset hx)).tail (hbc.of_subset hL)

/-- A recovery ends exactly if it does not return to an event ID. -/
theorem exists_endsAt_iff (networkName : Text) (a : Ledger × Text) :
    (∃ b, Chain.EndsAt (Leads networkName) a b) ↔
      ¬ Chain.Returns (Leads networkName) Prod.snd a := by
  refine Chain.exists_endsAt_iff (Leads.unique networkName) (a.1.finite_named.insert a.2)
    (fun b hb => (named_of_leads hb).2) ?_
  intro b c _ hbc heq
  have h := transGen_leads_of_subset hbc (List.Subset.refl c.1.events)
  rwa [heq] at h

/-! ### Growth -/

/-- A ledger grows by a reading of the wall clock or by the copy of an event that it holds. -/
inductive Grows (L : Ledger) : Ledger → Prop
  | reading : Grows L L.tick
  | copy {e : ThalwegEvent} {L' : Ledger} : e ∈ L.events → Readable e →
      L.Admits (recoveredCopy e) L' → Grows L L'

theorem Grows.kept {L L' : Ledger} (h : L.Grows L') : L.events <+: L'.events := by
  cases h with
  | reading => exact List.prefix_rfl
  | copy _ _ hadmits => exact hadmits.kept

theorem prefix_of_grows {L L' : Ledger} (h : ReflTransGen Grows L L') : L.events <+: L'.events := by
  induction h with
  | refl => exact List.prefix_rfl
  | tail _ hlast ih => exact ih.trans hlast.kept

theorem Recovers.grows {L L' : Ledger} {networkName eventID : Text} {e : ThalwegEvent}
    (h : L.Recovers networkName eventID e L') : L.Grows L' :=
  .copy h.mem h.readable h.admits

theorem grows_of_leads {networkName : Text} {a b : Ledger × Text}
    (h : ReflTransGen (Leads networkName) a b) : ReflTransGen Grows a.1 b.1 := by
  induction h with
  | refl => exact ReflTransGen.refl
  | tail _ hlast ih =>
    obtain ⟨e, he, -⟩ := hlast
    exact ih.tail he.grows

theorem Done.grows {networkName : Text} {a : Ledger × Text} {L : Ledger}
    (h : Done networkName a L) : ReflTransGen Grows a.1 L := by
  rcases h with ⟨-, rfl⟩ | ⟨e, he, -⟩
  · exact ReflTransGen.refl
  · exact ReflTransGen.single he.grows

/-! ### Receipt -/

/-- The ledger after an accepted event with the recovery that it starts. -/
def Accepts (L : Ledger) (e : ThalwegEvent) (L' : Ledger) : Prop :=
  (e.names = none ∧ L.Admits e L') ∨
    ∃ eventID L₁ b, e.names = some eventID ∧ L.Admits e L₁ ∧
      Chain.EndsAt (Leads e.network) (L₁, eventID) b ∧ Done e.network b L'

/-- The ledger after a rejected event: it is not admitted, or the recovery that it starts gets
stuck. -/
def Rejects (L : Ledger) (e : ThalwegEvent) (L' : Ledger) : Prop :=
  ((∀ L₁, ¬ L.Admits e L₁) ∧ L' = L) ∨
    ∃ eventID L₁ b, e.names = some eventID ∧ L.Admits e L₁ ∧
      Chain.EndsAt (Leads e.network) (L₁, eventID) b ∧ Stuck e.network b ∧ L' = b.1

theorem Accepts.kept {L L' : Ledger} {e : ThalwegEvent} (h : L.Accepts e L') :
    L.events <+: L'.events := by
  rcases h with ⟨-, h⟩ | ⟨eventID, L₁, b, -, hadmits, hends, hdone⟩
  · exact h.kept
  · exact hadmits.kept.trans ((prefix_of_leads hends.1).trans hdone.kept)

theorem Rejects.kept {L L' : Ledger} {e : ThalwegEvent} (h : L.Rejects e L') :
    L.events <+: L'.events := by
  rcases h with ⟨-, rfl⟩ | ⟨eventID, L₁, b, -, hadmits, hends, -, rfl⟩
  · exact List.prefix_rfl
  · exact hadmits.kept.trans (prefix_of_leads hends.1)

theorem Accepts.grows {L L' : Ledger} {e : ThalwegEvent} (h : L.Accepts e L') :
    ∃ L₁, L.Admits e L₁ ∧ ReflTransGen Grows L₁ L' := by
  rcases h with ⟨-, h⟩ | ⟨eventID, L₁, b, -, hadmits, hends, hdone⟩
  · exact ⟨L', h, ReflTransGen.refl⟩
  · exact ⟨L₁, hadmits, (grows_of_leads hends.1).trans hdone.grows⟩

theorem Rejects.grows {L L' : Ledger} {e : ThalwegEvent} (h : L.Rejects e L') :
    L' = L ∨ ∃ L₁, L.Admits e L₁ ∧ ReflTransGen Grows L₁ L' := by
  rcases h with ⟨-, rfl⟩ | ⟨eventID, L₁, b, -, hadmits, hends, -, rfl⟩
  · exact Or.inl rfl
  · exact Or.inr ⟨L₁, hadmits, grows_of_leads hends.1⟩

end Ledger

end Thalweg
