import Thalweg.Daemon.Reads
import Thalweg.Daemon.Run

/-!
# The transactions of a conflict resolution

`resolveEventConflict` reads the observations, the original and the resolutions in transactions of
their own before it stores a resolution under a fresh ID. Here a call takes one transaction after
the other, so that other calls and all other operations of the daemon can come in between.

## Main definitions

* `ResolveCall`, `ResolvePhase`, `ResolveCall.proceed`: the transactions of a call.
* `ResolveCall.Knows`: what a call knows in a phase.
* `ResolveCall.Finishes`: the transactions of a call without others in between.

## Main results

* `ResolveCall.proceed_sound`: what a call knows stays true of the ledger.
* `ResolveCall.finishes_resolveEventConflict`: a call that runs alone does what
  `Daemon.resolveEventConflict` does.
-/

namespace Thalweg

/-- Whether a resolution that names the event ID is stored. -/
def Daemon.isResolved (d : Daemon) (networkName eventID : Text) : Bool :=
  match conflictResolutionsTxn d.store networkName with
  | .error _ => false
  | .ok resolutions => isSuperseded resolutions eventID

/-- The order in which `listEventConflicts` looks up the event IDs of its two maps, which have no
particular order. -/
abbrev LookupOrder := List Text → List Text → List Text

/-- A call of `resolveEventConflict`. -/
structure ResolveCall where
  network : Text
  eventID : Text
  /-- A resolution was stored when the call began. -/
  late : Bool

/-- What a call holds while it materializes variants. -/
structure Materialization where
  resolutionEvent : ThalwegEvent
  alreadyResolved : Bool
  /-- The copy of the original, once it is stored. -/
  recovered : Option ThalwegEvent
  /-- The number of copies that are stored. -/
  depth : Nat

/-- What the next transaction of a call is. -/
inductive ResolvePhase where
  /-- `listEventConflicts` reads the resolutions. -/
  | listing
  /-- It reads the observations. -/
  | grouping (resolutions : List (Text × ThalwegEvent))
  /-- It looks up the events of resolved event IDs. -/
  | lookingUp (observed : Bool) (pending : List Text)
  /-- The call looks up the original. -/
  | finding
  /-- It reads the resolutions. -/
  | reading
  /-- It has found none and stores one. -/
  | recording
  /-- `materializeConflictVariant` looks up a variant. -/
  | materializing (m : Materialization) (networkName eventID : Text)
  /-- `ingestReplicated` stores its copy. -/
  | receiving (m : Materialization) (copy : ThalwegEvent)

namespace ResolveCall

/-- The checks of the arguments of a call. -/
def checkArguments (networkName eventID strategy : Text) : Result Unit :=
  if networkName = [] ∨ eventID = [] then errorf "network and eventId are required" []
  else if strategy ≠ [] ∧ strategy ≠ conflictResolutionStrategy then
    errorf "unsupported conflict strategy %q" [strategy]
  else .ok ()

/-- The error of a materialization within others. -/
def wrapped : Nat → Failure → Failure
  | 0, e => e
  | depth + 1, e => .wrap "materialize preserved conflict variant: %w" [] (wrapped depth e)

/-- The result of a call that has materialized all variants. -/
def result (call : ResolveCall) (m : Materialization) (recovered : ThalwegEvent) :
    EventConflictResolutionResult :=
  ⟨call.network, call.eventID, conflictResolutionStrategy, m.resolutionEvent, recovered,
    m.alreadyResolved⟩

/-- The result of a step of a call: its next phase, or what the call returns. -/
abbrev Progress := ResolvePhase ⊕ Result EventConflictResolutionResult

/-- The next transaction of a call. -/
def proceed (call : ResolveCall) (d : Daemon) (random : Text) (order : LookupOrder) :
    ResolvePhase → Daemon × Progress
  | .listing =>
    match conflictResolutionsTxn d.store call.network with
    | .error e => (d, .inr (.error e))
    | .ok resolutions => (d, .inl (.grouping resolutions))
  | .grouping resolutions =>
    let pre := conflictObservationPrefix call.network []
    match groupObservations call.network [] (d.store.scan pre pre) with
    | .error e => (d, .inr (.error e))
    | .ok entries =>
      let unobserved := (resolvedEventIDs resolutions).filter fun eventID =>
        !entries.any fun entry => decide (entry.eventID = eventID)
      let grouped := entries.map EventConflictInfo.eventID ++ unobserved
      (d, .inl (.lookingUp (decide (call.eventID ∈ grouped))
        (order unobserved (grouped.filter (isSuperseded resolutions)))))
  | .lookingUp observed (eventID :: pending) =>
    match storedDigest d.store call.network eventID with
    | .error e => (d, .inr (.error e))
    | .ok _ => (d, .inl (.lookingUp observed pending))
  | .lookingUp observed [] =>
    if observed then (d, .inl .finding)
    else
      (d, .inr (errorf "event %q has no observed conflict in network %q"
        [call.eventID, call.network]))
  | .finding =>
    match findEventByID d.store call.network call.eventID with
    | .error e => (d, .inr (.error e))
    | .ok none =>
      (d, .inr (errorf "conflicting event %q is missing in network %q"
        [call.eventID, call.network]))
    | .ok (some _) => (d, .inl .reading)
  | .reading =>
    match conflictResolutionsTxn d.store call.network with
    | .error e => (d, .inr (.error e))
    | .ok resolutions =>
      match resolutionsOf resolutions call.eventID with
      | resolutionEvent :: _ =>
        (d, .inl (.materializing ⟨resolutionEvent, true, none, 0⟩ call.network call.eventID))
      | [] => (d, .inl .recording)
  | .recording =>
    match d.ingestInternal call.network conflictResolutionStream [] []
        (marshalConflictResolution
          ⟨conflictResolutionVersion, call.eventID, conflictResolutionStrategy⟩) random with
    | (.error e, d) => (d, .inr (.error (.wrap "record conflict resolution: %w" [] e)))
    | (.ok resolutionEvent, d) =>
      (d, .inl (.materializing ⟨resolutionEvent, false, none, 0⟩ call.network call.eventID))
  | .materializing m networkName eventID =>
    match findEventByID d.store networkName eventID with
    | .error e => (d, .inr (.error (wrapped m.depth e)))
    | .ok none => (d, .inr (.ok (call.result m (m.recovered.getD ThalwegEvent.zero))))
    | .ok (some original) =>
      match eventDigest original with
      | .error e => (d, .inr (.error (wrapped m.depth e)))
      | .ok digest =>
        (d, .inl (.receiving m
          { original with id := recoveredConflictEventID networkName eventID digest }))
  | .receiving m copy =>
    match normalizeReplicatedEvent copy with
    | .error e => (d, .inr (.error (wrapped (m.depth + 1) e)))
    | .ok event =>
      match parseConflictResolution event with
      | .error e => (d, .inr (.error (wrapped (m.depth + 1) e)))
      | .ok resolution =>
        match d.storeReplicated event with
        | (.error e, d) => (d, .inr (.error (wrapped (m.depth + 1) e)))
        | (.ok stored, d) =>
          match resolution with
          | none => (d, .inr (.ok (call.result m (m.recovered.getD stored.1))))
          | some payload =>
            (d, .inl (.materializing
              { m with recovered := some (m.recovered.getD stored.1), depth := m.depth + 1 }
              event.network payload.eventID))

/-- The resolution that the next transaction of a call originates. A copy that it stores has its
origin elsewhere. -/
def originates (call : ResolveCall) (d : Daemon) (random : Text) :
    ResolvePhase → Option ThalwegEvent
  | .recording =>
    match findEventByID d.store call.network (randomID "evt" random) with
    | .ok none =>
      (d.ingestInternal call.network conflictResolutionStream [] []
        (marshalConflictResolution
          ⟨conflictResolutionVersion, call.eventID, conflictResolutionStrategy⟩) random).1.toOption
    | _ => none
  | _ => none

end ResolveCall

/-- The calls are about the same conflict. -/
def ResolveCall.Same (call call' : ResolveCall) : Prop :=
  call.network = call'.network ∧ call.eventID = call'.eventID

theorem ResolveCall.Same.symm {call call' : ResolveCall} (h : call.Same call') : call'.Same call :=
  ⟨h.1.symm, h.2.symm⟩

instance (call call' : ResolveCall) : Decidable (call.Same call') := by
  unfold ResolveCall.Same
  infer_instance

/-! ### What a call knows -/

theorem Daemon.Holds.isResolved_iff {d : Daemon} {L : Ledger} (h : d.Holds L)
    {networkName eventID : Text} : d.isResolved networkName eventID = true ↔
      ∃ r ∈ L.events, r.network = networkName ∧ r.names = some eventID := by
  obtain ⟨resolutions, hread, -⟩ := h.represents.conflictResolutionsTxn_spec networkName
  simp only [isResolved, hread]
  rw [h.represents.isSuperseded_iff hread, h.represents.superseded_iff]

theorem Daemon.isResolved_eq_false_iff {d : Daemon} {networkName eventID : Text}
    {resolutions : List (Text × ThalwegEvent)}
    (hread : conflictResolutionsTxn d.store networkName = .ok resolutions) :
    d.isResolved networkName eventID = false ↔ resolutionsOf resolutions eventID = [] := by
  simp only [isResolved, hread, isSuperseded, resolutionsOf]
  rw [← List.length_eq_zero_iff, List.length_insertionSort, List.length_map,
    List.length_eq_zero_iff, List.filter_eq_nil_iff, List.any_eq_false]

namespace ResolveCall

variable {call : ResolveCall} {d d' : Daemon} {L L' : Ledger}

/-- A resolution of the conflict is in the ledger. -/
def Resolved (call : ResolveCall) (L : Ledger) : Prop :=
  ∃ r ∈ L.events, r.network = call.network ∧ r.names = some call.eventID

/-- The call asks for an event ID, and the original is in the ledger. -/
structure Stored (call : ResolveCall) (L : Ledger) : Prop where
  eventID_ne_nil : call.eventID ≠ []
  original : ∃ e ∈ L.events, e.network = call.network ∧ e.id = call.eventID

/-- The event has the ID of the recovered copy of the original. -/
def Recovers (call : ResolveCall) (L : Ledger) (e : ThalwegEvent) : Prop :=
  ∃ original ∈ L.events, original.network = call.network ∧ original.id = call.eventID ∧
    e.id = (recoveredCopy original).id

/-- What a call knows of its first copy while it materializes variants. -/
structure Materializes (call : ResolveCall) (L : Ledger) (m : Materialization)
    (networkName eventID : Text) : Prop where
  already : call.late = true → m.alreadyResolved = true
  first : m.recovered = none →
    networkName = call.network ∧ eventID = call.eventID ∧ call.Stored L
  later : ∀ e, m.recovered = some e → call.Recovers L e

/-- What a call knows in a phase. -/
def Knows (call : ResolveCall) (L : Ledger) : ResolvePhase → Prop
  | .listing | .grouping _ | .lookingUp _ _ | .finding => call.eventID ≠ []
  | .reading => call.Stored L
  | .recording => call.Stored L ∧ call.late = false
  | .materializing m networkName eventID => call.Materializes L m networkName eventID
  | .receiving m copy =>
    (call.late = true → m.alreadyResolved = true) ∧ Storable copy ∧
      call.Recovers L (m.recovered.getD copy)

/-- What the result of a call is. -/
def Returns (call : ResolveCall) (L : Ledger) (res : Result EventConflictResolutionResult) : Prop :=
  ∀ x, res = .ok x →
    (call.late = true → x.alreadyResolved = true) ∧ call.Recovers L x.recoveredEvent

theorem Resolved.mono (h : call.Resolved L) (hL : L.events ⊆ L'.events) : call.Resolved L' :=
  let ⟨r, hr, hspec⟩ := h
  ⟨r, hL hr, hspec⟩

theorem Stored.mono (h : call.Stored L) (hL : L.events ⊆ L'.events) : call.Stored L' :=
  let ⟨e, he, hspec⟩ := h.original
  ⟨h.eventID_ne_nil, e, hL he, hspec⟩

theorem Recovers.mono {e : ThalwegEvent} (h : call.Recovers L e) (hL : L.events ⊆ L'.events) :
    call.Recovers L' e :=
  let ⟨original, ho, hspec⟩ := h
  ⟨original, hL ho, hspec⟩

theorem Knows.mono {phase : ResolvePhase} (h : call.Knows L phase) (hL : L.events ⊆ L'.events) :
    call.Knows L' phase := by
  cases phase with
  | listing | grouping | lookingUp | finding => exact h
  | reading => exact Stored.mono h hL
  | recording => exact ⟨h.1.mono hL, h.2⟩
  | materializing m networkName eventID =>
    refine ⟨h.already, fun hnone => ?_, fun e he => (h.later e he).mono hL⟩
    obtain ⟨hn, hi, hstored⟩ := h.first hnone
    exact ⟨hn, hi, hstored.mono hL⟩
  | receiving m copy => exact ⟨h.1, h.2.1, h.2.2.mono hL⟩

theorem Returns.mono {res : Result EventConflictResolutionResult} (h : call.Returns L res)
    (hL : L.events ⊆ L'.events) : call.Returns L' res :=
  fun x hx => ⟨(h x hx).1, (h x hx).2.mono hL⟩

/-- A conflict has one recovered event ID. -/
theorem Recovers.unique {call' : ResolveCall} {e e' : ThalwegEvent} (h : call.Recovers L e)
    (h' : call'.Recovers L e') (hsame : call.Same call') : e.id = e'.id := by
  obtain ⟨original, ho, hn, hi, he⟩ := h
  obtain ⟨original', ho', hn', hi', he'⟩ := h'
  obtain rfl := L.distinct.eq_of_id ho ho' (hn.trans (hsame.1.trans hn'.symm))
    (hi.trans (hsame.2.trans hi'.symm))
  exact he.trans he'.symm

/-! ### One transaction of a call -/

/-- What a transaction of a call leaves. -/
structure Proceeds (call : ResolveCall) (L L' : Ledger) (r : Daemon × Progress) : Prop where
  holds : r.1.Holds L'
  kept : L.events <+: L'.events
  next : ∀ p, r.2 = .inl p → call.Knows L' p
  returns : ∀ res, r.2 = .inr res → call.Returns L' res

theorem Proceeds.on (h : d.Holds L') (hkept : L.events <+: L'.events) {p : ResolvePhase}
    (hknows : call.Knows L' p) : Proceeds call L L' (d, .inl p) where
  holds := h
  kept := hkept
  next _ heq := Sum.inl.inj heq ▸ hknows
  returns _ heq := by cases heq

theorem Proceeds.fail (h : d.Holds L') (hkept : L.events <+: L'.events) (e : Failure) :
    Proceeds call L L' (d, .inr (.error e)) where
  holds := h
  kept := hkept
  next _ heq := by cases heq
  returns _ heq := by
    obtain rfl := Sum.inr.inj heq
    rintro x ⟨⟩

theorem Proceeds.succeed (h : d.Holds L') (hkept : L.events <+: L'.events)
    {x : EventConflictResolutionResult} (hlate : call.late = true → x.alreadyResolved = true)
    (hrecovers : call.Recovers L' x.recoveredEvent) : Proceeds call L L' (d, .inr (.ok x)) where
  holds := h
  kept := hkept
  next _ heq := by cases heq
  returns _ heq := by
    obtain rfl := Sum.inr.inj heq
    rintro _ ⟨⟩
    exact ⟨hlate, hrecovers⟩

/-- A new resolution is recorded while the original is stored. -/
theorem proceed_recording (h : d.Holds L) (hstored : call.Stored L) (random : Text) :
    (∃ err d' L', d.ingestInternal call.network conflictResolutionStream [] []
        (marshalConflictResolution (resolutionOf call.eventID)) random = (.error err, d') ∧
      d'.Holds L' ∧ L.events <+: L'.events) ∨
    ∃ e d' L', d.ingestInternal call.network conflictResolutionStream [] []
        (marshalConflictResolution (resolutionOf call.eventID)) random = (.ok e, d') ∧
      d'.Holds L' ∧ L.events <+: L'.events ∧ e ∈ L'.events ∧ e.network = call.network ∧
      e.names = some call.eventID := by
  obtain ⟨original, horiginal, hn, hi⟩ := hstored.original
  rcases @Daemon.Holds.ingestInternal_cases d L h call.network conflictResolutionStream [] []
      (marshalConflictResolution (resolutionOf call.eventID)) random fun _ e hfresh hissues =>
        ⟨call.eventID, Daemon.Holds.names_of_issues hstored.eventID_ne_nil horiginal hn hi hfresh
          hissues⟩ with
    ⟨err, d', hrun, rfl | rfl⟩ | ⟨e, he, -, hanswers, hrun⟩ |
      ⟨e, hfresh, d', hissues, -, -, hd', -, hrun⟩
  · exact Or.inl ⟨err, _, L, hrun, h, List.prefix_rfl⟩
  · exact Or.inl ⟨err, _, L.tick, hrun, h.tick, List.prefix_rfl⟩
  · exact Or.inr ⟨e, _, L.tick, hrun, h.tick, List.prefix_rfl, he, hanswers.network_eq,
      Daemon.Holds.names_of_answers hstored.eventID_ne_nil hanswers⟩
  · exact Or.inr ⟨e, d', _, hrun, hd', List.prefix_append _ _, by simp [Ledger.record],
      hissues.network_eq, Daemon.Holds.names_of_answers hstored.eventID_ne_nil hissues.toAnswers⟩

/-- **A transaction of a call** keeps a ledger, and the call knows what its next phase needs. -/
theorem proceed_sound (h : d.Holds L) (hlate : call.late = true → call.Resolved L)
    {phase : ResolvePhase} (hknows : call.Knows L phase) (random : Text)
    (order : LookupOrder) :
    ∃ L', Proceeds call L L' (call.proceed d random order phase) := by
  cases phase with
  | listing =>
    refine ⟨L, ?_⟩
    simp only [proceed]
    split
    · exact .fail h List.prefix_rfl _
    · exact .on h List.prefix_rfl hknows
  | grouping resolutions =>
    refine ⟨L, ?_⟩
    simp only [proceed]
    split
    · exact .fail h List.prefix_rfl _
    · exact .on h List.prefix_rfl hknows
  | lookingUp observed pending =>
    refine ⟨L, ?_⟩
    cases pending with
    | nil =>
      simp only [proceed]
      split
      · exact .on h List.prefix_rfl hknows
      · exact .fail h List.prefix_rfl _
    | cons eventID pending =>
      simp only [proceed]
      split
      · exact .fail h List.prefix_rfl _
      · exact .on h List.prefix_rfl hknows
  | finding =>
    refine ⟨L, ?_⟩
    simp only [proceed]
    split
    · exact .fail h List.prefix_rfl _
    · exact .fail h List.prefix_rfl _
    · next original hfind =>
      obtain ⟨hmem, hn, hi, -⟩ := h.readable_of_find hfind
      exact .on h List.prefix_rfl ⟨hknows, original, hmem, hn, hi⟩
  | reading =>
    refine ⟨L, ?_⟩
    simp only [proceed]
    split
    · exact .fail h List.prefix_rfl _
    · next resolutions hread =>
      split
      · exact .on h List.prefix_rfl ⟨fun _ => rfl, fun _ => ⟨rfl, rfl, hknows⟩, by rintro e ⟨⟩⟩
      · next hnone =>
        refine .on h List.prefix_rfl ⟨hknows, Bool.eq_false_iff.mpr fun htrue => ?_⟩
        have hresolved := h.isResolved_iff.mpr (hlate htrue)
        rw [(Daemon.isResolved_eq_false_iff hread).mpr hnone] at hresolved
        cases hresolved
  | recording =>
    obtain ⟨hstored, hearly⟩ := hknows
    simp only [proceed]
    rcases proceed_recording h hstored random with
      ⟨err, d', L', hrun, hd', hkept⟩ | ⟨e, d', L', hrun, hd', hkept, -⟩
    all_goals
      rw [resolutionOf] at hrun
      simp only [hrun]
      refine ⟨L', ?_⟩
    · exact .fail hd' hkept _
    · refine .on hd' hkept ⟨fun htrue => ?_, fun _ => ⟨rfl, rfl, hstored.mono hkept.subset⟩,
        by rintro e ⟨⟩⟩
      rw [hearly] at htrue
      cases htrue
  | materializing m networkName eventID =>
    refine ⟨L, ?_⟩
    simp only [proceed]
    split
    · exact .fail h List.prefix_rfl _
    · next hfind =>
      cases hrecovered : m.recovered with
      | none =>
        obtain ⟨rfl, rfl, hstored⟩ := hknows.first hrecovered
        obtain ⟨e, he, hn, hi⟩ := hstored.original
        exact absurd hi (h.represents.findEventByID_eq_ok_none_iff.mp hfind e he hn)
      | some e => exact .succeed h List.prefix_rfl hknows.already (hknows.later e hrecovered)
    · next original hfind =>
      obtain ⟨hmem, hn, hi, -⟩ := h.readable_of_find hfind
      have hstorable := h.represents.storable original hmem
      split
      · exact .fail h List.prefix_rfl _
      · next digest hdigest =>
        obtain ⟨-, rfl⟩ := hstorable.eventDigest_eq_ok_iff.mp hdigest
        subst hn hi
        refine .on h List.prefix_rfl ⟨hknows.already, hstorable.recoveredCopy, ?_⟩
        cases hrecovered : m.recovered with
        | none =>
          obtain ⟨hn, hi, -⟩ := hknows.first hrecovered
          exact ⟨original, hmem, hn, hi, rfl⟩
        | some e => exact hknows.later e hrecovered
  | receiving m copy =>
    obtain ⟨halready, hstorable, hrecovers⟩ := hknows
    simp only [proceed]
    split
    · exact ⟨L, .fail h List.prefix_rfl _⟩
    · next event hnormal =>
      obtain ⟨-, rfl⟩ := hstorable.normalizeReplicatedEvent_eq_ok_iff.mp hnormal
      split
      · exact ⟨L, .fail h List.prefix_rfl _⟩
      · next resolution hparse =>
        have hstore := h.storeReplicated_cases hstorable (names_of_parseConflictResolution hparse)
        rcases hstore with ⟨err, d', hstore, rfl | rfl, -⟩ | ⟨hstore, -, -⟩ |
          ⟨d', L', hstore, -, hadmits, hd', -⟩
        · exact ⟨L, by simp only [hstore]; exact .fail h List.prefix_rfl _⟩
        · exact ⟨L.tick, by simp only [hstore]; exact .fail h.tick (List.prefix_refl L.events) _⟩
        · refine ⟨L, ?_⟩
          simp only [hstore]
          cases resolution with
          | none => exact .succeed h List.prefix_rfl halready hrecovers
          | some payload =>
            refine .on h List.prefix_rfl ⟨halready, by rintro ⟨⟩, ?_⟩
            rintro e ⟨⟩
            exact hrecovers
        · refine ⟨L', ?_⟩
          have hrecovers' := hrecovers.mono hadmits.kept.subset
          simp only [hstore]
          cases resolution with
          | none => exact .succeed hd' hadmits.kept halready hrecovers'
          | some payload =>
            refine .on hd' hadmits.kept ⟨halready, by rintro ⟨⟩, ?_⟩
            rintro e ⟨⟩
            exact hrecovers'

/-- What a transaction originates is a resolution of the conflict, by a call that has found none. -/
theorem originates_spec (h : d.Holds L) {phase : ResolvePhase} (hknows : call.Knows L phase)
    {random : Text} {order : LookupOrder} {e : ThalwegEvent}
    (horiginates : call.originates d random phase = some e)
    (hproceeds : Proceeds call L L' (call.proceed d random order phase)) :
    phase = .recording ∧ call.late = false ∧ e ∈ L'.events ∧ e.network = call.network ∧
      e.names = some call.eventID := by
  cases phase with
  | recording =>
    obtain ⟨hstored, hearly⟩ := hknows
    refine ⟨rfl, hearly, ?_⟩
    have hholds := hproceeds.holds
    simp only [originates] at horiginates
    split at horiginates
    · rcases proceed_recording h hstored random with
        ⟨err, d', L₁, hrun, -⟩ | ⟨e', d', L₁, hrun, hd', -, he', hn, hname⟩
      all_goals
        rw [resolutionOf] at hrun
        rw [hrun] at horiginates
      · cases horiginates
      · cases horiginates
        simp only [proceed, hrun] at hholds
        have hstored' := hd'.represents.mem_storedEvents_iff.mpr he'
        exact ⟨hholds.represents.mem_storedEvents_iff.mp hstored', hn, hname⟩
    · cases horiginates
  | listing | grouping | lookingUp | finding | reading | materializing | receiving =>
    cases horiginates

/-- A call is about to store a resolution after it has found none. -/
theorem of_proceed_eq_recording {phase : ResolvePhase} {random : Text}
    {order : LookupOrder}
    (hp : (call.proceed d random order phase).2 = .inl .recording) :
    phase = .reading ∧ d.isResolved call.network call.eventID = false := by
  cases phase with
  | reading =>
    refine ⟨rfl, ?_⟩
    simp only [proceed] at hp
    split at hp
    · cases hp
    · next resolutions hread =>
      split at hp
      · cases hp
      · next hnone => exact (Daemon.isResolved_eq_false_iff hread).mpr hnone
  | lookingUp observed pending =>
    cases pending with
    | nil =>
      simp only [proceed] at hp
      split at hp <;> cases hp
    | cons eventID pending =>
      simp only [proceed] at hp
      split at hp <;> cases hp
  | receiving m copy =>
    simp only [proceed] at hp
    split at hp
    · cases hp
    · split at hp
      · cases hp
      · split at hp
        · cases hp
        · split at hp <;> cases hp
  | materializing m networkName eventID =>
    simp only [proceed] at hp
    split at hp
    · cases hp
    · cases hp
    · split at hp <;> cases hp
  | listing | grouping | finding | recording =>
    simp only [proceed] at hp
    split at hp <;> cases hp

end ResolveCall

/-! ### Calls that run alone -/

namespace ResolveCall

variable {call : ResolveCall} {random : Text}

/-- A call that goes on alone returns. -/
inductive Finishes (call : ResolveCall) (random : Text) :
    Daemon → ResolvePhase → Daemon → Result EventConflictResolutionResult → Prop
  | last {d d' : Daemon} {phase : ResolvePhase} {res : Result EventConflictResolutionResult}
      (order : LookupOrder) : call.proceed d random order phase = (d', .inr res) →
      Finishes call random d phase d' res
  | more {d d₁ d' : Daemon} {phase phase₁ : ResolvePhase}
      {res : Result EventConflictResolutionResult} (order : LookupOrder) :
      call.proceed d random order phase = (d₁, .inl phase₁) →
      Finishes call random d₁ phase₁ d' res → Finishes call random d phase d' res

/-- The result of a call whose materialization has a result within others. -/
def resultOf (call : ResolveCall) (m : Materialization) (depth : Nat) :
    Result (ThalwegEvent × Bool) → Result EventConflictResolutionResult
  | .error e => .error (wrapped depth e)
  | .ok stored => .ok (call.result m (m.recovered.getD stored.1))

theorem wrapped_wrap (depth : Nat) (e : Failure) :
    wrapped depth (.wrap "materialize preserved conflict variant: %w" [] e) =
      wrapped (depth + 1) e := by
  induction depth with
  | zero => rfl
  | succ depth ih => rw [wrapped, ih, wrapped, wrapped, wrapped]

/-- The transactions of a materialization, and those of the receipt of a copy. -/
theorem finishes_variants (fuel : Nat) :
    (∀ {d d' networkName eventID res} (m : Materialization),
      Daemon.materializeConflictVariant fuel d networkName eventID = some (res, d') →
      Finishes call random d (.materializing m networkName eventID) d'
        (call.resultOf m m.depth res)) ∧
    ∀ {d d' copy res} (m : Materialization), Daemon.ingestReplicated fuel d copy = some (res, d') →
      Finishes call random d (.receiving m copy) d' (call.resultOf m (m.depth + 1) res) := by
  induction fuel with
  | zero =>
    refine ⟨fun {d d' networkName eventID res} m hrun => ?_, fun {d d' copy res} m hrun => ?_⟩
    all_goals cases hrun
  | succ fuel ih =>
    refine ⟨fun {d d' networkName eventID res} m hrun => ?_, fun {d d' copy res} m hrun => ?_⟩
    · simp only [Daemon.materializeConflictVariant] at hrun
      cases hfind : findEventByID d.store networkName eventID with
      | error e =>
        simp only [hfind, Option.some.injEq, Prod.mk.injEq] at hrun
        obtain ⟨rfl, rfl⟩ := hrun
        exact .last (· ++ ·) (by simp only [proceed, hfind, resultOf])
      | ok found =>
        cases found with
        | none =>
          simp only [hfind, Option.some.injEq, Prod.mk.injEq] at hrun
          obtain ⟨rfl, rfl⟩ := hrun
          exact .last (· ++ ·) (by simp only [proceed, hfind, resultOf])
        | some original =>
          cases hdigest : eventDigest original with
          | error e =>
            simp only [hfind, hdigest, Option.some.injEq, Prod.mk.injEq] at hrun
            obtain ⟨rfl, rfl⟩ := hrun
            exact .last (· ++ ·) (by simp only [proceed, hfind, hdigest, resultOf])
          | ok digest =>
            have hstep : call.proceed d random (· ++ ·) (.materializing m networkName eventID) =
                (d, .inl (.receiving m { original with
                  id := recoveredConflictEventID networkName eventID digest })) := by
              simp only [proceed, hfind, hdigest]
            simp only [hfind, hdigest] at hrun
            refine .more (· ++ ·) hstep ?_
            split at hrun
            · cases hrun
            · next hreceipt =>
              cases hrun
              rw [resultOf, wrapped_wrap]
              exact ih.2 m hreceipt
            · next hreceipt =>
              cases hrun
              exact ih.2 m hreceipt
    · simp only [Daemon.ingestReplicated] at hrun
      cases hnormal : normalizeReplicatedEvent copy with
      | error e =>
        simp only [hnormal, Option.some.injEq, Prod.mk.injEq] at hrun
        obtain ⟨rfl, rfl⟩ := hrun
        exact .last (· ++ ·) (by simp only [proceed, hnormal, resultOf])
      | ok event =>
        cases hparse : parseConflictResolution event with
        | error e =>
          simp only [hnormal, hparse, Option.some.injEq, Prod.mk.injEq] at hrun
          obtain ⟨rfl, rfl⟩ := hrun
          exact .last (· ++ ·) (by simp only [proceed, hnormal, hparse, resultOf])
        | ok resolution =>
          simp only [hnormal, hparse] at hrun
          split at hrun
          · next hstore =>
            cases hrun
            exact .last (· ++ ·) (by simp only [proceed, hnormal, hparse, hstore, resultOf])
          · next stored d₁ hstore =>
            cases resolution with
            | none =>
              cases hrun
              exact .last (· ++ ·) (by simp only [proceed, hnormal, hparse, hstore, resultOf])
            | some payload =>
              have hstep : call.proceed d random (· ++ ·) (.receiving m copy) =
                  (d₁, .inl (.materializing { m with
                    recovered := some (m.recovered.getD stored.1), depth := m.depth + 1 }
                    event.network payload.eventID)) := by
                simp only [proceed, hnormal, hparse, hstore]
              refine .more (· ++ ·) hstep ?_
              simp only at hrun
              split at hrun
              · cases hrun
              · next hvariant =>
                cases hrun
                exact ih.1 _ hvariant
              · next hvariant =>
                cases hrun
                exact ih.1 _ hvariant

/-- The look-ups of `listEventConflicts` succeed, or the first one that fails. -/
def lookUpAll (d : Daemon) (networkName : Text) : List Text → Result Unit
  | [] => .ok ()
  | eventID :: eventIDs =>
    match storedDigest d.store networkName eventID with
    | .error e => .error e
    | .ok _ => lookUpAll d networkName eventIDs

theorem lookUpAll_append (d : Daemon) (networkName : Text) (a b : List Text) :
    lookUpAll d networkName (a ++ b) =
      match lookUpAll d networkName a with
      | .error e => .error e
      | .ok () => lookUpAll d networkName b := by
  induction a with
  | nil => rfl
  | cons eventID a ih =>
    simp only [List.cons_append, lookUpAll]
    cases storedDigest d.store networkName eventID with
    | error e => rfl
    | ok digest => exact ih

theorem unobservedConflicts_eq (d : Daemon) (networkName : Text)
    (resolutions : List (Text × ThalwegEvent)) (eventIDs : List Text) :
    match lookUpAll d networkName eventIDs with
    | .error e => unobservedConflicts d.store networkName resolutions eventIDs = .error e
    | .ok () => ∃ entries, unobservedConflicts d.store networkName resolutions eventIDs =
        .ok entries ∧ entries.map EventConflictInfo.eventID = eventIDs := by
  induction eventIDs with
  | nil => exact ⟨[], rfl, rfl⟩
  | cons eventID eventIDs ih =>
    simp only [lookUpAll, unobservedConflicts, bind, Except.bind]
    cases storedDigest d.store networkName eventID with
    | error e => rfl
    | ok digest =>
      simp only
      cases hlook : lookUpAll d networkName eventIDs with
      | error e =>
        rw [hlook] at ih
        simp only [ih]
      | ok _ =>
        rw [hlook] at ih
        obtain ⟨entries, hentries, hids⟩ := ih
        simp only [hentries]
        exact ⟨_, rfl, by rw [List.map_cons, hids]⟩

/-- `withResolutions` looks up the resolved event IDs from the last one on. -/
theorem withResolutions_eq (d : Daemon) (networkName : Text)
    (resolutions : List (Text × ThalwegEvent)) (entries : List EventConflictInfo) :
    match lookUpAll d networkName
      ((entries.map EventConflictInfo.eventID).filter (isSuperseded resolutions)).reverse with
    | .error e => withResolutions d.store networkName resolutions entries = .error e
    | .ok () => ∃ entries', withResolutions d.store networkName resolutions entries =
        .ok entries' ∧
        entries'.map EventConflictInfo.eventID = entries.map EventConflictInfo.eventID := by
  induction entries with
  | nil => exact ⟨[], rfl, rfl⟩
  | cons entry entries ih =>
    simp only [withResolutions, bind, Except.bind, List.map_cons, List.filter_cons]
    cases hresolved : isSuperseded resolutions entry.eventID with
    | true =>
      simp only [if_true, List.reverse_cons, lookUpAll_append]
      cases hlook : lookUpAll d networkName
          ((entries.map EventConflictInfo.eventID).filter (isSuperseded resolutions)).reverse with
      | error e =>
        rw [hlook] at ih
        simp only [ih]
      | ok _ =>
        rw [hlook] at ih
        obtain ⟨entries', hentries, hids⟩ := ih
        simp only [hentries, lookUpAll]
        cases storedDigest d.store networkName entry.eventID with
        | error e => rfl
        | ok digest => exact ⟨_, rfl, by rw [List.map_cons, hids]⟩
    | false =>
      simp only [Bool.false_eq_true, if_false]
      cases hlook : lookUpAll d networkName
          ((entries.map EventConflictInfo.eventID).filter (isSuperseded resolutions)).reverse with
      | error e =>
        rw [hlook] at ih
        simp only [ih]
      | ok _ =>
        rw [hlook] at ih
        obtain ⟨entries', hentries, hids⟩ := ih
        simp only [hentries]
        exact ⟨_, rfl, by rw [List.map_cons, hids]⟩

theorem finishes_lookingUp (d : Daemon) (observed : Bool) (pending : List Text) :
    match lookUpAll d call.network pending with
    | .error e => Finishes call random d (.lookingUp observed pending) d (.error e)
    | .ok () => ∀ {d' res}, Finishes call random d (.lookingUp observed []) d' res →
        Finishes call random d (.lookingUp observed pending) d' res := by
  induction pending with
  | nil => exact id
  | cons eventID pending ih =>
    simp only [lookUpAll]
    cases hdigest : storedDigest d.store call.network eventID with
    | error e => exact .last (· ++ ·) (by simp only [proceed, hdigest])
    | ok digest =>
      have hstep : call.proceed d random (· ++ ·) (.lookingUp observed (eventID :: pending)) =
          (d, .inl (.lookingUp observed pending)) := by
        simp only [proceed, hdigest]
      simp only
      cases hlook : lookUpAll d call.network pending with
      | error e =>
        rw [hlook] at ih
        exact .more (· ++ ·) hstep ih
      | ok _ =>
        rw [hlook] at ih
        intro d' res hrest
        exact .more (· ++ ·) hstep (ih hrest)

/-- The last steps of `resolveEventConflict`. -/
theorem finishes_finishResolution {fuel : Nat} {d d' : Daemon} {r : ThalwegEvent} {again : Bool}
    {res : Result EventConflictResolutionResult}
    (hrun : d.finishResolution fuel call.network call.eventID r again = some (res, d')) :
    Finishes call random d (.materializing ⟨r, again, none, 0⟩ call.network call.eventID) d'
      res := by
  obtain ⟨res', hvariant, hres⟩ := Daemon.Holds.finishResolution_eq_some hrun
  have hfinishes := (@finishes_variants call random fuel).1 ⟨r, again, none, 0⟩ hvariant
  rcases hres with ⟨e, rfl, rfl⟩ | ⟨copy, created, rfl, rfl⟩
  · exact hfinishes
  · exact hfinishes

/-- The steps of `resolveEventConflict` after its listing. -/
theorem finishes_resolveObserved {fuel : Nat} {d d' : Daemon} {conflicts : List EventConflictInfo}
    {observed : Bool} {res : Result EventConflictResolutionResult}
    (hobserved : (conflicts.any fun c => decide (c.eventID = call.eventID)) = observed)
    (hrun : d.resolveObserved fuel call.network call.eventID random conflicts = some (res, d')) :
    Finishes call random d (.lookingUp observed []) d' res := by
  simp only [Daemon.resolveObserved, hobserved] at hrun
  cases observed with
  | false =>
    cases hrun
    exact .last (· ++ ·) rfl
  | true =>
    have hlisted : call.proceed d random (· ++ ·) (.lookingUp true []) = (d, .inl .finding) := rfl
    refine .more (· ++ ·) hlisted ?_
    simp only [Bool.not_true, Bool.false_eq_true, if_false] at hrun
    cases hfind : findEventByID d.store call.network call.eventID with
    | error e =>
      simp only [hfind, Option.some.injEq, Prod.mk.injEq] at hrun
      obtain ⟨rfl, rfl⟩ := hrun
      exact .last (· ++ ·) (by simp only [proceed, hfind])
    | ok found =>
      cases found with
      | none =>
        simp only [hfind, Option.some.injEq, Prod.mk.injEq] at hrun
        obtain ⟨rfl, rfl⟩ := hrun
        exact .last (· ++ ·) (by simp only [proceed, hfind])
      | some original =>
        have hfound : call.proceed d random (· ++ ·) .finding = (d, .inl .reading) := by
          simp only [proceed, hfind]
        refine .more (· ++ ·) hfound ?_
        simp only [hfind] at hrun
        cases hread : conflictResolutionsTxn d.store call.network with
        | error e =>
          simp only [hread, Option.some.injEq, Prod.mk.injEq] at hrun
          obtain ⟨rfl, rfl⟩ := hrun
          exact .last (· ++ ·) (by simp only [proceed, hread])
        | ok resolutions =>
          simp only [hread] at hrun
          cases hresolutions : resolutionsOf resolutions call.eventID with
          | cons r rest =>
            have hresolved : call.proceed d random (· ++ ·) .reading = (d, .inl
                (.materializing ⟨r, true, none, 0⟩ call.network call.eventID)) := by
              simp only [proceed, hread, hresolutions]
            simp only [hresolutions] at hrun
            exact .more (· ++ ·) hresolved (finishes_finishResolution hrun)
          | nil =>
            have hunresolved : call.proceed d random (· ++ ·) .reading = (d, .inl .recording) := by
              simp only [proceed, hread, hresolutions]
            refine .more (· ++ ·) hunresolved ?_
            simp only [hresolutions] at hrun
            split at hrun
            · next hrecord =>
              cases hrun
              exact .last (· ++ ·) (by simp only [proceed, hrecord])
            · next r d₁ hrecord =>
              have hrecorded : call.proceed d random (· ++ ·) .recording = (d₁, .inl
                  (.materializing ⟨r, false, none, 0⟩ call.network call.eventID)) := by
                simp only [proceed, hrecord]
              exact .more (· ++ ·) hrecorded (finishes_finishResolution hrun)

/-- **A call that runs alone** does what `resolveEventConflict` does. -/
theorem finishes_resolveEventConflict {fuel : Nat} {d d' : Daemon} {strategy : Text}
    {res : Result EventConflictResolutionResult}
    (hrun : d.resolveEventConflict fuel call.network call.eventID strategy random =
      some (res, d')) :
    match checkArguments call.network call.eventID strategy with
    | .error e => res = .error e ∧ d' = d
    | .ok () => Finishes call random d .listing d' res := by
  unfold Daemon.resolveEventConflict at hrun
  unfold checkArguments
  by_cases hrequired : call.network = [] ∨ call.eventID = []
  · rw [if_pos hrequired] at hrun ⊢
    cases hrun
    exact ⟨rfl, rfl⟩
  rw [if_neg hrequired] at hrun ⊢
  by_cases hstrategy : strategy ≠ [] ∧ strategy ≠ conflictResolutionStrategy
  · rw [if_pos hstrategy] at hrun ⊢
    cases hrun
    exact ⟨rfl, rfl⟩
  rw [if_neg hstrategy] at hrun ⊢
  change Finishes call random d .listing d' res
  have hnetwork : call.network ≠ [] := fun hnil => hrequired (Or.inl hnil)
  simp only [Daemon.listEventConflicts, if_neg hnetwork, bind, Except.bind] at hrun
  cases hread : conflictResolutionsTxn d.store call.network with
  | error e =>
    simp only [hread, Option.some.injEq, Prod.mk.injEq] at hrun
    obtain ⟨rfl, rfl⟩ := hrun
    exact .last (· ++ ·) (by simp only [proceed, hread])
  | ok resolutions =>
    have hlisted : call.proceed d random (· ++ ·) .listing = (d, .inl (.grouping resolutions)) := by
      simp only [proceed, hread]
    refine .more (· ++ ·) hlisted ?_
    simp only [hread] at hrun
    cases hgroup : groupObservations call.network []
        (d.store.scan (conflictObservationPrefix call.network [])
          (conflictObservationPrefix call.network [])) with
    | error e =>
      simp only [hgroup, Option.some.injEq, Prod.mk.injEq] at hrun
      obtain ⟨rfl, rfl⟩ := hrun
      exact .last (· ++ ·) (by simp only [proceed, hgroup])
    | ok entries =>
      simp only [hgroup] at hrun
      generalize hunobserved : (resolvedEventIDs resolutions).filter (fun eventID =>
        !entries.any fun entry => decide (entry.eventID = eventID)) = unobserved at hrun
      -- the second look-ups take the last entry first
      have hgrouped : call.proceed d random (fun a b => a ++ b.reverse) (.grouping resolutions) =
          (d, .inl (.lookingUp
            (decide (call.eventID ∈ entries.map EventConflictInfo.eventID ++ unobserved))
            (unobserved ++ ((entries.map EventConflictInfo.eventID ++ unobserved).filter
              (isSuperseded resolutions)).reverse))) := by
        simp only [proceed, hgroup, hunobserved]
      refine .more _ hgrouped ?_
      have hfinishes := @finishes_lookingUp call random d
        (decide (call.eventID ∈ entries.map EventConflictInfo.eventID ++ unobserved))
        (unobserved ++ ((entries.map EventConflictInfo.eventID ++ unobserved).filter
          (isSuperseded resolutions)).reverse)
      rw [lookUpAll_append] at hfinishes
      have hfirst := unobservedConflicts_eq d call.network resolutions unobserved
      cases hlook : lookUpAll d call.network unobserved with
      | error e =>
        rw [hlook] at hfirst hfinishes
        simp only [hfirst, Option.some.injEq, Prod.mk.injEq] at hrun
        obtain ⟨rfl, rfl⟩ := hrun
        exact hfinishes
      | ok _ =>
        rw [hlook] at hfirst
        obtain ⟨others, hothers, hids⟩ := hfirst
        simp only [hlook] at hfinishes
        simp only [hothers] at hrun
        have hsecond := withResolutions_eq d call.network resolutions (entries ++ others)
        rw [List.map_append, hids] at hsecond
        cases hlook' : lookUpAll d call.network
            ((entries.map EventConflictInfo.eventID ++ unobserved).filter
              (isSuperseded resolutions)).reverse with
        | error e =>
          rw [hlook'] at hsecond hfinishes
          simp only [hsecond, Option.some.injEq, Prod.mk.injEq] at hrun
          obtain ⟨rfl, rfl⟩ := hrun
          exact hfinishes
        | ok _ =>
          rw [hlook'] at hsecond hfinishes
          obtain ⟨conflicts, hconflicts, hids'⟩ := hsecond
          simp only [hconflicts] at hrun
          refine hfinishes (finishes_resolveObserved ?_ hrun)
          rw [Bool.eq_iff_iff, List.any_eq_true, decide_eq_true_iff, ← hids', List.mem_map]
          simp [List.mem_insertionSort]

end ResolveCall

end Thalweg
