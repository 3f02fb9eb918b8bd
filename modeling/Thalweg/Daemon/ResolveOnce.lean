import Thalweg.Daemon.ResolveCalls
import Thalweg.Data.Machine

/-!
# Overlapping conflict resolutions

Resolving a conflict is idempotent as long as no two calls are between the reading that finds no
resolution and the transaction that stores one. Two calls that are there both store one.

## Main definitions

* `ResolveHistory`: the daemon with its calls, and what they have originated and returned.
* `ResolveHistory.ResolvesOnce`: resolving is idempotent.
* `ResolveHistory.readsAlone`: no other call is about to store a resolution.

## Main results

* `ResolveHistory.run_resolveEventConflict`: whole calls are runs.
* `ResolveHistory.resolvesOnce_of_readsAlone`, `ResolveHistory.not_resolvesOnce_overlappingRun`.
-/

namespace Thalweg

open Machine

/-- A step of the daemon: a call begins or goes on, or another operation takes place. -/
inductive ResolveAction where
  | begin (networkName eventID strategy : Text)
  | proceed (c : Nat) (random : Text) (order : LookupOrder)
  | other (fuel : Nat) (op : Operation)

namespace Operation

/-- The operation is a whole call of `resolveEventConflict`. -/
def isResolution : Operation → Bool
  | .resolveEventConflict .. | .killedResolution .. => true
  | _ => false

/-- The operation ends the process, and all calls with it. -/
def isRestart : Operation → Bool
  | .restart .. => true
  | _ => false

end Operation

/-- A daemon with its calls of `resolveEventConflict`, the resolutions that they have originated and
what they have returned. A call without a phase has returned. -/
structure ResolveHistory where
  daemon : Daemon
  calls : List (ResolveCall × Option ResolvePhase)
  originated : List (ResolveCall × ThalwegEvent)
  returns : List (ResolveCall × Result EventConflictResolutionResult)

namespace ResolveHistory

/-- A fresh daemon without calls. -/
def initial (deviceID : Text) (hdeviceID : deviceID ≠ []) (now : Nat → Instant) : ResolveHistory :=
  ⟨Daemon.initial deviceID hdeviceID now, [], [], []⟩

/-- The history after the next transaction of a call. -/
def proceeded (h : ResolveHistory) (c : Nat) (call : ResolveCall) (phase : ResolvePhase)
    (random : Text) (order : LookupOrder) : ResolveHistory :=
  let r := call.proceed h.daemon random order phase
  { daemon := r.1
    calls := h.calls.set c (call, r.2.getLeft?)
    originated := h.originated ++
      (call.originates h.daemon random phase).toList.map fun e => (call, e)
    returns := h.returns ++ r.2.getRight?.toList.map fun res => (call, res) }

def step (h : ResolveHistory) : ResolveAction → Option ResolveHistory
  | .begin networkName eventID strategy =>
    let call : ResolveCall := ⟨networkName, eventID, h.daemon.isResolved networkName eventID⟩
    match ResolveCall.checkArguments networkName eventID strategy with
    | .error e => some { h with returns := h.returns ++ [(call, .error e)] }
    | .ok () => some { h with calls := h.calls ++ [(call, some .listing)] }
  | .proceed c random order =>
    match h.calls[c]? with
    | some (call, some phase) => some (h.proceeded c call phase random order)
    | _ => none
  | .other fuel op =>
    if op.isResolution then none
    else
      (op.perform fuel h.daemon).map fun performed =>
        { h with daemon := performed.2, calls := if op.isRestart then [] else h.calls }

/-- Resolving is idempotent: the calls about a conflict have originated one resolution at most, they
all have reported the same recovered event ID, and those that began after a resolution was stored
have originated none and have reported that it was there. -/
structure ResolvesOnce (h : ResolveHistory) : Prop where
  names : ∀ o ∈ h.originated, o.2.network = o.1.network ∧ o.2.names = some o.1.eventID
  once : h.originated.Pairwise fun o o' => ¬o.1.Same o'.1
  same : ∀ r ∈ h.returns, ∀ r' ∈ h.returns, r.1.Same r'.1 → ∀ x x', r.2 = .ok x → r'.2 = .ok x' →
    x.recoveredEvent.id = x'.recoveredEvent.id
  originates_none : ∀ o ∈ h.originated, o.1.late = false
  already : ∀ r ∈ h.returns, r.1.late = true → ∀ x, r.2 = .ok x → x.alreadyResolved = true

/-- A call about the conflict has found no resolution and is about to store one. -/
def records (h : ResolveHistory) (networkName eventID : Text) : Bool :=
  h.calls.any fun c =>
    decide (c.1.network = networkName ∧ c.1.eventID = eventID) &&
      match c.2 with
      | some .recording => true
      | _ => false

/-- When a call reads the resolutions before it stores one, a resolution is there or no other call
about the conflict is about to store one. -/
def readsAlone (h : ResolveHistory) : ResolveAction → Bool
  | .proceed c _ _ =>
    match h.calls[c]? with
    | some (call, some .reading) =>
      h.daemon.isResolved call.network call.eventID || !h.records call.network call.eventID
    | _ => true
  | _ => true

/-! ### Runs -/

/-- What the calls of a history know is true of the ledger that the daemon holds. -/
structure Sound (h : ResolveHistory) (L : Ledger) : Prop where
  holds : h.daemon.Holds L
  late : ∀ c ∈ h.calls, c.1.late = true → c.1.Resolved L
  knows : ∀ c ∈ h.calls, ∀ phase, c.2 = some phase → c.1.Knows L phase
  originated : ∀ o ∈ h.originated, o.2 ∈ L.events ∧ o.2.network = o.1.network ∧
    o.2.names = some o.1.eventID ∧ o.1.late = false
  returns : ∀ r ∈ h.returns, r.1.Returns L r.2

/-- At most one call about a conflict is about to store a resolution, and none has stored one
before. -/
structure Exclusive (h : ResolveHistory) : Prop where
  single : ∀ {c c' : Nat} {call call' : ResolveCall}, h.calls[c]? = some (call, some .recording) →
    h.calls[c']? = some (call', some .recording) → call.Same call' → c = c'
  unresolved : ∀ {c : Nat} {call : ResolveCall}, h.calls[c]? = some (call, some .recording) →
    ∀ o ∈ h.originated, ¬o.1.Same call
  once : h.originated.Pairwise fun o o' => ¬o.1.Same o'.1

variable {h h' : ResolveHistory} {L L' : Ledger}

/-- A call that finishes alone does so in a run of its own transactions. -/
theorem run_of_finishes {call : ResolveCall} {random : Text} {d d' : Daemon} {phase : ResolvePhase}
    {res : Result EventConflictResolutionResult} (hf : call.Finishes random d phase d' res)
    {c : Nat} (hc : h.calls[c]? = some (call, some phase)) (hdaemon : h.daemon = d) :
    ∃ actions h', run step h actions = some h' ∧
      (∀ a ∈ actions, ∃ order, a = .proceed c random order) ∧ h'.daemon = d' ∧
      h'.returns = h.returns ++ [(call, res)] := by
  induction hf generalizing h with
  | @last d d' phase res order hstep =>
    subst hdaemon
    refine ⟨[.proceed c random order], h.proceeded c call phase random order, ?_, ?_, ?_, ?_⟩
    · simp only [run, step, hc]
    · rintro a ha
      exact ⟨order, List.mem_singleton.mp ha⟩
    · simp only [proceeded, hstep]
    · simp only [proceeded, hstep, Sum.getRight?_inr, Option.toList_some, List.map_cons,
        List.map_nil]
  | @more d d₁ d' phase phase₁ res order hstep _ ih =>
    subst hdaemon
    have hlt : c < h.calls.length := (List.getElem?_eq_some_iff.mp hc).1
    have hc' : (h.proceeded c call phase random order).calls[c]? = some (call, some phase₁) := by
      rw [proceeded, List.getElem?_set_self hlt, hstep, Sum.getLeft?_inl]
    have hdaemon : (h.proceeded c call phase random order).daemon = d₁ := by
      rw [proceeded, hstep]
    obtain ⟨actions, h', hrun, hactions, hd', hreturns⟩ := ih hc' hdaemon
    refine ⟨.proceed c random order :: actions, h', ?_, ?_, hd', ?_⟩
    · rw [run_cons_eq_some_iff]
      exact ⟨_, by simp only [step, hc], hrun⟩
    · rintro a ha
      rcases List.mem_cons.mp ha with rfl | ha
      · exact ⟨order, rfl⟩
      · exact hactions a ha
    · rw [hreturns, proceeded, hstep]
      simp only [Sum.getRight?_inl, Option.toList_none, List.map_nil, List.append_nil]

/-- **Whole calls** are runs: what `resolveEventConflict` does is what a call does that begins and
runs alone. -/
theorem run_resolveEventConflict {fuel : Nat} {networkName eventID strategy random : Text}
    {res : Result EventConflictResolutionResult} {d' : Daemon}
    (hrun : h.daemon.resolveEventConflict fuel networkName eventID strategy random =
      some (res, d')) :
    ∃ actions h', run step h (.begin networkName eventID strategy :: actions) = some h' ∧
      (∀ a ∈ actions, ∃ order, a = .proceed h.calls.length random order) ∧ h'.daemon = d' ∧
      h'.returns = h.returns ++
        [(⟨networkName, eventID, h.daemon.isResolved networkName eventID⟩, res)] := by
  have hfinishes := @ResolveCall.finishes_resolveEventConflict
    ⟨networkName, eventID, h.daemon.isResolved networkName eventID⟩ random fuel h.daemon d' strategy
    res hrun
  simp only [run_cons_eq_some_iff, step]
  cases hchecked : ResolveCall.checkArguments networkName eventID strategy with
  | error e =>
    simp only [hchecked] at hfinishes
    obtain ⟨rfl, rfl⟩ := hfinishes
    exact ⟨[], _, ⟨_, rfl, rfl⟩, List.forall_mem_nil _, rfl, rfl⟩
  | ok _ =>
    simp only [hchecked] at hfinishes
    have hc : ({ h with calls := h.calls ++ [(⟨networkName, eventID,
        h.daemon.isResolved networkName eventID⟩, some .listing)] } :
          ResolveHistory).calls[h.calls.length]? = some (_, some .listing) :=
      List.getElem?_concat_length
    obtain ⟨actions, h', hactions, hall, hd', hreturns⟩ := run_of_finishes hfinishes hc rfl
    exact ⟨actions, h', ⟨_, rfl, hactions⟩, hall, hd', hreturns⟩

theorem sound_initial (deviceID : Text) (hdeviceID : deviceID ≠ []) (now : Nat → Instant) :
    Sound (initial deviceID hdeviceID now) (Daemon.initialLedger now) where
  holds := Daemon.initial_holds deviceID hdeviceID now
  late := List.forall_mem_nil _
  knows := List.forall_mem_nil _
  originated := List.forall_mem_nil _
  returns := List.forall_mem_nil _

theorem exclusive_initial (deviceID : Text) (hdeviceID : deviceID ≠ []) (now : Nat → Instant) :
    Exclusive (initial deviceID hdeviceID now) where
  single hc := by cases hc
  unresolved hc := by cases hc
  once := List.Pairwise.nil

/-- What is known stays true of a daemon with more events. -/
theorem Sound.grow (hs : Sound h L) {d : Daemon} (hd : d.Holds L') (hL : L.events ⊆ L'.events) :
    Sound { h with daemon := d } L' where
  holds := hd
  late c hc hlate := (hs.late c hc hlate).mono hL
  knows c hc phase hphase := (hs.knows c hc phase hphase).mono hL
  originated o ho := (hs.originated o ho).imp_left fun hmem => hL hmem
  returns r hr := (hs.returns r hr).mono hL

theorem Sound.begin (hs : Sound h L) {networkName eventID strategy : Text}
    (hstep : h.step (.begin networkName eventID strategy) = some h') : Sound h' L := by
  simp only [step] at hstep
  split at hstep
  · cases hstep
    refine ⟨hs.holds, hs.late, hs.knows, hs.originated, fun r hr => ?_⟩
    rcases List.mem_append.mp hr with hr | hr
    · exact hs.returns r hr
    · rw [List.mem_singleton.mp hr]
      rintro x ⟨⟩
  · next hchecked =>
    cases hstep
    refine ⟨hs.holds, fun c hc => ?_, fun c hc => ?_, hs.originated, hs.returns⟩
    · rcases List.mem_append.mp hc with hc | hc
      · exact hs.late c hc
      · rw [List.mem_singleton.mp hc]
        exact hs.holds.isResolved_iff.mp
    · rcases List.mem_append.mp hc with hc | hc
      · exact hs.knows c hc
      · rw [List.mem_singleton.mp hc]
        rintro phase ⟨⟩
        simp only [ResolveCall.checkArguments] at hchecked
        split at hchecked
        · cases hchecked
        · next hrequired => exact fun hnil => hrequired (Or.inr hnil)

theorem Sound.proceeded (hs : Sound h L) {c : Nat} {call : ResolveCall} {phase : ResolvePhase}
    (hc : h.calls[c]? = some (call, some phase)) (random : Text) (order : LookupOrder) :
    ∃ L', Sound (h.proceeded c call phase random order) L' := by
  have hmem := List.mem_of_getElem? hc
  have hlate := hs.late _ hmem
  have hknows := hs.knows _ hmem phase rfl
  obtain ⟨L', hproceeds⟩ := call.proceed_sound hs.holds hlate hknows random order
  have hgrown := hs.grow hproceeds.holds hproceeds.kept.subset
  refine ⟨L', hproceeds.holds, fun d hd => ?_, fun d hd p hp => ?_, fun o ho => ?_, fun r hr => ?_⟩
  · rcases List.mem_or_eq_of_mem_set hd with hd | rfl
    · exact hgrown.late d hd
    · exact hgrown.late (call, some phase) hmem
  · rcases List.mem_or_eq_of_mem_set hd with hd | rfl
    · exact hgrown.knows d hd p hp
    · exact hproceeds.next p (Sum.getLeft?_eq_some_iff.mp hp)
  · rcases List.mem_append.mp ho with ho | ho
    · exact hgrown.originated o ho
    · obtain ⟨e, he, rfl⟩ := List.mem_map.mp ho
      obtain ⟨-, hearly, hstored, hn, hname⟩ :=
        call.originates_spec hs.holds hknows (Option.mem_toList.mp he) hproceeds
      exact ⟨hstored, hn, hname, hearly⟩
  · rcases List.mem_append.mp hr with hr | hr
    · exact hgrown.returns r hr
    · obtain ⟨res, hres, rfl⟩ := List.mem_map.mp hr
      exact hproceeds.returns res (Sum.getRight?_eq_some_iff.mp (Option.mem_toList.mp hres))

/-- A restart ends all calls. -/
theorem getElem?_of_kept {α : Type} {b : Bool} {calls : List α} {i : Nat} {x : α}
    (h : (if b = true then [] else calls)[i]? = some x) : calls[i]? = some x := by
  cases b with
  | true => cases h
  | false => exact h

theorem mem_of_mem_kept {α : Type} {b : Bool} {calls : List α} {x : α}
    (h : x ∈ if b = true then [] else calls) : x ∈ calls := by
  cases b with
  | true => cases h
  | false => exact h

theorem Sound.step {a : ResolveAction} (hs : Sound h L) (hstep : h.step a = some h') :
    ∃ L', Sound h' L' := by
  cases a with
  | begin networkName eventID strategy => exact ⟨L, hs.begin hstep⟩
  | proceed c random order =>
    simp only [ResolveHistory.step] at hstep
    split at hstep
    · next call phase hc =>
      cases hstep
      exact hs.proceeded hc random order
    · cases hstep
  | other fuel op =>
    simp only [ResolveHistory.step] at hstep
    split at hstep
    · cases hstep
    · obtain ⟨⟨res, d⟩, hp, rfl⟩ := Option.map_eq_some_iff.mp hstep
      obtain ⟨L', hd, hkept⟩ := hs.holds.perform ⟨fuel, hp⟩
      have hgrown := hs.grow hd hkept.subset
      refine ⟨L', hd, fun c hc => ?_, fun c hc => ?_, hgrown.originated, hgrown.returns⟩
      · exact hgrown.late c (mem_of_mem_kept hc)
      · exact hgrown.knows c (mem_of_mem_kept hc)

theorem Sound.resolvesOnce (hs : Sound h L) (he : Exclusive h) : ResolvesOnce h where
  names o ho := ⟨(hs.originated o ho).2.1, (hs.originated o ho).2.2.1⟩
  once := he.once
  same r hr r' hr' hsame x x' hx hx' :=
    (hs.returns r hr x hx).2.unique (hs.returns r' hr' x' hx').2 hsame
  originates_none o ho := (hs.originated o ho).2.2.2
  already r hr hlate x hx := (hs.returns r hr x hx).1 hlate

/-- A call that is about to store a resolution after a step was there before, or it has just read
that there is none. -/
theorem recording_of_proceeded {c i : Nat} {call call' : ResolveCall} {phase : ResolvePhase}
    {random : Text} {order : LookupOrder} (hc : h.calls[c]? = some (call, some phase))
    (hi : (h.proceeded c call phase random order).calls[i]? = some (call', some .recording)) :
    (i ≠ c ∧ h.calls[i]? = some (call', some .recording)) ∨
      i = c ∧ call' = call ∧ phase = .reading ∧
        h.daemon.isResolved call.network call.eventID = false := by
  by_cases hne : i = c
  · subst hne
    have hlt : i < h.calls.length := (List.getElem?_eq_some_iff.mp hc).1
    rw [ResolveHistory.proceeded, List.getElem?_set_self hlt] at hi
    obtain ⟨rfl, hnext⟩ := Prod.mk.inj (Option.some.inj hi)
    exact Or.inr ⟨rfl, rfl, call.of_proceed_eq_recording (Sum.getLeft?_eq_some_iff.mp hnext)⟩
  · rw [ResolveHistory.proceeded, List.getElem?_set_ne (Ne.symm hne)] at hi
    exact Or.inl ⟨hne, hi⟩

theorem records_of_recording {i : Nat} {call call' : ResolveCall}
    (hi : h.calls[i]? = some (call', some .recording)) (hsame : call'.Same call) :
    h.records call.network call.eventID = true := by
  rw [records, List.any_eq_true]
  exact ⟨_, List.mem_of_getElem? hi, by simp [hsame.1, hsame.2]⟩

/-- A call that has just read that there is no resolution is alone. -/
theorem not_recording_of_readsAlone {c i : Nat} {call call' : ResolveCall} {random : Text}
    {order : LookupOrder} (hc : h.calls[c]? = some (call, some .reading))
    (hunresolved : h.daemon.isResolved call.network call.eventID = false)
    (halone : h.readsAlone (.proceed c random order) = true)
    (hi : h.calls[i]? = some (call', some .recording)) : ¬call'.Same call := by
  intro hsame
  simp only [readsAlone, hc, hunresolved, records_of_recording hi hsame] at halone
  cases halone

theorem Exclusive.proceeded (he : Exclusive h) (hs : Sound h L) {c : Nat} {call : ResolveCall}
    {phase : ResolvePhase} (hc : h.calls[c]? = some (call, some phase)) {random : Text}
    {order : LookupOrder} (halone : h.readsAlone (.proceed c random order) = true) :
    Exclusive (h.proceeded c call phase random order) := by
  have hmem := List.mem_of_getElem? hc
  have hknows := hs.knows _ hmem phase rfl
  obtain ⟨L', hproceeds⟩ := call.proceed_sound hs.holds (hs.late _ hmem) hknows random order
  have horiginates : ∀ o ∈ (call.originates h.daemon random phase).toList.map fun e => (call, e),
      o.1 = call ∧ phase = .recording := by
    intro o ho
    obtain ⟨e, horigin, rfl⟩ := List.mem_map.mp ho
    exact ⟨rfl, (call.originates_spec hs.holds hknows (Option.mem_toList.mp horigin) hproceeds).1⟩
  refine ⟨fun {i j call₁ call₂} hi hj hsame => ?_, fun {i call₁} hi o ho => ?_, ?_⟩
  · rcases recording_of_proceeded hc hi with ⟨-, hi'⟩ | ⟨rfl, rfl, rfl, hunresolved⟩
    · rcases recording_of_proceeded hc hj with ⟨-, hj'⟩ | ⟨rfl, rfl, rfl, hunresolved⟩
      · exact he.single hi' hj' hsame
      · exact absurd hsame (not_recording_of_readsAlone hc hunresolved halone hi')
    · rcases recording_of_proceeded hc hj with ⟨-, hj'⟩ | ⟨rfl, -, -, -⟩
      · exact absurd hsame.symm (not_recording_of_readsAlone hc hunresolved halone hj')
      · rfl
  · rcases List.mem_append.mp ho with hold | hnew
    · rcases recording_of_proceeded hc hi with ⟨-, hi⟩ | ⟨rfl, rfl, rfl, hunresolved⟩
      · exact he.unresolved hi o hold
      · -- what was originated before would have been read
        intro hsame
        obtain ⟨hstored, hn, hname, -⟩ := hs.originated o hold
        rw [hs.holds.isResolved_iff.mpr
          ⟨o.2, hstored, hn.trans hsame.1, hname.trans (congrArg some hsame.2)⟩] at hunresolved
        cases hunresolved
    · obtain ⟨rfl, rfl⟩ := horiginates o hnew
      rcases recording_of_proceeded hc hi with ⟨hne, hi⟩ | ⟨-, -, hphase, -⟩
      · exact fun hsame => hne (he.single hi hc hsame.symm)
      · cases hphase
  · refine List.pairwise_append.mpr ⟨he.once, ?_, fun o ho o' ho' => ?_⟩
    · cases call.originates h.daemon random phase with
      | none => exact List.Pairwise.nil
      | some e => exact List.pairwise_singleton _ _
    · obtain ⟨hcall, rfl⟩ := horiginates o' ho'
      rw [hcall]
      exact he.unresolved hc o ho

theorem recording_of_begun {calls : List (ResolveCall × Option ResolvePhase)} {i : Nat}
    {call new : ResolveCall}
    (hi : (calls ++ [(new, some .listing)])[i]? = some (call, some .recording)) :
    calls[i]? = some (call, some .recording) := by
  by_cases hlt : i < calls.length
  · rwa [List.getElem?_append_left hlt] at hi
  · rw [List.getElem?_append_right (not_lt.mp hlt)] at hi
    obtain ⟨-, hphase⟩ := Prod.mk.inj (List.mem_singleton.mp (List.mem_of_getElem? hi))
    cases hphase

theorem Exclusive.step {a : ResolveAction} (he : Exclusive h) (hs : Sound h L)
    (halone : h.readsAlone a = true) (hstep : h.step a = some h') : Exclusive h' := by
  cases a with
  | begin networkName eventID strategy =>
    simp only [ResolveHistory.step] at hstep
    split at hstep
    · cases hstep
      exact ⟨he.single, he.unresolved, he.once⟩
    · cases hstep
      exact ⟨fun hi hj => he.single (recording_of_begun hi) (recording_of_begun hj),
        fun hi => he.unresolved (recording_of_begun hi), he.once⟩
  | proceed c random order =>
    simp only [ResolveHistory.step] at hstep
    split at hstep
    · next call phase hc =>
      cases hstep
      exact he.proceeded hs hc halone
    · cases hstep
  | other fuel op =>
    simp only [ResolveHistory.step] at hstep
    split at hstep
    · cases hstep
    · obtain ⟨⟨res, d⟩, -, rfl⟩ := Option.map_eq_some_iff.mp hstep
      refine ⟨fun hi hj => he.single (getElem?_of_kept hi) (getElem?_of_kept hj),
        fun hi => he.unresolved (getElem?_of_kept hi), he.once⟩

/-- **Idempotent resolution.** In a run in which a call reads that there is no resolution only while
no other call about the conflict is about to store one, the calls about a conflict originate one
resolution at most and report the same recovered event ID, and those that begin after a resolution
was stored originate none and report that it was there. -/
theorem resolvesOnce_of_readsAlone {deviceID : Text} {hdeviceID : deviceID ≠ []}
    {now : Nat → Instant} {actions : List ResolveAction} {h : ResolveHistory}
    (hmeets : Meets step (fun h a => h.readsAlone a = true) (initial deviceID hdeviceID now)
      actions)
    (hrun : run step (initial deviceID hdeviceID now) actions = some h) : h.ResolvesOnce := by
  have hinvariant : (∃ L, Sound h L) ∧ Exclusive h := by
    refine run_invariant (P := fun h => (∃ L, Sound h L) ∧ Exclusive h) ?_ ?_ hmeets hrun
    · rintro h a h' ⟨⟨L, hs⟩, he⟩ halone hstep
      exact ⟨hs.step hstep, he.step hs halone hstep⟩
    · exact ⟨⟨_, sound_initial deviceID hdeviceID now⟩, exclusive_initial deviceID hdeviceID now⟩
  obtain ⟨⟨L, hs⟩, he⟩ := hinvariant
  exact hs.resolvesOnce he

/-! ### Runs with two calls -/

def fresh : ResolveHistory := initial ['d'] Daemon.deviceName_ne_nil fun _ => Daemon.noon

/-- An event, an observed conflict about it, and two calls that resolve it. -/
def conflictRun : List ResolveAction :=
  [.other 0 (.ingest ['h'] ['s'] [] ['x'] ['1'] []),
    .other 0 (.recordEventConflicts ['h'] [⟨0, [], ['x'], ['l'], ['r'], []⟩]),
    .begin ['h'] ['x'] [], .begin ['h'] ['x'] []]

/-- Transactions of a call, one after the other. -/
def proceeds (c : Nat) (random : Text) (n : Nat) : List ResolveAction :=
  List.replicate n (.proceed c random (· ++ ·))

/-- The second call reads the resolutions after the first one has stored its own. -/
def orderedRun : List ResolveAction :=
  conflictRun ++ proceeds 1 ['2'] 4 ++ proceeds 0 ['1'] 6 ++ proceeds 1 ['2'] 3 ++
    proceeds 0 ['1'] 2

theorem resolvesOnce_orderedRun : ∃ h, run step fresh orderedRun = some h ∧
    h.originated.length = 1 ∧ h.returns.length = 2 ∧ h.ResolvesOnce := by
  have hmeets : Meets step (fun h a => h.readsAlone a = true) fresh orderedRun := by
    decide +kernel
  have hrun : ((run step fresh orderedRun).any fun h =>
      decide (h.originated.length = 1 ∧ h.returns.length = 2)) = true := by
    decide +kernel
  obtain ⟨h, hh, hlengths⟩ := (Option.any_eq_true _ _).mp hrun
  obtain ⟨horiginated, hreturns⟩ := of_decide_eq_true hlengths
  exact ⟨h, hh, horiginated, hreturns, resolvesOnce_of_readsAlone hmeets hh⟩

/-- Both calls read the resolutions before one of them has stored its own. -/
def overlappingRun : List ResolveAction :=
  conflictRun ++ proceeds 0 ['1'] 5 ++ proceeds 1 ['2'] 5 ++ proceeds 0 ['1'] 3 ++
    proceeds 1 ['2'] 3

/-- Each of them originates a resolution and reports that none was there. -/
theorem not_resolvesOnce_overlappingRun : ∃ h, run step fresh overlappingRun = some h ∧
    (∀ r ∈ h.returns, ∃ x, r.2 = .ok x ∧ x.alreadyResolved = false) ∧ ¬h.ResolvesOnce := by
  have hrun : ((run step fresh overlappingRun).any fun h =>
      (h.returns.all fun r =>
        match r.2 with
        | .ok x => !x.alreadyResolved
        | .error _ => false) &&
      decide (¬h.originated.Pairwise fun o o' => ¬o.1.Same o'.1)) = true := by
    decide +kernel
  obtain ⟨h, hh, hproperty⟩ := (Option.any_eq_true _ _).mp hrun
  obtain ⟨hreturns, htwice⟩ := (Bool.and_eq_true _ _).mp hproperty
  refine ⟨h, hh, fun r hr => ?_, fun honce => of_decide_eq_true htwice honce.once⟩
  have := List.all_eq_true.mp hreturns r hr
  split at this
  · next x hx => exact ⟨x, hx, by simpa using this⟩
  · cases this

end ResolveHistory

end Thalweg
