import Thalweg.Data.Wakes
import Thalweg.Daemon.Conflicts
import Thalweg.Daemon.Handshake
import Thalweg.Daemon.MeshPeers

/-!
# Wake-ups of the event synchronization

An ingest signals the network of its event: under a lock it puts the name into the wake set, and
afterwards it sends a token on a channel with one slot, unless there is one. The loop of the event
synchronization receives the token, may wait for a while, takes all names out of the set and
synchronizes the peers of each. It signals a network itself when a session with one of the peers
goes on already.

The calls and the loop take their steps in any order. What they leave open (the records of peers and
whether they can be loaded, addresses, connections, how a session ends) is a part of the action.

## Main definitions

* `MeshWakes.step`: one step of a call of `signalMeshSync` or of the loop.
* `MeshWakes.NoLostWake`: signalled networks wait in the wake set, announced, and a network that was
  taken out is passed over.

## Main results

* `MeshWakes.noLostWake_of_run`.
-/

namespace Thalweg

open Machine

/-- Who signals a network: a call of an ingest, or the loop. -/
inductive MeshSignaller where
  | call (id : Nat)
  | eventSyncLoop
  deriving DecidableEq

/-- Where `meshEventSyncLoop` is. -/
inductive MeshEventSyncLoop where
  /-- It waits for a token. -/
  | receiving
  /-- It has received a token and waits for more signals. -/
  | debouncing
  /-- It is to take the wake set. -/
  | taking
  /-- It is to load the peers of the first of these networks. -/
  | loading (networkName : Text) (networks : List Text)
  /-- It looks at the first of these records of peers. -/
  | visiting (networkName : Text) (record : PersistedMeshPeer) (records : List PersistedMeshPeer)
    (networks : List Text)
  /-- It runs `synchronizeKnownPeer`. -/
  | synchronizing (networkName : Text) (records : List PersistedMeshPeer) (networks : List Text)
  deriving DecidableEq

namespace MeshEventSyncLoop

/-- The loop with these networks left. -/
def nextNetwork : List Text → MeshEventSyncLoop
  | [] => .receiving
  | networkName :: networks => .loading networkName networks

/-- The loop with these records of the network's peers left. -/
def nextRecord (networkName : Text) (records : List PersistedMeshPeer) (networks : List Text) :
    MeshEventSyncLoop :=
  match records with
  | [] => nextNetwork networks
  | record :: records => .visiting networkName record records networks

/-- A token is received and the wake set not yet taken. -/
def hasReceived : MeshEventSyncLoop → Bool
  | .debouncing | .taking => true
  | _ => false

/-- The networks that are taken and whose peers are not yet loaded. -/
def remaining : MeshEventSyncLoop → List Text
  | .loading networkName networks => networkName :: networks
  | .visiting _ _ _ networks | .synchronizing _ _ networks => networks
  | _ => []

@[simp] theorem remaining_nextNetwork (networks : List Text) :
    (nextNetwork networks).remaining = networks := by
  cases networks <;> rfl

@[simp] theorem hasReceived_nextNetwork (networks : List Text) :
    (nextNetwork networks).hasReceived = false := by
  cases networks <;> rfl

@[simp] theorem remaining_nextRecord (networkName : Text) (records : List PersistedMeshPeer)
    (networks : List Text) : (nextRecord networkName records networks).remaining = networks := by
  cases records
  · exact remaining_nextNetwork networks
  · rfl

@[simp] theorem hasReceived_nextRecord (networkName : Text) (records : List PersistedMeshPeer)
    (networks : List Text) : (nextRecord networkName records networks).hasReceived = false := by
  cases records
  · exact hasReceived_nextNetwork networks
  · rfl

end MeshEventSyncLoop

/-- What happens to wake-ups. -/
inductive MeshWakeEvent where
  /-- A call of `signalMeshSync`. -/
  | signalled (networkName : Text)
  /-- `takeMeshWakeNetworks` has returned these names. -/
  | taken (networks : List Text)
  /-- A pass over the peers of the network. -/
  | passed (networkName : Text)
  deriving DecidableEq

/-- The wake set, the channel, the calls of `signalMeshSync` that are to send a token, and the loop,
with what has happened so far. -/
structure MeshWakes where
  meshWakeNetworks : List Text
  /-- There is a token in the channel. -/
  meshWake : Bool
  sending : MeshSignaller → Option Text
  loop : MeshEventSyncLoop
  history : List MeshWakeEvent

namespace MeshWakes

def initial : MeshWakes := ⟨[], false, fun _ => none, .receiving, []⟩

/-- A step of the loop. -/
inductive LoopAction where
  | receive
  /-- The debounce timer fires. -/
  | debounced
  | takeMeshWakeNetworks
  /-- The records of all peers are loaded, if they can be. -/
  | loadMeshPeers (records : Option (List PersistedMeshPeer))
  /-- A record of a peer is looked at; `info` is the peer of its address. -/
  | visitMeshPeer (info : Option PeerID) (connected : Bool)
  /-- `synchronizeKnownPeer` returns. -/
  | synchronizeKnownPeer (inProgress : Bool)

/-- The steps of signals and of the loop. -/
inductive Action where
  | signalMeshSync (call : Nat) (networkName : Text)
  /-- The rest of `signalMeshSync`. -/
  | sendMeshWake (signaller : MeshSignaller)
  | loop (action : LoopAction)

/-- The locked part of `signalMeshSync`. -/
def signalMeshSync (meshSyncInterval : Int) (s : MeshWakes) (signaller : MeshSignaller)
    (networkName : Text) : MeshWakes :=
  if networkName = [] ∨ meshSyncInterval < 0 then
    { s with history := s.history ++ [.signalled networkName] }
  else
    { s with
      meshWakeNetworks :=
        if networkName ∈ s.meshWakeNetworks then s.meshWakeNetworks
        else networkName :: s.meshWakeNetworks
      sending := Function.update s.sending signaller (some networkName)
      history := s.history ++ [.signalled networkName] }

/-- `syncTriggeredMeshPeers` passes by the record of a peer. -/
def skipsMeshPeer (networkName : Text) (record : PersistedMeshPeer) (info : Option PeerID)
    (connected : Bool) : Bool :=
  decide (record.network ≠ networkName) || info.isNone ||
    (!connected && decide (record.lastError ≠ []))

/-- One step of the loop outside `signalMeshSync`. -/
def loopStep (meshSyncInterval meshSyncDebounce : Int) (s : MeshWakes) :
    LoopAction → Option MeshWakes
  | .receive =>
    match s.loop with
    | .receiving =>
      if s.meshWake then
        some { s with
          meshWake := false
          loop := if 0 < meshSyncDebounce then .debouncing else .taking }
      else none
    | _ => none
  | .debounced =>
    match s.loop with
    | .debouncing => some { s with loop := .taking }
    | _ => none
  | .takeMeshWakeNetworks =>
    match s.loop with
    | .taking =>
      some { s with
        meshWakeNetworks := []
        loop := .nextNetwork (sortTexts s.meshWakeNetworks)
        history := s.history ++ [.taken (sortTexts s.meshWakeNetworks)] }
    | _ => none
  | .loadMeshPeers records =>
    match s.loop with
    | .loading networkName networks =>
      some { s with
        loop := .nextRecord networkName (records.getD []) networks
        history := s.history ++ [.passed networkName] }
    | _ => none
  | .visitMeshPeer info connected =>
    match s.loop with
    | .visiting networkName record records networks =>
      if skipsMeshPeer networkName record info connected then
        some { s with loop := .nextRecord networkName records networks }
      else some { s with loop := .synchronizing networkName records networks }
    | _ => none
  | .synchronizeKnownPeer inProgress =>
    match s.loop with
    | .synchronizing networkName records networks =>
      let s := { s with loop := .nextRecord networkName records networks }
      some (if inProgress then s.signalMeshSync meshSyncInterval .eventSyncLoop networkName else s)
    | _ => none

/-- One step; an action that is not possible in the state leads nowhere. -/
def step (meshSyncInterval meshSyncDebounce : Int) (s : MeshWakes) : Action → Option MeshWakes
  | .signalMeshSync call networkName =>
    match s.sending (.call call) with
    | none => some (s.signalMeshSync meshSyncInterval (.call call) networkName)
    | some _ => none
  | .sendMeshWake signaller =>
    match s.sending signaller with
    | some _ =>
      -- a token that does not fit is dropped
      some { s with meshWake := true, sending := Function.update s.sending signaller none }
    | none => none
  | .loop action =>
    match s.sending .eventSyncLoop with
    | none => s.loopStep meshSyncInterval meshSyncDebounce action
    | some _ => none

variable {meshSyncInterval meshSyncDebounce : Int} {s s' : MeshWakes} {a : Action}

/-- A signalled network waits in the wake set until it is taken out, with a token in the channel, a
loop that has received one or a call that is to send one. A network that is taken out is passed
over. -/
structure NoLostWake (s : MeshWakes) : Prop where
  waits : ∀ networkName after, networkName ≠ [] →
    Follows s.history (.signalled networkName) after →
    (∀ networks, .taken networks ∈ after → networkName ∉ networks) →
    networkName ∈ s.meshWakeNetworks ∧
      (s.meshWake = true ∨ s.loop.hasReceived = true ∨
        ∃ signaller, s.sending signaller = some networkName)
  passes : ∀ networks after networkName, Follows s.history (.taken networks) after →
    networkName ∈ networks → networkName ∈ s.loop.remaining ∨ .passed networkName ∈ after

/-! ### The wake set -/

/-- What a step does to the wake set, the history and the networks that the loop has left. -/
inductive Traces (s s' : MeshWakes) : Prop where
  | quiet : s'.history = s.history → s'.meshWakeNetworks = s.meshWakeNetworks →
      s'.loop.remaining = s.loop.remaining → Traces s s'
  | signalled (networkName : Text) : s'.history = s.history ++ [.signalled networkName] →
      (∀ n, n ∈ s'.meshWakeNetworks ↔ n = networkName ∧ n ≠ [] ∨ n ∈ s.meshWakeNetworks) →
      s'.loop.remaining = s.loop.remaining → Traces s s'
  | taken : s'.history = s.history ++ [.taken (sortTexts s.meshWakeNetworks)] →
      s'.meshWakeNetworks = [] → s.loop.remaining = [] →
      s'.loop.remaining = sortTexts s.meshWakeNetworks → Traces s s'
  | passed (networkName : Text) : s'.history = s.history ++ [.passed networkName] →
      s'.meshWakeNetworks = s.meshWakeNetworks →
      s.loop.remaining = networkName :: s'.loop.remaining → Traces s s'

theorem history_signalMeshSync (s : MeshWakes) (signaller : MeshSignaller) (networkName : Text) :
    (s.signalMeshSync meshSyncInterval signaller networkName).history =
      s.history ++ [.signalled networkName] := by
  unfold signalMeshSync
  split_ifs <;> rfl

theorem loop_signalMeshSync (s : MeshWakes) (signaller : MeshSignaller) (networkName : Text) :
    (s.signalMeshSync meshSyncInterval signaller networkName).loop = s.loop := by
  unfold signalMeshSync
  split_ifs <;> rfl

theorem mem_meshWakeNetworks_signalMeshSync (h : 0 ≤ meshSyncInterval) (s : MeshWakes)
    (signaller : MeshSignaller) (networkName n : Text) :
    n ∈ (s.signalMeshSync meshSyncInterval signaller networkName).meshWakeNetworks ↔
      n = networkName ∧ n ≠ [] ∨ n ∈ s.meshWakeNetworks := by
  unfold signalMeshSync
  split_ifs with hskip hmem
  · have hnil : networkName = [] := hskip.resolve_right (not_lt.mpr h)
    simp only [hnil, ne_eq, and_not_self_iff, false_or]
  · refine ⟨Or.inr, ?_⟩
    rintro (⟨rfl, -⟩ | hn)
    · exact hmem
    · exact hn
  · have hne : networkName ≠ [] := fun hnil => hskip (Or.inl hnil)
    rw [List.mem_cons]
    refine or_congr_left ⟨?_, And.left⟩
    rintro rfl
    exact ⟨rfl, hne⟩

theorem traces_signalMeshSync (h : 0 ≤ meshSyncInterval) (s : MeshWakes)
    (signaller : MeshSignaller) (networkName : Text) :
    Traces s (s.signalMeshSync meshSyncInterval signaller networkName) :=
  .signalled networkName (history_signalMeshSync s signaller networkName)
    (mem_meshWakeNetworks_signalMeshSync h s signaller networkName)
    (congrArg MeshEventSyncLoop.remaining (loop_signalMeshSync s signaller networkName))

theorem traces_of_loopStep (h : 0 ≤ meshSyncInterval) {a : LoopAction}
    (hstep : loopStep meshSyncInterval meshSyncDebounce s a = some s') : Traces s s' := by
  cases a with
  | receive =>
    simp only [loopStep] at hstep
    split at hstep
    · next hloop =>
      split_ifs at hstep with hwake hdebounce <;> cases hstep <;>
        exact .quiet rfl rfl (by simp [hloop, MeshEventSyncLoop.remaining])
    · cases hstep
  | debounced =>
    simp only [loopStep] at hstep
    split at hstep
    · next hloop =>
      cases hstep
      exact .quiet rfl rfl (by simp [hloop, MeshEventSyncLoop.remaining])
    · cases hstep
  | takeMeshWakeNetworks =>
    simp only [loopStep] at hstep
    split at hstep
    · next hloop =>
      cases hstep
      have hnil : s.loop.remaining = [] := by rw [hloop]; rfl
      exact .taken rfl rfl hnil (MeshEventSyncLoop.remaining_nextNetwork _)
    · cases hstep
  | loadMeshPeers records =>
    simp only [loopStep] at hstep
    split at hstep
    · next networkName networks hloop =>
      cases hstep
      refine .passed networkName rfl rfl ?_
      rw [hloop, MeshEventSyncLoop.remaining_nextRecord, MeshEventSyncLoop.remaining]
    · cases hstep
  | visitMeshPeer info connected =>
    simp only [loopStep] at hstep
    split at hstep
    · next networkName record records networks hloop =>
      split_ifs at hstep <;> cases hstep
      · refine .quiet rfl rfl ?_
        rw [MeshEventSyncLoop.remaining_nextRecord, hloop, MeshEventSyncLoop.remaining]
      · exact .quiet rfl rfl (by rw [hloop, MeshEventSyncLoop.remaining,
          MeshEventSyncLoop.remaining])
    · cases hstep
  | synchronizeKnownPeer inProgress =>
    simp only [loopStep] at hstep
    split at hstep
    · next networkName records networks hloop =>
      have hremaining : (MeshEventSyncLoop.nextRecord networkName records networks).remaining =
          s.loop.remaining := by
        rw [MeshEventSyncLoop.remaining_nextRecord, hloop, MeshEventSyncLoop.remaining]
      split_ifs at hstep <;> cases hstep
      · refine .signalled networkName (history_signalMeshSync _ _ _)
          (mem_meshWakeNetworks_signalMeshSync h _ _ _) ?_
        rw [loop_signalMeshSync, hremaining]
      · exact .quiet rfl rfl hremaining
    · cases hstep

theorem traces_of_step (h : 0 ≤ meshSyncInterval)
    (hstep : step meshSyncInterval meshSyncDebounce s a = some s') : Traces s s' := by
  cases a with
  | signalMeshSync call networkName =>
    simp only [step] at hstep
    split at hstep
    · cases hstep
      exact traces_signalMeshSync h s (.call call) networkName
    · cases hstep
  | sendMeshWake signaller =>
    simp only [step] at hstep
    split at hstep
    · cases hstep
      exact .quiet rfl rfl rfl
    · cases hstep
  | loop action =>
    simp only [step] at hstep
    split at hstep
    · exact traces_of_loopStep h hstep
    · cases hstep

/-- Signalled networks that have not been taken are in the wake set, and taken ones have been passed
over or are left to the loop. -/
structure Kept (s : MeshWakes) : Prop where
  waits : ∀ n after, n ≠ [] → Follows s.history (.signalled n) after →
    (∀ networks, .taken networks ∈ after → n ∉ networks) → n ∈ s.meshWakeNetworks
  passes : ∀ networks after n, Follows s.history (.taken networks) after → n ∈ networks →
    n ∈ s.loop.remaining ∨ .passed n ∈ after

theorem Kept.waits_of_append (h : Kept s) {e : MeshWakeEvent}
    (hhistory : s'.history = s.history ++ [e]) {n : Text} {after : List MeshWakeEvent} (hn : n ≠ [])
    (hfollows : Follows s'.history (.signalled n) after)
    (huntaken : ∀ networks, .taken networks ∈ after → n ∉ networks)
    (hne : .signalled n ≠ e) : n ∈ s.meshWakeNetworks ∧ e ∈ after := by
  rw [hhistory] at hfollows
  obtain ⟨rest, rfl, hrest⟩ := (follows_append_iff (by simpa using hne)).mp hfollows
  refine ⟨h.waits n rest hn hrest fun networks hmem => ?_, by simp⟩
  exact huntaken networks (List.mem_append_left _ hmem)

theorem Kept.passes_of_append (h : Kept s) {e : MeshWakeEvent}
    (hhistory : s'.history = s.history ++ [e]) {networks : List Text} {n : Text}
    {after : List MeshWakeEvent} (hfollows : Follows s'.history (.taken networks) after)
    (hmem : n ∈ networks) (hne : .taken networks ≠ e) :
    n ∈ s.loop.remaining ∧ e ∈ after ∨ .passed n ∈ after := by
  rw [hhistory] at hfollows
  obtain ⟨rest, rfl, hrest⟩ := (follows_append_iff (by simpa using hne)).mp hfollows
  exact (h.passes networks rest n hrest hmem).imp (fun hleft => ⟨hleft, by simp⟩)
    (List.mem_append_left _)

theorem Kept.of_traces (h : Kept s) (htraces : Traces s s') : Kept s' := by
  cases htraces with
  | quiet hhistory hnetworks hremaining =>
    refine ⟨?_, ?_⟩
    · rw [hhistory, hnetworks]
      exact h.waits
    · rw [hhistory, hremaining]
      exact h.passes
  | signalled m hhistory hnetworks hremaining =>
    refine ⟨fun n after hn hfollows huntaken => ?_, fun networks after n hfollows hmem => ?_⟩
    · rw [hnetworks]
      by_cases hnm : n = m
      · exact Or.inl ⟨hnm, hn⟩
      · exact Or.inr (h.waits_of_append hhistory hn hfollows huntaken (by simpa using hnm)).1
    · rw [hremaining]
      exact (h.passes_of_append hhistory hfollows hmem (by simp)).imp_left And.left
  | taken hhistory hnetworks hbefore hremaining =>
    refine ⟨fun n after hn hfollows huntaken => ?_, fun networks after n hfollows hmem => ?_⟩
    · -- what waited has been taken now
      obtain ⟨hwaits, htaken⟩ := h.waits_of_append hhistory hn hfollows huntaken (by simp)
      exact absurd ((List.mem_insertionSort _).mpr hwaits) (huntaken _ htaken)
    · by_cases hnetworks : networks = sortTexts s.meshWakeNetworks
      · rw [hremaining, ← hnetworks]
        exact Or.inl hmem
      · -- nothing was left when the loop took the set
        have hother : MeshWakeEvent.taken networks ≠ .taken (sortTexts s.meshWakeNetworks) := by
          simpa using hnetworks
        rcases h.passes_of_append hhistory hfollows hmem hother with ⟨hleft, -⟩ | hpassed
        · rw [hbefore] at hleft
          exact absurd hleft List.not_mem_nil
        · exact Or.inr hpassed
  | passed m hhistory hnetworks hremaining =>
    refine ⟨fun n after hn hfollows huntaken => ?_, fun networks after n hfollows hmem => ?_⟩
    · rw [hnetworks]
      exact (h.waits_of_append hhistory hn hfollows huntaken (by simp)).1
    · rcases h.passes_of_append hhistory hfollows hmem (by simp) with ⟨hleft, hlast⟩ | hpassed
      · rw [hremaining] at hleft
        rcases List.mem_cons.mp hleft with rfl | hleft
        · exact Or.inr hlast
        · exact Or.inl hleft
      · exact Or.inr hpassed

/-! ### The channel -/

/-- The wake set with the channel as a bell. -/
def doorbell (s : MeshWakes) : Doorbell Text MeshSignaller :=
  ⟨s.meshWakeNetworks, s.meshWake, s.loop.hasReceived, s.sending⟩

theorem move_signalMeshSync (s : MeshWakes) {signaller : MeshSignaller}
    (h : s.sending signaller = none) (networkName : Text) :
    s.doorbell.Move (s.signalMeshSync meshSyncInterval signaller networkName).doorbell := by
  unfold signalMeshSync
  split_ifs with hskip hmem
  · exact .rest
  · exact .put h fun i hi => Or.inr hi
  · exact .put h fun i hi => List.mem_cons.mp hi

theorem move_of_eq (hnetworks : s'.meshWakeNetworks = s.meshWakeNetworks)
    (hwake : s'.meshWake = s.meshWake) (hloop : s'.loop.hasReceived = s.loop.hasReceived)
    (hsending : s'.sending = s.sending) : s.doorbell.Move s'.doorbell := by
  have hsame : s'.doorbell = s.doorbell := by
    rw [doorbell, doorbell, hnetworks, hwake, hloop, hsending]
  rw [hsame]
  exact .rest

theorem move_of_loopStep (h : s.sending .eventSyncLoop = none) {a : LoopAction}
    (hstep : loopStep meshSyncInterval meshSyncDebounce s a = some s') :
    s.doorbell.Move s'.doorbell := by
  cases a with
  | receive =>
    simp only [loopStep] at hstep
    split at hstep
    · split_ifs at hstep with hwake hdebounce <;> cases hstep <;> exact .hear
    · cases hstep
  | debounced =>
    simp only [loopStep] at hstep
    split at hstep
    · next hloop =>
      cases hstep
      refine move_of_eq rfl rfl ?_ rfl
      rw [hloop]
      rfl
    · cases hstep
  | takeMeshWakeNetworks =>
    simp only [loopStep] at hstep
    split at hstep
    · cases hstep
      have hheard := MeshEventSyncLoop.hasReceived_nextNetwork (sortTexts s.meshWakeNetworks)
      simpa only [doorbell, hheard] using Doorbell.Move.take (b := s.doorbell)
    · cases hstep
  | loadMeshPeers records =>
    simp only [loopStep] at hstep
    split at hstep
    · next networkName networks hloop =>
      cases hstep
      refine move_of_eq rfl rfl ?_ rfl
      rw [MeshEventSyncLoop.hasReceived_nextRecord, hloop]
      rfl
    · cases hstep
  | visitMeshPeer info connected =>
    simp only [loopStep] at hstep
    split at hstep
    · next networkName record records networks hloop =>
      split_ifs at hstep <;> cases hstep <;> refine move_of_eq rfl rfl ?_ rfl
      · rw [MeshEventSyncLoop.hasReceived_nextRecord, hloop]
        rfl
      · rw [hloop]
        rfl
    · cases hstep
  | synchronizeKnownPeer inProgress =>
    simp only [loopStep] at hstep
    split at hstep
    · next networkName records networks hloop =>
      have hsame : { s with
          loop := MeshEventSyncLoop.nextRecord networkName records networks }.doorbell =
            s.doorbell := by
        rw [doorbell, doorbell, MeshEventSyncLoop.hasReceived_nextRecord, hloop]
        rfl
      rw [← hsame]
      split_ifs at hstep <;> cases hstep
      · refine move_signalMeshSync _ ?_ networkName
        exact h
      · exact .rest
    · cases hstep

theorem move_of_step (hstep : step meshSyncInterval meshSyncDebounce s a = some s') :
    s.doorbell.Move s'.doorbell := by
  cases a with
  | signalMeshSync call networkName =>
    simp only [step] at hstep
    split at hstep
    · next hsending =>
      cases hstep
      exact move_signalMeshSync s hsending networkName
    · cases hstep
  | sendMeshWake signaller =>
    simp only [step] at hstep
    split at hstep
    · cases hstep
      exact .ring signaller
    · cases hstep
  | loop action =>
    simp only [step] at hstep
    split at hstep
    · next hsending => exact move_of_loopStep hsending hstep
    · cases hstep

/-! ### Runs -/

/-- **No lost wake-up.** Where event synchronization is enabled, every signalled network waits
announced until the loop takes it out, and then its peers are passed over, in every order of the
steps of all calls and of the loop. -/
theorem noLostWake_of_run (henabled : 0 ≤ meshSyncInterval) {actions : List Action}
    (hrun : run (step meshSyncInterval meshSyncDebounce) initial actions = some s) :
    NoLostWake s := by
  have hinvariant : Kept s ∧ s.doorbell.Announced := by
    refine Reaches.invariant (P := fun s => Kept s ∧ s.doorbell.Announced) ?_ ⟨?_, ?_⟩
      ⟨actions, hrun⟩
    · exact fun t a t' h hstep =>
        ⟨h.1.of_traces (traces_of_step henabled hstep), h.2.of_move (move_of_step hstep)⟩
    · exact ⟨fun n after _ h => by simp [Follows, initial] at h,
        fun networks after n h => by simp [Follows, initial] at h⟩
    · exact fun n hn => absurd hn List.not_mem_nil
  obtain ⟨hkept, hannounced⟩ := hinvariant
  refine ⟨fun n after hn hfollows huntaken => ?_, hkept.passes⟩
  have hwaits := hkept.waits n after hn hfollows huntaken
  exact ⟨hwaits, hannounced n hwaits⟩

/-- Two networks are signalled, one of them while the loop waits after its token, and one of them
again by the loop. -/
def signalledRun : List Action :=
  [.signalMeshSync 0 ['h'], .sendMeshWake (.call 0), .loop .receive, .signalMeshSync 1 ['g'],
    .loop .debounced, .loop .takeMeshWakeNetworks, .sendMeshWake (.call 1),
    .loop (.loadMeshPeers none),
    .loop (.loadMeshPeers (some [⟨['h'], ['p'], ['a'], [], [], [], [], 0, none⟩])),
    .loop (.visitMeshPeer (some oneStream.initiator) true),
    .loop (.synchronizeKnownPeer true)]

theorem noLostWake_signalledRun :
    ∃ s, run (step 60 1) initial signalledRun = some s ∧ NoLostWake s := by
  have hsome : (run (step 60 1) initial signalledRun).isSome = true := by decide +kernel
  obtain ⟨s, hs⟩ := Option.isSome_iff_exists.mp hsome
  exact ⟨s, hs, noLostWake_of_run (by decide) hs⟩

end MeshWakes

end Thalweg
