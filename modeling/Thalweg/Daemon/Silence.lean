import Thalweg.Daemon.Delivery
import Thalweg.Daemon.Leaving

/-!
# The sessions of a network that was left

Synchronizations that this daemon has started end before a network of theirs is left, and none is
started while it is being left. Sessions that other peers have started are not on any list: they go
on after the network was left, with the membership that the handshake has found.

## Main definitions

* `MeshState.Stopped`: sessions of networks that were left send and store nothing.
* `MeshState.Unserved`: the condition on a step.

## Main results

* `MeshState.stopped_of_unserved`.
* `MeshState.not_stopped_servedRun`: without the condition a session can go on.
-/

namespace Thalweg

open Machine

/-- The frame holds events or inventory entries. -/
def SyncBody.Carries : SyncBody → Prop
  | .inventoryOffer entries => entries ≠ []
  | .inventoryPage page => page.entries ≠ []
  | .eventsPage events | .eventsPush events => events ≠ []
  | _ => False

/-- An event or an inventory entry of the network is sent, or a received event of it is stored. -/
def MeshEvent.Replicates (networkName : Text) : MeshEvent → Prop
  | .sent n body => n = networkName ∧ body.Carries
  | .stored n _ => n = networkName
  | _ => False

theorem MeshEvent.Replicates.network {n n' : Text} {e : MeshEvent} (h : e.Replicates n)
    (hsession : e.OfSession n') : n' = n := by
  cases e with
  | sent m body => exact hsession.symm.trans h.1
  | stored m events => exact hsession.symm.trans h
  | _ => exact h.elim

/-- The network of an inbound session that is open. -/
def MeshCall.serves : MeshCall → Option Text
  | .welcoming m _ | .remembering m _ | .serving m _ => some m.name
  | _ => none

/-- The network that a call is about to report as left. -/
def MeshCall.reports : MeshCall → Option Text
  | .leaveReturning n true => some n
  | _ => none

namespace MeshState

variable {s s' : MeshState} {a : Action}

/-- A network that was left sends nothing and stores nothing until it is mounted again. -/
def Stopped (s : MeshState) : Prop :=
  Justified (fun before e => ∀ n after, e.Replicates n → Follows before (.unmounted n) after →
    .left n ∈ after → ∃ m, m.name = n ∧ .mounted m ∈ after) s.history

/-- If a call reports that it has left a network, another one has no inbound session for it. -/
def UnservedBy (c : Nat) (s : MeshState) : Action → Prop
  | .finishMeshNetworkLeave call => ∀ n ∈ (s.calls call).reports, (s.calls c).serves ≠ some n
  | _ => True

/-- Leaving a network returns success only while no inbound session for it is open. -/
def Unserved (s : MeshState) (a : Action) : Prop := ∀ c, UnservedBy c s a

instance (c : Nat) (s : MeshState) (a : Action) : Decidable (UnservedBy c s a) := by
  unfold UnservedBy
  split <;> infer_instance

/-- The call has no session for the network. -/
def Mute (n : Text) : MeshCall → Prop
  | .welcoming m _ | .remembering m _ | .serving m _ => m.name ≠ n
  | .greeting _ (.sync n' _ _) _ _ | .exchanging n' _ _ _ _ => n' ≠ n
  | _ => True

/-- There are no sessions for networks that were left and not mounted again. -/
def Hushed (s : MeshState) : Prop :=
  ∀ n after, Follows s.history (.unmounted n) after → .left n ∈ after →
    (∀ m, m.name = n → .mounted m ∉ after) → ∀ c, Mute n (s.calls c)

/-- A call that serves nothing, while no peer of the network is synchronized. -/
theorem mute_of_not_serving {n : Text} {c : MeshCall} (hserving : c.serves ≠ some n)
    (hsyncs : ∀ p, c.syncs ≠ some (meshPeerKey n p)) : Mute n c := by
  cases c with
  | welcoming m p => exact fun hn => hserving (congrArg some hn)
  | remembering m p => exact fun hn => hserving (congrArg some hn)
  | serving m p => exact fun hn => hserving (congrArg some hn)
  | greeting p purpose m nonce =>
    cases purpose with
    | dial n' address => trivial
    | sync n' address known =>
      rintro rfl
      exact hsyncs p.text rfl
  | exchanging n' p address known m =>
    rintro rfl
    exact hsyncs p.text rfl
  | _ => trivial

theorem mute_of_failed {n : Text} {c next : MeshCall} (h : failed c = some next) : Mute n next := by
  unfold failed at h
  split at h
  all_goals cases h
  all_goals trivial

theorem Moves.mute {n : Text} {c next : MeshCall} (h : Moves s c next) (hmute : Mute n c)
    (hmounted : ∀ m, s.memberships.get n ≠ some m) : Mute n next := by
  cases h with
  | failed hfailed => exact mute_of_failed hfailed
  | welcome m p => exact hmute
  | skip m p => exact hmute
  | @greet p purpose m nonce hget =>
    cases purpose with
    | dial n' address => trivial
    | sync n' address known =>
      rintro rfl
      exact hmounted m hget
  | _ => trivial

theorem Writes.mute {n n' : Text} {p : PeerID} {c next : MeshCall} (h : Writes c next n' p)
    (hmute : Mute n c) : Mute n next := by
  cases h with
  | remember m p => exact hmute
  | _ => trivial

theorem Serves.mute {n : Text} {m : NetworkMembership} {c next : MeshCall} (h : Serves m c next)
    (hmute : Mute n c) (hfits : Fits c) : m.name ≠ n ∧ Mute n next := by
  cases h with
  | answer p => exact ⟨hmute, hmute⟩
  | refuse p => exact ⟨hmute, trivial⟩
  | exchange n' p address known => exact ⟨fun hn => hmute (hfits.symm.trans hn), hmute⟩

/-- A step of a call, before which its network has been left already. -/
theorem Hushed.proceed (h : Hushed s) (call : Nat) (next : MeshCall) (new : List MeshEvent)
    (hnew : ∀ n, .unmounted n ∉ new ∧ .left n ∉ new) (hhistory : s'.history = s.history ++ new)
    (hcalls : s'.calls = (s.setCall call next).calls)
    (hnext : ∀ n after, Follows s.history (.unmounted n) after →
      (∀ m, m.name = n → .mounted m ∉ after) → Mute n (s.calls call) → Mute n next) :
    Hushed s' := by
  intro n after hfollows hleft hmounted
  rw [hhistory] at hfollows
  obtain ⟨rest, rfl, hrest⟩ := (follows_append_iff (hnew n).1).mp hfollows
  have hmounted' : ∀ m, m.name = n → .mounted m ∉ rest := fun m hm hmem =>
    hmounted m hm (List.mem_append_left _ hmem)
  have hmute := h n rest hrest ((List.mem_append.mp hleft).resolve_right (hnew n).2) hmounted'
  rw [hcalls]
  exact forall_setCall (P := Mute n) hmute (hnext n rest hrest hmounted' (hmute call))

theorem initial_hushed (self : PeerID) (loaded : List NetworkMembership) (peers : MeshPeers) :
    Hushed (initial self loaded peers) := by
  intro n after h
  simp [initial, Follows] at h

theorem Hushed.step (h : Hushed s) (hexclusive : Exclusive s) (hnamed : Named s)
    (hrecorded : Recorded s) (hunserved : Unserved s a) (hstep : step s a = some s') :
    Hushed s' := by
  have hfree : ∀ n after, Follows s.history (.unmounted n) after →
      (∀ m, m.name = n → .mounted m ∉ after) → ∀ m, s.memberships.get n ≠ some m :=
    fun n after hfollows hmounted m hget => hmounted m (hnamed.memberships n m hget)
      (hrecorded.mounted n after m hfollows hget)
  cases step_effect hstep with
  | quiet => exact h
  | mount m _ =>
    intro n after hfollows hleft hmounted
    obtain ⟨rest, rfl, hrest⟩ := (follows_append_iff (by simp)).mp hfollows
    exact h n rest hrest (by simpa using hleft) fun m' hm hmem =>
      hmounted m' hm (List.mem_append_left _ hmem)
  | @unmount call n ha hcall =>
    intro n' after hfollows hleft hmounted
    rcases follows_append_singleton hfollows with rfl | ⟨rest, rfl, hrest⟩
    · simp at hleft
    · have hmute := h n' rest hrest (by simpa using hleft) fun m hm hmem =>
        hmounted m hm (List.mem_append_left _ hmem)
      exact forall_setCall (P := Mute n') hmute trivial
  | @unmark call n success ha hcall =>
    intro n' after hfollows hleft hmounted
    have hnew : MeshEvent.unmounted n' ∉ if success then [MeshEvent.left n] else [] := by
      cases success
      all_goals simp
    obtain ⟨rest, rfl, hrest⟩ := (follows_append_iff hnew).mp hfollows
    refine forall_setCall (P := Mute n') (fun c => ?_) trivial
    rcases List.mem_append.mp hleft with hbefore | hlast
    · exact h n' rest hrest hbefore (fun m hm hmem =>
        hmounted m hm (List.mem_append_left _ hmem)) c
    · -- the network that has just been left has neither inbound sessions nor synchronizations
      obtain ⟨rfl, rfl⟩ : n' = n ∧ success = true := by
        cases success
        all_goals simp_all
      subst ha
      refine mute_of_not_serving (hunserved c n' (by rw [hcall]; rfl)) fun p hc => ?_
      exact hexclusive.apart c n' p hc (hexclusive.leaving.mem call n' (by rw [hcall]; rfl))
  | @mark call n ha hidle hn hsyncing =>
    exact h.proceed call (.leaving n) [] (by simp) (List.append_nil _).symm rfl
      fun _ _ _ _ _ => trivial
  | @forget call n ha hcall =>
    exact h.proceed call (.leaveReturning n true) [.forgotten n] (by simp) rfl rfl
      fun _ _ _ _ _ => trivial
  | @start call n address p ha hidle hn hkey =>
    exact h.proceed call (.starting n p address) [] (by simp) (List.append_nil _).symm rfl
      fun _ _ _ _ _ => trivial
  | @finish call n p ha hcall =>
    exact h.proceed call .idle [] (by simp) (List.append_nil _).symm rfl fun _ _ _ _ _ => trivial
  | @accept call n m p ha hidle hget =>
    refine h.proceed call (.welcoming m p) [.authenticated m] (by simp) rfl rfl
      fun n' after hfollows hmounted _ hn => ?_
    subst hn
    have hname := hnamed.memberships n m hget
    exact hfree m.name after hfollows hmounted m (hname ▸ hget)
  | @authenticate call p purpose m nonce ha hcall =>
    refine h.proceed call (welcomed p m purpose) [.authenticated m] (by simp) rfl rfl
      fun n after hfollows hmounted hmute => ?_
    rw [hcall] at hmute
    cases purpose with
    | dial n' address => trivial
    | sync n' address known => exact hmute
  | @move call next ha hmoves =>
    exact h.proceed call next [] (by simp) (List.append_nil _).symm rfl
      fun n after hfollows hmounted hmute => hmoves.mute hmute (hfree n after hfollows hmounted)
  | @write call next n p update ha hwrites =>
    exact h.proceed call next [] (by simp) (List.append_nil _).symm rfl
      fun n after hfollows hmounted hmute => hwrites.mute hmute
  | @session call next m events ha hserves hevents =>
    exact h.proceed call next events (silent_of_ofSession hevents) rfl rfl
      fun n after hfollows hmounted hmute => (hserves.mute hmute (hnamed.calls call)).2

/-- A step whose events replicate nothing. -/
theorem Stopped.proceed (h : Stopped s) (new : List MeshEvent)
    (hhistory : s'.history = s.history ++ new) (hnew : ∀ e ∈ new, ∀ n, ¬ e.Replicates n) :
    Stopped s' := by
  unfold Stopped
  rw [hhistory]
  refine Justified.append h fun first e last hsplit n after hreplicates => ?_
  exact absurd hreplicates (hnew e (hsplit ▸ List.mem_append_right first List.mem_cons_self) n)

theorem Stopped.step (h : Stopped s) (hnamed : Named s) (hhushed : Hushed s)
    (hstep : step s a = some s') : Stopped s' := by
  cases step_effect hstep with
  | quiet => exact h
  | mount m _ => exact h.proceed [.mounted m] rfl (by simp [MeshEvent.Replicates])
  | @unmount call n => exact h.proceed [.unmounted n] rfl (by simp [MeshEvent.Replicates])
  | @forget call n => exact h.proceed [.forgotten n] rfl (by simp [MeshEvent.Replicates])
  | @unmark call n success =>
    refine h.proceed (if success then [.left n] else []) rfl ?_
    cases success
    all_goals simp [MeshEvent.Replicates]
  | @accept call n m => exact h.proceed [.authenticated m] rfl (by simp [MeshEvent.Replicates])
  | @authenticate call p purpose m =>
    exact h.proceed [.authenticated m] rfl (by simp [MeshEvent.Replicates])
  | @session call next m events ha hserves hevents =>
    refine Justified.append h fun first e last hsplit n after hreplicates hfollows hleft => ?_
    have hsilent := silent_of_ofSession fun d hd => hevents d (hsplit ▸ List.mem_append_left _ hd)
    obtain ⟨rest, rfl, hrest⟩ := (follows_append_iff (hsilent n).1).mp hfollows
    have hleft := (List.mem_append.mp hleft).resolve_right (hsilent n).2
    by_contra hmounted
    have hmute := hhushed n rest hrest hleft fun m' hm hmem =>
      hmounted ⟨m', hm, List.mem_append_left _ hmem⟩
    refine (hserves.mute (hmute call) (hnamed.calls call)).1 (hreplicates.network ?_)
    exact hevents e (hsplit ▸ List.mem_append_right first List.mem_cons_self)
  | _ => exact h.proceed [] (List.append_nil _).symm (by simp)

/-- **Leaving a network stops its replication.** In every run in which leaving a network returns
success only while no inbound session for it is open, nothing of a network that was left is sent to a peer,
and nothing of it that a peer has sent is stored, until it is mounted again. -/
theorem stopped_of_unserved (self : PeerID) (loaded : List NetworkMembership) (peers : MeshPeers)
    (actions : List Action) (s : MeshState)
    (hmeets : Meets step Unserved (initial self loaded peers) actions)
    (hrun : run step (initial self loaded peers) actions = some s) : Stopped s := by
  have hinvariant : Exclusive s ∧ Named s ∧ Recorded s ∧ Hushed s ∧ Stopped s := by
    refine run_invariant
      (P := fun s => Exclusive s ∧ Named s ∧ Recorded s ∧ Hushed s ∧ Stopped s) ?_
      ⟨initial_exclusive self loaded peers, initial_named self loaded peers,
        initial_recorded self loaded peers, initial_hushed self loaded peers, justified_nil _⟩
      hmeets hrun
    rintro t a t' ⟨hexclusive, hnamed, hrecorded, hhushed, hstopped⟩ hunserved hstep
    exact ⟨hexclusive.step hstep, hnamed.step hstep, hrecorded.step hexclusive hstep,
      hhushed.step hexclusive hnamed hrecorded hunserved hstep,
      hstopped.step hnamed hhushed hstep⟩
  exact hinvariant.2.2.2.2

theorem unservedBy_of_idle (c : Nat) (s : MeshState) (a : Action) (h : s.calls c = .idle) :
    UnservedBy c s a := by
  cases a with
  | finishMeshNetworkLeave call =>
    intro n _
    rw [h]
    exact (Option.some_ne_none n).symm
  | _ => trivial

/-- A peer asks for the event of a daemon. -/
def requestedEvent : Action :=
  .serveSyncRequest 0 1 Daemon.oneArrival
    ⟨syncProtocolVersion, oneMembership.id, .eventsRequest [['e']]⟩

/-- The session has ended before the network is left. -/
def endedRun : List Action :=
  acceptedHello :: .writeWelcome 0 :: .rememberInboundMeshPeer 0 none :: requestedEvent ::
    .fail 0 :: leaveRun

theorem stopped_endedRun : ∃ s, run step mountedState endedRun = some s ∧ Stopped s := by
  have hsome : (run step acceptedState (.writeWelcome 0 :: .rememberInboundMeshPeer 0 none ::
      requestedEvent :: .fail 0 :: leaveRun)).isSome = true := by
    decide +kernel
  obtain ⟨s, hs⟩ := Option.isSome_iff_exists.mp hsome
  have hrun : run step mountedState endedRun = some s := by
    rw [endedRun, run_acceptedHello, hs]
  refine ⟨s, hrun, stopped_of_unserved _ _ _ _ s ?_ hrun⟩
  refine meets_of_lt 2 unservedBy_of_idle (fun _ _ => rfl) (by decide) ?_
  refine meets_cons_iff.mpr ⟨fun _ _ => trivial, fun s' hs' => ?_⟩
  obtain rfl := Option.some.inj (step_acceptedHello.symm.trans hs')
  decide +kernel

/-- The network is left during the session. -/
def servedRun : List Action :=
  acceptedHello :: .writeWelcome 0 :: .rememberInboundMeshPeer 0 none ::
    (leaveRun ++ [requestedEvent])

/-- The network has been left, and an event of it has been sent. -/
def SentAfter (s : MeshState) : Bool :=
  match s.history with
  | [.authenticated _, .unmounted n, .forgotten _, .left n', .sent n'' (.eventsPage events)] =>
    n == n' && n == n'' && decide (events ≠ [])
  | _ => false

/-- The event is sent after the network was left. -/
theorem not_stopped_servedRun :
    ∃ s, run step mountedState servedRun = some s ∧ ¬ Stopped s := by
  have hany : (run step mountedState servedRun).any SentAfter = true := by
    rw [servedRun, run_acceptedHello]
    decide +kernel
  obtain ⟨s, hs, hsent⟩ := (Option.any_eq_true _ _).mp hany
  refine ⟨s, hs, fun hstopped => ?_⟩
  unfold SentAfter at hsent
  split at hsent
  · next m n k n' n'' events hhistory =>
    simp only [Bool.and_eq_true, beq_iff_eq, decide_eq_true_eq] at hsent
    obtain ⟨⟨rfl, rfl⟩, hevents⟩ := hsent
    obtain ⟨m', -, hmem⟩ := hstopped [.authenticated m, .unmounted n, .forgotten k, .left n] _ []
      hhistory n _ ⟨rfl, hevents⟩ ⟨[_], rfl⟩ (by simp)
    simp at hmem
  · cases hsent

end MeshState

end Thalweg
