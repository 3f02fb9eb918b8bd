import Thalweg.Daemon.Leaving

/-!
# Outbound synchronizations exclude each other and leaving

The keys of the peers that are being synchronized and the names of the networks that are being left
stand in two tables. In every order of the steps of all calls the tables hold exactly the sessions
and the leavings that go on, so that a session is the only one with its peer for its network, none
goes on for a network that is being left, and one that has returned is no longer in the table.

* `MeshState.Accounts`: all marks are held.
* `MeshState.SessionsExclude`, `MeshState.sessionsExclude_of_run`.
-/

namespace Thalweg

open Machine

/-- The network and the peer of the outbound session that a call of `synchronizeKnownPeer` runs. -/
def MeshCall.session : MeshCall → Option (Text × PeerID)
  | .starting n p _ | .attempting n p _ _ | .exchanging n p _ _ _ | .succeeding n p
  | .failing n p _ | .syncReturning n p | .opening p (.sync n _ _) | .greeting p (.sync n _ _) _ _
  | .persisting p (.sync n _ _) => some (n, p)
  | _ => none

theorem MeshCall.syncs_eq (c : MeshCall) :
    c.syncs = c.session.map fun session => meshPeerKey session.1 session.2.text := by
  cases c with
  | opening p purpose => cases purpose <;> rfl
  | greeting p purpose => cases purpose <;> rfl
  | persisting p purpose => cases purpose <;> rfl
  | _ => rfl

theorem MeshCall.syncs_eq_some_iff {c : MeshCall} {key : Text} :
    c.syncs = some key ↔ ∃ n p, c.session = some (n, p) ∧ key = meshPeerKey n p.text := by
  rw [MeshCall.syncs_eq, Option.map_eq_some_iff]
  constructor
  · rintro ⟨⟨n, p⟩, hsession, rfl⟩
    exact ⟨n, p, hsession, rfl⟩
  · rintro ⟨n, p, hsession, rfl⟩
    exact ⟨(n, p), hsession, rfl⟩

theorem meshPeerKey_inj {n n' : Text} {p p' : PeerID} :
    meshPeerKey n p.text = meshPeerKey n' p'.text ↔ n = n' ∧ p = p' := by
  rw [meshPeerKey, meshPeerKey, meshPeerPrefix_append_inj, PeerID.mk.injEq]

namespace MeshState

variable {s s' : MeshState} {a : Action}

/-- The call runs an outbound session with the peer for the network. -/
def Runs (s : MeshState) (c : Nat) (n : Text) (p : PeerID) : Prop :=
  (s.calls c).session = some (n, p)

/-- The call is between a successful `startMeshNetworkLeave` and its `finishMeshNetworkLeave`. -/
def Leaves (s : MeshState) (c : Nat) (n : Text) : Prop := (s.calls c).leaves = some n

/-- A call of `startMeshNetworkLeave` is refused. -/
def RefusesLeave (s : MeshState) (c : Nat) (n : Text) : Prop :=
  s.calls c = .idle ∧ ∃ s', step s (.startMeshNetworkLeave c n) = some s' ∧ ¬ s'.Leaves c n

/-- All marks are held by calls. -/
structure Accounts (s : MeshState) : Prop where
  leaving : Accounted s.meshLeaving fun c => (s.calls c).leaves
  syncing : Accounted s.meshSyncing fun c => (s.calls c).syncs

theorem initial_accounts (self : PeerID) (loaded : List NetworkMembership) (peers : MeshPeers) :
    Accounts (initial self loaded peers) :=
  ⟨by simp [initial, Accounted], by simp [initial, Accounted]⟩

theorem Accounts.step (h : Accounts s) (hstep : MeshState.step s a = some s') : Accounts s' :=
  have hmarks := markSteps_of_step hstep
  ⟨h.leaving.of_step hmarks.1, h.syncing.of_step hmarks.2⟩

/-- The sessions exclude each other and leaving, and the table of sessions holds exactly those that
go on. -/
structure SessionsExclude (s : MeshState) : Prop where
  alone : ∀ c c' n p, s.Runs c n p → s.Runs c' n p → c = c'
  apart : ∀ c c' n p, s.Leaves c n → ¬ s.Runs c' n p
  refused : ∀ c n, s.RefusesLeave c n → (∃ c' p, s.Runs c' n p) ∨ ∃ c', s.Leaves c' n
  registered : ∀ key, key ∈ s.meshSyncing ↔ ∃ c n p, s.Runs c n p ∧ key = meshPeerKey n p.text
  /-- However a session ends, its key is taken off with its last step. -/
  deregistered : ∀ a s' c n p, step s a = some s' → s.Runs c n p → ¬ s'.Runs c n p →
    meshPeerKey n p.text ∉ s'.meshSyncing

theorem Exclusive.syncs_of_runs {c : Nat} {n : Text} {p : PeerID} (h : s.Runs c n p) :
    (s.calls c).syncs = some (meshPeerKey n p.text) :=
  MeshCall.syncs_eq_some_iff.mpr ⟨n, p, h, rfl⟩

/-- A leave is refused only for a session for the network or another leave of it. -/
theorem Accounts.of_refused (h : Accounts s) {c : Nat} {n : Text} (hrefused : s.RefusesLeave c n) :
    (∃ c' p, s.Runs c' n p) ∨ ∃ c', s.Leaves c' n := by
  obtain ⟨hidle, s', hstep, hnot⟩ := hrefused
  simp only [MeshState.step, hidle] at hstep
  split_ifs at hstep with hbusy
  · rcases hbusy with hleaving | ⟨key, hkey, hpre⟩
    · exact Or.inr (h.leaving n hleaving)
    · obtain ⟨c', hc'⟩ := h.syncing key hkey
      obtain ⟨n', p, hsession, rfl⟩ := MeshCall.syncs_eq_some_iff.mp hc'
      obtain rfl := meshPeerPrefix_isPrefix_meshPeerKey.mp hpre
      exact Or.inl ⟨c', p, hsession⟩
  · cases hstep
    refine absurd ?_ hnot
    simp [Leaves, setCall, MeshCall.leaves]

/-- A session that ends is taken off the table. -/
theorem Exclusive.notMem_of_ended (h : Exclusive s) (hstep : MeshState.step s a = some s')
    (haccounts : Accounts s') {c : Nat} {n : Text} {p : PeerID} (hruns : s.Runs c n p)
    (hended : ¬ s'.Runs c n p) : meshPeerKey n p.text ∉ s'.meshSyncing := by
  intro hmem
  obtain ⟨d, hd⟩ := haccounts.syncing _ hmem
  obtain ⟨n', p', hsession, hkey⟩ := MeshCall.syncs_eq_some_iff.mp hd
  obtain ⟨rfl, rfl⟩ := meshPeerKey_inj.mp hkey
  -- the step was one of the call that ended, so another call would have run the session before
  have hcall : a.call = some c := by
    by_contra hother
    exact hended (by rwa [Runs, calls_of_step hstep hother])
  have hne : d ≠ c := by
    rintro rfl
    exact hended hsession
  have hsame : s'.calls d = s.calls d :=
    calls_of_step hstep (by rw [hcall]; exact fun heq => hne (Option.some.inj heq).symm)
  have hruns' : s.Runs d n p := by rwa [Runs, ← hsame]
  have hsync := Exclusive.syncs_of_runs hruns'
  exact hne (h.syncing.unique d c _ hsync (Exclusive.syncs_of_runs hruns))

/-- **Exclusion.** In every order of the steps of synchronizations, leavings and all other calls, at
most one session with a peer for a network goes on, none for a network that is being left, a leave
is refused only for one of these, and every session is taken off the table when it ends. -/
theorem sessionsExclude_of_run {self : PeerID} {loaded : List NetworkMembership} {peers : MeshPeers}
    {actions : List Action} (hrun : run step (initial self loaded peers) actions = some s) :
    SessionsExclude s := by
  have hinvariant : Exclusive s ∧ Accounts s := by
    refine Reaches.invariant (P := fun s => Exclusive s ∧ Accounts s) ?_
      ⟨initial_exclusive self loaded peers, initial_accounts self loaded peers⟩ ⟨actions, hrun⟩
    exact fun t a t' h hstep => ⟨h.1.step hstep, h.2.step hstep⟩
  obtain ⟨hexclusive, haccounts⟩ := hinvariant
  refine ⟨fun c c' n p hc hc' => ?_, fun c c' n p hleaves hruns => ?_,
    fun c n => haccounts.of_refused, fun key => ⟨fun hmem => ?_, ?_⟩, fun a s' c n p hstep => ?_⟩
  · exact hexclusive.syncing.unique c c' _ (Exclusive.syncs_of_runs hc)
      (Exclusive.syncs_of_runs hc')
  · exact hexclusive.apart c' n p.text (Exclusive.syncs_of_runs hruns)
      (hexclusive.leaving.mem c n hleaves)
  · obtain ⟨c, hc⟩ := haccounts.syncing key hmem
    obtain ⟨n, p, hsession, hkey⟩ := MeshCall.syncs_eq_some_iff.mp hc
    exact ⟨c, n, p, hsession, hkey⟩
  · rintro ⟨c, n, p, hruns, rfl⟩
    exact hexclusive.syncing.mem c _ (Exclusive.syncs_of_runs hruns)
  · exact hexclusive.notMem_of_ended hstep (haccounts.step hstep)

/-- Sessions for two networks, of which one name is a prefix of the other. A leave is refused. -/
def excludedRun : List Action :=
  [.startMeshPeerSync 0 ['h', 'o'] oneStream.initiator ['a'], .startMeshNetworkLeave 1 ['h', 'o'],
    .startMeshPeerSync 2 ['h'] oneStream.initiator ['a'], .meshPeerExists 2, .fail 2, .fail 2,
    .fail 2, .finishMeshPeerSync 2, .startMeshNetworkLeave 3 ['h']]

theorem sessionsExclude_excludedRun :
    ∃ s, run step mountedState excludedRun = some s ∧ SessionsExclude s := by
  have hsome : (run step mountedState excludedRun).isSome = true := by
    decide +kernel
  obtain ⟨s, hs⟩ := Option.isSome_iff_exists.mp hsome
  exact ⟨s, hs, sessionsExclude_of_run hs⟩

end MeshState

end Thalweg
