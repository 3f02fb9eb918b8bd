import Thalweg.Daemon.Handshake
import Thalweg.Daemon.Keys
import Thalweg.Daemon.MeshPeers

/-!
# What a network leaves behind

After a network has been left, nothing of it goes on until it is mounted again, except for what
inbound handshakes and dials began before: they hold the membership that they looked up, and leaving
does not wait for them. Synchronizations are waited for.

## Main definitions

* `MeshState.Forgotten`: networks that were left have no records of peers.
* `MeshState.Undisturbed`: the condition on a step.

## Main results

* `MeshState.forgotten_of_undisturbed`.
* `MeshState.not_forgotten_overlappedRun`: without the condition a record can be left behind.
-/

namespace Thalweg

open Machine

/-! ### Records -/

theorem meshPeerPrefix_append_inj {n n' t t' : Text} :
    meshPeerPrefix n ++ t = meshPeerPrefix n' ++ t' ↔ n = n' ∧ t = t' := by
  constructor
  · intro h
    simp only [meshPeerPrefix, List.append_assoc, List.append_cancel_left_eq, List.cons_append,
      List.nil_append] at h
    obtain ⟨hn, h⟩ := Text.append_cons_inj_left (by simp) (by simp) h
    exact ⟨encodeKeyPart_injective hn, h⟩
  · rintro ⟨rfl, rfl⟩
    rfl

theorem meshPeerPrefix_isPrefix_meshPeerKey {n n' p : Text} :
    meshPeerPrefix n <+: meshPeerKey n' p ↔ n' = n := by
  constructor
  · rintro ⟨t, ht⟩
    rw [meshPeerKey, meshPeerPrefix_append_inj] at ht
    exact ht.1.symm
  · rintro rfl
    exact List.prefix_append _ _

theorem get_updateMeshPeer_of_ne {peers : MeshPeers} {n n' : Text} (hne : n' ≠ n) (p p' : Text)
    (update : PersistedMeshPeer → PersistedMeshPeer) :
    (updateMeshPeer peers n' p' update).get (meshPeerKey n p) = peers.get (meshPeerKey n p) := by
  refine OrderedStore.get_set_of_ne _ (fun h => hne ?_) _
  exact (meshPeerPrefix_append_inj.mp h).1.symm

theorem get_forgetMeshPeers (peers : MeshPeers) (n n' p : Text) :
    (forgetMeshPeers peers n).get (meshPeerKey n' p) =
      if n' = n then none else peers.get (meshPeerKey n' p) := by
  have hget := OrderedStore.get_foldl_delete_scan peers (meshPeerPrefix n) (meshPeerKey n' p)
  simp only [meshPeerPrefix_isPrefix_meshPeerKey] at hget
  exact hget

/-! ### Marks -/

/-- The network that a call is leaving. -/
def MeshCall.leaves : MeshCall → Option Text
  | .leaving n | .forgetting n | .leaveReturning n _ => some n
  | _ => none

/-- The key of the peer that a call synchronizes. -/
def MeshCall.syncs : MeshCall → Option Text
  | .starting n p _ | .attempting n p _ _ | .exchanging n p _ _ _ | .succeeding n p
  | .failing n p _ | .syncReturning n p | .opening p (.sync n _ _) | .greeting p (.sync n _ _) _ _
  | .persisting p (.sync n _ _) => some (meshPeerKey n p.text)
  | _ => none

/-- The network of an inbound handshake or a dial that holds credentials of it. -/
def MeshCall.pending : MeshCall → Option Text
  | .welcoming m _ | .remembering m _ => some m.name
  | .greeting _ (.dial n _) _ _ | .persisting _ (.dial n _) => some n
  | _ => none

namespace MeshState

variable {s s' : MeshState} {a : Action}

theorem calls_setCall (s : MeshState) (call : Nat) (next : MeshCall) {β : Type}
    (f : MeshCall → β) :
    (fun c => f ((s.setCall call next).calls c)) =
      Function.update (fun c => f (s.calls c)) call (f next) :=
  funext fun c => Function.apply_update (fun _ => f) s.calls call next c

theorem calls_setCall_of_eq (call : Nat) (next : MeshCall) {β : Type} {f : MeshCall → β}
    (h : f next = f (s.calls call)) :
    (fun c => f ((s.setCall call next).calls c)) = fun c => f (s.calls c) := by
  rw [calls_setCall, h, Function.update_eq_self]

theorem forall_setCall {P : MeshCall → Prop} (h : ∀ c, P (s.calls c)) {call : Nat}
    {next : MeshCall} (hnext : P next) (c : Nat) : P ((s.setCall call next).calls c) := by
  by_cases hc : c = call
  · simpa [setCall, hc] using hnext
  · simpa [setCall, hc] using h c

/-- The marks say which networks are being left and which peers are being synchronized, and no peer
of a network that is being left is. -/
structure Exclusive (s : MeshState) : Prop where
  leaving : Marked s.meshLeaving fun c => (s.calls c).leaves
  syncing : Marked s.meshSyncing fun c => (s.calls c).syncs
  apart : ∀ c n p, (s.calls c).syncs = some (meshPeerKey n p) → n ∉ s.meshLeaving

theorem initial_exclusive (self : PeerID) (loaded : List NetworkMembership) (peers : MeshPeers) :
    Exclusive (initial self loaded peers) where
  leaving := ⟨by simp [initial, MeshCall.leaves], by simp [initial, MeshCall.leaves]⟩
  syncing := ⟨by simp [initial, MeshCall.syncs], by simp [initial, MeshCall.syncs]⟩
  apart := by simp [initial]

theorem Moves.keeps {c next : MeshCall} (h : Moves s c next) :
    next.leaves = c.leaves ∧ next.syncs = c.syncs := by
  cases h with
  | failed h =>
    unfold MeshState.failed at h
    split at h
    all_goals cases h
    all_goals exact ⟨rfl, rfl⟩
  | @greet p purpose m nonce _ =>
    cases purpose
    all_goals exact ⟨rfl, rfl⟩
  | _ => exact ⟨rfl, rfl⟩

theorem Writes.keeps {c next : MeshCall} {n : Text} {p : PeerID} (h : Writes c next n p) :
    next.leaves = c.leaves ∧ next.syncs = c.syncs := by
  cases h
  all_goals exact ⟨rfl, rfl⟩

theorem Serves.keeps {m : NetworkMembership} {c next : MeshCall} (h : Serves m c next) :
    next.leaves = c.leaves ∧ next.syncs = c.syncs := by
  cases h
  all_goals exact ⟨rfl, rfl⟩

theorem welcomed_keeps (p : PeerID) (m : NetworkMembership) (purpose : MeshPurpose)
    (nonce : Text) : (welcomed p m purpose).leaves = (MeshCall.greeting p purpose m nonce).leaves ∧
      (welcomed p m purpose).syncs = (MeshCall.greeting p purpose m nonce).syncs := by
  cases purpose
  all_goals exact ⟨rfl, rfl⟩

/-- What a step does to the marks. -/
def MarkSteps (s s' : MeshState) : Prop :=
  MarkStep s.meshLeaving (fun c => (s.calls c).leaves) s'.meshLeaving
      (fun c => (s'.calls c).leaves) ∧
    MarkStep s.meshSyncing (fun c => (s.calls c).syncs) s'.meshSyncing fun c => (s'.calls c).syncs

/-- A step that keeps what its call leaves and synchronizes leaves the marks. -/
theorem markSteps_proceed (call : Nat) (next : MeshCall)
    (hkeeps : next.leaves = (s.calls call).leaves ∧ next.syncs = (s.calls call).syncs) :
    MarkSteps s (s.setCall call next) :=
  ⟨(calls_setCall_of_eq call next hkeeps.1).symm ▸ .keep,
    (calls_setCall_of_eq call next hkeeps.2).symm ▸ .keep⟩

theorem markSteps_of_step (hstep : step s a = some s') : MarkSteps s s' := by
  cases step_effect hstep with
  | quiet => exact ⟨.keep, .keep⟩
  | mount => exact ⟨.keep, .keep⟩
  | @mark call n ha hidle hn hsyncing =>
    have hsyncs := calls_setCall_of_eq (s := s) (f := MeshCall.syncs) call (.leaving n)
      (by rw [hidle]; rfl)
    refine ⟨?_, hsyncs.symm ▸ .keep⟩
    exact (calls_setCall s call (.leaving n) MeshCall.leaves).symm ▸
      .acquire hn (by rw [hidle]; rfl)
  | @unmount call n ha hcall =>
    exact markSteps_proceed call (.forgetting n) (by rw [hcall]; exact ⟨rfl, rfl⟩)
  | @forget call n ha hcall =>
    exact markSteps_proceed call (.leaveReturning n true) (by rw [hcall]; exact ⟨rfl, rfl⟩)
  | @unmark call n success ha hcall =>
    have hsyncs := calls_setCall_of_eq (s := s) (f := MeshCall.syncs) call .idle
      (by rw [hcall]; rfl)
    refine ⟨?_, hsyncs.symm ▸ .keep⟩
    exact (calls_setCall s call .idle MeshCall.leaves).symm ▸ .release (by rw [hcall]; rfl)
  | @start call n address p ha hidle hn hkey =>
    have hleaves := calls_setCall_of_eq (s := s) (f := MeshCall.leaves) call
      (.starting n p address) (by rw [hidle]; rfl)
    refine ⟨hleaves.symm ▸ .keep, ?_⟩
    exact (calls_setCall s call (.starting n p address) MeshCall.syncs).symm ▸
      .acquire hkey (by rw [hidle]; rfl)
  | @finish call n p ha hcall =>
    have hleaves := calls_setCall_of_eq (s := s) (f := MeshCall.leaves) call .idle
      (by rw [hcall]; rfl)
    refine ⟨hleaves.symm ▸ .keep, ?_⟩
    exact (calls_setCall s call .idle MeshCall.syncs).symm ▸ .release (by rw [hcall]; rfl)
  | @accept call n m p ha hidle hget =>
    exact markSteps_proceed call (.welcoming m p) (by rw [hidle]; exact ⟨rfl, rfl⟩)
  | authenticate ha hcall => exact markSteps_proceed _ _ (hcall ▸ welcomed_keeps _ _ _ _)
  | move ha hmoves => exact markSteps_proceed _ _ hmoves.keeps
  | write update ha hwrites => exact markSteps_proceed _ _ hwrites.keeps
  | session ha hserves hevents => exact markSteps_proceed _ _ hserves.keeps

theorem Exclusive.step (h : Exclusive s) (hstep : step s a = some s') : Exclusive s' := by
  obtain ⟨hleaving, hsyncing⟩ := markSteps_of_step hstep
  refine ⟨h.leaving.of_step hleaving, h.syncing.of_step hsyncing, ?_⟩
  have hkept : ∀ {call next}, next.syncs = (s.calls call).syncs → ∀ c n p,
      ((s.setCall call next).calls c).syncs = some (meshPeerKey n p) → n ∉ s.meshLeaving :=
    fun hsyncs c n p hc => h.apart c n p (congrFun (calls_setCall_of_eq _ _ hsyncs) c ▸ hc)
  cases step_effect hstep with
  | quiet => exact h.apart
  | mount => exact h.apart
  | @mark call n ha hidle hn hnone =>
    intro c n' p hc
    have hsyncs := calls_setCall_of_eq (s := s) (f := MeshCall.syncs) call (.leaving n)
      (by rw [hidle]; rfl)
    replace hc : (s.calls c).syncs = some (meshPeerKey n' p) := congrFun hsyncs c ▸ hc
    refine List.not_mem_cons_of_ne_of_not_mem ?_ (h.apart c n' p hc)
    rintro rfl
    exact hnone _ (h.syncing.mem c _ hc) (List.prefix_append _ _)
  | @unmount call n ha hcall => exact hkept (by rw [hcall]; rfl)
  | @forget call n ha hcall => exact hkept (by rw [hcall]; rfl)
  | @unmark call n success ha hcall =>
    intro c n' p hc hmem
    exact @hkept call .idle (by rw [hcall]; rfl) c n' p hc (List.mem_of_mem_filter hmem)
  | @start call n address p ha hidle hn hkey =>
    intro c n' p' hc
    by_cases hcc : c = call
    · subst hcc
      simp only [setCall, Function.update_self, MeshCall.syncs, Option.some.injEq, meshPeerKey,
        meshPeerPrefix_append_inj] at hc
      exact hc.1 ▸ hn
    · simp only [setCall, Function.update_of_ne hcc] at hc
      exact h.apart c n' p' hc
  | @finish call n p ha hcall =>
    intro c n' p' hc
    by_cases hcc : c = call
    · subst hcc
      simp [setCall, MeshCall.syncs] at hc
    · simp only [setCall, Function.update_of_ne hcc] at hc
      exact h.apart c n' p' hc
  | @accept call n m p ha hidle hget => exact hkept (by rw [hidle]; rfl)
  | authenticate ha hcall => exact hkept (hcall ▸ (welcomed_keeps _ _ _ _).2)
  | move ha hmoves => exact hkept hmoves.keeps.2
  | write update ha hwrites => exact hkept hwrites.keeps.2
  | session ha hserves hevents => exact hkept hserves.keeps.2

/-! ### Credentials -/

/-- The credentials that a call holds are the ones of the network that it is about. -/
def Fits : MeshCall → Prop
  | .greeting _ purpose m _ => m.name = purpose.networkName
  | .exchanging n _ _ _ m => m.name = n
  | _ => True

/-- Networks are mounted under their names. -/
structure Named (s : MeshState) : Prop where
  memberships : ∀ n m, s.memberships.get n = some m → m.name = n
  calls : ∀ c, Fits (s.calls c)

theorem initial_named (self : PeerID) (loaded : List NetworkMembership) (peers : MeshPeers) :
    Named (initial self loaded peers) where
  memberships := by
    refine List.foldlRecOn (motive := fun ms : Memberships => ∀ n m, ms.get n = some m → m.name = n)
      loaded _ (by simp) fun ms hms m hm n m' hget => ?_
    rw [OrderedStore.get_set] at hget
    split_ifs at hget with hn
    · cases hget
      exact hn.symm
    · exact hms n m' hget
  calls c := trivial

theorem Moves.fits {c next : MeshCall} (hmoves : Moves s c next) (h : Named s) : Fits next := by
  cases hmoves with
  | failed hfailed =>
    unfold MeshState.failed at hfailed
    split at hfailed
    all_goals cases hfailed
    all_goals trivial
  | greet p nonce hget => exact h.memberships _ _ hget
  | _ => trivial

theorem Named.step (h : Named s) (hstep : step s a = some s') : Named s' := by
  cases step_effect hstep with
  | quiet => exact h
  | mount m hfree =>
    refine ⟨fun n m' hget => ?_, h.calls⟩
    change (OrderedStore.set s.memberships m.name m).get n = some m' at hget
    rw [OrderedStore.get_set] at hget
    split_ifs at hget with hn
    · cases hget
      exact hn.symm
    · exact h.memberships n m' hget
  | @unmount call n ha hcall =>
    refine ⟨fun n' m' hget => ?_, forall_setCall (P := Fits) h.calls trivial⟩
    change (OrderedStore.delete s.memberships n).get n' = some m' at hget
    rw [OrderedStore.get_delete] at hget
    split_ifs at hget
    exact h.memberships n' m' hget
  | @authenticate call p purpose m nonce ha hcall =>
    have hfits := hcall ▸ h.calls call
    refine ⟨h.memberships, forall_setCall (P := Fits) h.calls ?_⟩
    cases purpose with
    | dial n address => trivial
    | sync n address known => exact hfits
  | move ha hmoves => exact ⟨h.memberships, forall_setCall (P := Fits) h.calls (hmoves.fits h)⟩
  | @write call next n p update ha hwrites =>
    refine ⟨h.memberships, forall_setCall (P := Fits) h.calls ?_⟩
    generalize s.calls call = c at hwrites
    cases hwrites
    all_goals trivial
  | @session call next m events ha hserves hevents =>
    refine ⟨h.memberships, forall_setCall (P := Fits) h.calls ?_⟩
    have hfits := h.calls call
    generalize s.calls call = c at hserves hfits
    cases hserves with
    | exchange n p address known => exact hfits
    | _ => trivial
  | _ => exact ⟨h.memberships, forall_setCall (P := Fits) h.calls trivial⟩

/-! ### The history of a network -/

/-- The events neither unmount a network nor end its leaving. -/
def Silent (new : List MeshEvent) : Prop := ∀ n, .unmounted n ∉ new ∧ .left n ∉ new

/-- A network that is mounted has been mounted since it was unmounted, and whoever reports that it
was left has removed its peers. -/
structure Recorded (s : MeshState) : Prop where
  mounted : ∀ n after m, Follows s.history (.unmounted n) after → s.memberships.get n = some m →
    .mounted m ∈ after
  returning : ∀ c n after, s.calls c = .leaveReturning n true →
    Follows s.history (.unmounted n) after → .forgotten n ∈ after
  left : ∀ n after, Follows s.history (.unmounted n) after → .left n ∈ after →
    .forgotten n ∈ after

theorem initial_recorded (self : PeerID) (loaded : List NetworkMembership) (peers : MeshPeers) :
    Recorded (initial self loaded peers) where
  mounted n after m h := by simp [initial, Follows] at h
  returning c n after h := by simp [initial] at h
  left n after h := by simp [initial, Follows] at h

/-- A step of a call that is not about to report success. -/
theorem Recorded.proceed (h : Recorded s) (call : Nat) (next : MeshCall) {new : List MeshEvent}
    (hsilent : Silent new) (hnext : ∀ n, next ≠ .leaveReturning n true) (peers : MeshPeers)
    (meshSyncing meshLeaving : List Text) :
    Recorded ({ s with
      peers, meshSyncing, meshLeaving, history := s.history ++ new }.setCall call next) where
  mounted n after m hfollows hget := by
    obtain ⟨rest, rfl, hrest⟩ := (follows_append_iff (hsilent n).1).mp hfollows
    exact List.mem_append_left _ (h.mounted n rest m hrest hget)
  returning c n after hc hfollows := by
    obtain ⟨rest, rfl, hrest⟩ := (follows_append_iff (hsilent n).1).mp hfollows
    by_cases hcc : c = call
    · subst hcc
      exact absurd (Function.update_self c next s.calls ▸ hc) (hnext n)
    · exact List.mem_append_left _
        (h.returning c n rest (Function.update_of_ne hcc next s.calls ▸ hc) hrest)
  left n after hfollows hleft := by
    obtain ⟨rest, rfl, hrest⟩ := (follows_append_iff (hsilent n).1).mp hfollows
    refine List.mem_append_left _ (h.left n rest hrest ?_)
    exact (List.mem_append.mp hleft).resolve_right (hsilent n).2

theorem silent_nil : Silent [] := fun _ => ⟨List.not_mem_nil, List.not_mem_nil⟩

theorem silent_authenticated (m : NetworkMembership) : Silent [.authenticated m] := fun n => by
  simp

theorem silent_of_ofSession {n : Text} {new : List MeshEvent} (h : ∀ e ∈ new, e.OfSession n) :
    Silent new := fun _ => ⟨h _, h _⟩

theorem Moves.ne_leaveReturning {c next : MeshCall} (h : Moves s c next) (n : Text) :
    next ≠ .leaveReturning n true := by
  rintro rfl
  cases h with
  | failed h =>
    unfold MeshState.failed at h
    split at h
    all_goals cases h

theorem Writes.ne_leaveReturning {c next : MeshCall} {n : Text} {p : PeerID}
    (h : Writes c next n p) (n' : Text) : next ≠ .leaveReturning n' true := by
  cases h
  all_goals simp

theorem Serves.ne_leaveReturning {m : NetworkMembership} {c next : MeshCall}
    (h : Serves m c next) (n : Text) : next ≠ .leaveReturning n true := by
  cases h
  all_goals simp

theorem Recorded.step (h : Recorded s) (hexclusive : Exclusive s) (hstep : step s a = some s') :
    Recorded s' := by
  cases step_effect hstep with
  | quiet => exact h
  | mount m hfree =>
    refine ⟨fun n after m' hfollows hget => ?_, fun c n after hc hfollows => ?_,
      fun n after hfollows hleft => ?_⟩
    all_goals obtain ⟨rest, rfl, hrest⟩ := (follows_append_iff (by simp)).mp hfollows
    · change (OrderedStore.set s.memberships m.name m).get n = some m' at hget
      rw [OrderedStore.get_set] at hget
      split_ifs at hget with hn
      · cases hget
        simp
      · exact List.mem_append_left _ (h.mounted n rest m' hrest hget)
    · exact List.mem_append_left _ (h.returning c n rest hc hrest)
    · exact List.mem_append_left _ (h.left n rest hrest (by simpa using hleft))
  | @mark call n ha hidle hn hsyncing =>
    simpa using h.proceed call (.leaving n) silent_nil (by simp) s.peers
      s.meshSyncing (n :: s.meshLeaving)
  | @unmount call n ha hcall =>
    refine ⟨fun n' after m' hfollows hget => ?_, fun c n' after hc hfollows => ?_,
      fun n' after hfollows hleft => ?_⟩
    · change (OrderedStore.delete s.memberships n).get n' = some m' at hget
      rw [OrderedStore.get_delete] at hget
      split_ifs at hget with hn
      obtain ⟨rest, rfl, hrest⟩ := (follows_append_iff (by simpa using hn)).mp hfollows
      exact List.mem_append_left _ (h.mounted n' rest m' hrest hget)
    · by_cases hcc : c = call
      · subst hcc
        simp [record, setCall] at hc
      · replace hc : s.calls c = .leaveReturning n' true :=
          Function.update_of_ne hcc (.forgetting n) s.calls ▸ hc
        have hn : n' ≠ n := by
          rintro rfl
          refine hcc (hexclusive.leaving.unique c call n' ?_ ?_)
          · rw [hc]
            rfl
          · rw [hcall]
            rfl
        obtain ⟨rest, rfl, hrest⟩ := (follows_append_iff (by simpa using hn)).mp hfollows
        exact List.mem_append_left _ (h.returning c n' rest hc hrest)
    · rcases follows_append_singleton hfollows with rfl | ⟨rest, rfl, hrest⟩
      · simp at hleft
      · exact List.mem_append_left _ (h.left n' rest hrest (by simpa using hleft))
  | @forget call n ha hcall =>
    refine ⟨fun n' after m' hfollows hget => ?_, fun c n' after hc hfollows => ?_,
      fun n' after hfollows hleft => ?_⟩
    all_goals obtain ⟨rest, rfl, hrest⟩ := (follows_append_iff (by simp)).mp hfollows
    · exact List.mem_append_left _ (h.mounted n' rest m' hrest hget)
    · by_cases hcc : c = call
      · subst hcc
        have hn : n = n' := by simpa [record, setCall] using hc
        simp [hn]
      · replace hc : s.calls c = .leaveReturning n' true :=
          Function.update_of_ne hcc (.leaveReturning n true) s.calls ▸ hc
        exact List.mem_append_left _ (h.returning c n' rest hc hrest)
    · exact List.mem_append_left _ (h.left n' rest hrest (by simpa using hleft))
  | @unmark call n success ha hcall =>
    have hnew : ∀ n', MeshEvent.unmounted n' ∉ if success then [MeshEvent.left n] else [] := by
      cases success
      all_goals simp
    refine ⟨fun n' after m' hfollows hget => ?_, fun c n' after hc hfollows => ?_,
      fun n' after hfollows hleft => ?_⟩
    all_goals obtain ⟨rest, rfl, hrest⟩ := (follows_append_iff (hnew n')).mp hfollows
    · exact List.mem_append_left _ (h.mounted n' rest m' hrest hget)
    · by_cases hcc : c = call
      · subst hcc
        simp [setCall] at hc
      · replace hc : s.calls c = .leaveReturning n' true :=
          Function.update_of_ne hcc .idle s.calls ▸ hc
        exact List.mem_append_left _ (h.returning c n' rest hc hrest)
    · refine List.mem_append_left _ ?_
      rcases List.mem_append.mp hleft with hbefore | hlast
      · exact h.left n' rest hrest hbefore
      · cases success with
        | false => simp at hlast
        | true =>
          obtain rfl : n' = n := by simpa using hlast
          exact h.returning call n' rest hcall hrest
  | @start call n address p ha hidle hn hkey =>
    simpa using h.proceed call (.starting n p address) silent_nil (by simp)
      s.peers (meshPeerKey n p.text :: s.meshSyncing) s.meshLeaving
  | @finish call n p ha hcall =>
    simpa using h.proceed call .idle silent_nil (by simp)
      s.peers (s.meshSyncing.filter (· ≠ meshPeerKey n p.text)) s.meshLeaving
  | @accept call n m p ha hidle hget =>
    exact h.proceed call (.welcoming m p) (silent_authenticated m) (by simp)
      s.peers s.meshSyncing s.meshLeaving
  | @authenticate call p purpose m nonce ha hcall =>
    refine h.proceed _ _ (silent_authenticated m) ?_ s.peers s.meshSyncing s.meshLeaving
    cases purpose
    all_goals simp [welcomed]
  | move ha hmoves =>
    simpa using h.proceed _ _ silent_nil hmoves.ne_leaveReturning s.peers s.meshSyncing
      s.meshLeaving
  | write update ha hwrites =>
    simpa using h.proceed _ _ silent_nil hwrites.ne_leaveReturning _ s.meshSyncing s.meshLeaving
  | session ha hserves hevents =>
    exact h.proceed _ _ (silent_of_ofSession hevents) hserves.ne_leaveReturning s.peers
      s.meshSyncing s.meshLeaving

/-! ### Records of networks that were left -/

/-- A network has been mounted again, and a handshake with its credentials has succeeded since. -/
def Remounted (n : Text) (after : List MeshEvent) : Prop :=
  ∃ m last, m.name = n ∧ Follows after (.mounted m) last ∧ .authenticated m ∈ last

/-- A network that was left, and that has not been mounted and joined by a peer since, has no
records of peers. -/
def Forgotten (s : MeshState) : Prop :=
  ∀ n after, Follows s.history (.unmounted n) after → .left n ∈ after → ¬ Remounted n after →
    ∀ p, s.peers.get (meshPeerKey n p) = none

/-- If the peers of a network are removed, a call has no handshake and no dial for it pending. -/
def UndisturbedBy (c : Nat) (s : MeshState) : Action → Prop
  | .removeMeshPeersForNetwork call => ∀ n ∈ (s.calls call).leaves, (s.calls c).pending ≠ some n
  | _ => True

/-- A network's peers are removed only while no inbound handshake and no dial for it is pending. -/
def Undisturbed (s : MeshState) (a : Action) : Prop := ∀ c, UndisturbedBy c s a

instance (c : Nat) (s : MeshState) (a : Action) : Decidable (UndisturbedBy c s a) := by
  unfold UndisturbedBy
  split <;> infer_instance

theorem Remounted.append {n : Text} {after : List MeshEvent} (h : Remounted n after)
    (new : List MeshEvent) : Remounted n (after ++ new) := by
  obtain ⟨m, last, hn, hfollows, hmem⟩ := h
  exact ⟨m, last ++ new, hn, hfollows.append new, List.mem_append_left _ hmem⟩

theorem remounted_of_authenticated {m : NetworkMembership} {after : List MeshEvent}
    (h : .mounted m ∈ after) : Remounted m.name (after ++ [.authenticated m]) := by
  obtain ⟨first, last, rfl⟩ := List.append_of_mem h
  refine ⟨m, last ++ [.authenticated m], rfl, ?_, by simp⟩
  exact Follows.append ⟨first, rfl⟩ [.authenticated m]

/-- Of a network that was left, a call holds nothing from before, and has found no record. -/
def Clean (n : Text) (after : List MeshEvent) : MeshCall → Prop
  | .welcoming m _ | .remembering m _ => m.name ≠ n
  | .attempting n' _ _ known | .opening _ (.sync n' _ known) | .failing n' _ known =>
    n' = n → known = false
  | .greeting _ (.dial n' _) m _ => n' = n → .mounted m ∈ after
  | .greeting _ (.sync n' _ known) m _ => n' = n → .mounted m ∈ after ∧ known = false
  | .exchanging n' _ _ _ _ | .persisting _ (.dial n' _) | .persisting _ (.sync n' _ _)
  | .succeeding n' _ => n' ≠ n
  | _ => True

/-- A network whose peers were removed has no records until it is mounted and joined again. -/
def Tidy (s : MeshState) : Prop :=
  ∀ n after, Follows s.history (.unmounted n) after → .forgotten n ∈ after → ¬ Remounted n after →
    (∀ p, s.peers.get (meshPeerKey n p) = none) ∧ ∀ c, Clean n after (s.calls c)

theorem Clean.append {n : Text} {after : List MeshEvent} {c : MeshCall} (h : Clean n after c)
    (new : List MeshEvent) : Clean n (after ++ new) c := by
  cases c with
  | greeting p purpose m nonce =>
    cases purpose with
    | dial n' address => exact fun hn => List.mem_append_left _ (h hn)
    | sync n' address known => exact fun hn => ⟨List.mem_append_left _ (h hn).1, (h hn).2⟩
  | opening p purpose => cases purpose <;> exact h
  | persisting p purpose => cases purpose <;> exact h
  | _ => exact h

/-- A call that is not pending, while no peer of the network is synchronized. -/
theorem clean_of_not_pending {n : Text} {c : MeshCall} (hpending : c.pending ≠ some n)
    (hsyncs : ∀ p, c.syncs ≠ some (meshPeerKey n p)) (after : List MeshEvent) :
    Clean n after c := by
  have hother : ∀ n' (p : PeerID), c.syncs = some (meshPeerKey n' p.text) → n' ≠ n := by
    rintro n' p hc rfl
    exact hsyncs p.text hc
  cases c with
  | welcoming m p => exact fun hn => hpending (congrArg some hn)
  | remembering m p => exact fun hn => hpending (congrArg some hn)
  | attempting n' p address known => exact fun hn => absurd hn (hother n' p rfl)
  | opening p purpose =>
    cases purpose with
    | dial n' address => trivial
    | sync n' address known => exact fun hn => absurd hn (hother n' p rfl)
  | greeting p purpose m nonce =>
    cases purpose with
    | dial n' address => exact fun hn => absurd (congrArg some hn) hpending
    | sync n' address known => exact fun hn => absurd hn (hother n' p rfl)
  | exchanging n' p address known m => exact hother n' p rfl
  | persisting p purpose =>
    cases purpose with
    | dial n' address => exact fun hn => hpending (congrArg some hn)
    | sync n' address known => exact hother n' p rfl
  | succeeding n' p => exact hother n' p rfl
  | failing n' p known => exact fun hn => absurd hn (hother n' p rfl)
  | _ => trivial

theorem clean_of_failed {n : Text} {after : List MeshEvent} {c next : MeshCall}
    (h : failed c = some next) (hclean : Clean n after c) : Clean n after next := by
  cases c with
  | attempting n' p address known =>
    cases h
    exact hclean
  | opening p purpose =>
    cases purpose with
    | dial n' address =>
      cases h
      trivial
    | sync n' address known =>
      cases h
      exact hclean
  | greeting p purpose m nonce =>
    cases purpose with
    | dial n' address =>
      cases h
      trivial
    | sync n' address known =>
      cases h
      exact fun hn => (hclean hn).2
  | exchanging n' p address known m =>
    cases h
    exact fun hn => absurd hn hclean
  | persisting p purpose =>
    cases purpose
    all_goals
      cases h
      trivial
  | _ =>
    cases h
    try trivial

theorem Moves.clean {n : Text} {after : List MeshEvent} {c next : MeshCall} (h : Moves s c next)
    (hclean : Clean n after c) (hnone : ∀ p, s.peers.get (meshPeerKey n p) = none)
    (hmounted : ∀ m, s.memberships.get n = some m → .mounted m ∈ after) : Clean n after next := by
  cases h with
  | failed hfailed => exact clean_of_failed hfailed hclean
  | welcome m p => exact hclean
  | inquire n' p address =>
    rintro rfl
    simp [Thalweg.meshPeerExists, hnone]
  | attempt n' p address => exact hclean
  | @greet p purpose m nonce hget =>
    cases purpose with
    | dial n' address =>
      rintro rfl
      exact hmounted m hget
    | sync n' address known =>
      intro hn
      exact ⟨hmounted m (hn ▸ hget), hclean hn⟩
  | synchronized n' p address known m => exact hclean
  | _ => trivial

/-- A call that writes a record writes none of the network. -/
theorem Writes.clean {n n' : Text} {p : PeerID} {after : List MeshEvent} {c next : MeshCall}
    (h : Writes c next n' p) (hclean : Clean n after c) : n' ≠ n ∧ Clean n after next := by
  cases h with
  | remember m p => exact ⟨hclean, trivial⟩
  | attempt n' p address => exact ⟨fun hn => Bool.noConfusion (hclean hn), hclean⟩
  | dial n' p address => exact ⟨hclean, trivial⟩
  | sync n' p address known => exact ⟨hclean, hclean⟩
  | success n' p => exact ⟨hclean, trivial⟩
  | failure n' p => exact ⟨fun hn => Bool.noConfusion (hclean hn), trivial⟩

/-- A step that neither unmounts a network nor removes peers. -/
theorem Tidy.proceed (h : Tidy s) (new : List MeshEvent)
    (hnew : ∀ n, .unmounted n ∉ new ∧ .forgotten n ∉ new) (hhistory : s'.history = s.history ++ new)
    (hkeeps : ∀ n after, Follows s.history (.unmounted n) after → ¬ Remounted n (after ++ new) →
      (∀ p, s.peers.get (meshPeerKey n p) = none) → (∀ c, Clean n after (s.calls c)) →
      (∀ p, s'.peers.get (meshPeerKey n p) = none) ∧ ∀ c, Clean n (after ++ new) (s'.calls c)) :
    Tidy s' := by
  intro n after hfollows hforgotten hremounted
  rw [hhistory] at hfollows
  obtain ⟨rest, rfl, hrest⟩ := (follows_append_iff (hnew n).1).mp hfollows
  obtain ⟨hnone, hclean⟩ := h n rest hrest
    ((List.mem_append.mp hforgotten).resolve_right (hnew n).2) fun hr => hremounted (hr.append new)
  exact hkeeps n rest hrest hremounted hnone hclean

/-- A step of a call after which it holds nothing. -/
theorem Tidy.setCall (h : Tidy s) (call : Nat) (next : MeshCall) (new : List MeshEvent)
    (hnew : ∀ n, .unmounted n ∉ new ∧ .forgotten n ∉ new) (hhistory : s'.history = s.history ++ new)
    (hpeers : s'.peers = s.peers) (hcalls : s'.calls = (s.setCall call next).calls)
    (hnext : ∀ n after, Follows s.history (.unmounted n) after → ¬ Remounted n (after ++ new) →
      (∀ p, s.peers.get (meshPeerKey n p) = none) → Clean n after (s.calls call) →
      Clean n (after ++ new) next) : Tidy s' := by
  refine h.proceed new hnew hhistory fun n after hfollows hremounted hnone hclean => ?_
  rw [hpeers, hcalls]
  refine ⟨hnone, forall_setCall (P := Clean n (after ++ new)) (fun c => (hclean c).append new) ?_⟩
  exact hnext n after hfollows hremounted hnone (hclean call)

theorem initial_tidy (self : PeerID) (loaded : List NetworkMembership) (peers : MeshPeers) :
    Tidy (initial self loaded peers) := by
  intro n after h
  simp [initial, Follows] at h

theorem Tidy.step (h : Tidy s) (hexclusive : Exclusive s) (hnamed : Named s)
    (hrecorded : Recorded s) (hundisturbed : Undisturbed s a) (hstep : step s a = some s') :
    Tidy s' := by
  cases step_effect hstep with
  | quiet => exact h
  | mount m hfree =>
    refine h.proceed [.mounted m] (by simp) rfl fun n after _ _ hnone hclean => ?_
    exact ⟨hnone, fun c => (hclean c).append _⟩
  | @mark call n ha hidle hn hsyncing =>
    exact h.setCall call (.leaving n) [] (by simp) (List.append_nil _).symm
      rfl rfl
      fun _ _ _ _ _ _ => trivial
  | @unmount call n ha hcall =>
    intro n' after hfollows hforgotten hremounted
    rcases follows_append_singleton hfollows with rfl | ⟨rest, rfl, hrest⟩
    · simp at hforgotten
    · obtain ⟨hnone, hclean⟩ := h n' rest hrest (by simpa using hforgotten)
        fun hr => hremounted (hr.append _)
      refine ⟨hnone, forall_setCall (P := Clean n' _) (fun c => (hclean c).append _) trivial⟩
  | @forget call n ha hcall =>
    intro n' after hfollows hforgotten hremounted
    obtain ⟨rest, rfl, hrest⟩ := (follows_append_iff (by simp)).mp hfollows
    by_cases hn : n' = n
    · -- the peers of this network are removed, and no call is about to write another
      subst hn
      refine ⟨fun p => ?_, forall_setCall (P := Clean n' _) (fun c => ?_) trivial⟩
      · exact (get_forgetMeshPeers s.peers n' n' p).trans (if_pos rfl)
      · subst ha
        refine clean_of_not_pending (hundisturbed c n' (by rw [hcall]; rfl)) (fun p hc => ?_) _
        exact hexclusive.apart c n' p hc (hexclusive.leaving.mem call n' (by rw [hcall]; rfl))
    · obtain ⟨hnone, hclean⟩ := h n' rest hrest
        (by simpa [hn] using hforgotten) fun hr => hremounted (hr.append _)
      refine ⟨fun p => ?_, forall_setCall (P := Clean n' _) (fun c => (hclean c).append _) trivial⟩
      exact ((get_forgetMeshPeers s.peers n n' p).trans (if_neg hn)).trans (hnone p)
  | @unmark call n success ha hcall =>
    refine h.setCall call .idle _ ?_ rfl rfl rfl fun _ _ _ _ _ _ => trivial
    cases success
    all_goals simp
  | @start call n address p ha hidle hn hkey =>
    exact h.setCall call (.starting n p address) [] (by simp)
      (List.append_nil _).symm rfl rfl fun _ _ _ _ _ _ => trivial
  | @finish call n p ha hcall =>
    exact h.setCall call .idle [] (by simp) (List.append_nil _).symm
      rfl rfl
      fun _ _ _ _ _ _ => trivial
  | @accept call n m p ha hidle hget =>
    refine h.setCall call (.welcoming m p) [.authenticated m] (by simp)
      rfl rfl rfl fun n' after hfollows hremounted _ _ hn => ?_
    subst hn
    have hname := hnamed.memberships n m hget
    exact hremounted (remounted_of_authenticated
      (hrecorded.mounted m.name after m hfollows (hname ▸ hget)))
  | @authenticate call p purpose m nonce ha hcall =>
    refine h.setCall call (welcomed p m purpose) [.authenticated m]
      (by simp) rfl rfl rfl fun n after hfollows hremounted _ hclean => ?_
    have hfits := hnamed.calls call
    rw [hcall] at hclean hfits
    -- the network of the call would have been joined again by this handshake
    have hne : m.name ≠ n := by
      rintro rfl
      refine hremounted (remounted_of_authenticated ?_)
      cases purpose with
      | dial n' address => exact hclean hfits.symm
      | sync n' address known => exact (hclean hfits.symm).1
    cases purpose with
    | dial n' address => exact fun hn => hne (hfits.trans hn)
    | sync n' address known => exact fun hn => hne (hfits.trans hn)
  | @move call next ha hmoves =>
    refine h.setCall call next [] (by simp) (List.append_nil _).symm
      rfl rfl
      fun n after hfollows _ hnone hclean => ?_
    rw [List.append_nil]
    exact hmoves.clean hclean hnone fun m => hrecorded.mounted n after m hfollows
  | @write call next n p update ha hwrites =>
    refine h.proceed [] (by simp) (List.append_nil _).symm
      fun n' after _ _ hnone hclean => ?_
    obtain ⟨hne, hnext⟩ := hwrites.clean (hclean call)
    rw [List.append_nil]
    refine ⟨fun p' => ?_, forall_setCall (P := Clean n' after) hclean hnext⟩
    exact (get_updateMeshPeer_of_ne hne p' p.text update).trans (hnone p')
  | @session call next m events ha hserves hevents =>
    refine h.setCall call next events (fun n => ⟨hevents _, hevents _⟩) rfl rfl rfl
      fun n after _ _ _ hclean => ?_
    generalize s.calls call = c at hserves hclean
    cases hserves with
    | exchange n' p address known => exact hclean
    | _ => trivial

/-- **Leaving forgets the peers.** In every run in which a network's peers are removed only while no
inbound handshake and no dial for it is pending, a network that was left has no records of peers
until it has been mounted again and a handshake for it has succeeded after that. -/
theorem forgotten_of_undisturbed (self : PeerID) (loaded : List NetworkMembership)
    (peers : MeshPeers) (actions : List Action) (s : MeshState)
    (hmeets : Meets step Undisturbed (initial self loaded peers) actions)
    (hrun : run step (initial self loaded peers) actions = some s) : Forgotten s := by
  have hinvariant : Exclusive s ∧ Named s ∧ Recorded s ∧ Tidy s := by
    refine run_invariant (P := fun s => Exclusive s ∧ Named s ∧ Recorded s ∧ Tidy s) ?_
      ⟨initial_exclusive self loaded peers, initial_named self loaded peers,
        initial_recorded self loaded peers, initial_tidy self loaded peers⟩ hmeets hrun
    rintro t a t' ⟨hexclusive, hnamed, hrecorded, htidy⟩ hundisturbed hstep
    exact ⟨hexclusive.step hstep, hnamed.step hstep, hrecorded.step hexclusive hstep,
      htidy.step hexclusive hnamed hrecorded hundisturbed hstep⟩
  obtain ⟨-, -, hrecorded, htidy⟩ := hinvariant
  intro n after hfollows hleft hremounted
  exact (htidy n after hfollows (hrecorded.left n after hfollows hleft) hremounted).1

/-- In a run of calls below a bound, what is asked of every call, and holds of one that is idle, has
to be shown for those calls only. -/
theorem meets_of_lt {p : Nat → MeshState → Action → Prop} {s : MeshState} {actions : List Action}
    (bound : Nat) (hp : ∀ c s a, s.calls c = .idle → p c s a)
    (hidle : ∀ c, bound ≤ c → s.calls c = .idle) (hactions : ∀ a ∈ actions, ∀ c ∈ a.call, c < bound)
    (hmeets : Meets step (fun s a => ∀ c < bound, p c s a) s actions) :
    Meets step (fun s a => ∀ c, p c s a) s actions := by
  refine Meets.of_invariant (P := fun s => ∀ c, bound ≤ c → s.calls c = .idle) ?_ ?_ hidle hactions
    hmeets
  · intro s a s' hs ha hstep c hc
    rw [calls_of_step hstep fun hcall => absurd (ha c hcall) (not_lt.mpr hc)]
    exact hs c hc
  · intro s a hs hbelow c
    rcases lt_or_ge c bound with hc | hc
    · exact hbelow c hc
    · exact hp c s a (hs c hc)

theorem undisturbedBy_of_idle (c : Nat) (s : MeshState) (a : Action) (h : s.calls c = .idle) :
    UndisturbedBy c s a := by
  cases a with
  | removeMeshPeersForNetwork call =>
    intro n _
    rw [h]
    exact (Option.some_ne_none n).symm
  | _ => trivial

/-- A hello is accepted. -/
theorem step_handleMeshStream {call : Nat} {initiator : PeerID} {nonce : Text}
    {line welcome : List UInt8} {m : NetworkMembership} {hello : MeshHello}
    (hidle : s.calls call = .idle)
    (h : handleMeshHello s.memberships initiator s.self nonce line =
      (.ok welcome, some (m, hello))) :
    step s (.handleMeshStream call initiator nonce line) =
      some ((s.setCall call (.welcoming m initiator)).record (.authenticated m)) := by
  simp only [step, hidle, h]

def leaveRun : List Action :=
  [.startMeshNetworkLeave 1 ['h'], .leave 1, .removeMeshPeersForNetwork 1,
    .finishMeshNetworkLeave 1]

/-- A daemon with one network. -/
def mountedState : MeshState := initial oneStream.responder [oneMembership] OrderedStore.empty

def acceptedHello : Action :=
  .handleMeshStream 0 oneStream.initiator (oneNonce 2) oneHelloLine

/-- The hello has been accepted. -/
def acceptedState : MeshState :=
  (mountedState.setCall 0 (.welcoming oneMembership oneStream.initiator)).record
    (.authenticated oneMembership)

theorem step_acceptedHello : step mountedState acceptedHello = some acceptedState := by
  have hget : mountedState.memberships.get oneMembership.name = some oneMembership := by decide
  exact step_handleMeshStream rfl (handleMeshHello_oneHelloLine hget)

theorem run_acceptedHello (actions : List Action) :
    run step mountedState (acceptedHello :: actions) = run step acceptedState actions := by
  rw [run, step_acceptedHello]

def rememberedRun : List Action :=
  acceptedHello :: .writeWelcome 0 :: .rememberInboundMeshPeer 0 (some ['a']) :: leaveRun

/-- A peer is remembered, and the network is left. -/
theorem forgotten_rememberedRun :
    ∃ s, run step mountedState rememberedRun = some s ∧ Forgotten s := by
  have hsome : (run step acceptedState
      (.writeWelcome 0 :: .rememberInboundMeshPeer 0 (some ['a']) :: leaveRun)).isSome = true := by
    decide +kernel
  obtain ⟨s, hs⟩ := Option.isSome_iff_exists.mp hsome
  have hrun : run step mountedState rememberedRun = some s := by
    rw [rememberedRun, run_acceptedHello, hs]
  refine ⟨s, hrun, forgotten_of_undisturbed _ _ _ _ s ?_ hrun⟩
  refine meets_of_lt 2 undisturbedBy_of_idle (fun _ _ => rfl) (by decide) ?_
  refine meets_cons_iff.mpr ⟨fun _ _ => trivial, fun s' hs' => ?_⟩
  obtain rfl := Option.some.inj (step_acceptedHello.symm.trans hs')
  decide +kernel

/-- The network is left while the welcome to a peer is being written. -/
def overlappedRun : List Action :=
  acceptedHello :: leaveRun ++ [.writeWelcome 0, .rememberInboundMeshPeer 0 (some ['a'])]

/-- The network has been left, and there is a record of the peer. -/
def LeftBehind (s : MeshState) : Bool :=
  match s.history with
  | [.authenticated _, .unmounted n, .forgotten _, .left n'] =>
    n == n' && (s.peers.get (meshPeerKey n oneStream.initiator.text)).isSome
  | _ => false

/-- The record is written after the network was left. -/
theorem not_forgotten_overlappedRun :
    ∃ s, run step mountedState overlappedRun = some s ∧ ¬ Forgotten s := by
  have hany : (run step mountedState overlappedRun).any LeftBehind = true := by
    rw [overlappedRun, List.cons_append, run_acceptedHello]
    decide +kernel
  obtain ⟨s, hs, hbehind⟩ := (Option.any_eq_true _ _).mp hany
  refine ⟨s, hs, fun hforgotten => ?_⟩
  unfold LeftBehind at hbehind
  split at hbehind
  · next m n n' n'' hhistory =>
    simp only [Bool.and_eq_true, beq_iff_eq] at hbehind
    obtain ⟨rfl, hrecord⟩ := hbehind
    have hnone := hforgotten n _ ⟨[_], hhistory⟩ (by simp) ?_ oneStream.initiator.text
    · simp [hnone] at hrecord
    · rintro ⟨m', last, -, ⟨before, hmounted⟩, -⟩
      have hmem : MeshEvent.mounted m' ∈ [MeshEvent.forgotten n', MeshEvent.left n] := by
        simp [hmounted]
      simp at hmem
  · cases hbehind

end MeshState

end Thalweg
