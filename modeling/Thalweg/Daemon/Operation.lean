import Mathlib.Logic.Relation
import Thalweg.Daemon.DurableSiphon

/-!
# Operations and runs

The requests and events that a daemon handles, one after the other, and its runs. An operation that
does not end is no step of a run; a daemon that is killed during one keeps what its transactions
wrote, and the operations include these single transactions. A synchronization session is, for each
side, a run of receipts and of recordings of conflicts.

* `Operation`, `Operation.perform`.
* `Daemon.initial`: a daemon on a fresh database.
* `Daemon.Run`: the runs whose steps meet a condition.
-/

namespace Thalweg

open Relation

/-- What a daemon handles. Random parts of IDs and credentials, the records of peers and the order
in which a restart takes up the named event IDs are arguments. -/
inductive Operation where
  | ingest (networkName stream occurredAt eventID payload random : Text)
  | ingestReplicated (incoming : ThalwegEvent)
  | resolveEventConflict (networkName eventID strategy random : Text)
  | recordEventConflicts (networkName : Text) (observations : List ConflictObservation)
  | createDurableSiphon (network name : Text) (streams : List Text) (start : Text)
  | pollDurableSiphon (network name : Text) (limit : Int) (random : Text)
  | acknowledgeDurableSiphon (network name deliveryID : Text)
  | deleteDurableSiphon (network name : Text)
  | networkCreate (name : Text) (id secret : List UInt8)
  | networkJoin (invitation : Text)
  | networkLeave (name : Text)
  | persistMeshPeer (networkName peerID record : Text)
  | persistPeer (peerID address : Text)
  | restart (order : List Text → List Text) (now : Nat → Instant)
  | killedReceipt (incoming : ThalwegEvent)
  | killedResolution (networkName eventID random : Text)

namespace Daemon

/-- Mount a new network. -/
def networkCreate (d : Daemon) (name : Text) (id secret : List UInt8) : Result Unit × Daemon :=
  match d.memberships.create name id secret with
  | .error e => (.error e, d)
  | .ok (_, _, memberships) => (.ok (), { d with memberships })

/-- Mount the network of an invitation. -/
def networkJoin (d : Daemon) (invitation : Text) : Result Unit × Daemon :=
  match d.memberships.join invitation with
  | .error e => (.error e, d)
  | .ok (_, _, memberships) => (.ok (), { d with memberships })

/-- Unmount a network and forget its mesh peers; its events stay. -/
def networkLeave (d : Daemon) (name : Text) : Result Unit × Daemon :=
  match d.memberships.leave name with
  | .error e => (.error e, d)
  | .ok (_, memberships) =>
    (.ok (), { d with memberships, store := removeMeshPeersForNetwork d.store name })

/-- The daemon after the first transaction of a receipt. The further ones are the first transactions
of the receipts of recovered copies. -/
def receiptTransaction (d : Daemon) (incoming : ThalwegEvent) : Daemon :=
  match normalizeReplicatedEvent incoming with
  | .error _ => d
  | .ok event =>
    match parseConflictResolution event with
    | .error _ => d
    | .ok _ => (d.storeReplicated event).2

/-- The daemon after the first transaction of the resolution of a conflict. -/
def resolutionTransaction (d : Daemon) (networkName eventID random : Text) : Daemon :=
  if eventID = [] then d
  else
    match findEventByID d.store networkName eventID with
    | .ok (some _) => (d.ingestInternal networkName conflictResolutionStream [] []
        (marshalConflictResolution
          ⟨conflictResolutionVersion, eventID, conflictResolutionStrategy⟩) random).2
    | _ => d

end Daemon

/-- The result of a call without its value. -/
def voidResult {α : Type} (r : Result α × Daemon) : Result Unit × Daemon :=
  (r.1.map fun _ => (), r.2)

/-- Perform an operation; without a result when the fuel runs out. -/
def Operation.perform (fuel : Nat) (d : Daemon) : Operation → Option (Result Unit × Daemon)
  | .ingest networkName stream occurredAt eventID payload random =>
    some (voidResult (d.ingest networkName stream occurredAt eventID payload random))
  | .ingestReplicated incoming => (Daemon.ingestReplicated fuel d incoming).map voidResult
  | .resolveEventConflict networkName eventID strategy random =>
    (d.resolveEventConflict fuel networkName eventID strategy random).map voidResult
  | .recordEventConflicts networkName observations =>
    some (.ok (), d.recordEventConflicts networkName observations)
  | .createDurableSiphon network name streams start =>
    some (voidResult (d.createDurableSiphon network name streams start))
  | .pollDurableSiphon network name limit random =>
    some (voidResult (d.pollDurableSiphon network name limit random))
  | .acknowledgeDurableSiphon network name deliveryID =>
    some (voidResult (d.acknowledgeDurableSiphon network name deliveryID))
  | .deleteDurableSiphon network name => some (d.deleteDurableSiphon network name)
  | .networkCreate name id secret => some (d.networkCreate name id secret)
  | .networkJoin invitation => some (d.networkJoin invitation)
  | .networkLeave name => some (d.networkLeave name)
  | .persistMeshPeer networkName peerID record =>
    some (.ok (), { d with store := d.store.set (meshPeerKey networkName peerID) record })
  | .persistPeer peerID address =>
    some (.ok (), { d with store := d.store.set (peerKey peerID) address })
  | .restart order now => d.newWithConfig fuel order now
  | .killedReceipt incoming => some (.error (.external "os"), d.receiptTransaction incoming)
  | .killedResolution networkName eventID random =>
    some (.error (.external "os"), d.resolutionTransaction networkName eventID random)

namespace Daemon

/-- The operation ends with the result and leaves the second daemon. -/
def Performs (d : Daemon) (op : Operation) (r : Result Unit) (d' : Daemon) : Prop :=
  ∃ fuel, op.perform fuel d = some (r, d')

/-- An operation that meets a condition on the state before it and on its result. -/
def Step (meets : Daemon → Operation → Result Unit → Prop) (d d' : Daemon) : Prop :=
  ∃ op r, d.Performs op r d' ∧ meets d op r

/-- A run whose steps all meet the condition. -/
def Run (meets : Daemon → Operation → Result Unit → Prop) (d d' : Daemon) : Prop :=
  ReflTransGen (Step meets) d d'

/-- The condition that every step meets. -/
def anyStep : Daemon → Operation → Result Unit → Prop := fun _ _ _ => True

/-- A daemon on a fresh database, without networks. -/
def initial (deviceID : Text) (deviceID_ne_nil : deviceID ≠ []) (now : Nat → Instant) : Daemon where
  store := (ensureStorageSchema OrderedStore.empty).2
  memberships := OrderedStore.empty
  deviceID
  deviceID_ne_nil
  hlc := HlcTimestamp.zero
  now
  broadcasts := []

theorem deviceName_ne_nil : ['d'] ≠ [] := List.cons_ne_nil _ _

/-- Midnight at the start of 2026. -/
def newYear : Instant := ⟨⟨2026, 1, 1, by decide⟩, 0, 0, 0, 0, by decide⟩

/-- Noon of a day of 2026. -/
def noon : Instant := ⟨⟨2026, 1, 1, by decide⟩, 12, 0, 0, 0, by decide⟩

/-- The daemon is one that a run from a fresh database reaches. -/
def ReachableBy (meets : Daemon → Operation → Result Unit → Prop) (d : Daemon) : Prop :=
  ∃ deviceID hdeviceID now, Run meets (initial deviceID hdeviceID now) d

/-- Some run from a fresh database reaches the daemon. -/
def Reachable (d : Daemon) : Prop := d.ReachableBy anyStep

/-- The daemon after operations, one after the other; one that does not end within the fuel is left
out. -/
def after (fuel : Nat) : Daemon → List Operation → Daemon
  | d, [] => d
  | d, op :: ops =>
    match op.perform fuel d with
    | none => after fuel d ops
    | some (_, d') => after fuel d' ops

/-- The operations all end within the fuel, and they succeed. -/
def allSucceed (fuel : Nat) : Daemon → List Operation → Bool
  | _, [] => true
  | d, op :: ops =>
    match op.perform fuel d with
    | some (.ok _, d') => allSucceed fuel d' ops
    | _ => false

/-- A step that succeeds with an operation of a kind. -/
def succeeds (kind : Operation → Prop) : Daemon → Operation → Result Unit → Prop :=
  fun _ op r => kind op ∧ r = .ok ()

variable {meets : Daemon → Operation → Result Unit → Prop}

theorem run_after_of_allSucceed {kind : Operation → Prop} {fuel : Nat} {d : Daemon}
    {ops : List Operation} (hkind : ∀ op ∈ ops, kind op) (h : d.allSucceed fuel ops = true) :
    Run (succeeds kind) d (d.after fuel ops) := by
  induction ops generalizing d with
  | nil => exact ReflTransGen.refl
  | cons op ops ih =>
    obtain ⟨hop, hops⟩ := List.forall_mem_cons.mp hkind
    rw [allSucceed] at h
    split at h
    · next d' hp =>
      rw [after, hp]
      exact ReflTransGen.head ⟨op, _, ⟨fuel, hp⟩, hop, rfl⟩ (ih hops h)
    · cases h

theorem run_after (fuel : Nat) (d : Daemon) (ops : List Operation) :
    Run anyStep d (d.after fuel ops) := by
  induction ops generalizing d with
  | nil => exact ReflTransGen.refl
  | cons op ops ih =>
    unfold after
    split
    · exact ih d
    · next r d' hp => exact ReflTransGen.head ⟨op, r, ⟨fuel, hp⟩, trivial⟩ (ih d')

/-- A property that the initial daemons have and that steps keep holds after every run. -/
theorem ReachableBy.induction {p : Daemon → Prop}
    (hinitial : ∀ deviceID hdeviceID now, p (initial deviceID hdeviceID now))
    (hstep : ∀ d d', p d → Step meets d d' → p d') {d : Daemon} (h : d.ReachableBy meets) : p d := by
  obtain ⟨deviceID, hdeviceID, now, hrun⟩ := h
  induction hrun with
  | refl => exact hinitial deviceID hdeviceID now
  | tail _ hlast ih => exact hstep _ _ ih hlast

theorem Step.mono {meets' : Daemon → Operation → Result Unit → Prop}
    (h : ∀ d op r, meets d op r → meets' d op r) {d d' : Daemon} (hs : Step meets d d') :
    Step meets' d d' :=
  let ⟨op, r, hp, hm⟩ := hs
  ⟨op, r, hp, h d op r hm⟩

theorem ReachableBy.mono {meets' : Daemon → Operation → Result Unit → Prop}
    (h : ∀ d op r, meets d op r → meets' d op r) {d : Daemon} (hd : d.ReachableBy meets) :
    d.ReachableBy meets' :=
  let ⟨deviceID, hdeviceID, now, hrun⟩ := hd
  ⟨deviceID, hdeviceID, now, ReflTransGen.mono (fun _ _ => Step.mono h) _ _ hrun⟩

theorem ReachableBy.reachable {d : Daemon} (h : d.ReachableBy meets) : d.Reachable :=
  h.mono fun _ _ _ _ => trivial

theorem ReachableBy.run {d d' : Daemon} (h : d.ReachableBy meets) (hrun : Run meets d d') :
    d'.ReachableBy meets :=
  let ⟨deviceID, hdeviceID, now, hinitial⟩ := h
  ⟨deviceID, hdeviceID, now, hinitial.trans hrun⟩

end Daemon

end Thalweg
