import Thalweg.Data.Json.Indent
import Thalweg.Data.Json.Items
import Thalweg.Data.Machine
import Thalweg.Daemon.Invitations

/-!
# The membership file

The memberships of a daemon are kept in memory and in a file. A call that mounts or unmounts a
network changes the memory, writes a temporary file and puts it in the place of the other one, which
happens at once or not at all; when any step of this fails, the call undoes what it did to the
memory. A lock is held from the change on. The calls take their steps in any order that the lock
allows, and whether a step fails is a part of the action.

## Main definitions

* `loadMembershipStore`, `marshalMemberships`: the file is read and written.
* `MembershipStore.step`: one step of a call.
* `MembershipStore.Agrees`: memory and file agree whenever the lock is free, calls that fail change
  neither, and no name gets other credentials.

## Main results

* `loadMembershipStore_marshalMemberships`: what is written is read back.
* `MembershipStore.agrees_of_run`.
-/

namespace Thalweg

open Machine

/-! ### Format -/

/-- The version of the file. -/
def membershipFileVersion : Int := 1

/-- What the file holds. -/
structure MembershipFile where
  version : Int
  memberships : List NetworkMembership
  deriving DecidableEq

/-- A membership as the file has it. -/
def NetworkMembership.toJson (membership : NetworkMembership) : Json :=
  .obj [("name".toList, .str membership.name), ("id".toList, .str membership.id),
    ("secret".toList, .str membership.secret)]

/-- The members of the object that is written. -/
def MembershipFile.members (file : MembershipFile) : List (Text × Json) :=
  [("version".toList, .num (Text.decimalInt file.version)),
    ("memberships".toList, .arr (file.memberships.map NetworkMembership.toJson))]

/-- The mounted networks as they are written. -/
def Memberships.persisted (memberships : Memberships) : MembershipFile :=
  ⟨membershipFileVersion,
    (memberships.entries.map Prod.snd).insertionSort fun a b => a.name ≤ b.name⟩

/-- What `persistLocked` writes. -/
def marshalMemberships (memberships : Memberships) : List UInt8 :=
  Text.toBytes (Json.renderIndent 0 (.obj memberships.persisted.members) ++ ['\n'])

/-- The fields of a membership. -/
def networkMembershipFields : List (Text × Json.Setter NetworkMembership) :=
  [("name".toList, fun m _ v => (Json.decodeText m.name v).map fun x => { m with name := x }),
    ("id".toList, fun m _ v => (Json.decodeText m.id v).map fun x => { m with id := x }),
    ("secret".toList, fun m _ v =>
      (Json.decodeText m.secret v).map fun x => { m with secret := x })]

/-- The version and the memberships of a file. -/
def membershipFileFields : List (Text × Json.Setter (Int × Json.Slice NetworkMembership)) :=
  [("version".toList, fun f _ v => (Json.decodeInt f.1 v).map fun x => (x, f.2)),
    ("memberships".toList, fun f _ v =>
      (Json.decodeItems (Json.decodeObject networkMembershipFields) ⟨[], [], []⟩ f.2 v).map
        fun x => (f.1, x))]

/-- What a file decodes to. -/
def decodeMembershipFile (data : List UInt8) : Option MembershipFile :=
  (Json.decodeRecord false membershipFileFields (0, .nil) (Text.ofBytes data)).map fun f =>
    ⟨f.1, f.2.items⟩

/-- Mount the networks of a file. -/
def mountPersisted : Memberships → List NetworkMembership → Result Memberships
  | memberships, [] => .ok memberships
  | memberships, membership :: rest => do
    wrapf "invalid membership %q: %w" [membership.name] (validateMembership membership)
    if (memberships.get membership.name).isSome then
      errorf "duplicate network membership name %q" [membership.name]
    else mountPersisted (OrderedStore.set memberships membership.name membership) rest

/-- A file with its permissions. -/
structure DiskFile where
  regular : Bool
  perm : Nat
  data : List UInt8
  deriving DecidableEq

/-- `loadMembershipStore` where there is a file. -/
def loadMembershipStore (path : Text) (file : DiskFile) : Result Memberships :=
  if file.regular = false then errorf "membership path must be a regular file: %s" [path]
  else if file.perm &&& 0o077 ≠ 0 then
    errorf "membership file permissions must not allow group or other access: %s" [path]
  else
    match decodeMembershipFile file.data with
    | none => .error (.wrap "decode membership file: %w" [] (.external "encoding/json"))
    | some persisted =>
      if persisted.version ≠ membershipFileVersion then
        errorf "unsupported membership file version %d (daemon supports %d)"
          [Text.decimalInt persisted.version, Text.decimalInt membershipFileVersion]
      else mountPersisted OrderedStore.empty persisted.memberships

/-! ### Round trip -/

/-- Every network is mounted under its name and is valid. -/
def Memberships.Valid (memberships : Memberships) : Prop :=
  ∀ e ∈ memberships.entries, e.1 = e.2.name ∧ validateMembership e.2 = .ok ()

theorem decodeObject_toJson (membership : NetworkMembership) :
    Json.decodeObject networkMembershipFields ⟨[], [], []⟩ membership.toJson =
      some membership := by
  simp [NetworkMembership.toJson, Json.decodeObject, Json.rawMembers, Json.setMember,
    Json.lookupField, networkMembershipFields, Json.decodeText]

theorem decodeItems_map_toJson (memberships : List NetworkMembership) :
    Json.decodeItems (Json.decodeObject networkMembershipFields) ⟨[], [], []⟩ .nil
      (.arr (memberships.map NetworkMembership.toJson)) = some ⟨memberships, []⟩ := by
  have hrefill := Json.refill_nil fun membership (_ : membership ∈ memberships) =>
    decodeObject_toJson membership
  rwa [List.map_id'] at hrefill

theorem wellFormed_toJsons (memberships : List NetworkMembership) :
    Json.ItemsWellFormed Json.IsNumber (memberships.map NetworkMembership.toJson) := by
  induction memberships with
  | nil => trivial
  | cons membership memberships ih =>
    exact ⟨⟨trivial, trivial, trivial, trivial⟩, ih⟩

theorem itemsDepth_toJsons (memberships : List NetworkMembership) :
    Json.itemsDepth (memberships.map NetworkMembership.toJson) ≤ 1 := by
  induction memberships with
  | nil => exact Nat.zero_le 1
  | cons membership memberships ih =>
    simp only [List.map_cons, Json.itemsDepth, NetworkMembership.toJson, Json.depth,
      Json.membersDepth]
    omega

/-- A file reads back as it was written. -/
theorem decodeMembershipFile_members (file : MembershipFile) (hlow : -2 ^ 63 ≤ file.version)
    (hhigh : file.version < 2 ^ 63) :
    decodeMembershipFile (Text.toBytes (Json.renderIndent 0 (.obj file.members) ++ ['\n'])) =
      some file := by
  have hwell : Json.MembersWellFormed Json.IsNumber file.members :=
    ⟨Json.isNumber_decimalInt file.version, wellFormed_toJsons file.memberships, trivial⟩
  have hdepth : Json.membersDepth file.members + 1 ≤ Json.maxDepth := by
    have hitems := itemsDepth_toJsons file.memberships
    simp only [MembershipFile.members, Json.membersDepth, Json.depth, Json.maxDepth]
    omega
  have hread := Json.parseRecord_renderIndent (by simp [MembershipFile.members]) hwell hdepth 0
    (Json.isSpace_breakLine 0)
  rw [decodeMembershipFile, Text.ofBytes_toBytes, Json.decodeRecord,
    show ['\n'] = Json.breakLine 0 from rfl, hread]
  simp [MembershipFile.members, Json.indentedMembers, Json.setMember, Json.lookupField,
    membershipFileFields, Json.decodeInt_decimalInt 0 hlow hhigh,
    decodeItems_map_toJson]

theorem mountPersisted_cons {memberships : Memberships} {membership : NetworkMembership}
    (hvalid : validateMembership membership = .ok ())
    (hfree : memberships.get membership.name = none) (rest : List NetworkMembership) :
    mountPersisted memberships (membership :: rest) =
      mountPersisted (OrderedStore.set memberships membership.name membership) rest := by
  simp [mountPersisted, hvalid, hfree, wrapf, bind, Except.bind]

/-- Valid memberships under different names are mounted. -/
theorem exists_mountPersisted {loaded : List NetworkMembership} {memberships : Memberships}
    (hvalid : ∀ m ∈ loaded, validateMembership m = .ok ()) (hnames : (loaded.map (·.name)).Nodup)
    (hfree : ∀ m ∈ loaded, memberships.get m.name = none) :
    ∃ mounted, mountPersisted memberships loaded = .ok mounted ∧
      (∀ m ∈ loaded, mounted.get m.name = some m) ∧
      ∀ k, k ∉ loaded.map (·.name) → mounted.get k = memberships.get k := by
  induction loaded generalizing memberships with
  | nil => exact ⟨memberships, rfl, nofun, fun _ _ => rfl⟩
  | cons m loaded ih =>
    rw [List.map_cons, List.nodup_cons] at hnames
    rw [mountPersisted_cons (hvalid m List.mem_cons_self) (hfree m List.mem_cons_self)]
    obtain ⟨mounted, hmounted, hget, hother⟩ := @ih
      (OrderedStore.set memberships m.name m)
      (fun m' hm' => hvalid m' (List.mem_cons_of_mem m hm')) hnames.2 fun m' hm' => by
        have hne : m'.name ≠ m.name := fun heq => hnames.1 (List.mem_map.mpr ⟨m', hm', heq⟩)
        rw [OrderedStore.get_set_of_ne _ hne]
        exact hfree m' (List.mem_cons_of_mem m hm')
    refine ⟨mounted, hmounted, fun m' hm' => ?_, fun k hk => ?_⟩
    · rcases List.mem_cons.mp hm' with rfl | hm'
      · rw [hother _ hnames.1, OrderedStore.get_set_self]
      · exact hget m' hm'
    · rw [List.map_cons, List.mem_cons, not_or] at hk
      rw [hother k hk.2, OrderedStore.get_set_of_ne _ hk.1]

theorem mem_persisted {memberships : Memberships} (hvalid : memberships.Valid)
    {membership : NetworkMembership} : membership ∈ memberships.persisted.memberships ↔
      memberships.get membership.name = some membership := by
  rw [Memberships.persisted, List.mem_insertionSort, List.mem_map, OrderedStore.get_eq_some_iff]
  constructor
  · rintro ⟨e, he, rfl⟩
    rw [← (hvalid e he).1]
    exact he
  · exact fun h => ⟨_, h, rfl⟩

theorem nodup_persisted {memberships : Memberships} (hvalid : memberships.Valid) :
    (memberships.persisted.memberships.map (·.name)).Nodup := by
  have hperm := (List.perm_insertionSort (fun a b : NetworkMembership => a.name ≤ b.name)
    (memberships.entries.map Prod.snd)).map fun m : NetworkMembership => m.name
  refine hperm.nodup_iff.mpr ?_
  have hkeys : (memberships.entries.map Prod.snd).map (fun m : NetworkMembership => m.name) =
      memberships.entries.map Prod.fst := by
    rw [List.map_map]
    exact List.map_congr_left fun e he => (hvalid e he).1.symm
  rw [hkeys]
  exact List.Pairwise.map _ (fun _ _ hlt => hlt.ne) memberships.sorted

/-- **Round trip.** The memberships that are written to a file of the daemon are read back. -/
theorem loadMembershipStore_marshalMemberships {memberships : Memberships}
    (hvalid : memberships.Valid) (path : Text) :
    loadMembershipStore path ⟨true, 0o600, marshalMemberships memberships⟩ = .ok memberships := by
  have hread := decodeMembershipFile_members memberships.persisted
    (show -2 ^ 63 ≤ (1 : Int) by decide) (show (1 : Int) < 2 ^ 63 by decide)
  have hmem : ∀ m ∈ memberships.persisted.memberships, validateMembership m = .ok () :=
    fun m hm => (hvalid _ (OrderedStore.get_eq_some_iff.mp ((mem_persisted hvalid).mp hm))).2
  obtain ⟨mounted, hmounted, hget, hother⟩ := @exists_mountPersisted _ OrderedStore.empty
    hmem (nodup_persisted hvalid) fun _ _ => rfl
  have hsame : mounted = memberships := by
    refine OrderedStore.ext_get fun k => ?_
    cases hk : memberships.get k with
    | some m =>
      obtain rfl : k = m.name := (hvalid _ (OrderedStore.get_eq_some_iff.mp hk)).1
      exact hget m ((mem_persisted hvalid).mpr hk)
    | none =>
      refine (hother k fun hmem => ?_).trans rfl
      obtain ⟨m, hm, rfl⟩ := List.mem_map.mp hmem
      rw [(mem_persisted hvalid).mp hm] at hk
      cases hk
  have hversion : memberships.persisted.version = membershipFileVersion := rfl
  rw [loadMembershipStore, marshalMemberships, hread]
  simp [hversion, hmounted, hsame]

theorem Memberships.Valid.set {memberships : Memberships} (h : memberships.Valid)
    {membership : NetworkMembership} (hvalid : validateMembership membership = .ok ()) :
    Memberships.Valid (OrderedStore.set memberships membership.name membership) := by
  intro e he
  rcases OrderedStore.mem_insert he with rfl | he
  · exact ⟨rfl, hvalid⟩
  · exact h e he

theorem Memberships.Valid.delete {memberships : Memberships} (h : memberships.Valid)
    (name : Text) : Memberships.Valid (OrderedStore.delete memberships name) :=
  fun e he => h e (List.mem_filter.mp he).1

/-- What is mounted from a file is valid, and the file does not name a network twice. -/
theorem valid_of_mountPersisted {loaded : List NetworkMembership}
    {memberships mounted : Memberships} (h : mountPersisted memberships loaded = .ok mounted)
    (hvalid : memberships.Valid) :
    mounted.Valid ∧ (loaded.map (·.name)).Nodup ∧
      ∀ m ∈ loaded, memberships.get m.name = none := by
  induction loaded generalizing memberships with
  | nil =>
    cases h
    exact ⟨hvalid, List.nodup_nil, nofun⟩
  | cons m loaded ih =>
    cases hm : validateMembership m with
    | error e => simp [mountPersisted, hm, wrapf, bind, Except.bind] at h
    | ok u =>
      cases hfree : memberships.get m.name with
      | some m' => simp [mountPersisted, hm, hfree, wrapf, bind, Except.bind, errorf] at h
      | none =>
        rw [mountPersisted_cons hm hfree] at h
        obtain ⟨hmounted, hnames, hrest⟩ := ih h (hvalid.set hm)
        have hother : ∀ m' ∈ loaded, m'.name ≠ m.name := by
          intro m' hm' heq
          have hget := hrest m' hm'
          rw [heq, OrderedStore.get_set_self] at hget
          cases hget
        refine ⟨hmounted, List.nodup_cons.mpr ⟨fun hmem => ?_, hnames⟩, fun m' hm' => ?_⟩
        · obtain ⟨m', hm', heq⟩ := List.mem_map.mp hmem
          exact hother m' hm' heq
        · rcases List.mem_cons.mp hm' with rfl | hm'
          · exact hfree
          · rw [← OrderedStore.get_set_of_ne memberships (hother m' hm') m]
            exact hrest m' hm'

/-- The networks that a file names. -/
def DiskFile.names (file : DiskFile) : List Text :=
  match decodeMembershipFile file.data with
  | none => []
  | some persisted => persisted.memberships.map (·.name)

theorem valid_of_loadMembershipStore {path : Text} {file : DiskFile} {memberships : Memberships}
    (h : loadMembershipStore path file = .ok memberships) :
    memberships.Valid ∧ file.names.Nodup := by
  unfold loadMembershipStore at h
  split_ifs at h
  · cases h
  · cases h
  · unfold DiskFile.names
    split at h
    · cases h
    · next persisted hread =>
      split_ifs at h
      · cases h
      · obtain ⟨hvalid, hnames, -⟩ := valid_of_mountPersisted h nofun
        exact ⟨hvalid, hnames⟩

/-! ### Calls -/

/-- The random bytes of a credential. -/
abbrev Credential (size : Nat) := { bytes : List UInt8 // bytes.length = size }

inductive MembershipRequest where
  | create (name : Text) (id : Credential networkIDBytes) (secret : Credential networkSecretBytes)
  | join (invitation : Text)
  | invite (name : Text)
  | leave (name : Text)

/-- How a call undoes what it did to the memory. -/
inductive MembershipUndo where
  | delete (name : Text)
  | restore (membership : NetworkMembership)
  deriving DecidableEq

/-- The memberships after an undo. -/
def MembershipUndo.apply (memberships : Memberships) : MembershipUndo → Memberships
  | .delete name => OrderedStore.delete memberships name
  | .restore membership => OrderedStore.set memberships membership.name membership

namespace MembershipRequest

/-- The checks of a call before it takes the lock. -/
def validate : MembershipRequest → Result Unit
  | .create name _ _ | .invite name | .leave name => validateNetworkName name
  | .join invitation => (decodeNetworkInvitation invitation).map fun _ => ()

/-- What a call with the lock does to the memory, and how it undoes that if the file is to be
written and cannot be. -/
def perform (memberships : Memberships) :
    MembershipRequest → Result (Memberships × Option MembershipUndo)
  | .create name id secret => do
    let (_, _, after) ← memberships.create name id secret
    .ok (after, some (.delete name))
  | .join invitation => do
    let (info, joined, after) ← memberships.join invitation
    .ok (after, if joined then some (.delete info.name) else none)
  | .invite name => do
    let _ ← memberships.invite name
    .ok (memberships, none)
  | .leave name => do
    let (_, after) ← memberships.leave name
    .ok (after, (memberships.get name).map .restore)

end MembershipRequest

/-- The steps of `persistLocked`. -/
inductive PersistStep where
  | marshal
  | createTemp
  | chmod
  | write
  | sync
  | close
  | rename
  deriving DecidableEq

/-- The memory and the file. -/
structure MembershipSnapshot where
  memberships : Memberships
  file : DiskFile

/-- Where a call is; a call with the lock keeps what it found. -/
inductive MembershipCall where
  | idle
  | locking (request : MembershipRequest)
  | persisting (undo : MembershipUndo) (before : MembershipSnapshot) (step : PersistStep)
    (encoded : List UInt8)
  /-- The file is not written. -/
  | undoing (undo : MembershipUndo) (before : MembershipSnapshot)

/-- What a call that has returned found and left; `locked` tells that it had the lock. -/
structure MembershipReturn where
  locked : Bool
  failed : Bool
  before : MembershipSnapshot
  after : MembershipSnapshot

/-- The memberships of a daemon in memory, their file, and the temporary files of calls. -/
structure MembershipStore where
  memberships : Memberships
  file : DiskFile
  /-- The call that holds the lock. -/
  mu : Option Nat
  temps : Nat → Option DiskFile
  calls : Nat → MembershipCall
  history : List MembershipReturn

namespace MembershipStore

/-- The store that is opened on a file. A missing one is written for no memberships. -/
def opened (path : Text) (found : Option DiskFile) : Result MembershipStore := do
  let file := found.getD ⟨true, 0o600, marshalMemberships OrderedStore.empty⟩
  let memberships ← match found with
    | none => .ok OrderedStore.empty
    | some file => loadMembershipStore path file
  .ok ⟨memberships, file, none, fun _ => none, fun _ => .idle, []⟩

/-- The steps of calls. -/
inductive Action where
  | start (call : Nat) (request : MembershipRequest)
  | lock (call : Nat)
  | persist (call : Nat) (fails : Bool)
  | undo (call : Nat)

/-- The store with a call set. -/
def setCall (s : MembershipStore) (call : Nat) (c : MembershipCall) : MembershipStore :=
  { s with calls := Function.update s.calls call c }

/-- The memberships and the file. -/
def snapshot (s : MembershipStore) : MembershipSnapshot := ⟨s.memberships, s.file⟩

/-- A call returns. -/
def finish (s : MembershipStore) (call : Nat) (locked failed : Bool)
    (before : MembershipSnapshot) : MembershipStore :=
  { s.setCall call .idle with history := s.history ++ [⟨locked, failed, before, s.snapshot⟩] }

/-- The store with the temporary file of a call set. -/
def setTemp (s : MembershipStore) (call : Nat) (temp : Option DiskFile) : MembershipStore :=
  { s with temps := Function.update s.temps call temp }

/-- The step of `persistLocked` succeeds. -/
def persistStep (s : MembershipStore) (call : Nat) (undo : MembershipUndo)
    (before : MembershipSnapshot) (encoded : List UInt8) : PersistStep → MembershipStore
  | .marshal =>
    s.setCall call (.persisting undo before .createTemp (marshalMemberships s.memberships))
  | .createTemp =>
    (s.setTemp call (some ⟨true, 0o600, []⟩)).setCall call (.persisting undo before .chmod encoded)
  | .chmod =>
    (s.setTemp call ((s.temps call).map fun temp => { temp with perm := 0o600 })).setCall call
      (.persisting undo before .write encoded)
  | .write =>
    (s.setTemp call ((s.temps call).map fun temp => { temp with data := encoded })).setCall call
      (.persisting undo before .sync encoded)
  | .sync => s.setCall call (.persisting undo before .close encoded)
  | .close => s.setCall call (.persisting undo before .rename encoded)
  | .rename =>
    finish { s.setTemp call none with file := (s.temps call).getD s.file, mu := none } call true
      false before

/-- One step; an action that is not possible in the state leads nowhere. -/
def step (s : MembershipStore) : Action → Option MembershipStore
  | .start call request =>
    match s.calls call with
    | .idle =>
      match request.validate with
      | .error _ => some (s.finish call false true s.snapshot)
      | .ok () => some (s.setCall call (.locking request))
    | _ => none
  | .lock call =>
    match s.calls call, s.mu with
    | .locking request, none =>
      match request.perform s.memberships with
      | .error _ => some (s.finish call true true s.snapshot)
      | .ok (memberships, none) => some ({ s with memberships }.finish call true false s.snapshot)
      | .ok (memberships, some undo) =>
        some ({ s with memberships, mu := some call }.setCall call
          (.persisting undo s.snapshot .marshal []))
    | _, _ => none
  | .persist call fails =>
    match s.calls call with
    | .persisting undo before step encoded =>
      -- the temporary file is removed with whatever was written to it
      if fails then some ((s.setTemp call none).setCall call (.undoing undo before))
      else some (s.persistStep call undo before encoded step)
    | _ => none
  | .undo call =>
    match s.calls call with
    | .undoing undo before =>
      some (finish { s with memberships := undo.apply s.memberships, mu := none } call true true
        before)
    | _ => none

variable {path : Text} {s s' : MembershipStore} {a : Action}

/-- No name has other credentials afterwards. -/
def Keeps (memberships memberships' : Memberships) : Prop :=
  ∀ n m m', memberships.get n = some m → memberships'.get n = some m' → m' = m

/-- Memory and file agree whenever no call holds the lock, and every call that had the lock has
left them so. Calls that have failed have changed neither of them, none has given a name other
credentials, and neither memory nor file holds two memberships of a name. -/
structure Agrees (path : Text) (s : MembershipStore) : Prop where
  agree : s.mu = none → loadMembershipStore path s.file = .ok s.memberships
  returned : ∀ r ∈ s.history, r.locked = true →
    loadMembershipStore path r.after.file = .ok r.after.memberships
  unchanged : ∀ r ∈ s.history, r.failed = true → r.after = r.before
  keeps : ∀ r ∈ s.history, Keeps r.before.memberships r.after.memberships
  mounted : ∀ n m, s.memberships.get n = some m → m.name = n
  named : s.file.names.Nodup

/-! ### What a call does to the memory -/

theorem validate_create {name : Text} (h : validateNetworkName name = .ok ())
    (id : Credential networkIDBytes) (secret : Credential networkSecretBytes) :
    validateMembership ⟨name, Base64Url.encode id, Base64Url.encode secret⟩ = .ok () := by
  simp [validateMembership, h, validateCredential, id.2, secret.2, bind, Except.bind]

theorem keeps_refl (memberships : Memberships) : Keeps memberships memberships := by
  intro n m m' h h'
  exact Option.some.inj (h'.symm.trans h)

theorem keeps_set {memberships : Memberships} {name : Text} (h : memberships.get name = none)
    (membership : NetworkMembership) :
    Keeps memberships (OrderedStore.set memberships name membership) := by
  intro n m m' hm hm'
  have hne : n ≠ name := by
    rintro rfl
    rw [h] at hm
    cases hm
  rw [OrderedStore.get_set_of_ne _ hne] at hm'
  exact keeps_refl memberships n m m' hm hm'

theorem keeps_delete (memberships : Memberships) (name : Text) :
    Keeps memberships (OrderedStore.delete memberships name) := by
  intro n m m' hm hm'
  rw [OrderedStore.get_delete] at hm'
  split_ifs at hm'
  exact keeps_refl memberships n m m' hm hm'

/-- The call has changed valid memberships, and can undo it. -/
structure Changes (undo : MembershipUndo) (memberships after : Memberships) : Prop where
  valid : after.Valid
  undone : undo.apply after = memberships
  keeps : Keeps memberships after

theorem changes_set {memberships : Memberships} (hvalid : memberships.Valid)
    {membership : NetworkMembership} (hmembership : validateMembership membership = .ok ())
    (hfree : memberships.get membership.name = none) :
    Changes (.delete membership.name) memberships
      (OrderedStore.set memberships membership.name membership) :=
  ⟨hvalid.set hmembership, OrderedStore.delete_set hfree membership, keeps_set hfree membership⟩

theorem changes_delete {memberships : Memberships} (hvalid : memberships.Valid)
    {name : Text} {membership : NetworkMembership} (hget : memberships.get name = some membership) :
    Changes (.restore membership) memberships (OrderedStore.delete memberships name) := by
  obtain rfl : name = membership.name := (hvalid _ (OrderedStore.get_eq_some_iff.mp hget)).1
  exact ⟨hvalid.delete _, OrderedStore.set_delete hget, keeps_delete memberships _⟩

/-- What a call with the lock does: it leaves the memory, or it changes it and can undo that. -/
theorem perform_spec {memberships after : Memberships} (hvalid : memberships.Valid)
    {request : MembershipRequest} {undo : Option MembershipUndo}
    (h : request.perform memberships = .ok (after, undo)) :
    (undo = none ∧ after = memberships) ∨
      ∃ u, undo = some u ∧ Changes u memberships after := by
  cases request with
  | create name id secret =>
    simp only [MembershipRequest.perform, bind, Except.bind] at h
    split at h
    · cases h
    · next r hcreate =>
      obtain ⟨info, invitation, memberships'⟩ := r
      cases h
      refine Or.inr ⟨_, rfl, ?_⟩
      rw [Memberships.create_eq_ok hcreate]
      refine changes_set hvalid (validate_create ?_ id secret)
        (Memberships.get_eq_none_of_create hcreate)
      unfold Memberships.create at hcreate
      cases hname : validateNetworkName name with
      | error e => simp [hname, bind, Except.bind] at hcreate
      | ok u => rfl
  | join invitation =>
    simp only [MembershipRequest.perform, bind, Except.bind] at h
    split at h
    · cases h
    · next r hjoin =>
      obtain ⟨info, joined, memberships'⟩ := r
      cases h
      cases hdecode : decodeNetworkInvitation invitation with
      | error e => simp [Memberships.join, hdecode, bind, Except.bind] at hjoin
      | ok membership =>
        cases joined with
        | true =>
          obtain ⟨hfree, rfl⟩ := Memberships.eq_set_of_join hjoin hdecode
          have hinfo : info.name = membership.name := by
            simp only [Memberships.join, hdecode, hfree, bind, Except.bind] at hjoin
            cases hjoin
            rfl
          refine Or.inr ⟨_, rfl, ?_⟩
          rw [hinfo]
          exact changes_set hvalid (validate_of_decodeNetworkInvitation hdecode) hfree
        | false =>
          refine Or.inl ⟨rfl, ?_⟩
          simp only [Memberships.join, hdecode, bind, Except.bind] at hjoin
          split at hjoin
          · split_ifs at hjoin <;> cases hjoin
            rfl
          · cases hjoin
  | invite name =>
    simp only [MembershipRequest.perform, bind, Except.bind] at h
    split at h
    · cases h
    · cases h
      exact Or.inl ⟨rfl, rfl⟩
  | leave name =>
    simp only [MembershipRequest.perform, bind, Except.bind] at h
    split at h
    · cases h
    · next r hleave =>
      obtain ⟨info, memberships'⟩ := r
      cases h
      cases hget : memberships.get name with
      | none =>
        simp only [Memberships.leave, hget, bind, Except.bind] at hleave
        split at hleave <;> cases hleave
      | some membership =>
        refine Or.inr ⟨_, rfl, ?_⟩
        rw [Memberships.leave_eq_ok hleave]
        exact changes_delete hvalid hget

/-! ### What holds between the steps of a call -/

/-- The call with the lock has changed the memory and not the file. -/
structure Holds (path : Text) (mu : Option Nat) (now before : MembershipSnapshot) (call : Nat)
    (undo : MembershipUndo) : Prop where
  mu_eq : mu = some call
  file_eq : now.file = before.file
  loaded : loadMembershipStore path before.file = .ok before.memberships
  changes : Changes undo before.memberships now.memberships

/-- What has been made of the temporary file before the step. -/
def Ready (memberships : Memberships) (encoded : List UInt8) (temp : Option DiskFile) :
    PersistStep → Prop
  | .marshal => True
  | .createTemp => encoded = marshalMemberships memberships
  | .chmod => encoded = marshalMemberships memberships ∧
      ∃ file, temp = some file ∧ file.regular = true
  | .write => encoded = marshalMemberships memberships ∧
      ∃ file, temp = some file ∧ file.regular = true ∧ file.perm = 0o600
  | .sync | .close | .rename => temp = some ⟨true, 0o600, marshalMemberships memberships⟩

def CallInvariant (path : Text) (mu : Option Nat) (now : MembershipSnapshot)
    (temp : Option DiskFile) (call : Nat) : MembershipCall → Prop
  | .idle | .locking _ => True
  | .persisting undo before step encoded =>
    Holds path mu now before call undo ∧ Ready now.memberships encoded temp step
  | .undoing undo before => Holds path mu now before call undo

/-- A call that has returned: it has left memory and file in agreement if it had the lock, it has
changed nothing if it has failed, and no name has other credentials. -/
structure Settles (path : Text) (r : MembershipReturn) : Prop where
  agree : r.locked = true → loadMembershipStore path r.after.file = .ok r.after.memberships
  unchanged : r.failed = true → r.after = r.before
  keeps : Keeps r.before.memberships r.after.memberships

structure Inv (path : Text) (s : MembershipStore) : Prop where
  agree : s.mu = none → loadMembershipStore path s.file = .ok s.memberships
  valid : s.memberships.Valid
  loads : ∃ memberships, loadMembershipStore path s.file = .ok memberships
  calls : ∀ call, CallInvariant path s.mu s.snapshot (s.temps call) call (s.calls call)
  history : ∀ r ∈ s.history, Settles path r

/-- A call without the lock does not mind what others do. -/
theorem CallInvariant.of_ne {mu mu' : Option Nat} {now now' : MembershipSnapshot}
    {temp temp' : Option DiskFile} {call : Nat} {c : MembershipCall}
    (h : CallInvariant path mu now temp call c) (hne : mu ≠ some call) :
    CallInvariant path mu' now' temp' call c := by
  cases c with
  | idle => trivial
  | locking request => trivial
  | persisting undo before step encoded => exact absurd h.1.mu_eq hne
  | undoing undo before => exact absurd h.mu_eq hne

@[simp] theorem calls_setCall_self (s : MembershipStore) (call : Nat) (c : MembershipCall) :
    (s.setCall call c).calls call = c := by
  simp [setCall]

theorem calls_setCall_of_ne (s : MembershipStore) {call d : Nat} (hd : d ≠ call)
    (c : MembershipCall) : (s.setCall call c).calls d = s.calls d := by
  simp [setCall, hd]

/-- A step of a call that keeps the memory, the file and the lock. -/
theorem Inv.setCall (h : Inv path s) {call : Nat} {c : MembershipCall}
    (hc : CallInvariant path s.mu s.snapshot (s.temps call) call c) :
    Inv path (s.setCall call c) where
  agree := h.agree
  valid := h.valid
  loads := h.loads
  calls d := by
    by_cases hd : d = call
    · rw [hd, calls_setCall_self]
      exact hc
    · rw [calls_setCall_of_ne s hd]
      exact h.calls d
  history := h.history

/-- A step of a call while no other one has the lock. -/
theorem Inv.of_call (h : Inv path s) {call : Nat} {c : MembershipCall}
    (hmu : ∀ d, s.mu = some d → d = call) (hcalls : s'.calls = s.calls)
    (hhistory : s'.history = s.history) (hvalid : s'.memberships.Valid)
    (hagree : s'.mu = none → loadMembershipStore path s'.file = .ok s'.memberships)
    (hloads : ∃ memberships, loadMembershipStore path s'.file = .ok memberships)
    (hc : CallInvariant path s'.mu s'.snapshot (s'.temps call) call c) :
    Inv path (s'.setCall call c) where
  agree := hagree
  valid := hvalid
  loads := hloads
  calls d := by
    by_cases hd : d = call
    · rw [hd, calls_setCall_self]
      exact hc
    · rw [calls_setCall_of_ne s' hd, hcalls]
      exact (h.calls d).of_ne fun heq => hd (hmu d heq)
  history := by
    show ∀ r ∈ s'.history, Settles path r
    rw [hhistory]
    exact h.history

theorem Inv.record (h : Inv path s) {r : MembershipReturn} (hr : Settles path r) :
    Inv path { s with history := s.history ++ [r] } where
  agree := h.agree
  valid := h.valid
  loads := h.loads
  calls := h.calls
  history r' hr' := by
    rcases List.mem_append.mp hr' with hr' | hr'
    · exact h.history r' hr'
    · rw [List.mem_singleton.mp hr']
      exact hr

/-- A call returns that has found and left the same. -/
theorem Inv.finish_same (h : Inv path s) {call : Nat} {locked failed : Bool}
    (hagree : locked = true → loadMembershipStore path s.file = .ok s.memberships) :
    Inv path (s.finish call locked failed s.snapshot) :=
  Inv.record (h.setCall (c := .idle) trivial) ⟨hagree, fun _ => rfl, keeps_refl s.memberships⟩

theorem Inv.lock (h : Inv path s) {call : Nat} (hstep : step s (.lock call) = some s') :
    Inv path s' := by
  simp only [step] at hstep
  split at hstep
  · next request hlocking hmu =>
    have hagree := h.agree hmu
    split at hstep
    · cases hstep
      exact h.finish_same fun _ => hagree
    · next memberships hperform =>
      cases hstep
      rcases perform_spec h.valid hperform with ⟨-, rfl⟩ | ⟨u, hu, -⟩
      · exact h.finish_same fun _ => hagree
      · cases hu
    · next memberships undo hperform =>
      cases hstep
      rcases perform_spec h.valid hperform with ⟨hu, -⟩ | ⟨u, hu, hchanges⟩
      · cases hu
      · cases hu
        refine h.of_call ?_ rfl rfl hchanges.valid nofun h.loads ?_
        · rw [hmu]
          exact nofun
        · exact ⟨⟨rfl, rfl, hagree, hchanges⟩, trivial⟩
  · cases hstep

theorem Inv.undo (h : Inv path s) {call : Nat} (hstep : step s (.undo call) = some s') :
    Inv path s' := by
  simp only [step] at hstep
  split at hstep
  · next undo before hundoing =>
    cases hstep
    have hcall := h.calls call
    rw [hundoing] at hcall
    have hundone : undo.apply s.memberships = before.memberships := hcall.changes.undone
    have hfile : s.file = before.file := hcall.file_eq
    have hsnapshot : (⟨undo.apply s.memberships, s.file⟩ : MembershipSnapshot) = before := by
      rw [hundone, hfile]
    have hagree : loadMembershipStore path s.file = .ok (undo.apply s.memberships) := by
      rw [hundone, hfile, hcall.loaded]
    have hidle : Inv path (MembershipStore.setCall
        { s with memberships := undo.apply s.memberships, mu := none } call .idle) := by
      refine h.of_call ?_ rfl rfl (valid_of_loadMembershipStore hagree).1 (fun _ => hagree) h.loads
        trivial
      exact fun d hd => Option.some.inj (hd.symm.trans hcall.mu_eq)
    refine hidle.record ⟨fun _ => hagree, fun _ => hsnapshot, ?_⟩
    have hkeeps := keeps_refl before.memberships
    nth_rewrite 2 [← hundone] at hkeeps
    exact hkeeps
  · cases hstep

theorem Inv.rename (h : Inv path s) {call : Nat} {undo : MembershipUndo}
    {before : MembershipSnapshot} {encoded : List UInt8}
    (hholds : Holds path s.mu s.snapshot before call undo)
    (htemp : s.temps call = some ⟨true, 0o600, marshalMemberships s.memberships⟩) :
    Inv path (s.persistStep call undo before encoded .rename) := by
  have hagree := loadMembershipStore_marshalMemberships h.valid path
  have hfile : (s.temps call).getD s.file =
      ⟨true, 0o600, marshalMemberships s.memberships⟩ := by
    rw [htemp]
    rfl
  have hidle : Inv path (MembershipStore.setCall
      { s.setTemp call none with file := (s.temps call).getD s.file, mu := none } call .idle) := by
    refine h.of_call ?_ rfl rfl h.valid (fun _ => ?_) ⟨s.memberships, ?_⟩ trivial
    · exact fun d hd => Option.some.inj (hd.symm.trans hholds.mu_eq)
    · exact (congrArg (loadMembershipStore path) hfile).trans hagree
    · exact (congrArg (loadMembershipStore path) hfile).trans hagree
  refine hidle.record ⟨fun _ => ?_, nofun, hholds.changes.keeps⟩
  exact (congrArg (loadMembershipStore path) hfile).trans hagree

theorem Inv.persist (h : Inv path s) {call : Nat} {fails : Bool}
    (hstep : step s (.persist call fails) = some s') : Inv path s' := by
  simp only [step] at hstep
  split at hstep
  · next undo before pstep encoded hpersisting =>
    have hcall := h.calls call
    rw [hpersisting] at hcall
    obtain ⟨hholds, hready⟩ := hcall
    have halone : ∀ d, s.mu = some d → d = call :=
      fun d hd => Option.some.inj (hd.symm.trans hholds.mu_eq)
    have hlocked : s.mu = none → loadMembershipStore path s.file = .ok s.memberships := h.agree
    -- every step but the last one keeps the memory and the file
    have hnext : ∀ temp c, (∀ t, t = temp → CallInvariant path s.mu s.snapshot t call c) →
        Inv path ((s.setTemp call temp).setCall call c) := by
      intro temp c hc
      exact h.of_call halone rfl rfl h.valid hlocked h.loads
        (hc _ (by simp [setTemp]))
    split_ifs at hstep <;> cases hstep
    · exact hnext none _ fun _ _ => hholds
    · cases pstep with
      | marshal => exact h.setCall ⟨hholds, rfl⟩
      | createTemp =>
        refine hnext _ _ ?_
        rintro _ rfl
        exact ⟨hholds, hready, _, rfl, rfl⟩
      | chmod =>
        obtain ⟨hencoded, file, htemp, hregular⟩ := hready
        refine hnext _ _ ?_
        rintro _ rfl
        exact ⟨hholds, hencoded, { file with perm := 0o600 }, by rw [htemp]; rfl, hregular, rfl⟩
      | write =>
        obtain ⟨hencoded, file, htemp, hregular, hperm⟩ := hready
        refine hnext _ _ ?_
        rintro _ rfl
        refine ⟨hholds, ?_⟩
        rw [Ready, htemp, hencoded, ← hregular, ← hperm]
        rfl
      | sync => exact h.setCall ⟨hholds, hready⟩
      | close => exact h.setCall ⟨hholds, hready⟩
      | rename => exact h.rename hholds hready
  · cases hstep

theorem Inv.step (h : Inv path s) (hstep : MembershipStore.step s a = some s') : Inv path s' := by
  cases a with
  | start call request =>
    simp only [MembershipStore.step] at hstep
    split at hstep
    · split at hstep <;> cases hstep
      · exact h.finish_same fun hlocked => absurd hlocked Bool.false_ne_true
      · exact h.setCall trivial
    · cases hstep
  | lock call => exact h.lock hstep
  | persist call fails => exact h.persist hstep
  | undo call => exact h.undo hstep

theorem inv_of_opened {found : Option DiskFile} (h : opened path found = .ok s) : Inv path s := by
  have hloaded : ∀ {memberships file}, loadMembershipStore path file = .ok memberships →
      Inv path ⟨memberships, file, none, fun _ => none, fun _ => .idle, []⟩ :=
    fun hload => ⟨fun _ => hload, (valid_of_loadMembershipStore hload).1, ⟨_, hload⟩,
      fun _ => trivial, nofun⟩
  cases found with
  | none =>
    cases h
    exact hloaded (@loadMembershipStore_marshalMemberships OrderedStore.empty nofun path)
  | some file =>
    simp only [opened, bind, Except.bind, Option.getD_some] at h
    split at h
    · cases h
    · next memberships hload =>
      cases h
      exact hloaded hload

/-! ### Runs -/

/-- **Memory and file.** Whatever calls are made of a store that was opened, in whatever order their
steps are taken and whichever steps of writing the file fail, memory and file agree after each call,
and a call that fails has changed neither. -/
theorem agrees_of_run {found : Option DiskFile} {s₀ : MembershipStore} {actions : List Action}
    (hopened : opened path found = .ok s₀) (hrun : run step s₀ actions = some s) :
    Agrees path s := by
  have hinv : Inv path s := Reaches.invariant (P := Inv path) (fun _ _ _ h hstep => h.step hstep)
    (inv_of_opened hopened) ⟨actions, hrun⟩
  obtain ⟨loaded, hloads⟩ := hinv.loads
  refine ⟨hinv.agree, fun r hr => (hinv.history r hr).agree, fun r hr =>
    (hinv.history r hr).unchanged, fun r hr => (hinv.history r hr).keeps, fun n m hget => ?_,
    (valid_of_loadMembershipStore hloads).2⟩
  exact (hinv.valid _ (OrderedStore.get_eq_some_iff.mp hget)).1.symm

/-- A network is created while the temporary file cannot be written, and created again. -/
def createdRun : List Action :=
  let create := MembershipRequest.create ['h'] ⟨List.replicate networkIDBytes 0,
    List.length_replicate⟩ ⟨List.replicate networkSecretBytes 0, List.length_replicate⟩
  [.start 0 create, .lock 0, .start 1 create, .persist 0 false, .persist 0 false, .persist 0 false,
    .persist 0 true, .undo 0, .lock 1] ++ List.replicate 7 (.persist 1 false) ++
      [.start 0 (.leave ['h']), .lock 0, .persist 0 true]

theorem agrees_createdRun :
    ∃ s₀ s, opened ['p'] none = .ok s₀ ∧ run step s₀ createdRun = some s ∧ Agrees ['p'] s := by
  obtain ⟨s₀, hopened⟩ : ∃ s₀, opened ['p'] none = .ok s₀ := ⟨_, rfl⟩
  have hsome : (run step s₀ createdRun).isSome = true := by
    cases hopened
    decide +kernel
  obtain ⟨s, hs⟩ := Option.isSome_iff_exists.mp hsome
  exact ⟨s₀, s, hopened, hs, agrees_of_run hopened hs⟩

end MembershipStore

end Thalweg
