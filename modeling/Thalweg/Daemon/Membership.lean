import Thalweg.Daemon.Hlc

/-!
# Network memberships

The networks that a daemon has mounted, by name, with the calls that create, join, invite to and
leave one, and the records of the peers of a network. Writing the membership file is taken to
succeed; random credentials are arguments.
-/

namespace Thalweg

/-- A mounted network with its credentials. -/
structure NetworkMembership where
  name : Text
  id : Text
  secret : Text
  deriving DecidableEq

/-- The mounted networks, by name. -/
abbrev Memberships := OrderedStore Char NetworkMembership

/-- The public part of a membership. -/
structure NetworkMembershipInfo where
  name : Text
  id : Text
  deriving DecidableEq

/-- What is told of a membership: its name and ID, and not its secret. -/
def NetworkMembership.info (membership : NetworkMembership) : NetworkMembershipInfo :=
  ⟨membership.name, membership.id⟩

/-- The bytes of a network ID. -/
def networkIDBytes : Nat := 16

/-- The bytes of a network secret. -/
def networkSecretBytes : Nat := 32

/-- A name is not blank. -/
def validateNetworkName (name : Text) : Result Unit :=
  if Text.trimSpace name = [] then errorf "network name is required" []
  else if name ≠ Text.trimSpace name then
    errorf "network name must not have leading or trailing whitespace" []
  else if 128 < (Text.toBytes name).length then
    errorf "network name must be at most 128 bytes" []
  else .ok ()

/-- A credential is the Base64 text of so many bytes. -/
def validateCredential (field : String) (value : Text) (size : Nat) : Result Unit :=
  match Base64Url.decode value with
  | some decoded =>
    if decoded.length = size then .ok ()
    else errorf "%s must be %d bytes of base64url data" [field.toList, Text.decimal size]
  | none => errorf "%s must be %d bytes of base64url data" [field.toList, Text.decimal size]

/-- A membership has a name and two credentials. -/
def validateMembership (membership : NetworkMembership) : Result Unit := do
  validateNetworkName membership.name
  validateCredential "network ID" membership.id networkIDBytes
  validateCredential "network secret" membership.secret networkSecretBytes

/-- The start of an invitation. -/
def invitationPrefix : Text := "thalweg1:".toList

/-- The invitation to a network. -/
def encodeNetworkInvitation (membership : NetworkMembership) : Text :=
  invitationPrefix ++ Base64Url.encode (Text.toBytes (Json.renderRecord
    [("version".toList, Text.decimal 1), ("name".toList, Json.quote membership.name),
      ("id".toList, Json.quote membership.id), ("secret".toList, Json.quote membership.secret)]))

/-- The fields of an invitation: its version and the membership. -/
def invitationFields : List (Text × Json.Setter (Int × NetworkMembership)) :=
  [("version".toList, fun m _ v => (Json.decodeInt m.1 v).map fun x => (x, m.2)),
    ("name".toList, fun m _ v =>
      (Json.decodeText m.2.name v).map fun x => (m.1, { m.2 with name := x })),
    ("id".toList, fun m _ v => (Json.decodeText m.2.id v).map fun x => (m.1, { m.2 with id := x })),
    ("secret".toList, fun m _ v =>
      (Json.decodeText m.2.secret v).map fun x => (m.1, { m.2 with secret := x }))]

/-- The membership that an invitation gives. -/
def decodeNetworkInvitation (invitation : Text) : Result NetworkMembership :=
  if ¬ invitationPrefix <+: invitation then
    errorf "network invitation must start with %q" [invitationPrefix]
  else
    match Base64Url.decode (invitation.drop invitationPrefix.length) with
    | none => .error (.wrap "decode network invitation: %w" [] (.external "encoding/base64"))
    | some payload =>
      match Json.decodeRecord false invitationFields (0, ⟨[], [], []⟩) (Text.ofBytes payload) with
      | none =>
        .error (.wrap "decode network invitation payload: %w" [] (.external "encoding/json"))
      | some (version, membership) =>
        if version ≠ 1 then
          errorf "unsupported network invitation version %d" [Text.decimalInt version]
        else
          match validateMembership membership with
          | .error e => .error (.wrap "invalid network invitation: %w" [] e)
          | .ok () => .ok membership

namespace Memberships

/-- Mount a new network under fresh credentials. -/
def create (memberships : Memberships) (name : Text) (id secret : List UInt8) :
    Result (NetworkMembershipInfo × Text × Memberships) := do
  validateNetworkName name
  let membership : NetworkMembership := ⟨name, Base64Url.encode id, Base64Url.encode secret⟩
  if (memberships.get name).isSome then errorf "network %q is already mounted" [name]
  else
    .ok (membership.info, encodeNetworkInvitation membership,
      OrderedStore.set memberships name membership)

/-- Mount the network of an invitation. -/
def join (memberships : Memberships) (invitation : Text) :
    Result (NetworkMembershipInfo × Bool × Memberships) := do
  let membership ← decodeNetworkInvitation invitation
  match memberships.get membership.name with
  | some mounted =>
    if mounted = membership then .ok (mounted.info, false, memberships)
    else errorf "network name %q is already mounted with different credentials" [membership.name]
  | none => .ok (membership.info, true, OrderedStore.set memberships membership.name membership)

/-- An invitation to a network that is mounted. -/
def invite (memberships : Memberships) (name : Text) :
    Result (NetworkMembershipInfo × Text) := do
  validateNetworkName name
  match memberships.get name with
  | none => errorf "network %q is not mounted" [name]
  | some membership => .ok (membership.info, encodeNetworkInvitation membership)

/-- Unmount a network. -/
def leave (memberships : Memberships) (name : Text) :
    Result (NetworkMembershipInfo × Memberships) := do
  validateNetworkName name
  match memberships.get name with
  | none => errorf "network %q is not mounted" [name]
  | some membership => .ok (membership.info, OrderedStore.delete memberships name)

/-- The mounted networks in the order of their names. -/
def list (memberships : Memberships) : List NetworkMembershipInfo :=
  memberships.entries.map fun e => e.2.info

theorem create_eq_ok {memberships memberships' : Memberships} {name : Text} {id secret : List UInt8}
    {info : NetworkMembershipInfo} {invitation : Text}
    (h : memberships.create name id secret = .ok (info, invitation, memberships')) :
    memberships' = OrderedStore.set memberships
      (⟨name, Base64Url.encode id, Base64Url.encode secret⟩ : NetworkMembership).name
      ⟨name, Base64Url.encode id, Base64Url.encode secret⟩ := by
  unfold create at h
  cases hv : validateNetworkName name with
  | error e => simp [hv, bind, Except.bind] at h
  | ok _ =>
    simp only [hv, bind, Except.bind] at h
    split at h
    · cases h
    · cases h
      rfl

/-- A network is created under a name that is free. -/
theorem get_eq_none_of_create {memberships memberships' : Memberships} {name : Text}
    {id secret : List UInt8} {info : NetworkMembershipInfo} {invitation : Text}
    (h : memberships.create name id secret = .ok (info, invitation, memberships')) :
    memberships.get name = none := by
  unfold create at h
  cases hv : validateNetworkName name with
  | error e => simp [hv, bind, Except.bind] at h
  | ok _ =>
    simp only [hv, bind, Except.bind] at h
    split at h
    · cases h
    · next hfree => simpa using hfree

/-- A network is joined under a name that is free. -/
theorem eq_set_of_join {memberships memberships' : Memberships} {invitation : Text}
    {info : NetworkMembershipInfo} {membership : NetworkMembership}
    (h : memberships.join invitation = .ok (info, true, memberships'))
    (hdecode : decodeNetworkInvitation invitation = .ok membership) :
    memberships.get membership.name = none ∧
      memberships' = OrderedStore.set memberships membership.name membership := by
  unfold join at h
  simp only [hdecode, bind, Except.bind] at h
  split at h
  · split_ifs at h
    all_goals cases h
  · next hfree =>
    cases h
    exact ⟨hfree, rfl⟩

theorem join_eq_ok {memberships memberships' : Memberships} {invitation : Text}
    {info : NetworkMembershipInfo} {joined : Bool}
    (h : memberships.join invitation = .ok (info, joined, memberships')) :
    memberships' = memberships ∨ ∃ membership : NetworkMembership,
      memberships' = OrderedStore.set memberships membership.name membership := by
  unfold join at h
  cases hv : decodeNetworkInvitation invitation with
  | error e => simp [hv, bind, Except.bind] at h
  | ok membership =>
    simp only [hv, bind, Except.bind] at h
    split at h
    · split_ifs at h
      · cases h
        exact Or.inl rfl
      · cases h
    · cases h
      exact Or.inr ⟨membership, rfl⟩

theorem invite_eq_ok {memberships : Memberships} {name : Text} {info : NetworkMembershipInfo}
    {invitation : Text} (h : memberships.invite name = .ok (info, invitation)) :
    ∃ membership, memberships.get name = some membership ∧
      invitation = encodeNetworkInvitation membership := by
  unfold invite at h
  cases hv : validateNetworkName name with
  | error e => simp [hv, bind, Except.bind] at h
  | ok _ =>
    simp only [hv, bind, Except.bind] at h
    split at h
    · cases h
    · next membership hget =>
      cases h
      exact ⟨membership, hget, rfl⟩

theorem leave_eq_ok {memberships memberships' : Memberships} {name : Text}
    {info : NetworkMembershipInfo} (h : memberships.leave name = .ok (info, memberships')) :
    memberships' = OrderedStore.delete memberships name := by
  unfold leave at h
  cases hv : validateNetworkName name with
  | error e => simp [hv, bind, Except.bind] at h
  | ok _ =>
    simp only [hv, bind, Except.bind] at h
    split at h
    · cases h
    · cases h
      rfl

end Memberships

/-! ### Peers -/

/-- The start of the keys of mesh peers. -/
def meshPeerFamily : Text := "mesh-peer-v1:".toList

/-- The start of the keys of a network's mesh peers. -/
def meshPeerPrefix (networkName : Text) : Text :=
  meshPeerFamily ++ encodeKeyPart networkName ++ [':']

/-- The key of a peer of a network. -/
def meshPeerKey (networkName peerID : Text) : Text := meshPeerPrefix networkName ++ peerID

/-- The start of the keys of the peers that were dialled without a network. -/
def peerFamily : Text := "peer:".toList

/-- The key of the address that a peer was dialed at. -/
def peerKey (peerID : Text) : Text := peerFamily ++ peerID

/-- Forget the mesh peers of a network. -/
def removeMeshPeersForNetwork (store : Store) (networkName : Text) : Store :=
  let pre := meshPeerPrefix networkName
  (store.scan pre pre).foldl (fun store entry => store.delete entry.1) store

end Thalweg
