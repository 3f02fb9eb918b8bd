import Thalweg.Data.LengthPrefix
import Thalweg.Daemon.Membership

/-!
# The mesh handshake

The hello of an initiator and the welcome of a responder, with the proofs by which each shows the
other that it holds the secret of the network. A frame is a line of JSON of at most 16 KiB; lines
are byte sequences without their newline. Random bytes are arguments.

## Main definitions

* `MeshHello`, `MeshWelcome`, `writeMeshFrame`, `readMeshFrame`.
* `meshProof`, `proofsEqual`.
* `sendMeshHello`, `receiveMeshWelcome`: the two halves of `openAuthenticatedMeshStream`.
* `handleMeshHello`: the handshake in `handleMeshStream`.
-/

namespace Thalweg

/-- The version of the mesh protocol. -/
def meshProtocolVersion : Int := 1

/-- The most bytes of a frame of the handshake. -/
def meshMaxFrameBytes : Nat := 16 * 1024

/-- The bytes of a nonce. -/
def meshNonceBytes : Nat := 32

/-- The ID of a peer in its text form; it is short. -/
structure PeerID where
  text : Text
  short : (Text.toBytes text).length < 2 ^ 32

/-! ### Frames -/

/-- The type of the first frame of the initiator. -/
def helloType : Text := ['h', 'e', 'l', 'l', 'o']

/-- The type of the answer of the responder. -/
def welcomeType : Text := ['w', 'e', 'l', 'c', 'o', 'm', 'e']

/-- The first frame of the initiator. -/
structure MeshHello where
  type : Text
  protocolVersion : Int
  network : Text
  networkID : Text
  nonce : Text
  proof : Text
  deriving DecidableEq

/-- The answer of the responder. -/
structure MeshWelcome where
  type : Text
  protocolVersion : Int
  accepted : Bool
  networkID : Text
  nonce : Text
  proof : Text
  error : Text
  deriving DecidableEq

/-- A field of truth values. -/
def decodeBool (old : Bool) : Json → Option Bool
  | .bool b => some b
  | .null => some old
  | _ => none

/-- The fields of a hello in its JSON text. -/
def meshHelloFields : List (Text × Json.Setter MeshHello) :=
  [("type".toList, fun h _ v => (Json.decodeText h.type v).map fun x => { h with type := x }),
    ("protocolVersion".toList, fun h _ v =>
      (Json.decodeInt h.protocolVersion v).map fun x => { h with protocolVersion := x }),
    ("network".toList, fun h _ v =>
      (Json.decodeText h.network v).map fun x => { h with network := x }),
    ("networkId".toList, fun h _ v =>
      (Json.decodeText h.networkID v).map fun x => { h with networkID := x }),
    ("nonce".toList, fun h _ v => (Json.decodeText h.nonce v).map fun x => { h with nonce := x }),
    ("proof".toList, fun h _ v => (Json.decodeText h.proof v).map fun x => { h with proof := x })]

/-- The fields of a welcome in its JSON text. -/
def meshWelcomeFields : List (Text × Json.Setter MeshWelcome) :=
  [("type".toList, fun w _ v => (Json.decodeText w.type v).map fun x => { w with type := x }),
    ("protocolVersion".toList, fun w _ v =>
      (Json.decodeInt w.protocolVersion v).map fun x => { w with protocolVersion := x }),
    ("accepted".toList, fun w _ v =>
      (decodeBool w.accepted v).map fun x => { w with accepted := x }),
    ("networkId".toList, fun w _ v =>
      (Json.decodeText w.networkID v).map fun x => { w with networkID := x }),
    ("nonce".toList, fun w _ v => (Json.decodeText w.nonce v).map fun x => { w with nonce := x }),
    ("proof".toList, fun w _ v => (Json.decodeText w.proof v).map fun x => { w with proof := x }),
    ("error".toList, fun w _ v => (Json.decodeText w.error v).map fun x => { w with error := x })]

/-- The JSON text of a hello. -/
def marshalMeshHello (hello : MeshHello) : Text :=
  Json.renderRecord [("type".toList, Json.quote hello.type),
    ("protocolVersion".toList, Text.decimalInt hello.protocolVersion),
    ("network".toList, Json.quote hello.network), ("networkId".toList, Json.quote hello.networkID),
    ("nonce".toList, Json.quote hello.nonce), ("proof".toList, Json.quote hello.proof)]

/-- A text field that is left out when it is empty. -/
def omitEmpty (name : String) (value : Text) : List (Text × Text) :=
  if value = [] then [] else [(name.toList, Json.quote value)]

/-- The JSON text of a welcome. -/
def marshalMeshWelcome (welcome : MeshWelcome) : Text :=
  Json.renderRecord ([("type".toList, Json.quote welcome.type),
    ("protocolVersion".toList, Text.decimalInt welcome.protocolVersion),
    ("accepted".toList, Json.render (.bool welcome.accepted))] ++
    omitEmpty "networkId" welcome.networkID ++ omitEmpty "nonce" welcome.nonce ++
    omitEmpty "proof" welcome.proof ++ omitEmpty "error" welcome.error)

/-- The line of a frame. -/
def writeMeshFrame (encoded : Text) : Result (List UInt8) :=
  if meshMaxFrameBytes < (Text.toBytes encoded).length then
    errorf "mesh frame exceeds %d bytes" [Text.decimal meshMaxFrameBytes]
  else .ok (Text.toBytes encoded)

/-- The frame of a line. -/
def readMeshFrame {σ : Type} (fields : List (Text × Json.Setter σ)) (default : σ)
    (line : List UInt8) : Result σ :=
  if meshMaxFrameBytes < line.length then
    errorf "mesh frame exceeds %d bytes" [Text.decimal meshMaxFrameBytes]
  else decodeStrictFrame fields default (Text.ofBytes line)

/-- The hello of a line. -/
def readMeshHello (line : List UInt8) : Result MeshHello :=
  readMeshFrame meshHelloFields ⟨[], 0, [], [], [], []⟩ line

/-- The welcome of a line. -/
def readMeshWelcome (line : List UInt8) : Result MeshWelcome :=
  readMeshFrame meshWelcomeFields ⟨[], 0, false, [], [], [], []⟩ line

/-! ### Proofs -/

/-- The message that a proof authenticates. -/
def meshProofMessage (parts : List Text) : List UInt8 :=
    LengthPrefix.encode (parts.map Text.toBytes)

/-- The proof that the secret is known, for parts of a transcript. -/
def meshProof (secret : Text) (parts : List Text) : Text :=
  match Base64Url.decode secret with
  | none => []
  | some key => Base64Url.encode (Sha256.hmac key (meshProofMessage parts))

/-- Whether two proofs are texts of the same 32 bytes. -/
def proofsEqual (expected actual : Text) : Bool :=
  match Base64Url.decode expected, Base64Url.decode actual with
  | some expectedBytes, some actualBytes =>
    decide (expectedBytes.length = 32 ∧ actualBytes.length = 32 ∧ expectedBytes = actualBytes)
  | _, _ => false

/-- What an initiator proves. -/
def initiatorParts (networkID : Text) (initiator responder : PeerID) (initiatorNonce : Text) :
    List Text :=
  ["initiator".toList, networkID, initiator.text, responder.text, initiatorNonce]

/-- What a responder proves. -/
def responderParts (networkID : Text) (initiator responder : PeerID)
    (initiatorNonce responderNonce : Text) : List Text :=
  ["responder".toList, networkID, initiator.text, responder.text, initiatorNonce, responderNonce]

/-- The text of a nonce. -/
def newMeshNonce (random : List UInt8) : Text := Base64Url.encode random

/-- A nonce has the right number of bytes. -/
def validateMeshNonce (value : Text) : Result Unit :=
  match Base64Url.decode value with
  | some decoded =>
    if decoded.length = meshNonceBytes then .ok ()
    else errorf "nonce must be %d bytes of base64url data" [Text.decimal meshNonceBytes]
  | none => errorf "nonce must be %d bytes of base64url data" [Text.decimal meshNonceBytes]

/-! ### The initiator -/

/-- The hello of an initiator. -/
def meshHello (membership : NetworkMembership) (initiator responder : PeerID)
    (initiatorNonce : Text) : MeshHello where
  type := helloType
  protocolVersion := meshProtocolVersion
  network := membership.name
  networkID := membership.id
  nonce := initiatorNonce
  proof := meshProof membership.secret
    (initiatorParts membership.id initiator responder initiatorNonce)

/-- The start of `openAuthenticatedMeshStream`: the line of the hello. -/
def sendMeshHello (membership : NetworkMembership) (initiator responder : PeerID)
    (initiatorNonce : Text) : Result (List UInt8) :=
  wrapf "send mesh hello: %w" []
    (writeMeshFrame (marshalMeshHello (meshHello membership initiator responder initiatorNonce)))

/-- The rest of `openAuthenticatedMeshStream`: the nonce of a welcome that is accepted. -/
def receiveMeshWelcome (membership : NetworkMembership) (initiator responder : PeerID)
    (initiatorNonce : Text) (line : List UInt8) : Result Text := do
  let welcome ← wrapf "read mesh welcome: %w" [] (readMeshWelcome line)
  if welcome.type ≠ welcomeType then
    errorf "unexpected mesh handshake response type %q" [welcome.type]
  else if welcome.protocolVersion ≠ meshProtocolVersion then
    errorf "unsupported remote mesh protocol version %d (daemon supports %d)"
      [Text.decimalInt welcome.protocolVersion, Text.decimalInt meshProtocolVersion]
  else if ¬ welcome.accepted then
    if welcome.error = [] then errorf "membership authentication failed" []
    else errorf "%s" [welcome.error]
  else if welcome.networkID ≠ membership.id then
    errorf "mesh welcome selected an unexpected network" []
  else
    wrapf "invalid responder nonce: %w" [] (validateMeshNonce welcome.nonce)
    let expected := meshProof membership.secret
      (responderParts membership.id initiator responder initiatorNonce welcome.nonce)
    if ¬ proofsEqual expected welcome.proof then errorf "membership authentication failed" []
    else .ok welcome.nonce

/-! ### The responder -/

/-- The answer that rejects a hello. -/
def rejectedMeshWelcome (message : Text) : MeshWelcome :=
  ⟨welcomeType, meshProtocolVersion, false, [], [], [], message⟩

/-- The welcome that accepts a hello. -/
def acceptedMeshWelcome (membership : NetworkMembership) (initiator responder : PeerID)
    (initiatorNonce responderNonce : Text) : MeshWelcome where
  type := welcomeType
  protocolVersion := meshProtocolVersion
  accepted := true
  networkID := membership.id
  nonce := responderNonce
  proof := meshProof membership.secret
    (responderParts membership.id initiator responder initiatorNonce responderNonce)
  error := []

/-- The checks of a responder: the membership and the hello that it accepts, or its refusal. -/
def checkMeshHello (memberships : Memberships) (initiator responder : PeerID) (line : List UInt8) :
    Except MeshWelcome (NetworkMembership × MeshHello) :=
  match readMeshHello line with
  | .error _ => .error (rejectedMeshWelcome "invalid mesh handshake".toList)
  | .ok hello =>
    if hello.type ≠ helloType then
      .error (rejectedMeshWelcome "invalid mesh handshake".toList)
    else if hello.protocolVersion ≠ meshProtocolVersion then
      .error (rejectedMeshWelcome
        ("unsupported mesh protocol version ".toList ++ Text.decimalInt hello.protocolVersion))
    else
      match memberships.get hello.network with
      | none => .error (rejectedMeshWelcome "membership authentication failed".toList)
      | some membership =>
        if membership.id ≠ hello.networkID then
          .error (rejectedMeshWelcome "membership authentication failed".toList)
        else
          match validateMeshNonce hello.nonce with
          | .error _ => .error (rejectedMeshWelcome "membership authentication failed".toList)
          | .ok () =>
            let expected := meshProof membership.secret
              (initiatorParts membership.id initiator responder hello.nonce)
            if ¬ proofsEqual expected hello.proof then
              .error (rejectedMeshWelcome "membership authentication failed".toList)
            else .ok (membership, hello)

/-- The handshake in `handleMeshStream`: the line of the welcome, and the membership and the hello
that are accepted. -/
def handleMeshHello (memberships : Memberships) (initiator responder : PeerID)
    (responderNonce : Text) (line : List UInt8) :
    Result (List UInt8) × Option (NetworkMembership × MeshHello) :=
  match checkMeshHello memberships initiator responder line with
  | .error welcome => (writeMeshFrame (marshalMeshWelcome welcome), none)
  | .ok (membership, hello) =>
    (writeMeshFrame (marshalMeshWelcome
      (acceptedMeshWelcome membership initiator responder hello.nonce responderNonce)),
      some (membership, hello))

/-- A hello that is accepted names a mounted network and has a proof that verifies. -/
theorem checkMeshHello_spec {memberships : Memberships} {initiator responder : PeerID}
    {line : List UInt8} {membership : NetworkMembership} {hello : MeshHello}
    (h : checkMeshHello memberships initiator responder line = .ok (membership, hello)) :
    readMeshHello line = .ok hello ∧ memberships.get hello.network = some membership ∧
      membership.id = hello.networkID ∧
      proofsEqual (meshProof membership.secret
        (initiatorParts membership.id initiator responder hello.nonce)) hello.proof = true := by
  unfold checkMeshHello at h
  split at h
  · cases h
  next hello' hread =>
  split_ifs at h
  split at h
  · cases h
  next membership' hget =>
  split_ifs at h with hid
  split at h
  · cases h
  dsimp only at h
  split_ifs at h with hproof
  obtain ⟨rfl, rfl⟩ := Prod.mk.inj (Except.ok.inj h)
  exact ⟨hread, hget, not_not.mp hid, hproof⟩

theorem handleMeshHello_eq_some {memberships : Memberships} {initiator responder : PeerID}
    {nonce : Text} {line : List UInt8} {frame : Result (List UInt8)}
    {membership : NetworkMembership} {hello : MeshHello}
    (h : handleMeshHello memberships initiator responder nonce line =
      (frame, some (membership, hello))) :
    checkMeshHello memberships initiator responder line = .ok (membership, hello) := by
  unfold handleMeshHello at h
  split at h
  · cases (Prod.mk.inj h).2
  · next membership' hello' hcheck =>
    obtain ⟨rfl, rfl⟩ := Prod.mk.inj (Option.some.inj (Prod.mk.inj h).2)
    exact hcheck

end Thalweg
