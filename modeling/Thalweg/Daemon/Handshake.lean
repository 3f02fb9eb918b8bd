import Thalweg.Data.Json.Spelling
import Thalweg.Daemon.Codec
import Thalweg.Daemon.Mesh

/-!
# Agreement of the mesh handshake

Peers that run this code open streams to each other and run the handshake on them, any number at a
time, while every line that arrives on a stream is chosen by an attacker. A stream is bound to the
peers at its ends. The key of one network is watched: the attacker does not hold it, so that a proof
under it verifies only for a message that a peer running this code has put a proof of into a frame
(`Unforged`). Other keys the attacker may hold.

## Main definitions

* `MeshRun`, `MeshRun.Step`, `MeshRun.Reachable`.
* `Agrees`: the two sides of a handshake agree on peers, network and nonce.

## Main results

* `MeshRun.Reachable.handshake_agreement`: an initiator that accepts a welcome, and a responder that
  accepts a hello, agree with a handshake of the other side.
-/

namespace Thalweg

open Relation

/-! ### Handshakes -/

/-- A stream by the peers at its ends. -/
structure MeshStream where
  initiator : PeerID
  responder : PeerID

/-- What has become of the handshake of an initiator. -/
inductive HandshakeOutcome where
  | waiting
  | accepted (responderNonce : Text)
  | failed

/-- A handshake of an initiator. -/
structure OutboundHandshake where
  stream : MeshStream
  membership : NetworkMembership
  initiatorNonce : Text
  outcome : HandshakeOutcome

/-- A handshake of a responder that has accepted a hello; `answered` says whether it has written the
welcome. -/
structure InboundHandshake where
  stream : MeshStream
  membership : NetworkMembership
  initiatorNonce : Text
  responderNonce : Text
  answered : Bool

def OutboundHandshake.parts (o : OutboundHandshake) : List Text :=
  initiatorParts o.membership.id o.stream.initiator o.stream.responder o.initiatorNonce

def InboundHandshake.parts (x : InboundHandshake) : List Text :=
  responderParts x.membership.id x.stream.initiator x.stream.responder x.initiatorNonce
    x.responderNonce

/-- The key of a membership. -/
def NetworkMembership.HasKey (membership : NetworkMembership) (key : List UInt8) : Prop :=
  Base64Url.decode membership.secret = some key

/-- Both sides of a handshake hold the key and agree on the peers, the network and the nonce of the
initiator. -/
structure Agrees (key : List UInt8) (o : OutboundHandshake) (x : InboundHandshake) : Prop where
  initiatorKey : o.membership.HasKey key
  responderKey : x.membership.HasKey key
  stream : x.stream = o.stream
  network : x.membership.id = o.membership.id
  nonce : x.initiatorNonce = o.initiatorNonce

/-! ### Runs -/

/-- The peers that run this code, with what they have done so far. -/
structure MeshRun where
  memberships : PeerID → Memberships
  /-- The streams on which a hello is awaited. -/
  streams : List MeshStream
  outbound : List OutboundHandshake
  inbound : List InboundHandshake
  /-- The nonces that were drawn. -/
  nonces : List Text
  /-- The keys and messages of the proofs in the frames that were written. -/
  proofs : List (List UInt8 × List UInt8)

/-- The key and the message of a proof. -/
def proofOf (secret : Text) (parts : List Text) : List (List UInt8 × List UInt8) :=
  match Base64Url.decode secret with
  | none => []
  | some key => [(key, meshProofMessage parts)]

/-- The proof verifies under the key only if a peer has written a proof of the message. -/
def Unforged (key : List UInt8) (proofs : List (List UInt8 × List UInt8)) (secret : Text)
    (parts : List Text) (proof : Text) : Prop :=
  Base64Url.decode secret = some key → proofsEqual (meshProof secret parts) proof = true →
    (key, meshProofMessage parts) ∈ proofs

namespace MeshRun

/-- No peer has done anything. -/
def initial : MeshRun := ⟨fun _ => OrderedStore.empty, [], [], [], [], []⟩

/-- A nonce of random bytes that was not drawn before. -/
def Fresh (s : MeshRun) (nonce : Text) : Prop :=
  nonce ∉ s.nonces ∧ ∃ random, random.length = meshNonceBytes ∧ nonce = newMeshNonce random

/-- The proof of a hello on a stream is no forgery. -/
def HelloUnforged (key : List UInt8) (s : MeshRun) (stream : MeshStream) (line : List UInt8) :
    Prop :=
  ∀ hello membership, readMeshHello line = .ok hello →
    (s.memberships stream.responder).get hello.network = some membership →
    Unforged key s.proofs membership.secret
      (initiatorParts membership.id stream.initiator stream.responder hello.nonce) hello.proof

/-- The proof of a welcome to an initiator is no forgery. -/
def WelcomeUnforged (key : List UInt8) (s : MeshRun) (o : OutboundHandshake) (line : List UInt8) :
    Prop :=
  ∀ welcome, readMeshWelcome line = .ok welcome →
    Unforged key s.proofs o.membership.secret
      (responderParts o.membership.id o.stream.initiator o.stream.responder o.initiatorNonce
        welcome.nonce) welcome.proof

/-- What becomes of the handshake of an initiator when a line arrives. -/
def outcomeOf (o : OutboundHandshake) (line : List UInt8) : HandshakeOutcome :=
  match receiveMeshWelcome o.membership o.stream.initiator o.stream.responder o.initiatorNonce
    line with
  | .ok responderNonce => .accepted responderNonce
  | .error _ => .failed

/-- A step of the peers and the attacker, where `key` is a key that the attacker does not hold. -/
inductive Step (key : List UInt8) (s : MeshRun) : MeshRun → Prop
  /-- Peers mount and leave networks. -/
  | mount (memberships : PeerID → Memberships) : Step key s { s with memberships }
  /-- A peer opens a stream and sends a hello on it. -/
  | dial {stream : MeshStream} {networkName : Text} {membership : NetworkMembership} {nonce : Text}
      {line : List UInt8} :
      (s.memberships stream.initiator).get networkName = some membership → s.Fresh nonce →
      sendMeshHello membership stream.initiator stream.responder nonce = .ok line →
      Step key s { s with
        streams := stream :: s.streams
        outbound := ⟨stream, membership, nonce, .waiting⟩ :: s.outbound
        nonces := nonce :: s.nonces
        proofs := proofOf membership.secret
          (initiatorParts membership.id stream.initiator stream.responder nonce) ++ s.proofs }
  /-- Any peer opens a stream. -/
  | connect (stream : MeshStream) : Step key s { s with streams := stream :: s.streams }
  /-- A peer refuses the first line that arrives on a stream. -/
  | refuse {before after : List MeshStream} {stream : MeshStream} {nonce : Text} {line : List UInt8}
      {frame : Result (List UInt8)} :
      s.streams = before ++ stream :: after →
      handleMeshHello (s.memberships stream.responder) stream.initiator stream.responder nonce
        line =
        (frame, none) →
      Step key s { s with streams := before ++ after }
  /-- A peer accepts the first line that arrives on a stream and answers it. -/
  | accept {before after : List MeshStream} {stream : MeshStream} {nonce : Text} {line : List UInt8}
      {frame : Result (List UInt8)} {membership : NetworkMembership} {hello : MeshHello} :
      s.streams = before ++ stream :: after → s.Fresh nonce → s.HelloUnforged key stream line →
      handleMeshHello (s.memberships stream.responder) stream.initiator stream.responder nonce
        line =
        (frame, some (membership, hello)) →
      Step key s { s with
        streams := before ++ after
        inbound := ⟨stream, membership, hello.nonce, nonce, frame.toBool⟩ :: s.inbound
        nonces := nonce :: s.nonces
        proofs := (if frame.toBool then proofOf membership.secret
          (responderParts membership.id stream.initiator stream.responder hello.nonce nonce) else
            []) ++
            s.proofs }
  /-- A line arrives at an initiator that waits for a welcome. -/
  | receive {before after : List OutboundHandshake} {o : OutboundHandshake} {line : List UInt8} :
      s.outbound = before ++ o :: after → o.outcome = .waiting → s.WelcomeUnforged key o line →
      Step key s { s with outbound := before ++ { o with outcome := outcomeOf o line } :: after }

/-- The runs reached from the start. -/
def Reachable (key : List UInt8) (s : MeshRun) : Prop := ReflTransGen (Step key) initial s

end MeshRun

/-! ### Sizes -/

/-- All parts are short enough to be told apart in the message of a proof. -/
def PartsFit (parts : List Text) : Prop := ∀ part ∈ parts, (Text.toBytes part).length < 2 ^ 32

/-- Proofs of the same message prove the same parts. -/
theorem meshProofMessage_injective {parts parts' : List Text} (h : PartsFit parts)
    (h' : PartsFit parts') (heq : meshProofMessage parts = meshProofMessage parts') :
      parts = parts' :=
  Text.toBytes_injective.list_map (LengthPrefix.encode_injective (List.forall_mem_map.mpr h)
    (List.forall_mem_map.mpr h') heq)

/-- A text that was in a frame is short. -/
theorem short_of_length_le {t : Text} (h : t.length ≤ meshMaxFrameBytes) :
    (Text.toBytes t).length < 2 ^ 32 := by
  have := (Text.length_toBytes t).2
  have : meshMaxFrameBytes = 16384 := rfl
  omega

theorem length_le_of_readMeshFrame {σ : Type} {fields : List (Text × Json.Setter σ)} {default s : σ}
    {line : List UInt8} (size : σ → Nat) (hdefault : size default = 0)
    (hset : ∀ f ∈ fields, ∀ s raw v s', f.2 s raw v = some s' →
      size s' = size s ∨ ∃ x, v = .str x ∧ size s' = x.length)
    (h : readMeshFrame fields default line = .ok s) : size s ≤ meshMaxFrameBytes := by
  unfold readMeshFrame at h
  split_ifs at h with hline
  · cases h
  have hlength : (Text.trimSpace (Text.ofBytes line)).length ≤ meshMaxFrameBytes :=
    (Text.length_trimSpace _).trans ((Text.length_ofBytes line).trans (not_lt.mp hline))
  unfold decodeStrictFrame at h
  split_ifs at h
  · cases h
  split at h
  · next value hvalue =>
    obtain rfl := Except.ok.inj h
    refine Json.decodeRecord_induction (P := fun s => size s ≤ meshMaxFrameBytes)
      (by rw [hdefault]; exact Nat.zero_le _) (fun f hf s raw v s' hs hspell hle hf' => ?_)
      hvalue
    rcases hset f hf s raw v s' hf' with heq | ⟨x, rfl, heq⟩
    · exact heq ▸ hs
    · exact heq ▸ (hspell.size x rfl).trans (hle.trans hlength)
  · cases h

theorem decodeText_cases {old x : Text} {v : Json} (h : Json.decodeText old v = some x) :
    x = old ∨ v = .str x := by
  cases v with
  | str s => exact Or.inr (congrArg Json.str (Option.some.inj h))
  | null => exact Or.inl (Option.some.inj h).symm
  | _ => cases h

/-- A field of a hello comes from the line. -/
theorem length_le_of_readMeshHello {line : List UInt8} {hello : MeshHello}
    (h : readMeshHello line = .ok hello) :
    hello.networkID.length ≤ meshMaxFrameBytes ∧ hello.nonce.length ≤ meshMaxFrameBytes := by
  constructor
  · refine length_le_of_readMeshFrame (fun hello => hello.networkID.length) rfl
      (fun f hf s raw v s' hset => ?_) h
    simp only [meshHelloFields, List.mem_cons, List.not_mem_nil, or_false] at hf
    rcases hf with rfl | rfl | rfl | rfl | rfl | rfl <;>
      obtain ⟨x, hx, rfl⟩ := Option.map_eq_some_iff.mp hset
    case inr.inr.inr.inl =>
      exact (decodeText_cases hx).imp (congrArg List.length) fun hv => ⟨x, hv, rfl⟩
    all_goals exact Or.inl rfl
  · refine length_le_of_readMeshFrame (fun hello => hello.nonce.length) rfl
      (fun f hf s raw v s' hset => ?_) h
    simp only [meshHelloFields, List.mem_cons, List.not_mem_nil, or_false] at hf
    rcases hf with rfl | rfl | rfl | rfl | rfl | rfl <;>
      obtain ⟨x, hx, rfl⟩ := Option.map_eq_some_iff.mp hset
    case inr.inr.inr.inr.inl =>
      exact (decodeText_cases hx).imp (congrArg List.length) fun hv => ⟨x, hv, rfl⟩
    all_goals exact Or.inl rfl

theorem length_le_of_readMeshWelcome {line : List UInt8} {welcome : MeshWelcome}
    (h : readMeshWelcome line = .ok welcome) : welcome.nonce.length ≤ meshMaxFrameBytes := by
  refine length_le_of_readMeshFrame (fun welcome => welcome.nonce.length) rfl
    (fun f hf s raw v s' hset => ?_) h
  simp only [meshWelcomeFields, List.mem_cons, List.not_mem_nil, or_false] at hf
  rcases hf with rfl | rfl | rfl | rfl | rfl | rfl | rfl <;>
    obtain ⟨x, hx, rfl⟩ := Option.map_eq_some_iff.mp hset
  case inr.inr.inr.inr.inl =>
    exact (decodeText_cases hx).imp (congrArg List.length) fun hv => ⟨x, hv, rfl⟩
  all_goals exact Or.inl rfl

/-- The network ID of a hello that is written fits a frame. -/
theorem length_le_of_sendMeshHello {membership : NetworkMembership} {initiator responder : PeerID}
    {nonce : Text} {line : List UInt8}
    (h : sendMeshHello membership initiator responder nonce = .ok line) :
    membership.id.length ≤ meshMaxFrameBytes := by
  unfold sendMeshHello writeMeshFrame at h
  split_ifs at h with hsize
  · cases h
  have hfield : (Json.quote membership.id).length ≤
      (marshalMeshHello (meshHello membership initiator responder nonce)).length :=
    Json.length_le_renderRecord (f := ("networkId".toList, Json.quote membership.id))
      (by simp [meshHello])
  exact (Json.length_le_quote _).trans
    (hfield.trans ((Text.length_toBytes _).1.trans (not_lt.mp hsize)))

theorem length_newMeshNonce {random : List UInt8} (h : random.length = meshNonceBytes) :
    (newMeshNonce random).length ≤ meshMaxFrameBytes := by
  have hdigits : ∀ bytes : List UInt8, (Base64Url.toDigits bytes).length ≤ 2 * bytes.length := by
    intro bytes
    induction bytes using Base64Url.toDigits.induct with
    | case1 => simp [Base64Url.toDigits]
    | case2 => simp [Base64Url.toDigits]
    | case3 => simp [Base64Url.toDigits]
    | case4 a b c rest ih =>
      simp only [Base64Url.toDigits, List.length_cons]
      omega
  have hlength := hdigits random
  have hbytes : meshNonceBytes = 32 := rfl
  have hframe : meshMaxFrameBytes = 16384 := rfl
  rw [newMeshNonce, Base64Url.encode, List.length_map]
  omega

theorem MeshRun.Fresh.length_le {s : MeshRun} {nonce : Text} (h : s.Fresh nonce) :
    nonce.length ≤ meshMaxFrameBytes := by
  obtain ⟨-, random, hrandom, rfl⟩ := h
  exact length_newMeshNonce hrandom

theorem partsFit_initiatorParts_iff {networkID nonce : Text} {initiator responder : PeerID} :
    PartsFit (initiatorParts networkID initiator responder nonce) ↔
      (Text.toBytes networkID).length < 2 ^ 32 ∧ (Text.toBytes nonce).length < 2 ^ 32 := by
  have hrole : (Text.toBytes "initiator".toList).length < 2 ^ 32 := by decide
  simp only [PartsFit, initiatorParts, List.mem_cons, List.not_mem_nil, or_false, forall_eq_or_imp,
    forall_eq, hrole, initiator.short, responder.short, true_and]

theorem partsFit_responderParts_iff {networkID nonce nonce' : Text} {initiator responder : PeerID} :
    PartsFit (responderParts networkID initiator responder nonce nonce') ↔
      (Text.toBytes networkID).length < 2 ^ 32 ∧ (Text.toBytes nonce).length < 2 ^ 32 ∧
        (Text.toBytes nonce').length < 2 ^ 32 := by
  have hrole : (Text.toBytes "responder".toList).length < 2 ^ 32 := by decide
  simp only [PartsFit, responderParts, List.mem_cons, List.not_mem_nil, or_false, forall_eq_or_imp,
    forall_eq, hrole, initiator.short, responder.short, true_and]

/-! ### Accepted frames -/

/-- A welcome that is accepted has a proof that verifies. -/
theorem outcomeOf_eq_accepted {o : OutboundHandshake} {line : List UInt8} {responderNonce : Text}
    (h : MeshRun.outcomeOf o line = .accepted responderNonce) :
    ∃ welcome, readMeshWelcome line = .ok welcome ∧ welcome.nonce = responderNonce ∧
      proofsEqual (meshProof o.membership.secret (responderParts o.membership.id o.stream.initiator
        o.stream.responder o.initiatorNonce welcome.nonce)) welcome.proof = true := by
  unfold MeshRun.outcomeOf at h
  split at h
  · next nonce hreceive =>
    obtain rfl := HandshakeOutcome.accepted.inj h
    obtain ⟨welcome, hread, hrest⟩ := bind_eq_ok_iff.mp hreceive
    split_ifs at hrest
    · cases hrest
    · cases hrest
    · cases hrest
    · obtain ⟨-, -, hproof⟩ := bind_eq_ok_iff.mp hrest
      dsimp only at hproof
      split_ifs at hproof with hequal
      · obtain rfl := Except.ok.inj hproof
        exact ⟨welcome, wrapf_eq_ok_iff.mp hread, rfl, hequal⟩
      · cases hproof
    · cases hrest
    · cases hrest
  · cases h

/-! ### Honest frames -/

/-- A proof verifies itself. -/
theorem proofsEqual_meshProof {membership : NetworkMembership} {key : List UInt8}
    (h : membership.HasKey key) (parts : List Text) :
    proofsEqual (meshProof membership.secret parts) (meshProof membership.secret parts) = true := by
  have hdecode : Base64Url.decode membership.secret = some key := h
  rw [meshProof, hdecode]
  simp [proofsEqual]

/-- A responder accepts the hello of an initiator with the same membership. -/
theorem handleMeshHello_meshHello {memberships : Memberships} {membership : NetworkMembership}
    {key : List UInt8} {initiator responder : PeerID} {nonce nonce' : Text} {line : List UInt8}
    (hkey : membership.HasKey key) (hget : memberships.get membership.name = some membership)
    (hnonce : validateMeshNonce nonce = .ok ())
    (hread : readMeshHello line = .ok (meshHello membership initiator responder nonce)) :
    handleMeshHello memberships initiator responder nonce' line =
      (writeMeshFrame (marshalMeshWelcome
        (acceptedMeshWelcome membership initiator responder nonce nonce')),
        some (membership, meshHello membership initiator responder nonce)) := by
  have hproof := proofsEqual_meshProof hkey (initiatorParts membership.id initiator responder nonce)
  have hcheck : checkMeshHello memberships initiator responder line =
      .ok (membership, meshHello membership initiator responder nonce) := by
    simp [checkMeshHello, hread, meshHello, hget, hnonce, hproof]
  rw [handleMeshHello, hcheck]
  rfl

/-- An initiator accepts the welcome that answers its hello. -/
theorem outcomeOf_acceptedMeshWelcome {o : OutboundHandshake} {key : List UInt8} {nonce : Text}
    {line : List UInt8} (hkey : o.membership.HasKey key) (hnonce : validateMeshNonce nonce = .ok ())
    (hread : readMeshWelcome line = .ok (acceptedMeshWelcome o.membership o.stream.initiator
      o.stream.responder o.initiatorNonce nonce)) :
    MeshRun.outcomeOf o line = .accepted nonce := by
  have hproof := proofsEqual_meshProof hkey (responderParts o.membership.id o.stream.initiator
    o.stream.responder o.initiatorNonce nonce)
  have hreceive : receiveMeshWelcome o.membership o.stream.initiator o.stream.responder
      o.initiatorNonce line = .ok nonce := by
    simp [receiveMeshWelcome, hread, wrapf, bind, Except.bind, acceptedMeshWelcome, hnonce, hproof]
  rw [MeshRun.outcomeOf, hreceive]

/-! ### Agreement -/

/-- What holds of the handshakes in every run. -/
structure MeshRun.Agreed (key : List UInt8) (s : MeshRun) : Prop where
  /-- Every proof under the key belongs to a handshake. -/
  proofs : ∀ message, (key, message) ∈ s.proofs →
    (∃ o ∈ s.outbound, o.membership.HasKey key ∧ message = meshProofMessage o.parts) ∨
      ∃ x ∈ s.inbound, x.membership.HasKey key ∧ x.answered = true ∧
        message = meshProofMessage x.parts
  outboundFits : ∀ o ∈ s.outbound, PartsFit o.parts
  inboundFits : ∀ x ∈ s.inbound, PartsFit x.parts
  inboundAgrees : ∀ x ∈ s.inbound, x.membership.HasKey key → ∃ o ∈ s.outbound, Agrees key o x
  outboundAgrees : ∀ o ∈ s.outbound, ∀ nonce, o.outcome = .accepted nonce →
    o.membership.HasKey key →
    ∃ x ∈ s.inbound, Agrees key o x ∧ x.responderNonce = nonce ∧ x.answered = true
  initiatorDrawn : ∀ o ∈ s.outbound, o.initiatorNonce ∈ s.nonces
  responderDrawn : ∀ x ∈ s.inbound, x.responderNonce ∈ s.nonces
  initiatorDistinct : (s.outbound.map OutboundHandshake.initiatorNonce).Nodup
  responderDistinct : (s.inbound.map InboundHandshake.responderNonce).Nodup

namespace MeshRun

theorem agreed_initial (key : List UInt8) : Agreed key initial where
  proofs _ h := absurd h List.not_mem_nil
  outboundFits := List.forall_mem_nil _
  inboundFits := List.forall_mem_nil _
  inboundAgrees := List.forall_mem_nil _
  outboundAgrees := List.forall_mem_nil _
  initiatorDrawn := List.forall_mem_nil _
  responderDrawn := List.forall_mem_nil _
  initiatorDistinct := List.nodup_nil
  responderDistinct := List.nodup_nil

theorem mem_proofOf_iff {key message : List UInt8} {secret : Text} {parts : List Text} :
    (key, message) ∈ proofOf secret parts ↔
      Base64Url.decode secret = some key ∧ message = meshProofMessage parts := by
  unfold proofOf
  cases Base64Url.decode secret with
  | none => simp
  | some key' => simp [eq_comm]

/-- The initiator of a handshake is the peer that a verified proof of an initiator names. -/
theorem eq_of_initiatorParts {networkID networkID' nonce nonce' : Text}
    {stream stream' : MeshStream}
    (h : initiatorParts networkID stream.initiator stream.responder nonce =
      initiatorParts networkID' stream'.initiator stream'.responder nonce') :
    networkID = networkID' ∧ stream = stream' ∧ nonce = nonce' := by
  obtain ⟨⟨initiator, _⟩, ⟨responder, _⟩⟩ := stream
  obtain ⟨⟨initiator', _⟩, ⟨responder', _⟩⟩ := stream'
  simp only [initiatorParts, List.cons.injEq, and_true, true_and] at h
  obtain ⟨rfl, rfl, rfl, rfl⟩ := h
  exact ⟨rfl, rfl, rfl⟩

theorem eq_of_responderParts {networkID networkID' nonce nonce' other other' : Text}
    {stream stream' : MeshStream}
    (h : responderParts networkID stream.initiator stream.responder nonce other =
      responderParts networkID' stream'.initiator stream'.responder nonce' other') :
    networkID = networkID' ∧ stream = stream' ∧ nonce = nonce' ∧ other = other' := by
  obtain ⟨⟨initiator, _⟩, ⟨responder, _⟩⟩ := stream
  obtain ⟨⟨initiator', _⟩, ⟨responder', _⟩⟩ := stream'
  simp only [responderParts, List.cons.injEq, and_true, true_and] at h
  obtain ⟨rfl, rfl, rfl, rfl, rfl⟩ := h
  exact ⟨rfl, rfl, rfl, rfl⟩

/-- A proof of an initiator that is no forgery was written by an initiator with the same peers,
network and nonce. -/
theorem Agreed.exists_outbound {key : List UInt8} {s : MeshRun} (h : s.Agreed key)
    {networkID nonce : Text}
    {stream : MeshStream} (hfit : PartsFit
      (initiatorParts networkID stream.initiator stream.responder nonce))
    (hmem : (key, meshProofMessage
      (initiatorParts networkID stream.initiator stream.responder nonce)) ∈ s.proofs) :
    ∃ o ∈ s.outbound, o.membership.HasKey key ∧ o.membership.id = networkID ∧ o.stream = stream ∧
      o.initiatorNonce = nonce := by
  rcases h.proofs _ hmem with ⟨o, ho, hkey, heq⟩ | ⟨x, hx, -, -, heq⟩
  · obtain ⟨hid, hstream, hnonce⟩ :=
      eq_of_initiatorParts (meshProofMessage_injective hfit (h.outboundFits o ho) heq)
    exact ⟨o, ho, hkey, hid.symm, hstream.symm, hnonce.symm⟩
  · -- a proof of a responder has one part more
    have hparts := meshProofMessage_injective hfit (h.inboundFits x hx) heq
    exact absurd (congrArg List.length hparts)
      (by simp [initiatorParts, InboundHandshake.parts, responderParts])

/-- A proof of a responder that is no forgery was written by a responder with the same peers,
network and nonces. -/
theorem Agreed.exists_inbound {key : List UInt8} {s : MeshRun} (h : s.Agreed key)
    {networkID nonce other : Text} {stream : MeshStream}
    (hfit : PartsFit (responderParts networkID stream.initiator stream.responder nonce other))
    (hmem : (key, meshProofMessage
      (responderParts networkID stream.initiator stream.responder nonce other)) ∈ s.proofs) :
    ∃ x ∈ s.inbound, x.membership.HasKey key ∧ x.answered = true ∧ x.membership.id = networkID ∧
      x.stream = stream ∧ x.initiatorNonce = nonce ∧ x.responderNonce = other := by
  rcases h.proofs _ hmem with ⟨o, ho, -, heq⟩ | ⟨x, hx, hkey, hanswered, heq⟩
  · have hparts := meshProofMessage_injective hfit (h.outboundFits o ho) heq
    exact absurd (congrArg List.length hparts)
      (by simp [responderParts, OutboundHandshake.parts, initiatorParts])
  · obtain ⟨hid, hstream, hnonce, hother⟩ :=
      eq_of_responderParts (meshProofMessage_injective hfit (h.inboundFits x hx) heq)
    exact ⟨x, hx, hkey, hanswered, hid.symm, hstream.symm, hnonce.symm, hother.symm⟩

/-- Sending a hello. -/
theorem Agreed.dial {key : List UInt8} {s : MeshRun} (h : s.Agreed key) {stream : MeshStream}
    {membership : NetworkMembership} {nonce : Text} {line : List UInt8} (hfresh : s.Fresh nonce)
    (hsend : sendMeshHello membership stream.initiator stream.responder nonce = .ok line) :
    Agreed key { s with
      streams := stream :: s.streams
      outbound := ⟨stream, membership, nonce, .waiting⟩ :: s.outbound
      nonces := nonce :: s.nonces
      proofs := proofOf membership.secret
        (initiatorParts membership.id stream.initiator stream.responder nonce) ++ s.proofs } where
  proofs message hmem := by
    rcases List.mem_append.mp hmem with hnew | hold
    · obtain ⟨hkey, rfl⟩ := mem_proofOf_iff.mp hnew
      exact Or.inl ⟨_, List.mem_cons_self, hkey, rfl⟩
    · exact (h.proofs message hold).imp_left fun ⟨o, ho, hrest⟩ =>
        ⟨o, List.mem_cons_of_mem _ ho, hrest⟩
  outboundFits := List.forall_mem_cons.mpr ⟨partsFit_initiatorParts_iff.mpr
    ⟨short_of_length_le (length_le_of_sendMeshHello hsend), short_of_length_le hfresh.length_le⟩,
    h.outboundFits⟩
  inboundFits := h.inboundFits
  inboundAgrees x hx hkey :=
    let ⟨o, ho, hagrees⟩ := h.inboundAgrees x hx hkey
    ⟨o, List.mem_cons_of_mem _ ho, hagrees⟩
  outboundAgrees o ho other houtcome hkey := by
    rcases List.mem_cons.mp ho with rfl | ho
    · cases houtcome
    · exact h.outboundAgrees o ho other houtcome hkey
  initiatorDrawn := List.forall_mem_cons.mpr ⟨List.mem_cons_self,
    fun o ho => List.mem_cons_of_mem _ (h.initiatorDrawn o ho)⟩
  responderDrawn x hx := List.mem_cons_of_mem _ (h.responderDrawn x hx)
  initiatorDistinct := by
    refine List.nodup_cons.mpr ⟨fun hmem => ?_, h.initiatorDistinct⟩
    obtain ⟨o, ho, rfl⟩ := List.mem_map.mp hmem
    exact hfresh.1 (h.initiatorDrawn o ho)
  responderDistinct := h.responderDistinct

/-- Accepting a hello. -/
theorem Agreed.accept {key : List UInt8} {s : MeshRun} (h : s.Agreed key)
    {streams : List MeshStream}
    {stream : MeshStream} {membership : NetworkMembership} {nonce : Text} {line : List UInt8}
    {frame : Result (List UInt8)} {hello : MeshHello} (hfresh : s.Fresh nonce)
    (hunforged : s.HelloUnforged key stream line)
    (hhandle : handleMeshHello (s.memberships stream.responder) stream.initiator stream.responder
      nonce
      line = (frame, some (membership, hello))) :
    Agreed key { s with
      streams
      inbound := ⟨stream, membership, hello.nonce, nonce, frame.toBool⟩ :: s.inbound
      nonces := nonce :: s.nonces
      proofs := (if frame.toBool then proofOf membership.secret
        (responderParts membership.id stream.initiator stream.responder hello.nonce nonce) else [])
          ++
          s.proofs } := by
  obtain ⟨hread, hget, hid, hproof⟩ := checkMeshHello_spec (handleMeshHello_eq_some hhandle)
  have hlength := length_le_of_readMeshHello hread
  rw [← hid] at hlength
  have hshort := hlength.imp short_of_length_le short_of_length_le
  have hagrees : membership.HasKey key → ∃ o ∈ s.outbound,
      Agrees key o ⟨stream, membership, hello.nonce, nonce, frame.toBool⟩ := by
    intro hkey
    obtain ⟨o, ho, hokey, hoid, hostream, hononce⟩ := h.exists_outbound
      (partsFit_initiatorParts_iff.mpr hshort) (hunforged hello membership hread hget hkey hproof)
    exact ⟨o, ho, hokey, hkey, hostream.symm, hoid.symm, hononce.symm⟩
  exact {
    proofs := by
      intro message hmem
      rcases List.mem_append.mp hmem with hnew | hold
      · split_ifs at hnew with hframe
        · obtain ⟨hkey, rfl⟩ := mem_proofOf_iff.mp hnew
          exact Or.inr ⟨_, List.mem_cons_self, hkey, hframe, rfl⟩
        · cases hnew
      · exact (h.proofs message hold).imp_right fun ⟨x, hx, hrest⟩ =>
          ⟨x, List.mem_cons_of_mem _ hx, hrest⟩
    outboundFits := h.outboundFits
    inboundFits := List.forall_mem_cons.mpr
      ⟨partsFit_responderParts_iff.mpr ⟨hshort.1, hshort.2, short_of_length_le hfresh.length_le⟩,
        h.inboundFits⟩
    inboundAgrees := List.forall_mem_cons.mpr ⟨hagrees, h.inboundAgrees⟩
    outboundAgrees := fun o ho other houtcome hkey =>
      let ⟨x, hx, hrest⟩ := h.outboundAgrees o ho other houtcome hkey
      ⟨x, List.mem_cons_of_mem _ hx, hrest⟩
    initiatorDrawn := fun o ho => List.mem_cons_of_mem _ (h.initiatorDrawn o ho)
    responderDrawn := List.forall_mem_cons.mpr ⟨List.mem_cons_self,
      fun x hx => List.mem_cons_of_mem _ (h.responderDrawn x hx)⟩
    initiatorDistinct := h.initiatorDistinct
    responderDistinct := by
      refine List.nodup_cons.mpr ⟨fun hmem => ?_, h.responderDistinct⟩
      obtain ⟨x, hx, rfl⟩ := List.mem_map.mp hmem
      exact hfresh.1 (h.responderDrawn x hx) }

/-- Receiving a welcome. -/
theorem Agreed.receive {key : List UInt8} {s : MeshRun} (h : s.Agreed key)
    {before after : List OutboundHandshake} {o : OutboundHandshake} {line : List UInt8}
    (hs : s.outbound = before ++ o :: after) (hunforged : s.WelcomeUnforged key o line) :
    Agreed key { s with outbound :=
      before ++ { o with outcome := outcomeOf o line } :: after } := by
  have hmem : o ∈ s.outbound := by simp [hs]
  have hold : ∀ p ∈ s.outbound, ∃ p' ∈ before ++ { o with outcome := outcomeOf o line } :: after,
      p'.parts = p.parts ∧ p'.membership = p.membership ∧ p'.stream = p.stream ∧
        p'.initiatorNonce = p.initiatorNonce := by
    intro p hp
    rw [hs] at hp
    rcases List.mem_append.mp hp with hp | hp
    · exact ⟨p, List.mem_append_left _ hp, rfl, rfl, rfl, rfl⟩
    · rcases List.mem_cons.mp hp with rfl | hp
      · exact ⟨_, List.mem_append_right _ List.mem_cons_self, rfl, rfl, rfl, rfl⟩
      · exact ⟨p, List.mem_append_right _ (List.mem_cons_of_mem _ hp), rfl, rfl, rfl, rfl⟩
  have hnew : ∀ p ∈ before ++ { o with outcome := outcomeOf o line } :: after,
      p ∈ s.outbound ∨ p = { o with outcome := outcomeOf o line } := by
    intro p hp
    rw [hs]
    rcases List.mem_append.mp hp with hp | hp
    · exact Or.inl (List.mem_append_left _ hp)
    · rcases List.mem_cons.mp hp with rfl | hp
      · exact Or.inr rfl
      · exact Or.inl (List.mem_append_right _ (List.mem_cons_of_mem _ hp))
  exact {
    proofs := fun message hm => (h.proofs message hm).imp_left fun ⟨p, hp, hkey, heq⟩ => by
      obtain ⟨p', hp', hparts, hmembership, -⟩ := hold p hp
      exact ⟨p', hp', hmembership ▸ hkey, hparts ▸ heq⟩
    outboundFits := by
      intro p hp
      rcases hnew p hp with hp | rfl
      · exact h.outboundFits p hp
      · exact h.outboundFits o hmem
    inboundFits := h.inboundFits
    inboundAgrees := by
      intro x hx hkey
      obtain ⟨p, hp, hagrees⟩ := h.inboundAgrees x hx hkey
      obtain ⟨p', hp', -, hmembership, hstream, hnonce⟩ := hold p hp
      exact ⟨p', hp', hmembership ▸ hagrees.initiatorKey, hkey, hagrees.stream.trans hstream.symm,
        hagrees.network.trans (congrArg _ hmembership.symm), hagrees.nonce.trans hnonce.symm⟩
    outboundAgrees := by
      intro p hp other houtcome hkey
      rcases hnew p hp with hp | rfl
      · exact h.outboundAgrees p hp other houtcome hkey
      obtain ⟨welcome, hread, rfl, hproof⟩ := outcomeOf_eq_accepted houtcome
      obtain ⟨hid, hnonce⟩ := partsFit_initiatorParts_iff.mp (h.outboundFits o hmem)
      have hother := short_of_length_le (length_le_of_readMeshWelcome hread)
      obtain ⟨x, hx, hxkey, hanswered, hxid, hstream, hxnonce, hxother⟩ := h.exists_inbound
        (partsFit_responderParts_iff.mpr ⟨hid, hnonce, hother⟩)
          (hunforged welcome hread hkey hproof)
      exact ⟨x, hx, ⟨hkey, hxkey, hstream, hxid, hxnonce⟩, hxother, hanswered⟩
    initiatorDrawn := by
      intro p hp
      rcases hnew p hp with hp | rfl
      · exact h.initiatorDrawn p hp
      · exact h.initiatorDrawn o hmem
    responderDrawn := h.responderDrawn
    initiatorDistinct := by
      have hdistinct := h.initiatorDistinct
      rw [hs] at hdistinct
      simpa using hdistinct
    responderDistinct := h.responderDistinct }

/-- Every step keeps the agreement. -/
theorem Agreed.step {key : List UInt8} {s s' : MeshRun} (h : s.Agreed key) (hstep : Step key s s') :
    s'.Agreed key := by
  cases hstep with
  | mount memberships => exact { h with }
  | connect stream => exact { h with }
  | refuse hs hhandle => exact { h with }
  | dial hget hfresh hsend => exact h.dial hfresh hsend
  | accept hs hfresh hunforged hhandle => exact h.accept hfresh hunforged hhandle
  | receive hs hwaiting hunforged => exact h.receive hs hunforged

theorem Reachable.agreed {key : List UInt8} {s : MeshRun} (h : Reachable key s) : s.Agreed key := by
  induction h with
  | refl => exact agreed_initial key
  | tail hrun hstep ih => exact ih.step hstep

/-- **Authentication and agreement.** An initiator that has accepted a welcome agrees with exactly
one handshake in which the responder has answered with the nonce of that welcome, a responder that
has accepted a hello agrees with a handshake of the initiator, and with one only. -/
theorem Reachable.handshake_agreement {key : List UInt8} {s : MeshRun} (h : Reachable key s) :
    (∀ o ∈ s.outbound, ∀ nonce, o.outcome = .accepted nonce → o.membership.HasKey key →
      ∃! x, x ∈ s.inbound ∧ Agrees key o x ∧ x.responderNonce = nonce ∧ x.answered = true) ∧
    (∀ x ∈ s.inbound, x.membership.HasKey key → ∃! o, o ∈ s.outbound ∧ Agrees key o x) := by
  have hagreed := h.agreed
  constructor
  · intro o ho nonce houtcome hkey
    obtain ⟨x, hx, hagrees, hnonce, hanswered⟩ := hagreed.outboundAgrees o ho nonce houtcome hkey
    refine ⟨x, ⟨hx, hagrees, hnonce, hanswered⟩, fun y ⟨hy, _, hynonce, _⟩ => ?_⟩
    exact List.inj_on_of_nodup_map hagreed.responderDistinct hy hx (hynonce.trans hnonce.symm)
  · intro x hx hkey
    obtain ⟨o, ho, hagrees⟩ := hagreed.inboundAgrees x hx hkey
    refine ⟨o, ⟨ho, hagrees⟩, fun p ⟨hp, hpagrees⟩ => ?_⟩
    exact List.inj_on_of_nodup_map hagreed.initiatorDistinct hp ho
      (hpagrees.nonce.symm.trans hagrees.nonce)

end MeshRun

/-! ### One handshake -/

/-- A key that the attacker does not hold. -/
def zeroKey : List UInt8 := List.replicate networkSecretBytes 0

theorem peerText_short (c : Char) : (Text.toBytes [c]).length < 2 ^ 32 :=
  short_of_length_le (show 1 ≤ meshMaxFrameBytes by decide)

def oneStream : MeshStream := ⟨⟨['A'], peerText_short 'A'⟩, ⟨['B'], peerText_short 'B'⟩⟩

def oneMembership : NetworkMembership :=
  ⟨['h'], Base64Url.encode (List.replicate networkIDBytes 0), Base64Url.encode zeroKey⟩

def oneNonce (b : UInt8) : Text := newMeshNonce (List.replicate meshNonceBytes b)

def oneHelloProof : Text := "FTNW25Cyiu2vQbZr-J7pkr7iQntjLUiKo_7fUfN48a8".toList

def oneWelcomeProof : Text := "eqJX_dDuSjwk1xdUjAvWxxm0Rz3pTIJLv-XFMMxBMRU".toList

def oneHello : MeshHello :=
  ⟨helloType, 1, ['h'], oneMembership.id, oneNonce 1, oneHelloProof⟩

def oneWelcome : MeshWelcome :=
  ⟨welcomeType, 1, true, oneMembership.id, oneNonce 2, oneWelcomeProof, []⟩

def oneHelloLine : List UInt8 := Text.toBytes (marshalMeshHello oneHello)

def oneWelcomeLine : List UInt8 := Text.toBytes (marshalMeshWelcome oneWelcome)

/-- The frames are those of the membership and the nonces. -/
theorem oneFrames :
    meshProof oneMembership.secret (initiatorParts oneMembership.id oneStream.initiator
      oneStream.responder (oneNonce 1)) = oneHelloProof ∧
    meshProof oneMembership.secret (responderParts oneMembership.id oneStream.initiator
      oneStream.responder (oneNonce 1) (oneNonce 2)) = oneWelcomeProof ∧
    (readMeshHello oneHelloLine).toOption = some oneHello ∧
    (readMeshWelcome oneWelcomeLine).toOption = some oneWelcome ∧
    (writeMeshFrame (marshalMeshHello oneHello)).toOption = some oneHelloLine ∧
    (writeMeshFrame (marshalMeshWelcome oneWelcome)).toOption = some oneWelcomeLine :=
  ⟨by decide +kernel, by decide +kernel, by decide +kernel, by decide +kernel, by decide +kernel,
    by decide +kernel⟩

theorem meshProof_oneHelloProof : meshProof oneMembership.secret
    (initiatorParts oneMembership.id oneStream.initiator oneStream.responder (oneNonce 1)) =
      oneHelloProof := oneFrames.1

theorem meshProof_oneWelcomeProof : meshProof oneMembership.secret
    (responderParts oneMembership.id oneStream.initiator oneStream.responder (oneNonce 1)
      (oneNonce 2)) = oneWelcomeProof := oneFrames.2.1

/-- Both peers have mounted the network. -/
def oneMounted : MeshRun :=
  { MeshRun.initial with memberships :=
    fun _ => OrderedStore.set OrderedStore.empty ['h'] oneMembership }

/-- One of them has sent a hello. -/
def oneDialed : MeshRun :=
  { oneMounted with
    streams := [oneStream]
    outbound := [⟨oneStream, oneMembership, oneNonce 1, .waiting⟩]
    nonces := [oneNonce 1]
    proofs := [(zeroKey, meshProofMessage
      (initiatorParts oneMembership.id oneStream.initiator oneStream.responder (oneNonce 1)))] }

/-- The other one has accepted it. -/
def oneAccepted : MeshRun :=
  { oneDialed with
    streams := []
    inbound := [⟨oneStream, oneMembership, oneNonce 1, oneNonce 2, true⟩]
    nonces := [oneNonce 2, oneNonce 1]
    proofs := (zeroKey, meshProofMessage (responderParts oneMembership.id oneStream.initiator
      oneStream.responder (oneNonce 1) (oneNonce 2))) :: oneDialed.proofs }

/-- The welcome has been accepted. -/
def oneHandshake : MeshRun :=
  { oneAccepted with outbound := [⟨oneStream, oneMembership, oneNonce 1, .accepted (oneNonce 2)⟩] }

theorem oneMembership_hasKey : oneMembership.HasKey zeroKey := Base64Url.decode_encode zeroKey

theorem proofOf_oneMembership (parts : List Text) :
    proofOf oneMembership.secret parts = [(zeroKey, meshProofMessage parts)] := by
  rw [proofOf, oneMembership_hasKey]

theorem readMeshHello_oneHelloLine : readMeshHello oneHelloLine = .ok oneHello :=
  eq_ok_of_toOption oneFrames.2.2.1

theorem readMeshWelcome_oneWelcomeLine : readMeshWelcome oneWelcomeLine = .ok oneWelcome :=
  eq_ok_of_toOption oneFrames.2.2.2.1

theorem writeMeshFrame_oneHello : writeMeshFrame (marshalMeshHello oneHello) = .ok oneHelloLine :=
  eq_ok_of_toOption oneFrames.2.2.2.2.1

theorem writeMeshFrame_oneWelcome :
    writeMeshFrame (marshalMeshWelcome oneWelcome) = .ok oneWelcomeLine :=
  eq_ok_of_toOption oneFrames.2.2.2.2.2

theorem meshHello_eq_oneHello :
    meshHello oneMembership oneStream.initiator oneStream.responder (oneNonce 1) = oneHello := by
  rw [meshHello, meshProof_oneHelloProof]
  rfl

theorem acceptedMeshWelcome_eq_oneWelcome : acceptedMeshWelcome oneMembership oneStream.initiator
    oneStream.responder (oneNonce 1) (oneNonce 2) = oneWelcome := by
  rw [acceptedMeshWelcome, meshProof_oneWelcomeProof]
  rfl

theorem validateMeshNonce_oneNonce (b : UInt8) : validateMeshNonce (oneNonce b) = .ok () := by
  simp [validateMeshNonce, oneNonce, newMeshNonce]

/-- A responder that has mounted the network accepts the hello. -/
theorem handleMeshHello_oneHelloLine {memberships : Memberships}
    (hget : memberships.get oneMembership.name = some oneMembership) :
    handleMeshHello memberships oneStream.initiator oneStream.responder (oneNonce 2) oneHelloLine =
      (.ok oneWelcomeLine, some (oneMembership, meshHello oneMembership oneStream.initiator
        oneStream.responder (oneNonce 1))) := by
  have hread : readMeshHello oneHelloLine = .ok (meshHello oneMembership oneStream.initiator
      oneStream.responder (oneNonce 1)) := by
    rw [meshHello_eq_oneHello, readMeshHello_oneHelloLine]
  rw [handleMeshHello_meshHello oneMembership_hasKey hget (validateMeshNonce_oneNonce 1) hread,
    acceptedMeshWelcome_eq_oneWelcome, writeMeshFrame_oneWelcome]

namespace MeshRun

theorem oneDialed_step : Step zeroKey oneMounted oneDialed := by
  have hget : (oneMounted.memberships oneStream.initiator).get ['h'] = some oneMembership := by
    decide
  have hfresh : oneMounted.Fresh (oneNonce 1) := ⟨List.not_mem_nil, _, by decide, rfl⟩
  have hsend : sendMeshHello oneMembership oneStream.initiator oneStream.responder (oneNonce 1) =
      .ok oneHelloLine := by
    rw [sendMeshHello, meshHello_eq_oneHello, writeMeshFrame_oneHello]
    rfl
  have hstep : Step zeroKey oneMounted _ := Step.dial hget hfresh hsend
  rw [proofOf_oneMembership] at hstep
  exact hstep

theorem oneAccepted_step : Step zeroKey oneDialed oneAccepted := by
  have hget : (oneDialed.memberships oneStream.responder).get oneMembership.name =
    some oneMembership := by
    decide
  have hfresh : oneDialed.Fresh (oneNonce 2) := ⟨by decide, _, by decide, rfl⟩
  have hunforged : oneDialed.HelloUnforged zeroKey oneStream oneHelloLine := by
    intro hello membership hread hmembership _ _
    obtain rfl := Except.ok.inj (readMeshHello_oneHelloLine.symm.trans hread)
    obtain rfl := Option.some.inj (hget.symm.trans hmembership)
    exact List.mem_cons_self
  have hstep := @Step.accept zeroKey oneDialed [] [] _ _ _ _ _ _ rfl hfresh hunforged
    (handleMeshHello_oneHelloLine hget)
  rw [proofOf_oneMembership] at hstep
  exact hstep

theorem oneHandshake_step : Step zeroKey oneAccepted oneHandshake := by
  let o : OutboundHandshake := ⟨oneStream, oneMembership, oneNonce 1, .waiting⟩
  have hunforged : oneAccepted.WelcomeUnforged zeroKey o oneWelcomeLine := by
    intro welcome hread _ _
    obtain rfl := Except.ok.inj (readMeshWelcome_oneWelcomeLine.symm.trans hread)
    exact List.mem_cons_self
  have houtcome : outcomeOf o oneWelcomeLine = _ := outcomeOf_acceptedMeshWelcome oneMembership_hasKey
    (validateMeshNonce_oneNonce 2)
    (readMeshWelcome_oneWelcomeLine.trans (by rw [acceptedMeshWelcome_eq_oneWelcome]))
  have hstep := @Step.receive zeroKey oneAccepted [] [] o _ rfl rfl hunforged
  rw [houtcome] at hstep
  exact hstep

theorem oneHandshake_reachable : Reachable zeroKey oneHandshake :=
  (((ReflTransGen.refl.tail (Step.mount _)).tail oneDialed_step).tail oneAccepted_step).tail
    oneHandshake_step

/-- The handshake of the run that has accepted a welcome agrees with the one that has sent it. -/
theorem oneHandshake_agreement : ∃ o ∈ oneHandshake.outbound, o.outcome = .accepted (oneNonce 2) ∧
    ∃! x, x ∈ oneHandshake.inbound ∧ Agrees zeroKey o x ∧ x.responderNonce = oneNonce 2 ∧
      x.answered = true :=
  ⟨_, List.mem_cons_self, rfl, oneHandshake_reachable.handshake_agreement.1 _ List.mem_cons_self _
    rfl
    oneMembership_hasKey⟩

end MeshRun

end Thalweg
