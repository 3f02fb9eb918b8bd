import Thalweg.Daemon.Mesh

/-!
# Transcripts of mesh proofs

A proof authenticates its parts, each written after its length. The parts are strings of any bytes;
as long as each is shorter than `2 ^ 32` bytes, no two lists of parts are written as the same bytes.

## Main definitions

* `proofInput`: what `meshProof` writes to the MAC.
* `initiatorTranscript`, `responderTranscript`: what the two sides of a handshake prove.

## Main results

* `meshProof_eq`: a proof is the MAC of its input.
* `proofInput_unambiguous`.
-/

namespace Thalweg

/-- What the loop of `meshProof` writes: the length of each part, as four bytes, and the part. -/
def proofInput (parts : List (List UInt8)) : List UInt8 :=
  parts.foldl (fun written part => written ++ Sha256.wordBytes part.length ++ part) []

theorem foldl_write_eq (parts : List (List UInt8)) (written : List UInt8) :
    parts.foldl (fun written part => written ++ Sha256.wordBytes part.length ++ part) written =
      written ++ LengthPrefix.encode parts := by
  induction parts generalizing written with
  | nil => rw [List.foldl_nil, LengthPrefix.encode, List.append_nil]
  | cons part parts ih => rw [List.foldl_cons, ih, LengthPrefix.encode, ← List.append_assoc,
      ← List.append_assoc]

theorem proofInput_eq_encode (parts : List (List UInt8)) :
    proofInput parts = LengthPrefix.encode parts := foldl_write_eq parts []

/-- A proof is the MAC of what is written for its parts. -/
theorem meshProof_eq (secret : Text) (parts : List Text) : meshProof secret parts =
    match Base64Url.decode secret with
    | none => []
    | some key => Base64Url.encode (Sha256.hmac key (proofInput (parts.map Text.toBytes))) := by
  rw [proofInput_eq_encode]
  rfl

/-- What an initiator proves. -/
def initiatorTranscript (networkID initiator responder initiatorNonce : List UInt8) :
    List (List UInt8) :=
  [Text.toBytes "initiator".toList, networkID, initiator, responder, initiatorNonce]

/-- What a responder proves. -/
def responderTranscript (networkID initiator responder initiatorNonce responderNonce : List UInt8) :
    List (List UInt8) :=
  [Text.toBytes "responder".toList, networkID, initiator, responder, initiatorNonce, responderNonce]

theorem map_toBytes_initiatorParts (networkID : Text) (initiator responder : PeerID)
    (nonce : Text) : (initiatorParts networkID initiator responder nonce).map Text.toBytes =
      initiatorTranscript (Text.toBytes networkID) (Text.toBytes initiator.text)
        (Text.toBytes responder.text) (Text.toBytes nonce) := rfl

theorem map_toBytes_responderParts (networkID : Text) (initiator responder : PeerID)
    (nonce nonce' : Text) :
    (responderParts networkID initiator responder nonce nonce').map Text.toBytes =
      responderTranscript (Text.toBytes networkID) (Text.toBytes initiator.text)
        (Text.toBytes responder.text) (Text.toBytes nonce) (Text.toBytes nonce') := rfl

theorem initiatorTranscript_ne_responderTranscript (n i r a n' i' r' a' b' : List UInt8) :
    initiatorTranscript n i r a ≠ responderTranscript n' i' r' a' b' := by
  intro h
  have hlength := congrArg List.length h
  simp [initiatorTranscript, responderTranscript] at hlength

theorem initiatorTranscript_inj {n i r a n' i' r' a' : List UInt8} :
    initiatorTranscript n i r a = initiatorTranscript n' i' r' a' ↔
      n = n' ∧ i = i' ∧ r = r' ∧ a = a' := by
  simp [initiatorTranscript]

theorem responderTranscript_inj {n i r a b n' i' r' a' b' : List UInt8} :
    responderTranscript n i r a b = responderTranscript n' i' r' a' b' ↔
      n = n' ∧ i = i' ∧ r = r' ∧ a = a' ∧ b = b' := by
  simp [responderTranscript]

/-- **Unambiguous transcripts.** Lists of short parts that are written as the same bytes are the
same. So no transcript of an initiator is written as one of a responder, and transcripts of one side
that are written as the same bytes have the same network ID, peers and nonces. -/
theorem proofInput_unambiguous {parts parts' : List (List UInt8)}
    (hparts : ∀ part ∈ parts, part.length < 2 ^ 32)
    (hparts' : ∀ part ∈ parts', part.length < 2 ^ 32) :
    (proofInput parts = proofInput parts' → parts = parts') ∧
    (∀ n i r a n' i' r' a' b', parts = initiatorTranscript n i r a →
      parts' = responderTranscript n' i' r' a' b' → proofInput parts ≠ proofInput parts') ∧
    (∀ n i r a n' i' r' a', parts = initiatorTranscript n i r a →
      parts' = initiatorTranscript n' i' r' a' → proofInput parts = proofInput parts' →
      n = n' ∧ i = i' ∧ r = r' ∧ a = a') ∧
    ∀ n i r a b n' i' r' a' b', parts = responderTranscript n i r a b →
      parts' = responderTranscript n' i' r' a' b' → proofInput parts = proofInput parts' →
      n = n' ∧ i = i' ∧ r = r' ∧ a = a' ∧ b = b' := by
  have hinjective : proofInput parts = proofInput parts' → parts = parts' := by
    rw [proofInput_eq_encode, proofInput_eq_encode]
    exact LengthPrefix.encode_injective hparts hparts'
  refine ⟨hinjective, ?_, ?_, ?_⟩
  · rintro n i r a n' i' r' a' b' rfl rfl h
    exact initiatorTranscript_ne_responderTranscript _ _ _ _ _ _ _ _ _ (hinjective h)
  · rintro n i r a n' i' r' a' rfl rfl h
    exact initiatorTranscript_inj.mp (hinjective h)
  · rintro n i r a b n' i' r' a' b' rfl rfl h
    exact responderTranscript_inj.mp (hinjective h)

/-- Transcripts whose strings are alike when they are joined. -/
theorem shiftedTranscripts_unambiguous :
    proofInput (initiatorTranscript [110, 101] [116, 100] [101] [118]) ≠
        proofInput (initiatorTranscript [110] [101, 116] [100, 101] [118]) ∧
      proofInput (initiatorTranscript [110, 101] [116, 100] [101] [118]) ≠
        proofInput (responderTranscript [110] [101] [116] [100, 101] [118]) := by
  refine ⟨fun h => ?_, ?_⟩
  · have hparts := (proofInput_unambiguous (by decide) (by decide)).2.2.1 _ _ _ _ _ _ _ _ rfl rfl h
    exact absurd hparts (by decide)
  · exact (proofInput_unambiguous (by decide) (by decide)).2.1 _ _ _ _ _ _ _ _ _ rfl rfl

end Thalweg
