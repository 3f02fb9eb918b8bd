import Thalweg.Data.Unwinding
import Thalweg.Daemon.BoundedFrames
import Thalweg.Daemon.Sync

/-!
# The server of synchronization sessions

An inbound session with a peer that holds the credentials of a network: the peer may send any bytes.
A frame is read up to the limit of the protocol, and decoded twice, as an envelope and, when the
envelope fits the session, as the message that it announces. A frame that is rejected ends the
session, with an error for the peer; a frame that is too long ends it without one. Every frame for
the peer is written to a stream that takes it whole, unless it is too long itself.

The texts of errors, some of which come from the decoder of JSON, are given.

## Main definitions

* `decodeSyncBody`, `Daemon.serveSyncFrame`: the answer to a frame.
* `Daemon.serveSyncFrames`, `Daemon.serveSyncRequests`: the answers to frames, and to the bytes of a
  peer.

## Main results

* `Daemon.serveSyncRequests_eq`: a session answers the frames that can be read.
-/

namespace Thalweg

open ByteSpace (newline)

/-! ### Messages -/

/-- The fields of an entry. -/
def inventoryEntryFields : List (Text × Json.Setter InventoryEntry) :=
  [("id".toList, fun e _ v => (Json.decodeText e.id v).map fun x => { e with id := x }),
    ("digest".toList, fun e _ v =>
      (Json.decodeText e.digest v).map fun x => { e with digest := x })]

/-- The fields of the content of an offer. -/
def inventoryOfferFields : List (Text × Json.Setter (Json.Slice InventoryEntry)) :=
  [("entries".toList, fun s raw v =>
    Json.decodeSlice (Json.decodeRecord true inventoryEntryFields) ⟨[], []⟩ s raw v)]

/-- The fields of the content of a request for a page. -/
def inventoryRequestFields : List (Text × Json.Setter (Text × Int)) :=
  [("cursor".toList, fun r _ v => (Json.decodeText r.1 v).map fun x => (x, r.2)),
    ("limit".toList, fun r _ v => (Json.decodeInt r.2 v).map fun x => (r.1, x))]

/-- The fields of the content of a request for events. -/
def eventsRequestFields : List (Text × Json.Setter (Json.Slice Text)) :=
  [("ids".toList, fun s raw v => Json.decodeSlice Json.decodeTextElement [] s raw v)]

/-- The content of a request of a type. A limit below zero is as wrong as none. -/
def decodeSyncBody (type frame : Text) : Result SyncBody :=
  if type = "inventory_offer".toList then
    (decodeSyncContent inventoryOfferFields .nil frame).map fun s => .inventoryOffer s.items
  else if type = "inventory_request".toList then
    (decodeSyncContent inventoryRequestFields ([], 0) frame).map fun r =>
      .inventoryRequest r.1 r.2.toNat
  else if type = "events_request".toList then
    (decodeSyncContent eventsRequestFields .nil frame).map fun s => .eventsRequest s.items
  else if type = "events_push".toList then
    (decodeSyncContent eventsFields .nil frame).map fun s => .eventsPush s.items
  else errorf "unknown synchronization message type" []

/-! ### What is written -/

/-- What the server hands to the writer of frames. -/
inductive SyncReply where
  | frame (frame : SyncFrame)
  | syncError (networkID : Text) (message : Failure)

/-- The JSON text of an error for the peer. -/
def marshalSyncError (networkID message : Text) : Text :=
  Json.renderRecord [("type".toList, Json.quote "sync_error".toList),
    ("protocolVersion".toList, Text.decimalInt syncProtocolVersion),
    ("networkId".toList, Json.quote networkID), ("error".toList, Json.quote message)]

/-- What is written for the peer, and the error that ends the session. -/
abbrev SyncTurn := Session.Turn SyncReply Failure

section Writing

variable (describe : Failure → Text)

/-- The JSON text of what is written. -/
def marshalReply : SyncReply → Result Text
  | .frame frame => marshalFrame frame
  | .syncError networkID message => .ok (marshalSyncError networkID (describe message))

/-- A frame is written if it has a text within the limit of the protocol. -/
def writeSyncFrame (reply : SyncReply) : SyncTurn :=
  match marshalReply describe reply with
  | .error err => ⟨[], some err⟩
  | .ok encoded =>
    if syncMaxFrameBytes < (Text.toBytes encoded).length then
      ⟨[], some (frameExceeds syncMaxFrameBytes)⟩
    else ⟨[reply], none⟩

/-- A session ends with an error, and the peer is told about it in other words. That this cannot be
written is no error of its own. -/
def writeSyncError (networkID : Text) (message err : Failure) : SyncTurn :=
  ⟨(writeSyncFrame describe (.syncError networkID message)).written, some err⟩

/-- A session ends with an error that the peer is told. -/
def rejectSyncFrame (networkID : Text) (err : Failure) : SyncTurn :=
  writeSyncError describe networkID err err

/-- The writer of frames does the same to a value that has the text of the reply. -/
theorem writeBoundedFrame_eq_writeSyncFrame {reply : SyncReply} {value : Json.Marshalable}
    {encoded : Text} (hvalue : Json.marshal value = some encoded)
    (hreply : marshalReply describe reply = .ok encoded) (stream : List UInt8) :
    writeBoundedFrame writeStream stream value syncMaxFrameBytes =
      (stream ++ (writeSyncFrame describe reply).written.flatMap
        (fun _ => Text.toBytes encoded ++ [newline]), (writeSyncFrame describe reply).error) := by
  rw [writeBoundedFrame, hvalue, writeSyncFrame, hreply]
  dsimp only
  split_ifs <;> simp [writeStream]

theorem written_syncError (networkID : Text) (message : Failure) :
    (writeSyncFrame describe (.syncError networkID message)).written =
      if syncMaxFrameBytes < (Text.toBytes (marshalSyncError networkID (describe message))).length
      then [] else [.syncError networkID message] := by
  rw [writeSyncFrame, marshalReply]
  dsimp only
  split_ifs <;> rfl

theorem eq_of_mem_written {reply reply' : SyncReply}
    (h : reply' ∈ (writeSyncFrame describe reply).written) : reply' = reply := by
  unfold writeSyncFrame at h
  split at h
  · exact absurd h List.not_mem_nil
  · split_ifs at h
    · exact absurd h List.not_mem_nil
    · exact List.mem_singleton.mp h

end Writing

/-! ### The session -/

/-- The error of a reader of frames, unless it is the end of the stream. -/
def readError : Failure → Option Failure
  | .external "io" => none
  | err => some err

namespace Daemon

section Sessions

variable (describe : Failure → Text) (fuel : Nat) (membership : NetworkMembership)

/-- The answer to a frame. -/
def serveSyncFrame (d : Daemon) (frame : List UInt8) : Option (SyncTurn × Daemon) :=
  match Json.decodeRecord false syncEnvelopeFields SyncEnvelope.zero (Text.ofBytes frame) with
  | none => some (writeSyncError describe membership.id
      (.errorf "invalid synchronization frame" []) (.external "encoding/json"), d)
  | some envelope =>
    if envelope.protocolVersion ≠ syncProtocolVersion then
      some (writeSyncError describe membership.id
        (.errorf "unsupported synchronization protocol version" [])
        (.errorf "unsupported synchronization protocol version %d"
          [Text.decimalInt envelope.protocolVersion]), d)
    else if envelope.networkID ≠ membership.id then
      some (writeSyncError describe membership.id (.errorf "network authorization mismatch" [])
        (.errorf "synchronization network ID mismatch" []), d)
    else
      match decodeSyncBody envelope.type (Text.ofBytes frame) with
      | .error err => some (rejectSyncFrame describe membership.id err, d)
      | .ok body =>
        match d.serveSyncBody fuel membership.name body with
        | none => none
        | some (.error err, d) => some (rejectSyncFrame describe membership.id err, d)
        | some (.ok answer, d) =>
          some (writeSyncFrame describe (.frame ⟨syncProtocolVersion, membership.id, answer⟩), d)

/-- Answer frames until one is rejected. -/
def serveSyncFrames (d : Daemon) (frames : List (List UInt8)) : Option (SyncTurn × Daemon) :=
  Session.session (serveSyncFrame describe fuel membership) d frames

/-- Answer the frames of a reader until one cannot be read or is rejected. -/
def serveSyncRequests (d : Daemon) (reader : BufferedReader UInt8) : Option (SyncTurn × Daemon) :=
  match _h : readBoundedFrame reader syncMaxFrameBytes with
  | (.error err, _) => some (⟨[], readError err⟩, d)
  | (.ok frame, reader) =>
    match serveSyncFrame describe fuel membership d frame with
    | none => none
    | some (⟨written, some err⟩, d) => some (⟨written, some err⟩, d)
    | some (⟨written, none⟩, d) =>
      match serveSyncRequests d reader with
      | none => none
      | some (turn, d) => some (⟨written ++ turn.written, turn.error⟩, d)
termination_by reader.unread.length
decreasing_by exact unread_lt_of_frame _h

variable {describe fuel membership} {d d' : Daemon}

/-- **A session.** It answers the frames that can be read, and ends with the error of the reader if
none of them is rejected. -/
theorem serveSyncRequests_eq (d : Daemon) (reader : BufferedReader UInt8) :
    serveSyncRequests describe fuel membership d reader =
      (serveSyncFrames describe fuel membership d (readFrames reader syncMaxFrameBytes).1).map
        (Prod.map (Session.Turn.ended · (readError (readFrames reader syncMaxFrameBytes).2))
          id) := by
  fun_induction serveSyncRequests describe fuel membership d reader with
  | case1 d reader err reader' h =>
    rw [readFrames_of_error h]
    simp [serveSyncFrames, Session.session, Session.Turn.ended]
  | case2 d reader frame reader' h hserve =>
    rw [readFrames_of_frame h, serveSyncFrames, Session.session, hserve]
    rfl
  | case3 d reader frame reader' h written err d' hserve =>
    rw [readFrames_of_frame h, serveSyncFrames, Session.session, hserve]
    rfl
  | case4 d reader frame reader' h written d' hserve hrest ih =>
    rw [hrest] at ih
    have hnone := Option.map_eq_none_iff.mp ih.symm
    rw [serveSyncFrames] at hnone
    rw [readFrames_of_frame h, serveSyncFrames, Session.session, hserve]
    simp only [hnone, Option.map_none]
  | case5 d reader frame reader' h written d' hserve turn d'' hrest ih =>
    rw [hrest] at ih
    obtain ⟨⟨turn', s⟩, hsession, heq⟩ := Option.map_eq_some_iff.mp ih.symm
    obtain ⟨rfl, rfl⟩ := Prod.mk.inj heq
    rw [serveSyncFrames] at hsession
    rw [readFrames_of_frame h, serveSyncFrames, Session.session, hserve]
    simp only [hsession]
    rfl

/-- A session of lines within the limit answers them. -/
theorem serveSyncRequests_of_lines {lines : List (List UInt8)}
    (hlines : ∀ line ∈ lines, newline ∉ line ∧ line.length ≤ syncMaxFrameBytes) (d : Daemon)
    {reader : BufferedReader UInt8} (hunread : reader.unread = terminated lines) :
    serveSyncRequests describe fuel membership d reader =
      serveSyncFrames describe fuel membership d (lines.map frameOf) := by
  obtain ⟨last, hlast, hframes⟩ :=
    readFrames_terminated hlines (hunread.trans (List.append_nil _).symm)
  obtain ⟨last', hend⟩ := readBoundedFrame_last (hlast ▸ List.not_mem_nil) syncMaxFrameBytes
  rw [hlast, List.length_nil, if_pos (Nat.zero_le _)] at hend
  rw [serveSyncRequests_eq, hframes, readFrames_of_error hend, List.append_nil]
  have hended : ∀ turn : SyncTurn, turn.ended (readError endOfFile) = turn := fun turn => by
    rw [Session.Turn.ended, show readError endOfFile = none from rfl, Option.or_none]
  cases serveSyncFrames describe fuel membership d (lines.map frameOf) with
  | none => rfl
  | some r => rw [Option.map_some, Prod.map_apply, hended, id]

end Sessions

end Daemon

end Thalweg
