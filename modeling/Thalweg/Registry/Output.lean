import Thalweg.Daemon.Sync
import Thalweg.Data.Hex
import Thalweg.Registry.Definition

/-!
# The input and the output of commands

A Sink or a Processor gets a delivery as one line of JSON. A Processor answers with lines of JSON
that name events to be stored; an event without an ID gets one that the definition, the delivery and
the number of the line determine.

## Main definitions

* `deliveryInput`: the line that a command gets.
* `decodeOutput`, `readOutput`: what a line of output asks for.
* `deterministicOutputID`, `outputRequests`: the requests that the records of a delivery become.

## Main results

* `DistinctIDs.nodup`: the records of a delivery ask for events with different IDs.
-/

namespace Thalweg.Registry

/-! ### Input -/

/-- The name of a kind. -/
def kindName : Kind → Text
  | .source => "Source".toList
  | .sink => "Sink".toList
  | .processor => "Processor".toList

/-- The labels of a definition, in the order of their names. -/
def marshalLabels (labels : List (Text × Text)) : Text :=
  Json.renderRecord ((labels.insertionSort fun a b => a.1 ≤ b.1).map fun label =>
    (label.1, Json.quote label.2))

/-- The definition as a command gets it. -/
def marshalDeliveryDefinition (definition : Definition) : Text :=
  Json.renderRecord ([("name".toList, Json.quote definition.name),
    ("kind".toList, Json.quote (kindName definition.kind)),
    ("network".toList, Json.quote definition.spec.network)] ++
      if definition.metadata.labels = [] then []
      else [("labels".toList, marshalLabels definition.metadata.labels)])

/-- The line that a command gets for a delivery. -/
def deliveryInput (definition : Definition) (delivery : DurableSiphonDelivery) : Result Text := do
  let events ← marshalEvents delivery.events
  .ok (Json.renderRecord [("version".toList, Text.decimal 1),
    ("definition".toList, marshalDeliveryDefinition definition),
    ("deliveryId".toList, Json.quote delivery.deliveryID),
    ("attempt".toList, Text.decimalInt delivery.attempt),
    ("cursorFrom".toList, Text.decimal delivery.cursorFrom.toNat),
    ("cursorThrough".toList, Text.decimal delivery.cursorThrough.toNat),
    ("events".toList, Json.renderArray events)] ++ ['\n'])

/-! ### Output -/

/-- A line of the output of a Processor. -/
structure OutputRecord where
  stream : Text
  payload : Text
  eventID : Text
  occurredAt : Text
  deriving DecidableEq

/-- The fields of a line of output. -/
def outputFields : List (Text × Json.Setter OutputRecord) :=
  [("stream".toList, fun o _ v =>
      (Json.decodeText o.stream v).map fun x => { o with stream := x }),
    ("payload".toList, fun o raw _ => some { o with payload := raw }),
    ("eventId".toList, fun o _ v =>
      (Json.decodeText o.eventID v).map fun x => { o with eventID := x }),
    ("occurredAt".toList, fun o _ v =>
      (Json.decodeText o.occurredAt v).map fun x => { o with occurredAt := x })]

/-- The record of a line that is not blank. -/
def decodeOutput (line : Text) : Option OutputRecord :=
  match Json.decodeRecord false outputFields ⟨[], [], [], []⟩ line with
  | none => none
  | some output =>
    if output.stream = [] ∨ output.payload = [] ∨ (Json.parse output.payload).isNone then none
    else some output

/-- The text that an ID of an output is a digest of. -/
def outputSeed (definition : Definition) (deliveryID : Text) (sequence : Nat) : Text :=
  definition.spec.network ++ Char.ofNat 0 :: definition.name ++
    Char.ofNat 0 :: deliveryID ++ Char.ofNat 0 :: Text.decimal sequence

/-- The first half of the digest of a text. -/
def halfDigest (t : Text) : List UInt8 := (Sha256.digest (Text.toBytes t)).take 16

/-- The ID of an output that leaves it out. -/
def deterministicOutputID (definition : Definition) (deliveryID : Text) (sequence : Nat) : Text :=
  "registry_".toList ++ Hex.encode (halfDigest (outputSeed definition deliveryID sequence))

/-- What a worker asks the daemon to store. -/
structure IngestRequest where
  network : Text
  stream : Text
  occurredAt : Text
  eventID : Text
  payload : Text
  deriving DecidableEq

/-- The request of the output with a sequence number. -/
def outputRequest (definition : Definition) (deliveryID : Text) (sequence : Nat)
    (output : OutputRecord) : IngestRequest where
  network := definition.spec.network
  stream := output.stream
  occurredAt := output.occurredAt
  eventID :=
    if output.eventID = [] then deterministicOutputID definition deliveryID sequence
    else output.eventID
  payload := output.payload

/-- The request of the line of output after `sequence` requests; a blank line asks for nothing. -/
def readOutput (definition : Definition) (deliveryID : Text) (sequence : Nat) (line : Text) :
    Result (Option IngestRequest) :=
  if Text.trimSpace line = [] then .ok none
  else
    match decodeOutput (Text.trimSpace line) with
    | none => errorf "processor emitted invalid event NDJSON" []
    | some output =>
      if output.stream ∉ definition.spec.output.allowedStreams then
        errorf "processor emitted disallowed stream %q" [output.stream]
      else .ok (some (outputRequest definition deliveryID (sequence + 1) output))

/-! ### The requests of a delivery -/

/-- The requests of the records that a command emits. -/
def outputRequests (definition : Definition) (deliveryID : Text) (records : List OutputRecord) :
    List IngestRequest :=
  records.mapIdx fun i output => outputRequest definition deliveryID (i + 1) output

@[simp] theorem length_outputRequests (definition : Definition) (deliveryID : Text)
    (records : List OutputRecord) :
    (outputRequests definition deliveryID records).length = records.length := by
  simp [outputRequests]

theorem getElem?_outputRequests (definition : Definition) (deliveryID : Text)
    (records : List OutputRecord) (i : Nat) :
    (outputRequests definition deliveryID records)[i]? =
      records[i]?.map (outputRequest definition deliveryID (i + 1)) := by
  simp [outputRequests]

theorem eventID_outputRequest_ne_nil (definition : Definition) (deliveryID : Text) (sequence : Nat)
    (output : OutputRecord) :
    (outputRequest definition deliveryID sequence output).eventID ≠ [] := by
  rw [outputRequest]
  split_ifs with h
  · exact List.append_ne_nil_of_left_ne_nil (by decide) _
  · exact h

/-- The IDs that records give are different from each other and from those that are made up for the
records that give none, and the digests that these are made from do not collide. -/
structure DistinctIDs (definition : Definition) (deliveryID : Text) (records : List OutputRecord) :
    Prop where
  given : ∀ (i j : Nat) (output output' : OutputRecord), records[i]? = some output →
    records[j]? = some output' → output.eventID ≠ [] → output.eventID = output'.eventID → i = j
  unmade : ∀ output ∈ records, ∀ (i : Nat) (hi : i < records.length), records[i].eventID = [] →
    output.eventID ≠ deterministicOutputID definition deliveryID (i + 1)
  digests : ∀ i < records.length, ∀ j < records.length,
    halfDigest (outputSeed definition deliveryID (i + 1)) =
        halfDigest (outputSeed definition deliveryID (j + 1)) →
      outputSeed definition deliveryID (i + 1) = outputSeed definition deliveryID (j + 1)

theorem outputSeed_inj {definition : Definition} {deliveryID : Text} {i j : Nat}
    (h : outputSeed definition deliveryID i = outputSeed definition deliveryID j) : i = j := by
  rw [outputSeed, outputSeed] at h
  exact Text.decimal_injective (List.cons.inj (List.append_cancel_left h)).2

namespace DistinctIDs

variable {definition : Definition} {deliveryID : Text} {records : List OutputRecord}

theorem made_inj (h : DistinctIDs definition deliveryID records) {i j : Nat}
    (hi : i < records.length) (hj : j < records.length)
    (heq : deterministicOutputID definition deliveryID (i + 1) =
      deterministicOutputID definition deliveryID (j + 1)) : i = j := by
  have hdigest := Hex.encode_injective (List.append_cancel_left heq)
  have := outputSeed_inj (h.digests i hi j hj hdigest)
  omega

/-- Records of a delivery ask for events with different IDs. -/
theorem nodup (h : DistinctIDs definition deliveryID records) :
    ((outputRequests definition deliveryID records).map IngestRequest.eventID).Nodup := by
  rw [List.nodup_iff_getElem?_ne_getElem?]
  intro i j hij hj heq
  rw [List.length_map, length_outputRequests] at hj
  have hi : i < records.length := by omega
  have hri := List.getElem?_eq_getElem hi
  have hrj := List.getElem?_eq_getElem hj
  simp only [List.getElem?_map, getElem?_outputRequests, hri, hrj, Option.map_some,
    Option.some.injEq, outputRequest] at heq
  split_ifs at heq with hgi hgj hgj
  · exact absurd (h.made_inj hi hj heq) (by omega)
  · exact h.unmade _ (List.getElem_mem hj) i hi hgi heq.symm
  · exact h.unmade _ (List.getElem_mem hi) j hj hgj heq
  · exact absurd (h.given i j _ _ hri hrj hgi heq) (by omega)

end DistinctIDs

end Thalweg.Registry
