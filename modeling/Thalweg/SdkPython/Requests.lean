import Thalweg.Data.Float64
import Thalweg.Data.Json.Dumps
import Thalweg.Daemon.Routes
import Thalweg.SdkPython.Client

/-!
# Requests

The methods of the Python SDK that ask for the data of a network check their arguments and make a
payload of them. The daemon decodes the payload that it is sent to the request that was asked for.

## Main definitions

* `MethodCall`: a call of one of the methods, with its check, its action and its payload.
* `MethodCall.request`: the request that the call asks for.

## Main results

* `decodeMessage_dumps`: the daemon reads the message of a request as it was made.
* `MethodCall.exists_decoder`: it decodes the payload of a call to the request that is asked for.
-/

namespace Thalweg.SdkPython

open Json (IsNumber WellFormed)

/-! ### Methods -/

/-- What `json.dumps` makes of a payload. -/
abbrev Payload := { v : Json // WellFormed IsNumber v }

/-- The arguments of a method. A wait that is not finite has no value here, and `hex` is the random
ID of an event. -/
inductive MethodCall where
  | ingest (stream : Text) (payload : Payload) (occurredAt eventId : Option Text) (hex : Text)
  | query (streams : List Text) (from' to' : Option Text) (limit : Int) (order : Text)
  | createDurableSiphon (name : Text) (streams : List Text) (start : Text)
  | listDurableSiphons (network : Option Text)
  | pollDurableSiphon (name : Text) (limit : Int) (wait : Option ℚ)
  | acknowledgeDurableSiphon (name deliveryId : Text)
  | syncMeshPeer (targetAddr : Text) (network : Option Text)
  | listMeshPeers (network : Option Text)
  | listConflicts (network : Option Text)
  | resolveConflict (eventId : Text) (network : Option Text) (strategy : Text)

/-- `value or default`, where the empty text is none. -/
def orDefault (value : Option Text) (default : Text) : Text :=
  if value.getD [] = [] then default else value.getD []

/-- `round(seconds * 1000)`, if the number of seconds is in the range. -/
def milliseconds (seconds : Option ℚ) (maximum : ℚ) : Option Int :=
  match seconds with
  | none => none
  | some seconds =>
    if seconds < 0 ∨ maximum < seconds then none
    else some (Float64.roundEven (Float64.mul seconds 1000))

/-- The error of a call whose arguments are refused. -/
def MethodCall.check : MethodCall → Option Text
  | .ingest stream .. => if stream = [] then some "stream must not be empty.".toList else none
  | .query _ _ _ limit order =>
    if limit < 0 then some "limit must not be negative.".toList
    else if order ∉ ["asc".toList, "desc".toList] then
      some "order must be 'asc' or 'desc'.".toList
    else none
  | .createDurableSiphon name _ start =>
    if name = [] then some "name must not be empty.".toList
    else if start ∉ ["earliest".toList, "latest".toList] then
      some "start must be 'earliest' or 'latest'.".toList
    else none
  | .pollDurableSiphon name limit wait =>
    if name = [] then some "name must not be empty.".toList
    else if ¬ (1 ≤ limit ∧ limit ≤ 100) then some "limit must be between 1 and 100.".toList
    else if milliseconds wait 25 = none then some "wait must be between 0 and 25 seconds.".toList
    else none
  | .acknowledgeDurableSiphon name deliveryId =>
    if name = [] ∨ deliveryId = [] then some "name and delivery_id must not be empty.".toList
    else none
  | .resolveConflict _ _ strategy =>
    if strategy ≠ "preserve-both".toList then some "strategy must be 'preserve-both'.".toList
    else none
  | _ => none

/-- The action that a method asks for. -/
def MethodCall.action : MethodCall → Text
  | .ingest .. => "event_ingest".toList
  | .query .. => "event_query".toList
  | .createDurableSiphon .. => "durable_siphon_create".toList
  | .listDurableSiphons _ => "durable_siphon_list".toList
  | .pollDurableSiphon .. => "durable_siphon_poll".toList
  | .acknowledgeDurableSiphon .. => "durable_siphon_ack".toList
  | .syncMeshPeer .. => "mesh_sync".toList
  | .listMeshPeers _ => "mesh_peer_list".toList
  | .listConflicts _ => "event_conflict_list".toList
  | .resolveConflict .. => "event_conflict_resolve".toList

/-- A member that may be left out. -/
def optionalMember (name : String) (value : Option Text) : List (Text × Json) :=
  (value.map fun value => (name.toList, Json.str value)).toList

/-- An array of texts. -/
def jsonTexts (texts : List Text) : Json := .arr (texts.map .str)

/-- A number. -/
def jsonInt (n : Int) : Json := .num (Text.decimalInt n)

/-- The payload of the request of a call, for a client of a network. -/
def MethodCall.payload (network : Text) : MethodCall → List (Text × Json)
  | .ingest stream payload occurredAt eventId hex =>
    [("network".toList, .str network), ("stream".toList, .str stream),
      ("payload".toList, payload.1),
      ("eventId".toList, .str (orDefault eventId ("evt_".toList ++ hex)))] ++
      optionalMember "occurredAt" occurredAt
  | .query streams from' to' limit order =>
    [("network".toList, .str network), ("streams".toList, jsonTexts streams),
      ("limit".toList, jsonInt limit), ("order".toList, .str order)] ++
      optionalMember "from" from' ++ optionalMember "to" to'
  | .createDurableSiphon name streams start =>
    [("network".toList, .str network), ("name".toList, .str name),
      ("streams".toList, jsonTexts streams), ("start".toList, .str start)]
  | .listDurableSiphons other => [("network".toList, .str (orDefault other network))]
  | .pollDurableSiphon name limit wait =>
    [("network".toList, .str network), ("name".toList, .str name), ("limit".toList, jsonInt limit),
      ("waitMillis".toList, jsonInt ((milliseconds wait 25).getD 0))]
  | .acknowledgeDurableSiphon name deliveryId =>
    [("network".toList, .str network), ("name".toList, .str name),
      ("deliveryId".toList, .str deliveryId)]
  | .syncMeshPeer targetAddr other =>
    [("targetAddr".toList, .str targetAddr), ("network".toList, .str (orDefault other network))]
  | .listMeshPeers other => [("network".toList, .str (orDefault other network))]
  | .listConflicts other => [("network".toList, .str (orDefault other network))]
  | .resolveConflict eventId other strategy =>
    [("network".toList, .str (orDefault other network)), ("eventId".toList, .str eventId),
      ("strategy".toList, .str strategy)]

/-- The request that a call asks for. The daemon has no room for greater limits, and needs to be
told an address and a network. -/
def MethodCall.request (c : Circumstances) (network : Text) : MethodCall → Result ClientRequest
  | .ingest stream payload occurredAt eventId hex =>
    .ok (.eventIngest network stream (occurredAt.getD []) (orDefault eventId ("evt_".toList ++ hex))
      (Json.dumps payload.1) c.random)
  | .query streams from' to' limit order =>
    if limit < 2 ^ 63 then
      .ok (.eventQuery network streams (from'.getD []) (to'.getD []) limit order)
    else .error (.external "encoding/json")
  | .createDurableSiphon name streams start =>
    .ok (.durableSiphon (.durableSiphonCreate network name streams start))
  | .listDurableSiphons other =>
    .ok (.durableSiphon (.durableSiphonList (orDefault other network)))
  | .pollDurableSiphon name limit wait =>
    .ok (.durableSiphon (.durableSiphonPoll network name limit ((milliseconds wait 25).getD 0)
      c.random c.closed c.wakes))
  | .acknowledgeDurableSiphon name deliveryId =>
    .ok (.durableSiphon (.durableSiphonAck network name deliveryId))
  | .syncMeshPeer targetAddr other =>
    checkMeshSyncArgs ⟨targetAddr, [], orDefault other network, false⟩
  | .listMeshPeers other => .ok (.meshPeerList (orDefault other network))
  | .listConflicts other => .ok (.eventConflictList (orDefault other network))
  | .resolveConflict eventId other strategy =>
    .ok (.eventConflictResolve (orDefault other network) eventId strategy c.random)

/-! ### Messages -/

/-- The members of a request. -/
def messageMembers (id action : Text) (payload : List (Text × Json)) : List (Text × Json) :=
  [("id".toList, .str id), ("protocolVersion".toList, jsonInt protocolVersion),
    ("action".toList, .str action), ("payload".toList, .obj payload)]

/-- The message of a request. -/
def message (id action : Text) (payload : List (Text × Json)) : Json :=
  .obj (messageMembers id action payload)

theorem wellFormed_message (id action : Text) {payload : List (Text × Json)}
    (h : WellFormed IsNumber (.obj payload)) : WellFormed IsNumber (message id action payload) :=
  ⟨trivial, Json.isNumber_decimalInt _, trivial, h, trivial⟩

/-- The daemon reads a request as it was made, if it can read it. -/
theorem decodeMessage_dumps (id action : Text) {payload : List (Text × Json)}
    (h : WellFormed IsNumber (.obj payload)) :
    decodeMessage (Text.toBytes (Json.dumps (message id action payload))) =
      if (Json.obj payload).depth < Json.maxDepth then
        some ⟨id, currentLocalProtocolVersion, action, Json.dumps (.obj payload)⟩
      else none := by
  have hdepth : (message id action payload).depth = (Json.obj payload).depth + 1 := by
    simp [message, messageMembers, Json.depth, Json.membersDepth, jsonInt]
  have hwell := wellFormed_message id action h
  rw [decodeMessage, Text.ofBytes_toBytes]
  split_ifs with hflat
  · have hread : Json.parseRecord (Json.dumps (message id action payload) ++ []) =
        some (Json.dumpedMembers (messageMembers id action payload)) := by
      have hne : messageMembers id action payload ≠ [] := List.cons_ne_nil _ _
      refine Json.parseRecord_dumps hne hwell ?_ Json.isSpace_nil
      have hmembers : (message id action payload).depth =
        Json.membersDepth (messageMembers id action payload) + 1 := rfl
      omega
    have hone : Json.decodeInt 0 (.num (Text.decimalInt protocolVersion)) =
        some currentLocalProtocolVersion := by decide
    rw [List.append_nil] at hread
    rw [Json.decodeRecord, hread]
    simp [Json.dumpedMembers, messageMembers, Json.setMember, Json.lookupField, messageFields,
      Json.decodeText, jsonInt, hone]
  · refine (Json.spells_dumps _ _ hwell le_rfl).decodeRecord_eq_none ?_
    omega

/-! ### Arguments -/

theorem milliseconds_bounds {seconds : Option ℚ} {n : Int} (h : milliseconds seconds 25 = some n) :
    -2 ^ 63 ≤ n ∧ n < 2 ^ 63 := by
  unfold milliseconds at h
  cases seconds with
  | none => cases h
  | some seconds =>
    dsimp only at h
    split_ifs at h with hrange
    push Not at hrange
    have hn : Float64.roundEven (Float64.mul seconds 1000) = n := Option.some.inj h
    have hround : |Float64.mul seconds 1000| ≤ 2 * |seconds * 1000| :=
      Float64.abs_round_le (seconds * 1000)
    have heven := Float64.abs_roundEven_sub_le (Float64.mul seconds 1000)
    rw [hn] at heven
    have hproduct : |seconds * 1000| ≤ 25000 := by
      rw [abs_le]
      constructor <;> linarith [hrange.1, hrange.2]
    rw [abs_le] at hround heven
    have hlow : (-50001 : ℚ) ≤ n := by linarith [hround.1, heven.1]
    have hhigh : (n : ℚ) ≤ 50001 := by linarith [hround.2, heven.2]
    have hlow' : -50001 ≤ n := by exact_mod_cast hlow
    have hhigh' : n ≤ 50001 := by exact_mod_cast hhigh
    omega

/-- A list of texts is decoded from its text. -/
theorem decodeSlice_jsonTexts (texts : List Text) :
    Json.decodeSlice Json.decodeTextElement [] .nil (Json.dumps (jsonTexts texts))
      (jsonTexts texts) = some ⟨texts, []⟩ := by
  have hspells : ∀ w ∈ texts.map (fun s => Json.dumps (.str s)),
      ∃ v, Json.Spells (Json.maxDepth - 1) v w := by
    intro w hw
    obtain ⟨s, -, rfl⟩ := List.mem_map.mp hw
    exact ⟨.str s, Json.spells_dumps _ _ trivial (Nat.zero_le _)⟩
  have htexts : Json.parseTexts (Json.dumps (jsonTexts texts)) =
      some (texts.map fun s => Json.dumps (.str s)) := by
    rw [jsonTexts, Json.dumps_arr, List.map_map]
    exact Json.parseTexts_renderArray hspells
  have helement (s : Text) (_ : s ∈ texts) :
      Json.decodeTextElement [] (Json.dumps (.str s)) = some (id s) := by
    have hparse : Json.parse (Json.dumps (.str s)) = some (.str s) :=
      Json.parse_dumps trivial (Nat.zero_le _)
    rw [Json.decodeTextElement, hparse]
    rfl
  rw [jsonTexts] at htexts ⊢
  rw [Json.decodeSlice_nil htexts helement, List.map_id]

theorem wellFormed_jsonTexts (texts : List Text) : WellFormed IsNumber (jsonTexts texts) := by
  simp only [jsonTexts, Json.WellFormed]
  induction texts with
  | nil => trivial
  | cons s texts ih => exact ⟨trivial, ih⟩

theorem wellFormed_jsonInt (n : Int) : WellFormed IsNumber (jsonInt n) := Json.isNumber_decimalInt n

theorem MethodCall.payload_ne_nil (network : Text) (call : MethodCall) :
    call.payload network ≠ [] := by
  cases call <;> exact List.cons_ne_nil _ _

theorem MethodCall.wellFormed_payload (network : Text) (call : MethodCall) :
    WellFormed IsNumber (.obj (call.payload network)) := by
  cases call with
  | ingest stream payload occurredAt eventId hex =>
    cases occurredAt <;> exact ⟨trivial, trivial, payload.2, trivial, by trivial⟩
  | query streams from' to' limit order =>
    have hstreams := wellFormed_jsonTexts streams
    have hlimit := wellFormed_jsonInt limit
    cases from' <;> cases to' <;> exact ⟨trivial, hstreams, hlimit, trivial, by trivial⟩
  | createDurableSiphon name streams start =>
    exact ⟨trivial, trivial, wellFormed_jsonTexts streams, trivial, trivial⟩
  | pollDurableSiphon name limit wait =>
    exact ⟨trivial, trivial, wellFormed_jsonInt _, wellFormed_jsonInt _, trivial⟩
  | _ => trivial

/-- The arguments of a payload that can be read are set from its members. -/
theorem decodeArgs_dumps {α : Type} (fields : List (Text × Json.Setter α)) (zero : α)
    {payload : List (Text × Json)} (hne : payload ≠ [])
    (h : WellFormed IsNumber (.obj payload)) (hdepth : (Json.obj payload).depth < Json.maxDepth) :
    decodeArgs fields zero (Json.dumps (.obj payload)) =
      match (Json.dumpedMembers payload).foldlM (Json.setMember false fields) zero with
      | none => .error (.external "encoding/json")
      | some args => .ok args := by
  have hmembers : (Json.obj payload).depth = Json.membersDepth payload + 1 := rfl
  have hread := Json.parseRecord_dumps hne h (by omega) Json.isSpace_nil
  rw [List.append_nil] at hread
  have hrecord : Json.decodeRecord false fields zero (Json.dumps (.obj payload)) =
      (Json.dumpedMembers payload).foldlM (Json.setMember false fields) zero := by
    simp only [Json.decodeRecord, hread]
  exact congrArg (fun found : Option α => match found with
    | none => (.error (.external "encoding/json") : Result α)
    | some args => .ok args) hrecord

theorem decodeOptionalArgs_dumps {α : Type} (fields : List (Text × Json.Setter α)) (zero : α)
    {payload : List (Text × Json)} (hne : payload ≠ []) :
    decodeOptionalArgs fields zero (Json.dumps (.obj payload)) =
      decodeArgs fields zero (Json.dumps (.obj payload)) := by
  obtain ⟨⟨k, v⟩, members, rfl⟩ := List.exists_cons_of_ne_nil hne
  rw [decodeOptionalArgs, Json.dumps]
  exact if_neg (List.cons_ne_nil _ _)

section Members

variable {α : Type} (fields : List (Text × Json.Setter α))

end Members

/-- A number that is not negative is decoded unless it is too great. -/
theorem decodeInt_jsonInt (old : Int) {n : Int} (hn : 0 ≤ n) :
    Json.decodeInt old (jsonInt n) = if n < 2 ^ 63 then some n else none := by
  split_ifs with hhigh
  · exact Json.decodeInt_decimalInt old (by omega) hhigh
  · obtain ⟨n, rfl⟩ := Int.eq_ofNat_of_zero_le hn
    have hparse := Text.parseDecimal_decimal n
    have htext : jsonInt n = .num (Text.decimal n) := by simp [jsonInt, Text.decimalInt]
    have hhead : ∀ literal, Text.decimal n ≠ '-' :: literal := fun literal heq =>
      absurd (Text.isDigit_of_mem_decimal (heq ▸ List.mem_cons_self)) (by decide)
    have hnat : ¬ n < 2 ^ 63 := by omega
    rw [htext]
    unfold Json.decodeInt
    split
    · next literal h => exact absurd (Json.num.inj h) (hhead literal)
    · next literal _ h => simp only [← Json.num.inj h, hparse, hnat, if_false]
    · next h => cases h
    · next hnum _ => exact absurd rfl (hnum _)

/-- A poll asks for a number of events and a wait that are in range. -/
theorem check_pollDurableSiphon {name : Text} {limit : Int} {wait : Option ℚ}
    (h : (MethodCall.pollDurableSiphon name limit wait).check = none) :
    (1 ≤ limit ∧ limit ≤ 100) ∧ ∃ millis, milliseconds wait 25 = some millis := by
  rw [MethodCall.check] at h
  split_ifs at h with _ hlimit hwait
  exact ⟨hlimit, Option.ne_none_iff_exists'.mp hwait⟩

/-- **Payloads.** The daemon decodes the payload of a call to the request that is asked for. -/
theorem MethodCall.exists_decoder (network : Text) {call : MethodCall} (hcheck : call.check = none)
    (hdepth : (Json.obj (call.payload network)).depth < Json.maxDepth) :
    ∃ decode, clientRequest call.action = some decode ∧
      ∀ c, decode c (Json.dumps (.obj (call.payload network))) = call.request c network := by
  have hargs : ∀ {α : Type} (fields : List (Text × Json.Setter α)) (zero : α), _ :=
    fun fields zero => decodeArgs_dumps fields zero (call.payload_ne_nil network)
      (call.wellFormed_payload network) hdepth
  have hoptional : ∀ {α : Type} (fields : List (Text × Json.Setter α)) (zero : α), _ :=
    fun fields zero => decodeOptionalArgs_dumps fields zero (call.payload_ne_nil network)
  cases call with
  | ingest stream payload occurredAt eventId hex =>
    refine ⟨_, rfl, fun c => ?_⟩
    rw [hargs]
    cases occurredAt <;>
      simp [MethodCall.payload, MethodCall.request, optionalMember, Json.dumpedMembers,
        Json.setMember, eventIngestFields, textField, rawField, Json.lookupField, Json.decodeText,
        Except.map]
  | query streams from' to' limit order =>
    refine ⟨_, rfl, fun c => ?_⟩
    rw [hargs]
    have hslice := decodeSlice_jsonTexts streams
    have hlimit : 0 ≤ limit := by
      by_contra hneg
      rw [MethodCall.check, if_pos (by omega)] at hcheck
      cases hcheck
    cases from' <;> cases to' <;>
      simp [MethodCall.payload, MethodCall.request, optionalMember, Json.dumpedMembers,
        Json.setMember, eventQueryFields, textField, textsField, intField, Json.lookupField,
        Json.decodeText, hslice, decodeInt_jsonInt 0 hlimit] <;>
      split_ifs <;> rfl
  | createDurableSiphon name streams start =>
    refine ⟨_, rfl, fun c => ?_⟩
    rw [hargs]
    have hslice := decodeSlice_jsonTexts streams
    simp [MethodCall.payload, MethodCall.request, Json.dumpedMembers, Json.setMember,
      durableSiphonCreateFields, textField, textsField, Json.lookupField, Json.decodeText, hslice,
      Except.map]
  | pollDurableSiphon name limit wait =>
    obtain ⟨hlimit, wait', hwait⟩ := check_pollDurableSiphon hcheck
    obtain ⟨hlow, hhigh⟩ := milliseconds_bounds hwait
    have hlimit' : Json.decodeInt 0 (jsonInt limit) = some limit :=
      Json.decodeInt_decimalInt 0 (by omega) (by omega)
    have hwait' : Json.decodeInt 0 (jsonInt wait') = some wait' :=
      Json.decodeInt_decimalInt 0 hlow hhigh
    refine ⟨_, rfl, fun c => ?_⟩
    rw [hargs]
    simp [MethodCall.payload, MethodCall.request, Json.dumpedMembers, Json.setMember,
      durableSiphonPollFields, textField, intField, Json.lookupField, Json.decodeText, hlimit',
      hwait, hwait', Except.map]
  | syncMeshPeer targetAddr other =>
    refine ⟨_, rfl, fun c => ?_⟩
    rw [hargs]
    simp [MethodCall.payload, MethodCall.request, Json.dumpedMembers, Json.setMember,
      meshSyncFields, textField, boolField, Json.lookupField, Json.decodeText, Except.bind,
      bind]
  | listDurableSiphons other | listMeshPeers other =>
    refine ⟨_, rfl, fun c => ?_⟩
    rw [hoptional, hargs]
    simp [MethodCall.payload, MethodCall.request, Json.dumpedMembers, Json.setMember, networkFields,
      textField, Json.lookupField, Json.decodeText, Except.map]
  | listConflicts other =>
    refine ⟨_, rfl, fun c => ?_⟩
    rw [hargs]
    simp [MethodCall.payload, MethodCall.request, Json.dumpedMembers, Json.setMember, networkFields,
      textField, Json.lookupField, Json.decodeText, Except.map]
  | acknowledgeDurableSiphon name deliveryId =>
    refine ⟨_, rfl, fun c => ?_⟩
    rw [hargs]
    simp [MethodCall.payload, MethodCall.request, Json.dumpedMembers, Json.setMember,
      durableSiphonAckFields, textField, Json.lookupField, Json.decodeText, Except.map]
  | resolveConflict eventId other strategy =>
    refine ⟨_, rfl, fun c => ?_⟩
    rw [hargs]
    simp [MethodCall.payload, MethodCall.request, Json.dumpedMembers, Json.setMember,
      eventConflictResolveFields, textField, Json.lookupField, Json.decodeText, Except.map]

end Thalweg.SdkPython
