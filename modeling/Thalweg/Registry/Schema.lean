import Thalweg.Data.Duration
import Thalweg.Data.Json.Indent
import Thalweg.Data.Json.Items
import Thalweg.Registry.Environment

/-!
# Definitions and snapshots as JSON

A definition of the registry with all its fields, and a snapshot of definitions, as they are written
to JSON and read from it. An omitted field, a null and an empty list or map differ in memory; what
is written does not tell all of them apart, and what is read back is the definition as it is stored.

## Main definitions

* `Definition`, `Snapshot`, with `toJson` and the fields that are read.
* `Definition.stored`: lists and maps that are omitted when they are empty are nil.

## Main results

* `decodeObject_definition`, `decodeRecord_snapshot`: what is written is read back as it is stored.
* `Definition.toJson_stored`: it is written as before.
-/

namespace Thalweg.Registry.Files

/-! ### Data -/

/-- A map, which may be nil. -/
abbrev StringTable := Option StringMap

/-- A slice of texts, which may be nil. -/
abbrev Texts := Option (List Text)

/-- The name of a definition, and its labels. -/
structure Metadata where
  name : Text
  labels : StringTable

/-- What a definition runs: a command, with its directory, and how often a Source runs it. -/
structure Runner where
  type : Text
  command : Texts
  mode : Text
  interval : Int64
  workingDirectory : Text

/-- How the records of a Source are written. -/
structure Input where
  format : Text

/-- Which events a Sink or Processor is given, and where its siphon starts. -/
structure Events where
  streams : Texts
  start : Text

/-- How many events a delivery has, and how long it is waited for. -/
structure Delivery where
  maxEvents : Int64
  wait : Int64

/-- The streams that a Processor may write to. -/
structure Output where
  allowedStreams : Texts

/-- The variables of the process: those of the daemon, those of files, and given ones. -/
structure Environment where
  inherit : Option Bool
  «from» : Texts
  values : StringTable

/-- When a failed worker starts again. -/
structure Retry where
  policy : Text
  initialBackoff : Int64
  maxBackoff : Int64

/-- What a definition asks for. Which of the fields count depends on its kind. -/
structure Spec where
  enabled : Option Bool
  network : Text
  stream : Text
  runner : Runner
  input : Input
  events : Events
  delivery : Delivery
  output : Output
  environment : Environment
  retry : Retry
  timeout : Int64

/-- A definition, with the file that it is from, its digest and the values of its variables. -/
structure Definition where
  apiVersion : Text
  kind : Text
  metadata : Metadata
  spec : Spec
  sourceFile : Text
  digest : Text
  envValues : StringTable

/-- The definitions that were accepted together. -/
structure Snapshot where
  version : Int64
  acceptedAt : Text
  registryPath : Text
  definitions : List Definition

/-- The name of a definition is that of its metadata. -/
def Definition.name (definition : Definition) : Text := definition.metadata.name

/-- A definition that does not say so is enabled. -/
def Definition.enabled (definition : Definition) : Bool := definition.spec.enabled.getD true

/-! ### Writing -/

/-- A member that is omitted when its field is empty. -/
def omitempty (key : String) (isEmpty : Bool) (v : Json) : List (Text × Json) :=
  if isEmpty then [] else [(key.toList, v)]

/-- A nil slice is written as null. -/
def textsJson : Texts → Json
  | none => .null
  | some texts => .arr (texts.map .str)

/-- A nil map is written as null; the keys of a map are in order. -/
def tableJson : StringTable → Json
  | none => .null
  | some values => .obj (values.entries.map fun e => (e.1, .str e.2))

/-- A nil pointer is written as null. -/
def boolJson : Option Bool → Json
  | none => .null
  | some b => .bool b

/-- A duration is written as text. -/
def durationJson (d : Int64) : Json := .str (Duration.format d)

/-- A nil slice counts as empty for `omitempty`, like one without items. -/
def Texts.isEmpty (texts : Texts) : Bool := texts.getD [] == []

/-- A nil map counts as empty for `omitempty`, like one without entries. -/
def StringTable.isEmpty (table : StringTable) : Bool := (table.elim [] (·.entries)).isEmpty

/-- The members of the metadata; no labels are omitted. -/
def Metadata.toJson (m : Metadata) : Json :=
  .obj ([("name".toList, .str m.name)] ++ omitempty "labels" m.labels.isEmpty (tableJson m.labels))

/-- The members of a runner. The interval is always written, as a text. -/
def Runner.toJson (r : Runner) : Json :=
  .obj ([("type".toList, .str r.type), ("command".toList, textsJson r.command)] ++
    omitempty "mode" r.mode.isEmpty (.str r.mode) ++
    [("interval".toList, durationJson r.interval)] ++
    omitempty "workingDirectory" r.workingDirectory.isEmpty (.str r.workingDirectory))

/-- The format is omitted when it is empty. -/
def Input.toJson (i : Input) : Json := .obj (omitempty "format" i.format.isEmpty (.str i.format))

/-- Both members are omitted when they are empty. -/
def Events.toJson (e : Events) : Json :=
  .obj (omitempty "streams" (Texts.isEmpty e.streams) (textsJson e.streams) ++
    omitempty "start" e.start.isEmpty (.str e.start))

/-- The number of events is omitted when it is zero; the time to wait is always written. -/
def Delivery.toJson (d : Delivery) : Json :=
  .obj (omitempty "maxEvents" (d.maxEvents == 0) (.num (Text.decimalInt d.maxEvents.toInt)) ++
    [("wait".toList, durationJson d.wait)])

/-- The allowed streams are omitted when there are none. -/
def Output.toJson (o : Output) : Json :=
  .obj (omitempty "allowedStreams" (Texts.isEmpty o.allowedStreams) (textsJson o.allowedStreams))

/-- What is nil or empty is omitted; `inherit` is written when it is set, also to false. -/
def Environment.toJson (e : Environment) : Json :=
  .obj (omitempty "inherit" e.inherit.isNone (boolJson e.inherit) ++
    omitempty "from" (Texts.isEmpty e.from) (textsJson e.from) ++
    omitempty "values" e.values.isEmpty (tableJson e.values))

/-- The durations are always written, the policy when there is one. -/
def Retry.toJson (r : Retry) : Json :=
  .obj (omitempty "policy" r.policy.isEmpty (.str r.policy) ++
    [("initialBackoff".toList, durationJson r.initialBackoff),
      ("maxBackoff".toList, durationJson r.maxBackoff)])

/-- The records in a specification are written even when all their members are omitted. -/
def Spec.toJson (s : Spec) : Json :=
  .obj (omitempty "enabled" s.enabled.isNone (boolJson s.enabled) ++
    [("network".toList, .str s.network)] ++
    omitempty "stream" s.stream.isEmpty (.str s.stream) ++
    [("runner".toList, s.runner.toJson), ("input".toList, s.input.toJson),
      ("events".toList, s.events.toJson), ("delivery".toList, s.delivery.toJson),
      ("output".toList, s.output.toJson), ("environment".toList, s.environment.toJson),
      ("retry".toList, s.retry.toJson), ("timeout".toList, durationJson s.timeout)])

/-- The members of a definition; the values of its variables are omitted when there are none. -/
def Definition.toJson (d : Definition) : Json :=
  .obj ([("apiVersion".toList, .str d.apiVersion), ("kind".toList, .str d.kind),
      ("metadata".toList, d.metadata.toJson), ("spec".toList, d.spec.toJson),
      ("sourceFile".toList, .str d.sourceFile), ("digest".toList, .str d.digest)] ++
    omitempty "envValues" d.envValues.isEmpty (tableJson d.envValues))

/-- The members of a snapshot. -/
def Snapshot.members (s : Snapshot) : List (Text × Json) :=
  [("version".toList, .num (Text.decimalInt s.version.toInt)),
    ("acceptedAt".toList, .str s.acceptedAt), ("registryPath".toList, .str s.registryPath),
    ("definitions".toList, .arr (s.definitions.map Definition.toJson))]

/-! ### Reading -/

/-- An array is decoded onto the items of the slice, and null makes it nil. -/
def decodeTextSlice (old : Texts) : Json → Option Texts
  | .arr items => (Json.decodeElements Json.decodeText [] (old.getD []) items).map some
  | .null => some none
  | _ => none

/-- The members of an object are added to the map, and null makes it nil. -/
def decodeTable (old : StringTable) : Json → Option StringTable
  | .obj members =>
    (members.foldlM (fun values m => (Json.decodeText [] m.2).map (values.set m.1 ·))
      (old.getD OrderedStore.empty)).map some
  | .null => some none
  | _ => none

/-- A boolean sets the pointer, and null clears it. -/
def decodeBool : Json → Option (Option Bool)
  | .bool b => some (some b)
  | .null => some none
  | _ => none

/-- `Duration.UnmarshalJSON`; a null is read as the empty text. -/
def decodeDuration : Json → Option Int64
  | .str s => Duration.parse s
  | .null => Duration.parse []
  | _ => none

/-- A number without fraction and exponent that fits, or null, which changes nothing. -/
def decodeInt64 (old : Int64) (v : Json) : Option Int64 :=
  (Json.decodeInt old.toInt v).map Int64.ofInt

/-- The fields of the metadata that are read. -/
def metadataFields : List (Text × Json.Setter Metadata) :=
  [("name".toList, fun m _ v => (Json.decodeText m.name v).map fun x => { m with name := x }),
    ("labels".toList, fun m _ v => (decodeTable m.labels v).map fun x => { m with labels := x })]

/-- The fields of a runner that are read. -/
def runnerFields : List (Text × Json.Setter Runner) :=
  [("type".toList, fun r _ v => (Json.decodeText r.type v).map fun x => { r with type := x }),
    ("command".toList, fun r _ v =>
      (decodeTextSlice r.command v).map fun x => { r with command := x }),
    ("mode".toList, fun r _ v => (Json.decodeText r.mode v).map fun x => { r with mode := x }),
    ("interval".toList, fun r _ v => (decodeDuration v).map fun x => { r with interval := x }),
    ("workingDirectory".toList, fun r _ v =>
      (Json.decodeText r.workingDirectory v).map fun x => { r with workingDirectory := x })]

/-- The fields of the input that are read. -/
def inputFields : List (Text × Json.Setter Input) :=
  [("format".toList, fun i _ v => (Json.decodeText i.format v).map fun x => { i with format := x })]

/-- The fields of the selection of events that are read. -/
def eventsFields : List (Text × Json.Setter Events) :=
  [("streams".toList, fun e _ v =>
      (decodeTextSlice e.streams v).map fun x => { e with streams := x }),
    ("start".toList, fun e _ v => (Json.decodeText e.start v).map fun x => { e with start := x })]

/-- The fields of the deliveries that are read. -/
def deliveryFields : List (Text × Json.Setter Delivery) :=
  [("maxEvents".toList, fun d _ v =>
      (decodeInt64 d.maxEvents v).map fun x => { d with maxEvents := x }),
    ("wait".toList, fun d _ v => (decodeDuration v).map fun x => { d with wait := x })]

/-- The fields of the output that are read. -/
def outputFields : List (Text × Json.Setter Output) :=
  [("allowedStreams".toList, fun o _ v =>
    (decodeTextSlice o.allowedStreams v).map fun x => { o with allowedStreams := x })]

/-- The fields of the environment that are read. -/
def environmentFields : List (Text × Json.Setter Environment) :=
  [("inherit".toList, fun e _ v => (decodeBool v).map fun x => { e with inherit := x }),
    ("from".toList, fun e _ v => (decodeTextSlice e.from v).map fun x => { e with «from» := x }),
    ("values".toList, fun e _ v => (decodeTable e.values v).map fun x => { e with values := x })]

/-- The fields of the retries that are read. -/
def retryFields : List (Text × Json.Setter Retry) :=
  [("policy".toList, fun r _ v => (Json.decodeText r.policy v).map fun x => { r with policy := x }),
    ("initialBackoff".toList, fun r _ v =>
      (decodeDuration v).map fun x => { r with initialBackoff := x }),
    ("maxBackoff".toList, fun r _ v => (decodeDuration v).map fun x => { r with maxBackoff := x })]

/-- The fields of a specification that are read; its records are decoded onto those it has. -/
def specFields : List (Text × Json.Setter Spec) :=
  [("enabled".toList, fun s _ v => (decodeBool v).map fun x => { s with enabled := x }),
    ("network".toList, fun s _ v =>
      (Json.decodeText s.network v).map fun x => { s with network := x }),
    ("stream".toList, fun s _ v => (Json.decodeText s.stream v).map fun x => { s with stream := x }),
    ("runner".toList, fun s _ v =>
      (Json.decodeObject runnerFields s.runner v).map fun x => { s with runner := x }),
    ("input".toList, fun s _ v =>
      (Json.decodeObject inputFields s.input v).map fun x => { s with input := x }),
    ("events".toList, fun s _ v =>
      (Json.decodeObject eventsFields s.events v).map fun x => { s with events := x }),
    ("delivery".toList, fun s _ v =>
      (Json.decodeObject deliveryFields s.delivery v).map fun x => { s with delivery := x }),
    ("output".toList, fun s _ v =>
      (Json.decodeObject outputFields s.output v).map fun x => { s with output := x }),
    ("environment".toList, fun s _ v =>
      (Json.decodeObject environmentFields s.environment v).map fun x =>
        { s with environment := x }),
    ("retry".toList, fun s _ v =>
      (Json.decodeObject retryFields s.retry v).map fun x => { s with retry := x }),
    ("timeout".toList, fun s _ v => (decodeDuration v).map fun x => { s with timeout := x })]

/-- The fields of a definition that are read. -/
def definitionFields : List (Text × Json.Setter Definition) :=
  [("apiVersion".toList, fun d _ v =>
      (Json.decodeText d.apiVersion v).map fun x => { d with apiVersion := x }),
    ("kind".toList, fun d _ v => (Json.decodeText d.kind v).map fun x => { d with kind := x }),
    ("metadata".toList, fun d _ v =>
      (Json.decodeObject metadataFields d.metadata v).map fun x => { d with metadata := x }),
    ("spec".toList, fun d _ v =>
      (Json.decodeObject specFields d.spec v).map fun x => { d with spec := x }),
    ("sourceFile".toList, fun d _ v =>
      (Json.decodeText d.sourceFile v).map fun x => { d with sourceFile := x }),
    ("digest".toList, fun d _ v =>
      (Json.decodeText d.digest v).map fun x => { d with digest := x }),
    ("envValues".toList, fun d _ v =>
      (decodeTable d.envValues v).map fun x => { d with envValues := x })]

/-- The definition before anything is read. -/
def Definition.zero : Definition where
  apiVersion := []
  kind := []
  metadata := ⟨[], none⟩
  spec :=
    { enabled := none, network := [], stream := [], runner := ⟨[], none, [], 0, []⟩, input := ⟨[]⟩,
      events := ⟨none, []⟩, delivery := ⟨0, 0⟩, output := ⟨none⟩, environment := ⟨none, none, none⟩,
      retry := ⟨[], 0, 0⟩, timeout := 0 }
  sourceFile := []
  digest := []
  envValues := none

/-- The fields of a snapshot that are read; its definitions are decoded in their places. -/
def snapshotFields : List (Text × Json.Setter Snapshot) :=
  [("version".toList, fun s _ v => (decodeInt64 s.version v).map fun x => { s with version := x }),
    ("acceptedAt".toList, fun s _ v =>
      (Json.decodeText s.acceptedAt v).map fun x => { s with acceptedAt := x }),
    ("registryPath".toList, fun s _ v =>
      (Json.decodeText s.registryPath v).map fun x => { s with registryPath := x }),
    ("definitions".toList, fun s _ v =>
      match v with
      | .arr items => (Json.decodeElements (Json.decodeObject definitionFields) Definition.zero
          s.definitions items).map fun x => { s with definitions := x }
      | .null => some { s with definitions := [] }
      | _ => none)]

/-! ### Round trip -/

/-- An empty slice is omitted, so that it is nil when it is read. -/
def Texts.stored (texts : Texts) : Texts := if texts.isEmpty then none else texts

/-- An empty map is omitted, so that it is nil when it is read. -/
def StringTable.stored (table : StringTable) : StringTable := if table.isEmpty then none else table

/-- The definition that is read after the definition has been written. -/
def Definition.stored (d : Definition) : Definition :=
  { d with
    metadata := { d.metadata with labels := d.metadata.labels.stored }
    spec := { d.spec with
      events := { d.spec.events with streams := Texts.stored d.spec.events.streams }
      output := ⟨Texts.stored d.spec.output.allowedStreams⟩
      environment := { d.spec.environment with
        «from» := Texts.stored d.spec.environment.from
        values := d.spec.environment.values.stored } }
    envValues := d.envValues.stored }

@[simp] theorem decodeTextSlice_textsJson (texts : Texts) :
    decodeTextSlice none (textsJson texts) = some texts := by
  cases texts with
  | none => rfl
  | some texts =>
    have hitems : Json.decodeElements Json.decodeText [] [] (texts.map Json.str) =
        some (texts.map id) := Json.decodeElements_map fun _ _ => rfl
    simp [decodeTextSlice, textsJson, hitems]

@[simp] theorem decodeBool_boolJson (b : Option Bool) : decodeBool (boolJson b) = some b := by
  cases b <;> rfl

@[simp] theorem decodeDuration_durationJson (d : Int64) :
    decodeDuration (durationJson d) = some d := Duration.parse_format d

@[simp] theorem decodeInt64_num (old d : Int64) :
    decodeInt64 old (.num (Text.decimalInt d.toInt)) = some d := by
  rw [decodeInt64, Json.decodeInt_decimalInt old.toInt d.le_toInt d.toInt_lt, Option.map_some,
    Int64.ofInt_toInt]

theorem insert_of_forall_lt {k v : Text} {entries : List (Text × Text)}
    (h : ∀ e ∈ entries, e.1 < k) : OrderedStore.insert k v entries = entries ++ [(k, v)] := by
  induction entries with
  | nil => rfl
  | cons e entries ih =>
    rw [OrderedStore.insert, if_pos (h e List.mem_cons_self),
      ih fun d hd => h d (List.mem_cons_of_mem e hd)]
    rfl

/-- Entries in the order of their keys are put one after the other into a map. -/
theorem foldlM_set_entries {entries : List (Text × Text)} {before : StringMap}
    (h : (before.entries ++ entries).Pairwise fun a b => a.1 < b.1) :
    ∃ values : StringMap, (entries.map fun e => (e.1, Json.str e.2)).foldlM (fun values m =>
      (Json.decodeText [] m.2).map (values.set m.1 ·)) before = some values ∧
        values.entries = before.entries ++ entries := by
  induction entries generalizing before with
  | nil => exact ⟨before, rfl, (List.append_nil _).symm⟩
  | cons e entries ih =>
    have hinsert : (before.set e.1 e.2).entries = before.entries ++ [e] :=
      insert_of_forall_lt fun d hd => (List.pairwise_append.mp h).2.2 d hd e List.mem_cons_self
    obtain ⟨values, hfold, hentries⟩ := @ih (before.set e.1 e.2) (by
      rw [hinsert, List.append_assoc]
      exact h)
    refine ⟨values, hfold, ?_⟩
    rw [hentries, hinsert, List.append_assoc]
    rfl

theorem decodeTable_tableJson {table : StringTable} (h : table.isEmpty = false) :
    decodeTable none (tableJson table) = some table := by
  cases table with
  | none => cases h
  | some values =>
    obtain ⟨values', hfold, hentries⟩ := @foldlM_set_entries values.entries OrderedStore.empty
      values.sorted
    have hsame : values' = values := by
      cases values
      cases values'
      cases hentries
      rfl
    rw [tableJson, decodeTable, Option.getD_none, hfold, hsame]
    rfl

theorem decodeObject_obj {σ : Type} (fields : List (Text × Json.Setter σ)) (default : σ)
    (members : List (Text × Json)) : Json.decodeObject fields default (.obj members) =
      (Json.rawMembers members).foldlM (Json.setMember false fields) default := rfl

theorem decodeObject_metadata (m : Metadata) :
    Json.decodeObject metadataFields ⟨[], none⟩ m.toJson =
      some { m with labels := m.labels.stored } := by
  cases hl : m.labels.isEmpty <;>
    simp [Metadata.toJson, omitempty, hl, decodeObject_obj, Json.rawMembers, Json.setMember,
      Json.lookupField, metadataFields, Json.decodeText, decodeTable_tableJson, StringTable.stored]

theorem decodeObject_runner (r : Runner) :
    Json.decodeObject runnerFields ⟨[], none, [], 0, []⟩ r.toJson = some r := by
  obtain ⟨type, command, mode, interval, workingDirectory⟩ := r
  cases mode <;> cases workingDirectory <;>
    simp [Runner.toJson, omitempty, decodeObject_obj, Json.rawMembers, Json.setMember,
      Json.lookupField, runnerFields, Json.decodeText]

theorem decodeObject_input (i : Input) :
    Json.decodeObject inputFields ⟨[]⟩ i.toJson = some i := by
  obtain ⟨format⟩ := i
  cases format <;>
    simp [Input.toJson, omitempty, decodeObject_obj, Json.rawMembers, Json.setMember,
      Json.lookupField, inputFields, Json.decodeText]

theorem decodeObject_events (e : Events) :
    Json.decodeObject eventsFields ⟨none, []⟩ e.toJson =
      some { e with streams := Texts.stored e.streams } := by
  obtain ⟨streams, start⟩ := e
  cases hs : Texts.isEmpty streams <;> cases start <;>
    simp [Events.toJson, omitempty, hs, decodeObject_obj, Json.rawMembers, Json.setMember,
      Json.lookupField, eventsFields, Json.decodeText, Texts.stored]

theorem decodeObject_delivery (d : Delivery) :
    Json.decodeObject deliveryFields ⟨0, 0⟩ d.toJson = some d := by
  obtain ⟨maxEvents, wait⟩ := d
  by_cases h : maxEvents = 0 <;>
    simp [Delivery.toJson, omitempty, h, decodeObject_obj, Json.rawMembers, Json.setMember,
      Json.lookupField, deliveryFields]

theorem decodeObject_output (o : Output) :
    Json.decodeObject outputFields ⟨none⟩ o.toJson = some ⟨Texts.stored o.allowedStreams⟩ := by
  cases ha : Texts.isEmpty o.allowedStreams <;>
    simp [Output.toJson, omitempty, ha, decodeObject_obj, Json.rawMembers, Json.setMember,
      Json.lookupField, outputFields, Texts.stored]

theorem decodeObject_environment (e : Environment) :
    Json.decodeObject environmentFields ⟨none, none, none⟩ e.toJson =
      some { e with «from» := Texts.stored e.from, values := e.values.stored } := by
  obtain ⟨inherit, names, values⟩ := e
  cases inherit <;> cases hf : Texts.isEmpty names <;> cases hv : values.isEmpty <;>
    simp [Environment.toJson, omitempty, hf, hv, decodeObject_obj, Json.rawMembers,
      Json.setMember, Json.lookupField, environmentFields, decodeTable_tableJson, Texts.stored,
      StringTable.stored]

theorem decodeObject_retry (r : Retry) :
    Json.decodeObject retryFields ⟨[], 0, 0⟩ r.toJson = some r := by
  obtain ⟨policy, initialBackoff, maxBackoff⟩ := r
  cases policy <;>
    simp [Retry.toJson, omitempty, decodeObject_obj, Json.rawMembers, Json.setMember,
      Json.lookupField, retryFields, Json.decodeText]

theorem decodeObject_spec (s : Spec) :
    Json.decodeObject specFields Definition.zero.spec s.toJson =
      some { s with
        events := { s.events with streams := Texts.stored s.events.streams }
        output := ⟨Texts.stored s.output.allowedStreams⟩
        environment := { s.environment with
          «from» := Texts.stored s.environment.from
          values := s.environment.values.stored } } := by
  obtain ⟨enabled, network, stream, runner, input, events, delivery, output, environment, retry,
    timeout⟩ := s
  cases enabled <;> cases stream <;>
    simp [Spec.toJson, omitempty, decodeObject_obj, Json.rawMembers, Json.setMember,
      Json.lookupField, specFields, Json.decodeText, Definition.zero, decodeObject_runner,
      decodeObject_input, decodeObject_events, decodeObject_delivery, decodeObject_output,
      decodeObject_environment, decodeObject_retry]

theorem decodeObject_definition (d : Definition) :
    Json.decodeObject definitionFields Definition.zero d.toJson = some d.stored := by
  have hspec := decodeObject_spec d.spec
  simp only [Definition.zero] at hspec
  cases he : d.envValues.isEmpty <;>
    simp [Definition.toJson, omitempty, he, decodeObject_obj, Json.rawMembers, Json.setMember,
      Json.lookupField, definitionFields, Json.decodeText, Definition.zero, decodeObject_metadata,
      hspec, decodeTable_tableJson, Definition.stored, StringTable.stored]

/-! ### The text of a snapshot -/

theorem Texts.isEmpty_stored (texts : Texts) :
    Texts.isEmpty (Texts.stored texts) = Texts.isEmpty texts := by
  unfold Texts.stored
  split_ifs with h
  · exact h.symm
  · rfl

theorem StringTable.isEmpty_stored (table : StringTable) :
    table.stored.isEmpty = table.isEmpty := by
  unfold StringTable.stored
  split_ifs with h
  · exact h.symm
  · rfl

theorem omitempty_texts_stored (key : String) (texts : Texts) :
    omitempty key (Texts.isEmpty (Texts.stored texts)) (textsJson (Texts.stored texts)) =
      omitempty key (Texts.isEmpty texts) (textsJson texts) := by
  rw [Texts.isEmpty_stored]
  cases h : Texts.isEmpty texts <;> simp [omitempty, Texts.stored, h]

theorem omitempty_table_stored (key : String) (table : StringTable) :
    omitempty key table.stored.isEmpty (tableJson table.stored) =
      omitempty key table.isEmpty (tableJson table) := by
  rw [StringTable.isEmpty_stored]
  cases h : table.isEmpty <;> simp [omitempty, StringTable.stored, h]

/-- A definition that was read is written as the one that it was read from. -/
theorem Definition.toJson_stored (d : Definition) : d.stored.toJson = d.toJson := by
  simp only [Definition.toJson, Definition.stored, Metadata.toJson, Spec.toJson, Events.toJson,
    Output.toJson, Environment.toJson, omitempty_texts_stored, omitempty_table_stored]

/-- A value with numbers that can be read and at most `n` levels of nesting. -/
def Shallow (n : Nat) (v : Json) : Prop := v.WellFormed Json.IsNumber ∧ v.depth ≤ n

theorem shallow_str (n : Nat) (s : Text) : Shallow n (.str s) := ⟨trivial, n.zero_le⟩

theorem shallow_obj {n : Nat} {members : List (Text × Json)} :
    Shallow (n + 1) (.obj members) ↔ ∀ m ∈ members, Shallow n m.2 := by
  simp only [Shallow, Json.WellFormed, Json.depth, Nat.add_le_add_iff_right,
    Json.membersWellFormed_iff, Json.membersDepth_le_iff, ← forall_and]

theorem itemsWellFormed_iff {items : List Json} :
    Json.ItemsWellFormed Json.IsNumber items ↔ ∀ v ∈ items, v.WellFormed Json.IsNumber := by
  induction items with
  | nil => simp [Json.ItemsWellFormed]
  | cons v items ih => simp [Json.ItemsWellFormed, ih]

theorem shallow_arr {n : Nat} {items : List Json} :
    Shallow (n + 1) (.arr items) ↔ ∀ v ∈ items, Shallow n v := by
  simp only [Shallow, Json.WellFormed, Json.depth, Nat.add_le_add_iff_right,
    itemsWellFormed_iff, Json.itemsDepth_le_iff, ← forall_and]

theorem forall_omitempty {n : Nat} {v : Json} {key : String} {isEmpty : Bool} :
    (∀ m ∈ omitempty key isEmpty v, Shallow n m.2) ↔ isEmpty = false → Shallow n v := by
  cases isEmpty <;> simp [omitempty]

theorem shallow_texts (n : Nat) (texts : Texts) : Shallow (n + 1) (textsJson texts) := by
  cases texts with
  | none => exact ⟨trivial, Nat.zero_le _⟩
  | some texts => exact shallow_arr.mpr (List.forall_mem_map.mpr fun s _ => shallow_str n s)

theorem shallow_table (n : Nat) (table : StringTable) : Shallow (n + 1) (tableJson table) := by
  cases table with
  | none => exact ⟨trivial, Nat.zero_le _⟩
  | some values => exact shallow_obj.mpr (List.forall_mem_map.mpr fun e _ => shallow_str n e.2)

theorem shallow_bool (n : Nat) (b : Option Bool) : Shallow n (boolJson b) := by
  cases b <;> exact ⟨trivial, n.zero_le⟩

theorem shallow_int (n : Nat) (d : Int64) : Shallow n (.num (Text.decimalInt d.toInt)) :=
  ⟨Json.isNumber_decimalInt d.toInt, n.zero_le⟩

theorem shallow_spec (s : Spec) : Shallow 3 s.toJson := by
  simp only [Spec.toJson, Runner.toJson, Input.toJson, Events.toJson, Delivery.toJson,
    Output.toJson, Environment.toJson, Retry.toJson, durationJson, shallow_obj,
    List.forall_mem_append, List.forall_mem_cons, List.not_mem_nil, IsEmpty.forall_iff,
    implies_true, forall_omitempty, shallow_str, shallow_texts, shallow_table,
    shallow_bool, shallow_int, and_self]

theorem shallow_definition (d : Definition) : Shallow 4 d.toJson := by
  simp only [Definition.toJson, Metadata.toJson, shallow_obj, List.forall_mem_append,
    List.forall_mem_cons, List.not_mem_nil, IsEmpty.forall_iff, implies_true,
    forall_omitempty, shallow_str, shallow_table, shallow_spec, and_self]

/-- **Round trip.** A snapshot is read back with its definitions as they are stored. -/
theorem decodeRecord_snapshot (s : Snapshot) :
    Json.decodeRecord false snapshotFields ⟨0, [], [], []⟩
        (Json.renderIndent 0 (.obj s.members) ++ ['\n']) =
      some { s with definitions := s.definitions.map Definition.stored } := by
  have hshallow : ∀ m ∈ s.members, Shallow 5 m.2 := by
    simp only [Snapshot.members, List.forall_mem_cons, List.not_mem_nil, IsEmpty.forall_iff,
      implies_true, and_true, shallow_str, true_and]
    exact ⟨shallow_int 5 s.version,
      shallow_arr.mpr (List.forall_mem_map.mpr fun d _ => shallow_definition d)⟩
  have hdepth : Json.membersDepth s.members + 1 ≤ Json.maxDepth := by
    have hle := Json.membersDepth_le_iff.mpr fun m hm => (hshallow m hm).2
    simp only [Json.maxDepth]
    omega
  have hread := Json.parseRecord_renderIndent (by simp [Snapshot.members])
    (Json.membersWellFormed_iff.mpr fun m hm => (hshallow m hm).1) hdepth 0
    (Json.isSpace_breakLine 0)
  rw [Json.decodeRecord, show ['\n'] = Json.breakLine 0 from rfl, hread]
  simp [Snapshot.members, Json.indentedMembers, Json.setMember, Json.lookupField, snapshotFields,
    Json.decodeText, Json.decodeElements_map fun definition _ => decodeObject_definition definition]

end Thalweg.Registry.Files
