import Thalweg.Registry.Loader

/-!
# The accepted snapshot across a restart

The accepted snapshot is written to a file as JSON and read from it when the runtime starts again.
An empty list or map may have become nil by then; what a definition runs and its digest do not
depend on that. A reload is pending when the registry directory holds another snapshot than the
accepted one.

## Main definitions

* `writeSnapshot`, `loadSnapshot`.
* `snapshotDigest`, `pendingReload`.
* `RunsAs`: a definition runs like another one.

## Main results

* `loadSnapshot_writeSnapshot`.
-/

namespace Thalweg.Registry.Files

/-- A file with what it holds, if it can be read. -/
structure SnapshotFile where
  info : FileInfo
  content : Option (List UInt8)

/-- The file that `WriteSnapshot` installs. -/
def writeSnapshot (s : Snapshot) : SnapshotFile :=
  ⟨⟨.regular, 0o600⟩, some (Text.toBytes (Json.renderIndent 0 (.obj s.members) ++ ['\n']))⟩

/-- `LoadSnapshot`. -/
def loadSnapshot (path : Text) : Except FileError SnapshotFile → Result (Option Snapshot)
  | .error .notExist => .ok none
  | .error .other =>
    .error (.wrap "inspect accepted registry snapshot: %w" [] (.external "os"))
  | .ok file =>
    if file.info.kind ≠ .regular ∨ file.info.perm &&& 0o077 ≠ 0 then
      errorf "accepted registry snapshot %s must be a regular mode-0600 file" [path]
    else
      match file.content with
      | none => .error (.wrap "read accepted registry snapshot: %w" [] (.external "os"))
      | some content =>
        match Json.decodeRecord false snapshotFields ⟨0, [], [], []⟩ (Text.ofBytes content) with
        | none =>
          .error (.wrap "decode accepted registry snapshot: %w" [] (.external "encoding/json"))
        | some s =>
          if s.version ≠ snapshotVersion then
            errorf "unsupported registry snapshot version %d" [Text.decimalInt s.version.toInt]
          else .ok (some s)

/-- The text of the definitions without the names of their files; no definitions are a nil list. -/
def snapshotDigest (s : Snapshot) : Text :=
  match s.definitions.map fun d => Definition.toJson { d with sourceFile := [] } with
  | [] => Json.render .null
  | definitions => Json.render (.arr definitions)

/-- What `Status` says of the accepted snapshot. -/
def pendingReload (decoder : Decoder) (world : World) (registryPath now : Text)
    (accepted : Snapshot) : Bool :=
  match load decoder world registryPath now with
  | .error _ => true
  | .ok disk => snapshotDigest disk ≠ snapshotDigest accepted

/-- `d'` runs what `d` runs, in the same way, with the same digest. -/
structure RunsAs (d d' : Definition) : Prop where
  name : d'.name = d.name
  kind : d'.kind = d.kind
  enabled : d'.enabled = d.enabled
  command : ∀ environ, commandFor environ d' = commandFor environ d
  runner : d'.spec.runner = d.spec.runner
  input : d'.spec.input = d.spec.input
  network : d'.spec.network = d.spec.network
  stream : d'.spec.stream = d.spec.stream
  start : d'.spec.events.start = d.spec.events.start
  streams : d'.spec.events.streams.getD [] = d.spec.events.streams.getD []
  delivery : d'.spec.delivery = d.spec.delivery
  allowedStreams : d'.spec.output.allowedStreams.getD [] = d.spec.output.allowedStreams.getD []
  retry : d'.spec.retry = d.spec.retry
  timeout : d'.spec.timeout = d.spec.timeout
  labels : d'.metadata.labels.entries = d.metadata.labels.entries
  digest : d'.digest = d.digest
  definitionDigest : definitionDigest d' = definitionDigest d

theorem Texts.getD_stored (texts : Texts) : (Texts.stored texts).getD [] = texts.getD [] := by
  unfold Texts.stored
  split_ifs with h
  · rw [Texts.isEmpty, beq_iff_eq] at h
    rw [h]
    rfl
  · rfl

theorem StringTable.entries_stored (table : StringTable) : table.stored.entries = table.entries := by
  unfold StringTable.stored
  split_ifs with h
  · exact (List.isEmpty_iff.mp h).symm
  · rfl

/-- A definition that was read runs like the one that was written. -/
theorem runsAs_stored (d : Definition) : RunsAs d d.stored where
  name := rfl
  kind := rfl
  enabled := rfl
  command environ := by
    have henvironment : resolvedEnvironment environ d.stored = resolvedEnvironment environ d := by
      rw [resolvedEnvironment, resolvedEnvironment,
        show d.stored.envValues.entries = d.envValues.entries from StringTable.entries_stored _]
      rfl
    rw [commandFor, commandFor, environmentList, environmentList, henvironment]
    rfl
  runner := rfl
  input := rfl
  network := rfl
  stream := rfl
  start := rfl
  streams := Texts.getD_stored _
  delivery := rfl
  allowedStreams := Texts.getD_stored _
  retry := rfl
  timeout := rfl
  labels := StringTable.entries_stored _
  digest := rfl
  definitionDigest := by
    have hjson := Definition.toJson_stored { d with digest := [], sourceFile := [] }
    rw [Files.definitionDigest, Files.definitionDigest, ← hjson]
    rfl

/-- The snapshot that is read after a snapshot has been written. -/
def Snapshot.stored (s : Snapshot) : Snapshot :=
  { s with definitions := s.definitions.map Definition.stored }

theorem snapshotDigest_stored (s : Snapshot) : snapshotDigest s.stored = snapshotDigest s := by
  have hdefinitions : (s.definitions.map Definition.stored).map (fun d =>
      Definition.toJson { d with sourceFile := [] }) =
        s.definitions.map fun d => Definition.toJson { d with sourceFile := [] } := by
    rw [List.map_map]
    exact List.map_congr_left fun d _ => Definition.toJson_stored { d with sourceFile := [] }
  rw [snapshotDigest, snapshotDigest, Snapshot.stored, hdefinitions]

/-- **Restart.** A snapshot that was loaded is read back after it has been written: its definitions
run as before and have the same digests, which are those computed again, and no reload is pending
while the registry directory and the environment are the same. -/
theorem loadSnapshot_writeSnapshot {decoder : Decoder} {world : World} {root now : Text}
    {s : Snapshot} (h : load decoder world root now = .ok s) (path : Text) :
    ∃ s', loadSnapshot path (.ok (writeSnapshot s)) = .ok (some s') ∧
      s'.acceptedAt = s.acceptedAt ∧ s'.registryPath = s.registryPath ∧
      List.Forall₂ RunsAs s.definitions s'.definitions ∧
      (∀ d ∈ s'.definitions, definitionDigest d = d.digest) ∧
      ∀ later, pendingReload decoder world root later s' = false := by
  obtain ⟨hversion, hdigest⟩ := digest_of_load h
  refine ⟨s.stored, ?_, rfl, rfl, ?_, ?_, fun later => ?_⟩
  · have hread := decodeRecord_snapshot s
    have hmode : ¬(FileKind.regular ≠ .regular ∨ 0o600 &&& 0o077 ≠ 0) := by decide
    simp only [loadSnapshot, writeSnapshot, Text.ofBytes_toBytes, hread, if_neg hmode]
    rw [if_neg (not_not.mpr hversion)]
    rfl
  · rw [Snapshot.stored, List.forall₂_map_right_iff]
    exact List.forall₂_same.mpr fun d _ => runsAs_stored d
  · intro d hd
    obtain ⟨d, hmem, rfl⟩ := List.mem_map.mp hd
    rw [(runsAs_stored d).definitionDigest, (runsAs_stored d).digest, hdigest d hmem]
  · rw [pendingReload, load_at h later, snapshotDigest_stored]
    simp [snapshotDigest]

theorem loadSnapshot_clockWorld : ∃ s s', load clockDecoder clockWorld "/r".toList [] = .ok s ∧
    s.definitions.map Definition.name = ["clock".toList] ∧
      loadSnapshot [] (.ok (writeSnapshot s)) = .ok (some s') ∧
      List.Forall₂ RunsAs s.definitions s'.definitions ∧
      pendingReload clockDecoder clockWorld "/r".toList [] s' = false := by
  obtain ⟨s, hload, hnames⟩ := exists_load_clockWorld
  obtain ⟨s', hread, -, -, hruns, -, hpending⟩ := loadSnapshot_writeSnapshot hload []
  exact ⟨s, s', hload, hnames, hread, hruns, hpending []⟩

end Thalweg.Registry.Files
