import Thalweg.Daemon.Codec
import Thalweg.Data.Hex
import Thalweg.Data.Sha256
import Thalweg.Registry.Definition
import Thalweg.Registry.Schema

/-!
# Loading a registry directory

The definitions of a registry directory are decoded from their files, completed with defaults,
checked against the environment and given a digest. What YAML decodes a file to is an argument.

## Main definitions

* `applyDefaults`, `validateDefinition`, `definitionDigest`.
* `loadDefinition`, `load`.
* `commandFor`: the command of a definition with its environment.
* `Definition.running`, `registryDirectory`: what the runtime sees of a definition and of the
  directory.

## Main results

* `backoff_of_validateDefinition`: the bounds of the backoff of an accepted definition.
* `digest_of_load`: the digests of a loaded snapshot are those of its definitions.
* `load_running`: the runtime's load of the directory is what the runtime sees of this one.
* `load_nodup`: the names of loaded definitions are different.
-/

namespace Thalweg.Registry.Files

/-- The version that a definition names. -/
def apiVersion : Text := "thalweg.dev/v1alpha1".toList

/-- The kind of a Source. -/
def kindSource : Text := "Source".toList

/-- The kind of a Sink. -/
def kindSink : Text := "Sink".toList

/-- The kind of a Processor. -/
def kindProcessor : Text := "Processor".toList

/-- The version of the snapshot. -/
def snapshotVersion : Int64 := 1

/-- The events of a delivery when a definition names none. -/
def defaultBatchSize : Int64 := 25

/-- The kind in lower case. -/
def lowerKind (kind : Text) : Text :=
  if kind = kindSource then "source".toList
  else if kind = kindSink then "sink".toList
  else if kind = kindProcessor then "processor".toList
  else "unknown".toList

/-- A duration of some seconds. -/
def seconds (n : Nat) : Int64 := Int64.ofNat (n * Duration.second)

/-! ### Defaults -/

/-- A value, or the default for the zero value. -/
def orDefault {α : Type} [DecidableEq α] (zero default value : α) : α :=
  if value = zero then default else value

/-- A runner with its defaults. -/
def Runner.applyDefaults (kind : Text) (r : Runner) : Runner :=
  { r with
    type := orDefault [] "exec".toList r.type
    mode := if kind = kindSource then orDefault [] "stream".toList r.mode else r.mode }

/-- The timeout of a definition that may not have one; what streams has none. -/
def defaultTimeout (kind mode : Text) (timeout : Int64) : Int64 :=
  let timeout := if kind ≠ kindSource then orDefault 0 (seconds 300) timeout else timeout
  if mode ≠ "stream".toList then orDefault 0 (seconds 30) timeout else timeout

/-- Settings with their defaults. -/
def Spec.applyDefaults (kind : Text) (s : Spec) : Spec :=
  let runner := s.runner.applyDefaults kind
  { s with
    runner
    input := ⟨orDefault [] "raw-ndjson".toList s.input.format⟩
    delivery := ⟨orDefault 0 defaultBatchSize s.delivery.maxEvents,
      orDefault 0 (seconds 20) s.delivery.wait⟩
    retry := ⟨orDefault [] "always".toList s.retry.policy,
      orDefault 0 (seconds 1) s.retry.initialBackoff, orDefault 0 (seconds 60) s.retry.maxBackoff⟩
    timeout := defaultTimeout kind runner.mode s.timeout
    environment := { s.environment with
      inherit := some (s.environment.inherit.getD true)
      values := some (s.environment.values.getD OrderedStore.empty) } }

/-- A definition with its defaults. -/
def applyDefaults (d : Definition) : Definition :=
  { d with
    metadata := { d.metadata with labels := some (d.metadata.labels.getD OrderedStore.empty) }
    spec := d.spec.applyDefaults d.kind }

/-! ### The environment of a definition -/

/-- Assignments put over a map, in their order. -/
def assign (values : StringMap) (assignments : List (Text × Text)) : StringMap :=
  assignments.foldl (fun values e => values.set e.1 e.2) values

/-- The entries of a map, none if it is nil. -/
def StringTable.entries (table : StringTable) : List (Text × Text) := table.elim [] (·.entries)

/-- The variables of a definition in a process with an environment. -/
def resolvedEnvironment (environ : List Text) (d : Definition) : StringMap :=
  let inherited := if d.spec.environment.inherit.getD true then environ.filterMap cut else []
  assign (assign (assign OrderedStore.empty inherited) d.envValues.entries)
    [("THALWEG_REGISTRY_NAME".toList, d.name), ("THALWEG_REGISTRY_KIND".toList, d.kind),
      ("THALWEG_NETWORK".toList, d.spec.network)]

/-- The environment of a command as a list of settings. -/
def environmentList (environ : List Text) (d : Definition) : List Text :=
  (resolvedEnvironment environ d).entries.map fun e => e.1 ++ '=' :: e.2

/-- A command that is going to be run. -/
structure Command where
  args : List Text
  dir : Text
  env : List Text

/-- The command of a definition. -/
def commandFor (environ : List Text) (d : Definition) : Command :=
  ⟨d.spec.runner.command.getD [], d.spec.runner.workingDirectory, environmentList environ d⟩

/-! ### Validation -/

/-- The checks before any file is read. Any invalid name of a variable may be the one in the
error. -/
def validateSpec (d : Definition) : Result Unit :=
  if isDefinitionName d.name = false then
    errorf "metadata.name must match %s" ["^[a-z0-9][a-z0-9._-]\x7b0,127\x7d$".toList]
  else if Text.trimSpace d.spec.network = [] then errorf "spec.network is required" []
  else if d.spec.runner.type ≠ "exec".toList then errorf "spec.runner.type must be exec" []
  else if Text.trimSpace ((d.spec.runner.command.getD []).headD []) = [] then
    errorf "spec.runner.command requires an executable" []
  else if d.spec.retry.initialBackoff ≤ 0 ∨ d.spec.retry.maxBackoff < d.spec.retry.initialBackoff then
    errorf "retry backoff must be positive and maxBackoff must be at least initialBackoff" []
  else if d.spec.retry.policy ∉ ["always".toList, "on-failure".toList, "never".toList] then
    errorf "retry.policy must be always, on-failure, or never" []
  else if d.spec.timeout < 0 then errorf "timeout must not be negative" []
  else
    match d.spec.environment.values.entries.find? fun e => !isEnvironmentName e.1 with
    | some (key, _) => errorf "invalid environment variable name %q" [key]
    | none => .ok ()

/-- The checks that depend on the kind. -/
def validateKind (d : Definition) : Result Unit :=
  if d.kind = kindSource then
    if Text.trimSpace d.spec.stream = [] then errorf "spec.stream is required for Source" []
    else if d.spec.runner.mode ∉ ["stream".toList, "interval".toList, "once".toList] then
      errorf "source runner.mode must be stream, interval, or once" []
    else if d.spec.runner.mode = "interval".toList ∧ d.spec.runner.interval ≤ 0 then
      errorf "interval source requires a positive runner.interval" []
    else if d.spec.input.format ∉ ["raw-ndjson".toList, "event-ndjson".toList] then
      errorf "source input.format must be raw-ndjson or event-ndjson" []
    else .ok ()
  else if d.kind = kindSink ∨ d.kind = kindProcessor then
    if d.spec.events.start ∉ ["earliest".toList, "latest".toList] then
      errorf "spec.events.start must explicitly be earliest or latest" []
    else if d.spec.delivery.maxEvents < 1 ∨ 100 < d.spec.delivery.maxEvents then
      errorf "delivery.maxEvents must be between 1 and 100" []
    else if d.spec.delivery.wait < 0 ∨ seconds 60 < d.spec.delivery.wait then
      errorf "delivery.wait must be between 0 and 1m" []
    else if d.kind = kindProcessor ∧ Texts.isEmpty d.spec.output.allowedStreams = true then
      errorf "Processor requires output.allowedStreams" []
    else .ok ()
  else .ok ()

/-- Where the command of a definition runs. -/
def workingDirectory (d : Definition) : Text :=
  let directory := d.spec.runner.workingDirectory
  clean (if directory = [] then dir d.sourceFile
    else if isAbs directory then directory else join [dir d.sourceFile, directory])

/-- `os.Stat` finds a directory. -/
def World.isDirectory (world : World) (path : Text) : Bool :=
  match world.stat path with
  | .ok info => info.kind = .directory
  | .error _ => false

/-- The arguments of a command from an index on with their expansions replaced. -/
def expandArguments (environment : StringMap) : Nat → List Text → Result (List Text)
  | _, [] => .ok []
  | index, argument :: rest => do
    let expanded ← wrapf "runner.command[%d]: %w" [Text.decimal index] (expand argument environment)
    let rest ← expandArguments environment (index + 1) rest
    .ok (expanded :: rest)

/-- A path of the executable that is not absolute is one in the working directory. -/
def locateExecutable (workingDirectory : Text) : List Text → List Text
  | [] => []
  | executable :: arguments =>
    (if '/' ∈ executable ∧ isAbs executable = false then join [workingDirectory, executable]
      else executable) :: arguments

/-- The working directory and the command of a definition that has its environment values. -/
def resolveRunner (world : World) (d : Definition) : Result Runner :=
  let directory := workingDirectory d
  if world.isDirectory directory = false then
    errorf "runner working directory %s is not available" [directory]
  else do
    let environment := resolvedEnvironment world.environ d
    let command ← expandArguments environment 0 (d.spec.runner.command.getD [])
    let command := locateExecutable directory command
    preflightExecutable world (command.headD []) environment directory
    .ok { d.spec.runner with workingDirectory := directory, command := some command }

/-- `validateDefinition`: the definition with its environment values, its working directory and its
command. -/
def validateDefinition (world : World) (d : Definition) (registryRoot : Text) :
    Result Definition := do
  validateSpec d
  let fromFiles ← loadEnvironmentFiles world (d.spec.environment.from.getD [])
    (join [dir registryRoot, "env.d".toList])
  let d := { d with envValues := some (assign fromFiles d.spec.environment.values.entries) }
  let runner ← resolveRunner world d
  let d := { d with spec := { d.spec with runner } }
  validateKind d
  .ok d

/-! ### Digests -/

/-- The digest of a definition. -/
def definitionDigest (d : Definition) : Text :=
  Hex.encode (Sha256.digest (Text.toBytes
    (Json.render (Definition.toJson { d with digest := [], sourceFile := [] }))))

/-! ### Loading -/

/-- What comes after the first document of a file. -/
inductive Trailing where
  | eof
  | document
  | malformed
  deriving DecidableEq

/-- What `yaml.v3` makes of a file, known fields only: the first document and what comes after it. -/
abbrev Decoder := Text → Option (Definition × Trailing)

/-- The definition that a file holds. -/
def decodeDefinition (decoder : Decoder) (world : World) (path expectedKind : Text) :
    Result Definition :=
  match world.lstat path with
  | .error _ => .error (.wrap "inspect registry definition %s: %w" [path] (.external "os"))
  | .ok info =>
    if info.kind ≠ .regular then
      errorf "registry definition %s must be a regular non-symlink file" [path]
    else if info.perm &&& 0o022 ≠ 0 then
      errorf "registry definition %s is writable by group or others" [path]
    else
      match world.readFile path with
      | none => .error (.wrap "read registry definition %s: %w" [path] (.external "os"))
      | some content =>
        match decoder content with
        | none =>
          .error (.wrap "decode registry definition %s: %w" [path] (.external "gopkg.in/yaml.v3"))
        | some (_, .document) =>
          errorf "registry definition %s contains multiple YAML documents" [path]
        | some (_, .malformed) =>
          .error (.wrap "decode trailing YAML in %s: %w" [path] (.external "gopkg.in/yaml.v3"))
        | some (d, .eof) =>
          if d.apiVersion ≠ apiVersion then
            errorf "registry definition %s uses unsupported apiVersion %q" [path, d.apiVersion]
          else if d.kind ≠ expectedKind then
            errorf "registry definition %s has kind %q but is stored under %s"
              [path, d.kind, lowerKind expectedKind ++ ['s']]
          else .ok { d with sourceFile := path }

/-- The definition of a file, with defaults, validated and with its digest. -/
def loadDefinition (decoder : Decoder) (world : World) (path expectedKind registryRoot : Text) :
    Result Definition := do
  let d ← decodeDefinition decoder world path expectedKind
  let d ← wrapf "validate registry definition %s: %w" [path]
    (validateDefinition world (applyDefaults d) registryRoot)
  .ok { d with digest := definitionDigest d }

/-- `validateDirectory` where the directory may be missing. -/
def validateDirectory (world : World) (path : Text) : Result Unit :=
  match world.lstat path with
  | .error .notExist => .ok ()
  | .error .other => .error (.wrap "inspect registry directory %s: %w" [path] (.external "os"))
  | .ok info =>
    if info.kind ≠ .directory then errorf "registry path %s must be a non-symlink directory" [path]
    else if info.perm &&& 0o022 ≠ 0 then
      errorf "registry directory %s is writable by group or others" [path]
    else .ok ()

/-- Letters of ASCII in lower case. -/
def toLower (text : Text) : Text := text.map Char.toLower

/-- The files of a directory, loaded after others; each definition comes with its file. -/
def loadEntries (decoder : Decoder) (world : World) (root directory kind : Text) :
    List (Text × Definition) → List Text → Result (List (Text × Definition))
  | loaded, [] => .ok loaded
  | loaded, name :: names =>
    if toLower (ext name) ∉ [".yaml".toList, ".yml".toList] then
      loadEntries decoder world root directory kind loaded names
    else do
      let path := join [directory, name]
      let d ← loadDefinition decoder world path kind root
      match loaded.find? fun l => l.2.name = d.name with
      | some (first, _) =>
        errorf "duplicate registry definition %q in %s and %s" [d.name, first, path]
      | none => loadEntries decoder world root directory kind (loaded ++ [(path, d)]) names

/-- A subdirectory with the definitions of one kind, loaded after others. -/
def loadDirectory (decoder : Decoder) (world : World) (root : Text)
    (loaded : List (Text × Definition)) (directory : Text × Text) :
    Result (List (Text × Definition)) := do
  let path := join [root, directory.1]
  validateDirectory world path
  match world.readDir path with
  | .error .notExist => .ok loaded
  | .error .other => .error (.wrap "read registry directory %s: %w" [path] (.external "os"))
  | .ok names => loadEntries decoder world root path directory.2 loaded names

/-- The directories of the registry with the kinds of their definitions. -/
def directories : List (Text × Text) :=
  [("sources".toList, kindSource), ("sinks".toList, kindSink), ("processors".toList, kindProcessor)]

/-- `Load` at a time. -/
def load (decoder : Decoder) (world : World) (root now : Text) : Result Snapshot :=
  match world.abs root with
  | none => .error (.wrap "resolve registry path: %w" [] (.external "path/filepath"))
  | some root => do
    validateDirectory world root
    let loaded ← directories.foldlM (loadDirectory decoder world root) []
    .ok ⟨snapshotVersion, now, root,
      (loaded.map Prod.snd).insertionSort fun a b => a.name ≤ b.name⟩

/-! ### What is loaded -/

theorem retry_of_validateSpec {d : Definition} (h : validateSpec d = .ok ()) :
    0 < d.spec.retry.initialBackoff ∧ d.spec.retry.initialBackoff ≤ d.spec.retry.maxBackoff := by
  unfold validateSpec at h
  split_ifs at h with h1 h2 h3 h4 hretry h5 h6
  any_goals cases h
  rw [not_or, Int64.not_le, Int64.not_lt] at hretry
  exact hretry

/-- A definition that is accepted keeps its backoff, whose bounds are in order. -/
theorem backoff_of_validateDefinition {world : World} {d d' : Definition} {registryRoot : Text}
    (h : validateDefinition world d registryRoot = .ok d') : d'.spec.retry = d.spec.retry ∧
      0 < d.spec.retry.initialBackoff ∧ d.spec.retry.initialBackoff ≤ d.spec.retry.maxBackoff := by
  simp only [validateDefinition, bind_eq_ok_iff] at h
  obtain ⟨u, hspec, values, -, runner, -, v, -, h⟩ := h
  cases h
  exact ⟨rfl, retry_of_validateSpec hspec⟩

theorem digest_of_loadDefinition {decoder : Decoder} {world : World}
    {path expectedKind registryRoot : Text} {d : Definition}
    (h : loadDefinition decoder world path expectedKind registryRoot = .ok d) :
    definitionDigest d = d.digest := by
  simp only [loadDefinition, bind_eq_ok_iff] at h
  obtain ⟨decoded, -, d', -, h⟩ := h
  cases h
  rfl

/-- Every definition comes with its digest. -/
def Digested (loaded : List (Text × Definition)) : Prop :=
  ∀ l ∈ loaded, definitionDigest l.2 = l.2.digest

theorem Digested.loadEntries {decoder : Decoder} {world : World} {root directory kind : Text}
    {names : List Text} {loaded loaded' : List (Text × Definition)} (hloaded : Digested loaded)
    (h : loadEntries decoder world root directory kind loaded names = .ok loaded') :
    Digested loaded' := by
  induction names generalizing loaded with
  | nil =>
    cases h
    exact hloaded
  | cons name names ih =>
    unfold Files.loadEntries at h
    split_ifs at h with hext
    · simp only [bind_eq_ok_iff] at h
      obtain ⟨d, hd, h⟩ := h
      split at h
      · cases h
      · refine ih (fun l hl => ?_) h
        rcases List.mem_append.mp hl with hl | hl
        · exact hloaded l hl
        · rw [List.mem_singleton.mp hl]
          exact digest_of_loadDefinition hd
    · exact ih hloaded h

theorem Digested.loadDirectory {decoder : Decoder} {world : World} {root : Text}
    {directory : Text × Text} {loaded loaded' : List (Text × Definition)}
    (hloaded : Digested loaded)
    (h : loadDirectory decoder world root loaded directory = .ok loaded') : Digested loaded' := by
  simp only [Files.loadDirectory, bind_eq_ok_iff] at h
  obtain ⟨u, -, h⟩ := h
  split at h
  · cases h
    exact hloaded
  · cases h
  · exact hloaded.loadEntries h

/-- The digests of a loaded snapshot are those of its definitions. -/
theorem digest_of_load {decoder : Decoder} {world : World} {root now : Text} {s : Snapshot}
    (h : load decoder world root now = .ok s) :
    s.version = snapshotVersion ∧ ∀ d ∈ s.definitions, definitionDigest d = d.digest := by
  unfold load at h
  split at h
  · cases h
  · next root' _ =>
    simp only [bind_eq_ok_iff] at h
    obtain ⟨u, -, loaded, hloaded, h⟩ := h
    cases h
    simp only [directories, List.foldlM_cons, List.foldlM_nil, bind_eq_ok_iff] at hloaded
    obtain ⟨sources, hsources, sinks, hsinks, processors, hprocessors, hloaded⟩ := hloaded
    cases hloaded
    have hnil : Digested [] := fun l hl => absurd hl List.not_mem_nil
    have hdigested := ((hnil.loadDirectory hsources).loadDirectory hsinks).loadDirectory hprocessors
    refine ⟨rfl, fun d hd => ?_⟩
    obtain ⟨l, hl, rfl⟩ := List.mem_map.mp ((List.mem_insertionSort _).mp hd)
    exact hdigested l hl

/-- The time of a load is all that another time changes. -/
theorem load_at {decoder : Decoder} {world : World} {root now : Text} {s : Snapshot}
    (h : load decoder world root now = .ok s) (later : Text) :
    load decoder world root later = .ok { s with acceptedAt := later } := by
  unfold load at h ⊢
  split at h
  · cases h
  · simp only [bind_eq_ok_iff] at h ⊢
    obtain ⟨u, hu, loaded, hloaded, h⟩ := h
    cases h
    exact ⟨u, hu, loaded, hloaded, rfl⟩

/-! ### What the runtime sees -/

/-- The kind that a definition names. -/
def kindOf (kind : Text) : Kind :=
  if kind = kindSource then .source else if kind = kindSink then .sink else .processor

/-- What the runtime keeps of a definition: an absent list or map is an empty one. -/
def Definition.running (d : Definition) : Registry.Definition where
  kind := kindOf d.kind
  metadata := ⟨d.name, d.metadata.labels.entries⟩
  spec :=
    { enabled := d.spec.enabled
      network := d.spec.network
      events := ⟨d.spec.events.streams.getD [], d.spec.events.start⟩
      delivery := ⟨d.spec.delivery.maxEvents.toInt, d.spec.delivery.wait.toInt⟩
      output := ⟨d.spec.output.allowedStreams.getD []⟩
      retry := ⟨d.spec.retry.policy, d.spec.retry.initialBackoff.toInt,
        d.spec.retry.maxBackoff.toInt⟩
      timeout := d.spec.timeout.toInt }
  digest := d.digest

/-- What the runtime keeps of a snapshot. -/
def Snapshot.running (s : Snapshot) : Registry.Snapshot :=
  ⟨s.acceptedAt, s.definitions.map Definition.running⟩

/-- The definition files among the names in a directory, with what becomes of them. -/
def definitionFiles (decoder : Decoder) (world : World) (root directory kind : Text)
    (names : List Text) : List (Text × Result Registry.Definition) :=
  (names.filter fun name => toLower (ext name) ∈ [".yaml".toList, ".yml".toList]).map fun name =>
    (join [directory, name],
      (loadDefinition decoder world (join [directory, name]) kind root).map Definition.running)

/-- The absolute path of the registry. -/
def resolveRoot (world : World) (root : Text) : Result Text :=
  match world.abs root with
  | none => .error (.wrap "resolve registry path: %w" [] (.external "path/filepath"))
  | some root => (validateDirectory world root).map fun _ => root

/-- A subdirectory of the registry as the runtime loads it. -/
def subdirectory (decoder : Decoder) (world : World) (root : Text) (directory : Text × Text) :
    Result (List (Text × Result Registry.Definition)) := do
  let root ← resolveRoot world root
  let path := join [root, directory.1]
  validateDirectory world path
  match world.readDir path with
  | .error .notExist => .ok []
  | .error .other => .error (.wrap "read registry directory %s: %w" [path] (.external "os"))
  | .ok names => .ok (definitionFiles decoder world root path directory.2 names)

/-- The registry directory as the runtime loads it. -/
def registryDirectory (decoder : Decoder) (world : World) (root : Text) : RegistryDirectory where
  sources := subdirectory decoder world root ("sources".toList, kindSource)
  sinks := subdirectory decoder world root ("sinks".toList, kindSink)
  processors := subdirectory decoder world root ("processors".toList, kindProcessor)

section

variable (decoder : Decoder) (world : World)

theorem definitionFiles_cons (root directory kind name : Text) (names : List Text) :
    definitionFiles decoder world root directory kind (name :: names) =
      if toLower (ext name) ∈ [".yaml".toList, ".yml".toList] then
        (join [directory, name], (loadDefinition decoder world (join [directory, name]) kind
          root).map Definition.running) :: definitionFiles decoder world root directory kind names
      else definitionFiles decoder world root directory kind names := by
  unfold definitionFiles
  rw [List.filter_cons]
  split_ifs with h h' h'
  · rfl
  · exact absurd (of_decide_eq_true h) h'
  · exact absurd (decide_eq_true h') h
  · rfl

/-- What is loaded from the files of a directory is what the runtime loads. -/
theorem loadEntries_running (root directory kind : Text) (names : List Text)
    (loaded : List (Text × Definition)) :
    List.map (Prod.map id Definition.running) <$>
        loadEntries decoder world root directory kind loaded names =
      loadDefinitions (loaded.map (Prod.map id Definition.running))
        (definitionFiles decoder world root directory kind names) := by
  induction names generalizing loaded with
  | nil => rfl
  | cons name names ih =>
    rw [loadEntries, definitionFiles_cons]
    split_ifs with hext
    · cases hload : loadDefinition decoder world (join [directory, name]) kind root with
      | error e => simp only [hload, loadDefinitions, bind, Except.bind, Functor.map, Except.map]
      | ok d =>
        have hfind : (loaded.map (Prod.map id Definition.running)).find?
            (fun l => l.2.name = d.running.name) =
              (loaded.find? fun l => l.2.name = d.name).map (Prod.map id Definition.running) :=
          List.find?_map
        simp only [hload, loadDefinitions, bind, Except.bind, Functor.map, Except.map,
          hfind]
        cases loaded.find? fun l => l.2.name = d.name with
        | none =>
          have hnames := ih (loaded ++ [(join [directory, name], d)])
          rw [List.map_append] at hnames
          exact hnames
        | some first => rfl
    · exact ih loaded

theorem loadDirectory_running {root root' : Text} (hroot : resolveRoot world root = .ok root')
    (loaded : List (Text × Definition)) (directory : Text × Text) :
    List.map (Prod.map id Definition.running) <$>
        loadDirectory decoder world root' loaded directory =
      subdirectory decoder world root directory >>=
        loadDefinitions (loaded.map (Prod.map id Definition.running)) := by
  simp only [loadDirectory, subdirectory, hroot, bind, Except.bind]
  cases hvalid : validateDirectory world (join [root', directory.1]) with
  | error e => rfl
  | ok u =>
    cases hread : world.readDir (join [root', directory.1]) with
    | error e => cases e <;> rfl
    | ok names => exact loadEntries_running decoder world root' _ _ names loaded

/-- A load goes through the directories one after the other. -/
theorem load_eq (root now : Text) : load decoder world root now =
    resolveRoot world root >>= fun root =>
    loadDirectory decoder world root [] ("sources".toList, kindSource) >>= fun loaded =>
    loadDirectory decoder world root loaded ("sinks".toList, kindSink) >>= fun loaded =>
    loadDirectory decoder world root loaded ("processors".toList, kindProcessor) >>= fun loaded =>
    .ok ⟨snapshotVersion, now, root,
      (loaded.map Prod.snd).insertionSort fun a b => a.name ≤ b.name⟩ := by
  rw [load, resolveRoot]
  cases world.abs root with
  | none => rfl
  | some root' =>
    cases hvalid : validateDirectory world root' with
    | error e => simp only [hvalid, bind, Except.bind, Except.map]
    | ok u =>
      simp only [hvalid, directories, List.foldlM_cons, List.foldlM_nil, bind_assoc, pure_bind]
      rfl

/-- A load of the registry directory is a load of the runtime. -/
theorem load_running (root now : Text) : Snapshot.running <$> load decoder world root now =
    Registry.load (registryDirectory decoder world root) now := by
  have hruntime : Registry.load (registryDirectory decoder world root) now =
      (subdirectory decoder world root ("sources".toList, kindSource) >>= loadDefinitions []) >>=
        fun loaded =>
      (subdirectory decoder world root ("sinks".toList, kindSink) >>= loadDefinitions loaded) >>=
        fun loaded =>
      (subdirectory decoder world root ("processors".toList, kindProcessor) >>=
        loadDefinitions loaded) >>= fun loaded =>
      .ok ⟨now, (loaded.map Prod.snd).insertionSort fun a b => a.name ≤ b.name⟩ := by
    simp only [Registry.load, registryDirectory, bind_assoc]
  have hsnapshot (root : Text) (loaded : List (Text × Definition)) :
      Snapshot.running ⟨snapshotVersion, now, root,
        (loaded.map Prod.snd).insertionSort fun a b => a.name ≤ b.name⟩ =
      ⟨now, ((loaded.map (Prod.map id Definition.running)).map Prod.snd).insertionSort
        fun a b => a.name ≤ b.name⟩ := by
    have hsort := @List.map_insertionSort _ _ (fun a b : Definition => a.name ≤ b.name)
      (fun a b : Registry.Definition => a.name ≤ b.name) _ _ Definition.running
      (loaded.map Prod.snd) fun _ _ _ _ => Iff.rfl
    rw [Snapshot.running, hsort, List.map_map, List.map_map]
    rfl
  rw [hruntime]
  cases hroot : resolveRoot world root with
  | error e =>
    simp only [load_eq, subdirectory, hroot, bind, Except.bind, Functor.map, Except.map]
  | ok root' =>
    have hdirectory := loadDirectory_running decoder world hroot
    have hsources := hdirectory [] ("sources".toList, kindSource)
    rw [List.map_nil] at hsources
    have hload : load decoder world root now =
        loadDirectory decoder world root' [] ("sources".toList, kindSource) >>= _ :=
      (load_eq decoder world root now).trans (by rw [hroot]; rfl)
    rw [hload, ← hsources, map_bind, bind_map_left]
    refine bind_congr fun loaded => ?_
    rw [← hdirectory, map_bind, bind_map_left]
    refine bind_congr fun loaded => ?_
    rw [← hdirectory, map_bind, bind_map_left]
    exact bind_congr fun loaded => congrArg Except.ok (hsnapshot root' loaded)

/-- The names of the definitions of a loaded snapshot are different. -/
theorem load_nodup {root now : Text} {s : Snapshot} (h : load decoder world root now = .ok s) :
    (s.definitions.map Definition.name).Nodup := by
  have hrunning := load_running decoder world root now
  rw [h] at hrunning
  have hnodup := Registry.load_nodup hrunning.symm
  rwa [Snapshot.running, List.map_map] at hnodup

end

/-! ### A directory with one Source -/

def clockFile : Text :=
  ["apiVersion: thalweg.dev/v1alpha1", "kind: Source", "metadata:", "  name: clock", "spec:",
    "  network: home", "  stream: clock", "  runner:", "    mode: interval", "    interval: 90s",
    "    command:", "      - /bin/echo", "      - $\x7bGREETING\x7d", "  environment:",
    "    values:", "      GREETING: tick"].flatMap fun line => line.toList ++ ['\n']

/-- What the file of a Source holds that greets every minute and a half. -/
def clockDefinition : Definition :=
  { Definition.zero with
    apiVersion
    kind := kindSource
    metadata := ⟨"clock".toList, none⟩
    spec := { Definition.zero.spec with
      network := "home".toList
      stream := "clock".toList
      runner := ⟨[], some ["/bin/echo".toList, "$\x7bGREETING\x7d".toList], "interval".toList,
        seconds 90, []⟩
      environment :=
        ⟨none, none, some (assign OrderedStore.empty [("GREETING".toList, "tick".toList)])⟩ } }

def clockDecoder : Decoder := fun content =>
  if content = clockFile then some (clockDefinition, .eof) else none

def clockWorld : World where
  getwd := some ['/']
  lstat path :=
    if path ∈ ["/r".toList, "/r/sources".toList] then .ok ⟨.directory, 0o700⟩
    else if path = "/r/sources/clock.yaml".toList then .ok ⟨.regular, 0o600⟩
    else .error .notExist
  stat path :=
    if path = "/r/sources".toList then .ok ⟨.directory, 0o700⟩
    else if path = "/bin/echo".toList then .ok ⟨.regular, 0o755⟩
    else .error .notExist
  readDir path := if path = "/r/sources".toList then .ok ["clock.yaml".toList] else .error .notExist
  readFile path := if path = "/r/sources/clock.yaml".toList then some clockFile else none
  environ := ["PATH=/bin".toList]
  lookPath _ := false

theorem exists_load_clockWorld : ∃ s, load clockDecoder clockWorld "/r".toList [] = .ok s ∧
    s.definitions.map Definition.name = ["clock".toList] := by
  have hany : ((load clockDecoder clockWorld "/r".toList []).toOption.any fun s =>
      s.definitions.map Definition.name = ["clock".toList]) = true := by
    decide +kernel
  obtain ⟨s, hs, hnames⟩ := (Option.any_eq_true _ _).mp hany
  exact ⟨s, eq_ok_of_toOption hs, of_decide_eq_true hnames⟩

end Thalweg.Registry.Files
