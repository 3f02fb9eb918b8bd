import Thalweg.Data.Machine
import Thalweg.Registry.Definition

/-!
# The registry runtime

The runtime holds the accepted snapshot, in memory and in a file, and a table of workers, and its
operations change them. What an operation does while it holds the mutex is a function of its own;
the operations here run to their ends, one after the other, so that whoever waits for a worker finds
it ended. Workers also end by themselves.

Which step of writing the snapshot fails, whether the snapshot can be read, what the registry
directory holds and whether a siphon can be deleted are arguments.

## Main definitions

* `writeSnapshot`, `Runtime`.
* `Runtime.reload`, `Runtime.startDefinition`, `Runtime.stopDefinition`,
  `Runtime.restartDefinition`, `Runtime.resetDefinition`.
* `Operation`, `Runtime.after`: what a sequence of operations leaves.
-/

namespace Thalweg.Registry

open Machine

/-! ### The snapshot file -/

/-- The steps of `WriteSnapshot`. -/
inductive WriteStep where
  | mkdirAll
  | chmodDirectory
  | marshalIndent
  | createTemp
  | chmod
  | write
  | sync
  | close
  | rename
  deriving DecidableEq

/-- The accepted snapshot and the temporary file, which may still be empty. -/
structure SnapshotFiles where
  accepted : Option Snapshot
  temporary : Option (Option Snapshot)

namespace WriteStep

/-- The error of a step that fails. -/
def error : WriteStep → Failure
  | .mkdirAll => .wrap "create registry state directory: %w" [] (.external "os")
  | .chmodDirectory => .wrap "restrict registry state directory: %w" [] (.external "os")
  | .marshalIndent => .wrap "encode registry snapshot: %w" [] (.external "encoding/json")
  | .createTemp => .wrap "create registry snapshot temporary file: %w" [] (.external "os")
  | .chmod | .write | .sync | .close => .external "os"
  | .rename => .wrap "install accepted registry snapshot: %w" [] (.external "os")

/-- What a step does to the files when it succeeds. -/
def perform (snapshot : Snapshot) (files : SnapshotFiles) : WriteStep → SnapshotFiles
  | .createTemp => { files with temporary := some none }
  | .write => { files with temporary := some (some snapshot) }
  | .rename =>
    match files.temporary with
    | some content => ⟨content, none⟩
    | none => files
  | _ => files

end WriteStep

/-- Steps, up to the first one that fails. -/
def writeSteps (fails : WriteStep → Bool) (snapshot : Snapshot) :
    List WriteStep → SnapshotFiles → Result Unit × SnapshotFiles
  | [], files => (.ok (), files)
  | step :: steps, files =>
    if fails step then (.error step.error, files)
    else writeSteps fails snapshot steps (step.perform snapshot files)

/-- The temporary file is removed in the end. -/
def writeSnapshot (fails : WriteStep → Bool) (files : SnapshotFiles) (snapshot : Snapshot) :
    Result Unit × SnapshotFiles :=
  let (result, files) := writeSteps fails snapshot [.mkdirAll, .chmodDirectory, .marshalIndent,
    .createTemp, .chmod, .write, .sync, .close, .rename] files
  (result, { files with temporary := none })

/-! ### The runtime -/

/-- A worker runs the definition that it was started with. -/
structure Worker where
  id : Nat
  definition : Definition
  deriving DecidableEq

/-- The runtime, its snapshot file and the workers that have not ended. -/
structure Runtime where
  started : Bool
  snapshot : Snapshot
  workers : OrderedStore Char Worker
  manualStop : List Text
  resetAllowed : List Text
  lastError : Option Failure
  files : SnapshotFiles
  running : List Worker
  nextWorker : Nat

namespace Runtime

/-- A runtime that was not started. -/
def new (files : SnapshotFiles) (nextWorker : Nat) : Runtime where
  started := false
  snapshot := ⟨[], []⟩
  workers := OrderedStore.empty
  manualStop := []
  resetAllowed := []
  lastError := none
  files
  running := []
  nextWorker

/-- The runtime with an error as its last one. -/
def recordError (r : Runtime) (e : Failure) : Runtime := { r with lastError := some e }

/-- The runtime after workers have ended. -/
def ended (r : Runtime) (p : Worker → Bool) : Runtime :=
  { r with running := r.running.filter fun w => !p w }

/-- The runtime with a worker for a definition. -/
def startWorkerLocked (r : Runtime) (definition : Definition) : Runtime :=
  { r with
    workers := r.workers.set definition.name ⟨r.nextWorker, definition⟩
    running := r.running ++ [⟨r.nextWorker, definition⟩]
    nextWorker := r.nextWorker + 1 }

/-- A worker of the table that does not fit the definitions that are desired. -/
def isStale (desired : OrderedStore Char Definition) (entry : Text × Worker) : Bool :=
  match desired.get entry.1 with
  | none => true
  | some definition => !definition.enabled || definition.digest != entry.2.definition.digest

/-- Start a definition that is enabled, not stopped and has no worker. -/
def startMissingLocked (r : Runtime) (definition : Definition) : Runtime :=
  if !definition.enabled || definition.name ∈ r.manualStop ||
      (r.workers.get definition.name).isSome then r
  else r.startWorkerLocked definition

/-- The end of `reconcileLocked`. -/
def startWorkersLocked (r : Runtime) (definitions : List Definition) : Runtime :=
  definitions.foldl startMissingLocked r

/-- The start of `reconcileLocked`: the workers that do not fit are taken from the table and
waited for. -/
def removeStaleLocked (r : Runtime) (snapshot : Snapshot) : Runtime :=
  let stale := r.workers.filter (isStale (definitionsByName snapshot.definitions))
  { r with workers := r.workers.filter fun entry =>
      !isStale (definitionsByName snapshot.definitions) entry }.ended fun w =>
    stale.entries.any fun entry => entry.2 = w

/-- End the workers that do not fit a snapshot, and start those that are missing. -/
def reconcileLocked (r : Runtime) (snapshot : Snapshot) : Runtime :=
  (r.removeStaleLocked snapshot).startWorkersLocked snapshot.definitions

/-- Read the accepted snapshot, unless that fails. -/
def loadSnapshot (r : Runtime) (readError : Option Failure) : Result (Option Snapshot) :=
  match readError with
  | some e => .error e
  | none => .ok r.files.accepted

/-- Open the runtime. -/
def start (r : Runtime) (readError : Option Failure) (directory : RegistryDirectory) (now : Text)
    (fails : WriteStep → Bool) : Result Unit × Runtime :=
  if r.started then (errorf "registry runtime is already started" [], r)
  else
    match r.loadSnapshot readError with
    | .error e => (.error e, { r with lastError := some e, started := true })
    | .ok (some snapshot) =>
      (.ok (), { r with snapshot, started := true }.reconcileLocked snapshot)
    | .ok none =>
      match load directory now with
      | .error e => (.error e, { r with lastError := some e, started := true })
      | .ok snapshot =>
        match writeSnapshot fails r.files snapshot with
        | (.error e, files) => (.error e, { r with files, lastError := some e, started := true })
        | (.ok (), files) =>
          (.ok (), { r with files, snapshot, started := true }.reconcileLocked snapshot)

/-- What `Close` does under the mutex, with the workers that it waits for. -/
def closeLocked (r : Runtime) : List Worker × Runtime :=
  (r.workers.entries.map Prod.snd, { r with workers := OrderedStore.empty, started := false })

/-- End all workers of a runtime that was started. -/
def close (r : Runtime) : Runtime :=
  if r.started then
    let (workers, r) := r.closeLocked
    r.ended fun w => w ∈ workers
  else r

/-- The first definition of a candidate whose selection has changed without a reset. -/
def rejectedSelection (r : Runtime) (candidate : Snapshot) : Option Definition :=
  candidate.definitions.find? fun definition =>
    match (definitionsByName r.snapshot.definitions).get definition.name with
    | none => false
    | some previous =>
      previous.kind ≠ .source ∧ previous.digest ≠ definition.digest ∧
        statefulSelectionChanged previous definition ∧ definition.name ∉ r.resetAllowed

/-- What `Reload` does under the mutex before it reconciles. -/
def acceptLocked (r : Runtime) (candidate : Snapshot) (fails : WriteStep → Bool) :
    Result Unit × Runtime :=
  if ¬ r.started then (errorf "registry runtime is not started" [], r)
  else
    match r.rejectedSelection candidate with
    | some definition =>
      let e : Failure := .errorf
        ("stateful selection for %q changed; " ++
          "run `thalweg registry reset --yes %s` before reloading")
        [definition.name, definition.name]
      (.error e, r.recordError e)
    | none =>
      match writeSnapshot fails r.files candidate with
      | (.error e, files) => (.error e, { r with files }.recordError e)
      | (.ok (), files) => (.ok (), { r with
          files
          snapshot := candidate
          lastError := none
          manualStop := []
          resetAllowed := [] })

/-- Load the directory and run its definitions instead. -/
def reload (r : Runtime) (directory : RegistryDirectory) (now : Text) (fails : WriteStep → Bool) :
    Result Unit × Runtime :=
  match load directory now with
  | .error e => (.error e, r.recordError e)
  | .ok candidate =>
    match r.acceptLocked candidate fails with
    | (.error e, r) => (.error e, r)
    | (.ok (), r) => (.ok (), r.reconcileLocked candidate)

/-- The error for a name that the snapshot does not have. -/
def notAccepted {α : Type} (name : Text) : Result α :=
  errorf "registry definition %q is not accepted" [name]

/-- Start the worker of a definition. -/
def startDefinition (r : Runtime) (name : Text) : Result Unit × Runtime :=
  match findDefinition r.snapshot.definitions name with
  | none => (notAccepted name, r)
  | some definition =>
    if ¬ definition.enabled then
      (errorf "registry definition %q is disabled in YAML" [name], r)
    else
      let r := { r with manualStop := r.manualStop.filter (· ≠ name) }
      match r.workers.get name with
      | some _ => (.ok (), r)
      | none => (.ok (), r.startWorkerLocked definition)

/-- What `StopDefinition` does under the mutex, with the worker that it waits for. -/
def stopLocked (r : Runtime) (name : Text) : Result (Option Worker) × Runtime :=
  match findDefinition r.snapshot.definitions name with
  | none => (notAccepted name, r)
  | some _ => (.ok (r.workers.get name),
      { r with manualStop := name :: r.manualStop, workers := r.workers.delete name })

/-- End the worker of a definition. -/
def stopDefinition (r : Runtime) (name : Text) : Result Unit × Runtime :=
  match r.stopLocked name with
  | (.error e, r) => (.error e, r)
  | (.ok current, r) => (.ok (), r.ended fun w => some w = current)

/-- End the worker of a definition and start another one. -/
def restartDefinition (r : Runtime) (name : Text) : Result Unit × Runtime :=
  match r.stopDefinition name with
  | (.error e, r) => (.error e, r)
  | (.ok (), r) => r.startDefinition name

/-- What `ResetDefinition` does under the mutex, with the worker that it waits for. -/
def resetLocked (r : Runtime) (name : Text) : Result (Definition × Option Worker) × Runtime :=
  match findDefinition r.snapshot.definitions name with
  | none => (notAccepted name, r)
  | some definition => (.ok (definition, r.workers.get name),
      { r with
        manualStop := name :: r.manualStop
        resetAllowed := name :: r.resetAllowed
        workers := r.workers.delete name })

/-- The siphon of a Sink or a Processor is deleted, which may fail. -/
def resetDefinition (r : Runtime) (name : Text) (deleteError : Option Failure) :
    Result Unit × Runtime :=
  match r.resetLocked name with
  | (.error e, r) => (.error e, r)
  | (.ok (definition, current), r) =>
    let r := r.ended fun w => some w = current
    match definition.kind, deleteError with
    | .sink, some e | .processor, some e => (.error e, r)
    | _, _ => (.ok (), r)

end Runtime

/-! ### Runs -/

/-- The operations of a runtime. -/
inductive Operation where
  | start (readError : Option Failure) (directory : RegistryDirectory) (now : Text)
      (fails : WriteStep → Bool)
  | close
  | reload (directory : RegistryDirectory) (now : Text) (fails : WriteStep → Bool)
  | startDefinition (name : Text)
  | stopDefinition (name : Text)
  | restartDefinition (name : Text)
  | resetDefinition (name : Text) (deleteError : Option Failure)
  /-- Workers end by themselves. -/
  | finish (p : Worker → Bool)
  /-- The process ends, and another one starts with a new runtime. -/
  | renew

namespace Runtime

/-- The runtime after an operation. -/
def perform (r : Runtime) : Operation → Runtime
  | .start readError directory now fails => (r.start readError directory now fails).2
  | .close => r.close
  | .reload directory now fails => (r.reload directory now fails).2
  | .startDefinition name => (r.startDefinition name).2
  | .stopDefinition name => (r.stopDefinition name).2
  | .restartDefinition name => (r.restartDefinition name).2
  | .resetDefinition name deleteError => (r.resetDefinition name deleteError).2
  | .finish p => r.ended p
  | .renew => new r.files r.nextWorker

/-- The runtime after operations, from one that has no snapshot. -/
def after (operations : List Operation) : Runtime :=
  operations.foldl perform (new ⟨none, none⟩ 0)

end Runtime

end Thalweg.Registry
