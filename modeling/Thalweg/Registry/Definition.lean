import Thalweg.Daemon.PublicSiphons

/-!
# Registry definitions

What a registry runtime runs: Sources, Sinks and Processors, as they are loaded from the files of
the registry directory. What a file holds and whether it is accepted is an argument of loading;
`Thalweg.Registry.Loader` decodes the files and gives that argument.

## Main definitions

* `Definition`, `Snapshot`.
* `load`: the candidate snapshot of a registry directory.
* `statefulSelectionChanged`.

## Main results

* `load_nodup`: the names of the definitions of a snapshot are different.
-/

namespace Thalweg.Registry

/-- The kinds of definitions. -/
inductive Kind where
  | source
  | sink
  | processor
  deriving DecidableEq

/-- The name and the labels of a definition. -/
structure Metadata where
  name : Text
  labels : List (Text × Text)
  deriving DecidableEq

/-- The events that a consumer gets. -/
structure Events where
  streams : List Text
  start : Text
  deriving DecidableEq

/-- Durations are numbers of nanoseconds. -/
structure Delivery where
  maxEvents : Int
  wait : Int
  deriving DecidableEq

/-- The streams that a worker may write to. -/
structure Output where
  allowedStreams : List Text
  deriving DecidableEq

/-- When a worker is run again. -/
structure Retry where
  policy : Text
  initialBackoff : Int
  maxBackoff : Int
  deriving DecidableEq

/-- The settings of a definition. -/
structure Spec where
  enabled : Option Bool
  network : Text
  events : Events
  delivery : Delivery
  output : Output
  retry : Retry
  timeout : Int
  deriving DecidableEq

/-- A definition as the runtime keeps it. -/
structure Definition where
  kind : Kind
  metadata : Metadata
  spec : Spec
  digest : Text
  deriving DecidableEq

/-- The name of a definition. -/
def Definition.name (definition : Definition) : Text := definition.metadata.name

/-- A definition that does not say so is enabled. -/
def Definition.enabled (definition : Definition) : Bool := definition.spec.enabled.getD true

/-- The kind in lower case. -/
def lowerKind : Kind → Text
  | .source => "source".toList
  | .sink => "sink".toList
  | .processor => "processor".toList

/-- The name of the durable siphon of a consumer. -/
def Definition.durableName (definition : Definition) : Text :=
  registryReservedPrefix ++ lowerKind definition.kind ++ '.' :: definition.name

/-- The definitions that a runtime has accepted. -/
structure Snapshot where
  acceptedAt : Text
  definitions : List Definition
  deriving DecidableEq

/-! ### Loading -/

/-- The definition files of each subdirectory, with what becomes of them, or why the subdirectory
cannot be read. -/
structure RegistryDirectory where
  sources : Result (List (Text × Result Definition))
  sinks : Result (List (Text × Result Definition))
  processors : Result (List (Text × Result Definition))

/-- The definitions of files, after those that are loaded. -/
def loadDefinitions (loaded : List (Text × Definition)) :
    List (Text × Result Definition) → Result (List (Text × Definition))
  | [] => .ok loaded
  | (path, result) :: files => do
    let definition ← result
    match loaded.find? fun l => l.2.name = definition.name with
    | some (first, _) =>
      errorf "duplicate registry definition %q in %s and %s" [definition.name, first, path]
    | none => loadDefinitions (loaded ++ [(path, definition)]) files

/-- The candidate that a registry directory holds. -/
def load (directory : RegistryDirectory) (now : Text) : Result Snapshot := do
  let sources ← directory.sources
  let loaded ← loadDefinitions [] sources
  let sinks ← directory.sinks
  let loaded ← loadDefinitions loaded sinks
  let processors ← directory.processors
  let loaded ← loadDefinitions loaded processors
  .ok ⟨now, (loaded.map Prod.snd).insertionSort fun a b => a.name ≤ b.name⟩

theorem nodup_of_loadDefinitions {loaded loaded' : List (Text × Definition)}
    {files : List (Text × Result Definition)} (h : loadDefinitions loaded files = .ok loaded')
    (hloaded : (loaded.map fun l => l.2.name).Nodup) : (loaded'.map fun l => l.2.name).Nodup := by
  induction files generalizing loaded with
  | nil =>
    cases h
    exact hloaded
  | cons file files ih =>
    obtain ⟨path, result⟩ := file
    cases result with
    | error e => cases h
    | ok definition =>
      simp only [loadDefinitions, bind, Except.bind] at h
      split at h
      · cases h
      · next hnew =>
        refine ih h ?_
        have hfresh : ∀ l ∈ loaded, l.2.name ≠ definition.name := by
          simpa using hnew
        rw [List.map_append]
        refine hloaded.append (List.nodup_singleton _) (List.disjoint_singleton.mpr ?_)
        rintro hmem
        obtain ⟨l, hl, hname⟩ := List.mem_map.mp hmem
        exact hfresh l hl hname

/-- Names of definitions are not used twice. -/
theorem load_nodup {directory : RegistryDirectory} {now : Text} {snapshot : Snapshot}
    (h : load directory now = .ok snapshot) : (snapshot.definitions.map Definition.name).Nodup := by
  simp only [load, bind_eq_ok_iff] at h
  obtain ⟨sources, -, loaded₁, h₁, sinks, -, loaded₂, h₂, processors, -, loaded₃, h₃, h⟩ := h
  cases h
  have hnodup := nodup_of_loadDefinitions h₃ (nodup_of_loadDefinitions h₂
    (nodup_of_loadDefinitions h₁ List.nodup_nil))
  have hperm := (List.perm_insertionSort (fun a b : Definition => a.name ≤ b.name)
    (loaded₃.map Prod.snd)).map Definition.name
  rw [List.map_map] at hperm
  exact hperm.nodup_iff.mpr hnodup

/-! ### Lookups -/

/-- The definitions by name; of one name the last. -/
def definitionsByName (definitions : List Definition) : OrderedStore Char Definition :=
  definitions.foldl (fun result definition => result.set definition.name definition)
    OrderedStore.empty

/-- The definition of a name. -/
def findDefinition (definitions : List Definition) (name : Text) : Option Definition :=
  definitions.find? fun definition => definition.name = name

/-- Lists with the same texts, in any order. -/
def equalStringSlices (first second : List Text) : Bool := sortTexts first == sortTexts second

/-- A consumer selects other events than before. -/
def statefulSelectionChanged (first second : Definition) : Bool :=
  first.kind ≠ second.kind ∨ first.spec.network ≠ second.spec.network ∨
    first.spec.events.start ≠ second.spec.events.start ||
      !equalStringSlices first.spec.events.streams second.spec.events.streams

theorem findDefinition_eq_some {definitions : List Definition} {name : Text}
    {definition : Definition} (h : findDefinition definitions name = some definition) :
    definition ∈ definitions ∧ definition.name = name :=
  ⟨List.mem_of_find?_eq_some h, by simpa using List.find?_some h⟩

theorem get_foldl_set {definitions : List Definition}
    (hnodup : (definitions.map Definition.name).Nodup) (m : OrderedStore Char Definition)
    {name : Text} {definition : Definition} :
    (definitions.foldl (fun result definition => result.set definition.name definition) m).get
        name = some definition ↔
      (definition ∈ definitions ∧ definition.name = name) ∨
        (m.get name = some definition ∧ ∀ d ∈ definitions, d.name ≠ name) := by
  induction definitions generalizing m with
  | nil => simp
  | cons d definitions ih =>
    obtain ⟨hd, hnodup⟩ := List.nodup_cons.mp hnodup
    rw [List.foldl_cons, ih hnodup, OrderedStore.get_set]
    by_cases hname : name = d.name
    · subst hname
      have hother : ∀ d' ∈ definitions, d'.name ≠ d.name := fun d' hd' heq =>
        hd (List.mem_map.mpr ⟨d', hd', heq⟩)
      grind
    · grind

theorem get_definitionsByName {definitions : List Definition}
    (hnodup : (definitions.map Definition.name).Nodup) {name : Text} {definition : Definition} :
    (definitionsByName definitions).get name = some definition ↔
      definition ∈ definitions ∧ definition.name = name := by
  simp [definitionsByName, get_foldl_set hnodup]

end Thalweg.Registry
