import Thalweg.Registry.Reload

/-!
# Calls of the registry runtime side by side

The daemon serves the registry requests of its clients side by side, while the workers run. A call
is a sequence of steps: what it does under the mutex is one step, and it goes on when the workers
that it waits for have ended. Only a reload keeps the mutex while it waits.

The system is the runtime with its calls, its consumers and the daemon whose durable siphons they
use. A restart ends everything and opens a new runtime on the same files and database.

## Main definitions

* `Call`, `System`, `Action`, `System.step`.
* `System.starts`: the definition that an action starts a worker for.
* `System.awaited`: the workers that calls wait for.

## Main results

* `System.keeps_or_starts_of_step`: what an action does to the workers.
* `System.calls_of_step`: the calls after an action.
* `System.Managed`: a worker that has not ended is in the table or a call waits for it.
-/

namespace Thalweg.Registry

open Machine

/-! ### The system -/

/-- Where a call is. -/
inductive Call where
  /-- `Reload` has loaded its candidate. -/
  | loaded (candidate : Snapshot)
  /-- `Reload` removes the workers that do not fit and holds the mutex, as in the next two. -/
  | removing (candidate : Snapshot)
  | awaiting (candidate : Snapshot) (worker : Worker)
  | starting (definitions : List Definition)
  | stopping (current : Option Worker)
  | restarting (name : Text) (current : Option Worker)
  | resetting (definition : Definition) (current : Option Worker)
  /-- `ResetDefinition` is to delete the siphon. -/
  | deleting (definition : Definition)
  | closing (workers : List Worker)
  | returned
  deriving DecidableEq

/-- The workers that a call waits for. -/
def Call.awaits : Call → List Worker
  | .awaiting _ worker => [worker]
  | .stopping current | .restarting _ current | .resetting _ current => current.toList
  | .closing workers => workers
  | .loaded _ | .removing _ | .starting _ | .deleting _ | .returned => []

/-- The definition that a call resets. -/
def Call.resets : Call → Option Definition
  | .resetting definition _ | .deleting definition => some definition
  | .loaded _ | .removing _ | .awaiting _ _ | .starting _ | .stopping _ | .restarting _ _
  | .closing _ | .returned => none

/-- The call neither resets a definition nor closes the runtime. -/
inductive Call.Quiet : Call → Prop where
  | loaded (candidate : Snapshot) : Quiet (.loaded candidate)
  | removing (candidate : Snapshot) : Quiet (.removing candidate)
  | awaiting (candidate : Snapshot) (worker : Worker) : Quiet (.awaiting candidate worker)
  | starting (definitions : List Definition) : Quiet (.starting definitions)
  | stopping (current : Option Worker) : Quiet (.stopping current)
  | restarting (name : Text) (current : Option Worker) : Quiet (.restarting name current)
  | returned : Quiet .returned

theorem Call.Quiet.resets_eq {call : Call} (h : call.Quiet) : call.resets = none := by
  cases h <;> rfl

/-- The network and the name of the siphon of a consumer. -/
def Definition.siphon (definition : Definition) : Text × Text :=
  (definition.spec.network, definition.durableName)

/-- The registry with its calls under way, its workers and the daemon. -/
structure System where
  runtime : Runtime
  /-- The reload that holds the mutex. -/
  holder : Option Nat
  calls : List Call
  /-- A call of `Close` has returned. -/
  closed : Bool
  /-- The consumers between their `CreateDurable` and their end. -/
  consuming : List Worker
  daemon : Daemon
  /-- The definitions that the siphons were created for. -/
  creator : Text × Text → Option Definition

/-- The steps of calls, of workers and of the daemon. -/
inductive Action where
  | restart (readError : Option Failure) (directory : RegistryDirectory) (now : Text)
      (fails : WriteStep → Bool)
  | reload (directory : RegistryDirectory) (now : Text)
  | accept (call : Nat) (fails : WriteStep → Bool)
  /-- A reload takes a worker that does not fit from the table. -/
  | remove (call : Nat) (name : Text)
  | startDefinition (name : Text)
  | stopDefinition (name : Text)
  | restartDefinition (name : Text)
  | resetDefinition (name : Text)
  | close
  /-- A call goes on when the workers that it waits for have ended. -/
  | proceed (call : Nat)
  | deleteDurable (call : Nat)
  | createDurable (worker : Worker)
  | pollDurable (worker : Worker) (random : Text)
  | acknowledgeDurable (worker : Worker) (deliveryID : Text)
  /-- A worker ends. -/
  | finish (worker : Worker)
  /-- The daemon does something else. -/
  | other (fuel : Nat) (operation : Thalweg.Operation)

/-- The action is a new call. -/
def Action.begins : Action → Bool
  | .reload _ _ | .startDefinition _ | .stopDefinition _ | .restartDefinition _
  | .resetDefinition _ | .close => true
  | .restart _ _ _ _ | .accept _ _ | .remove _ _ | .proceed _ | .deleteDurable _
  | .createDurable _ | .pollDurable _ _ | .acknowledgeDurable _ _ | .finish _ | .other _ _ => false

namespace System

/-- The system at its first start. -/
def initial (deviceID : Text) (hdeviceID : deviceID ≠ []) (now : Nat → Instant) : System where
  runtime := Runtime.new ⟨none, none⟩ 0
  holder := none
  calls := []
  closed := false
  consuming := []
  daemon := Daemon.initial deviceID hdeviceID now
  creator := fun _ => none

/-- A new call. -/
def begin (s : System) (call : Call) : System := { s with calls := s.calls ++ [call] }

/-- The system with a call set. -/
def setCall (s : System) (c : Nat) (call : Call) : System :=
  { s with calls := s.calls.set c call }

/-- The system after the end of a worker. -/
def finished (s : System) (worker : Worker) : System :=
  { s with
    runtime := s.runtime.ended fun w => w = worker
    consuming := s.consuming.filter fun w => w ≠ worker }

/-- A call goes on. -/
def proceed (s : System) (c : Nat) : Call → Option System
  | .awaiting candidate _ => some (s.setCall c (.removing candidate))
  | .removing candidate =>
    if s.runtime.workers.entries.any (Runtime.isStale (definitionsByName candidate.definitions))
    then none
    else some (s.setCall c (.starting candidate.definitions))
  | .starting (definition :: definitions) =>
    some ({ s with runtime := s.runtime.startMissingLocked definition }.setCall c
      (.starting definitions))
  | .starting [] => some ({ s with holder := none }.setCall c .returned)
  | .stopping _ => some (s.setCall c .returned)
  | .restarting name _ =>
    if s.holder = none then
      some ({ s with runtime := (s.runtime.startDefinition name).2 }.setCall c .returned)
    else none
  | .resetting definition _ =>
    some (s.setCall c (if definition.kind = .source then .returned else .deleting definition))
  | .closing _ => some ({ s with closed := true }.setCall c .returned)
  | .loaded _ | .deleting _ | .returned => none

/-- The consumer's `CreateDurable`: it ends if that fails. -/
def createDurable (s : System) (worker : Worker) : System :=
  let definition := worker.definition
  match s.daemon.createDurableSiphon definition.spec.network definition.durableName
      definition.spec.events.streams definition.spec.events.start with
  | (.error _, daemon) => { s with daemon }.finished worker
  | (.ok _, daemon) =>
    { s with
      daemon
      consuming := worker :: s.consuming
      creator :=
        match readDurableSiphon s.daemon.store definition.spec.network definition.durableName with
        | .ok none => Function.update s.creator definition.siphon (some definition)
        | _ => s.creator }

/-- A step; `none` if the action is not possible. -/
def step (s : System) : Action → Option System
  | .restart readError directory now fails =>
    let runtime := Runtime.new s.runtime.files s.runtime.nextWorker
    some { s with
      runtime := (runtime.start readError directory now fails).2
      holder := none
      calls := []
      closed := false
      consuming := [] }
  | .reload directory now =>
    match load directory now with
    | .error e =>
      if s.holder = none then
        some ({ s with runtime := s.runtime.recordError e }.begin .returned)
      else none
    | .ok candidate => some (s.begin (.loaded candidate))
  | .accept c fails =>
    match s.holder, s.calls[c]? with
    | none, some (.loaded candidate) =>
      match s.runtime.acceptLocked candidate fails with
      | (.error _, runtime) => some ({ s with runtime }.setCall c .returned)
      | (.ok (), runtime) =>
        some ({ s with runtime, holder := some c }.setCall c (.removing candidate))
    | _, _ => none
  | .remove c name =>
    match s.calls[c]?, s.runtime.workers.get name with
    | some (.removing candidate), some worker =>
      if Runtime.isStale (definitionsByName candidate.definitions) (name, worker) then
        some ({ s with
          runtime := { s.runtime with workers := s.runtime.workers.delete name } }.setCall c
            (.awaiting candidate worker))
      else none
    | _, _ => none
  | .startDefinition name =>
    if s.holder = none then
      some ({ s with runtime := (s.runtime.startDefinition name).2 }.begin .returned)
    else none
  | .stopDefinition name =>
    if s.holder = none then
      match s.runtime.stopLocked name with
      | (.error _, runtime) => some ({ s with runtime }.begin .returned)
      | (.ok current, runtime) => some ({ s with runtime }.begin (.stopping current))
    else none
  | .restartDefinition name =>
    if s.holder = none then
      match s.runtime.stopLocked name with
      | (.error _, runtime) => some ({ s with runtime }.begin .returned)
      | (.ok current, runtime) => some ({ s with runtime }.begin (.restarting name current))
    else none
  | .resetDefinition name =>
    if s.holder = none then
      match s.runtime.resetLocked name with
      | (.error _, runtime) => some ({ s with runtime }.begin .returned)
      | (.ok (definition, current), runtime) =>
        some ({ s with runtime }.begin (.resetting definition current))
    else none
  | .close =>
    if s.holder ≠ none then none
    else if ¬ s.runtime.started then some ({ s with closed := true }.begin .returned)
    else
      let (workers, runtime) := s.runtime.closeLocked
      some ({ s with runtime }.begin (.closing workers))
  | .proceed c =>
    match s.calls[c]? with
    | some call => if ∃ w ∈ call.awaits, w ∈ s.runtime.running then none else s.proceed c call
    | none => none
  | .deleteDurable c =>
    match s.calls[c]? with
    | some (.deleting definition) =>
      match s.daemon.deleteDurableSiphon definition.spec.network definition.durableName with
      | (.error _, daemon) => some ({ s with daemon }.setCall c .returned)
      | (.ok (), daemon) =>
        some ({ s with
          daemon, creator := Function.update s.creator definition.siphon none }.setCall c .returned)
    | _ => none
  | .createDurable worker =>
    if worker ∈ s.runtime.running ∧ worker ∉ s.consuming ∧ worker.definition.kind ≠ .source then
      some (s.createDurable worker)
    else none
  | .pollDurable worker random =>
    if worker ∈ s.consuming then
      some { s with daemon := (s.daemon.pollDurableSiphon worker.definition.spec.network
        worker.definition.durableName worker.definition.spec.delivery.maxEvents random).2 }
    else none
  | .acknowledgeDurable worker deliveryID =>
    if worker ∈ s.consuming then
      some { s with daemon := (s.daemon.acknowledgeDurableSiphon worker.definition.spec.network
        worker.definition.durableName deliveryID).2 }
    else none
  | .finish worker => if worker ∈ s.runtime.running then some (s.finished worker) else none
  | .other fuel operation =>
    match Daemon.siphonOf operation with
    | some (_, name) =>
      if registryReservedPrefix <+: name then none
      else (operation.perform fuel s.daemon).map fun result => { s with daemon := result.2 }
    | none => (operation.perform fuel s.daemon).map fun result => { s with daemon := result.2 }

/-! ### What an action does -/

/-- The workers that calls wait for. -/
def awaited (s : System) : List Worker := s.calls.flatMap Call.awaits

/-- The definition that `StartDefinition` starts a worker for. -/
def startable (s : System) (name : Text) : Option Definition :=
  (findDefinition s.runtime.snapshot.definitions name).filter fun definition =>
    definition.enabled && (s.runtime.workers.get definition.name).isNone

/-- The definition that an action starts a worker for, other than a restart. -/
def starts (s : System) : Action → Option Definition
  | .startDefinition name => s.startable name
  | .proceed c =>
    match s.calls[c]? with
    | some (.restarting name _) => s.startable name
    | some (.starting (definition :: _)) =>
      if definition.enabled = true ∧ definition.name ∉ s.runtime.manualStop ∧
        s.runtime.workers.get definition.name = none then some definition else none
    | _ => none
  | _ => none

/-- A call of `Close` returns by the action. -/
def closes (s : System) : Action → Bool
  | .close => !s.runtime.started
  | .proceed c =>
    match s.calls[c]? with
    | some (.closing _) => true
    | _ => false
  | _ => false

/-- The workers, the table and whether the runtime is started stay as they are. -/
structure SameWorkers (r r' : Runtime) : Prop where
  running : r'.running = r.running
  workers : r'.workers = r.workers
  started : r'.started = r.started

/-- What a call does that is then at the given point, without its list. -/
inductive Does (s : System) (a : Action) : System → Call → Prop where
  | moves (r : Runtime) (holder : Option Nat) {call : Call} : SameWorkers s.runtime r →
      call.Quiet → Does s a { s with runtime := r, holder } call
  | takes {r : Runtime} {name : Text} {call : Call} : r.running = s.runtime.running →
      r.workers = s.runtime.workers.delete name → r.started = s.runtime.started →
      (∀ w, s.runtime.workers.get name = some w → w ∈ call.awaits) → call.Quiet →
      Does s a { s with runtime := r } call
  | resets {r : Runtime} {name : Text} {definition : Definition} : a = .resetDefinition name →
      findDefinition s.runtime.snapshot.definitions name = some definition →
      r.running = s.runtime.running → r.workers = s.runtime.workers.delete name →
      r.started = s.runtime.started →
      Does s a { s with runtime := r } (.resetting definition (s.runtime.workers.get name))
  | starts (manualStop : List Text) {definition : Definition} {call : Call} :
      s.starts a = some definition → s.runtime.workers.get definition.name = none → call.Quiet →
      Does s a { s with runtime := { s.runtime with manualStop }.startWorkerLocked definition } call
  | empties : Does s a { s with runtime := s.runtime.closeLocked.2 }
      (.closing s.runtime.closeLocked.1)
  | closes : s.closes a = true → Does s a { s with closed := true } .returned
  | marks {definition : Definition} {current : Option Worker} :
      .resetting definition current ∈ s.calls → definition.kind ≠ .source →
      (∀ w ∈ current, w ∉ s.runtime.running) → Does s a s (.deleting definition)
  | deletes {definition : Definition} {daemon : Daemon} : .deleting definition ∈ s.calls →
      s.daemon.deleteDurableSiphon definition.spec.network definition.durableName =
        (.ok (), daemon) →
      Does s a { s with
        daemon, creator := Function.update s.creator definition.siphon none } .returned

/-- An operation of the daemon that neither creates nor deletes a siphon of the registry. -/
def Spares (operation : Thalweg.Operation) : Prop :=
  ∀ network name, Daemon.siphonOf operation = some (network, name) →
    registryReservedPrefix <+: name →
      (∃ limit random, operation = .pollDurableSiphon network name limit random) ∨
        ∃ deliveryID, operation = .acknowledgeDurableSiphon network name deliveryID

/-- What an action does. -/
inductive Effect (s : System) (a : Action) : System → Prop where
  | restarts {r : Runtime} : r.Tabled → r.started = true → Effect s a { s with
      runtime := r, holder := none, calls := [], closed := false, consuming := [] }
  | begins {t : System} {call : Call} : a.begins = true → Does s a t call →
      Effect s a (t.begin call)
  | goes {t : System} {c : Nat} {old call : Call} : s.calls[c]? = some old → old ≠ .returned →
      (∀ w ∈ old.awaits, w ∉ s.runtime.running) → Does s a t call → Effect s a (t.setCall c call)
  | finishes (worker : Worker) : Effect s a (s.finished worker)
  | performs (operation : Thalweg.Operation) {r : Result Unit} {daemon : Daemon} :
      s.daemon.Performs operation r daemon → Spares operation → Effect s a { s with daemon }
  | creates {worker : Worker} {info : DurableSiphonInfo} {daemon : Daemon} :
      a = .createDurable worker → worker ∈ s.runtime.running →
      s.daemon.createDurableSiphon worker.definition.spec.network worker.definition.durableName
        worker.definition.spec.events.streams worker.definition.spec.events.start =
          (.ok info, daemon) →
      Effect s a { s with
        daemon
        consuming := worker :: s.consuming
        creator :=
          match readDurableSiphon s.daemon.store worker.definition.spec.network
            worker.definition.durableName with
          | .ok none => Function.update s.creator worker.definition.siphon (some worker.definition)
          | _ => s.creator }

section Effects

variable {s s' : System} {a : Action}

theorem acceptLocked_sameWorkers {r r' : Runtime} {candidate : Snapshot}
    {fails : WriteStep → Bool} {result : Result Unit}
    (h : r.acceptLocked candidate fails = (result, r')) : SameWorkers r r' := by
  unfold Runtime.acceptLocked at h
  split_ifs at h with hstarted
  · split at h
    · cases h
      exact ⟨rfl, rfl, rfl⟩
    · split at h
      all_goals
        cases h
        exact ⟨rfl, rfl, rfl⟩
  · cases h
    exact ⟨rfl, rfl, rfl⟩

/-- `StopDefinition` and `RestartDefinition` take the worker from the table. -/
theorem stopLocked_cases (r : Runtime) (name : Text) :
    (∃ e, r.stopLocked name = (.error e, r)) ∨ r.stopLocked name = (.ok (r.workers.get name),
      { r with manualStop := name :: r.manualStop, workers := r.workers.delete name }) := by
  unfold Runtime.stopLocked
  split
  · exact Or.inl ⟨_, rfl⟩
  · exact Or.inr rfl

theorem resetLocked_cases (r : Runtime) (name : Text) :
    (∃ e, r.resetLocked name = (.error e, r)) ∨
      ∃ definition, findDefinition r.snapshot.definitions name = some definition ∧
        r.resetLocked name = (.ok (definition, r.workers.get name), { r with
          manualStop := name :: r.manualStop
          resetAllowed := name :: r.resetAllowed
          workers := r.workers.delete name }) := by
  unfold Runtime.resetLocked
  split
  · exact Or.inl ⟨_, rfl⟩
  · next definition hfind => exact Or.inr ⟨definition, hfind, rfl⟩

/-- `StartDefinition` starts a worker, or the workers stay as they are. -/
theorem startDefinition_cases (s : System) (name : Text) :
    (∃ manualStop, (s.runtime.startDefinition name).2 = { s.runtime with manualStop }) ∨
      ∃ definition manualStop, s.startable name = some definition ∧
        s.runtime.workers.get definition.name = none ∧ (s.runtime.startDefinition name).2 =
          { s.runtime with manualStop }.startWorkerLocked definition := by
  unfold Runtime.startDefinition startable
  split
  · exact Or.inl ⟨_, rfl⟩
  · next definition hfind =>
    obtain ⟨-, rfl⟩ := findDefinition_eq_some hfind
    rw [hfind]
    split_ifs with henabled
    · dsimp only
      split
      · exact Or.inl ⟨_, rfl⟩
      · next hnone =>
        exact Or.inr ⟨definition, _, by simp [Option.filter, henabled, hnone], hnone, rfl⟩
    · exact Or.inl ⟨_, rfl⟩

/-- A call that runs `StartDefinition`. -/
theorem does_startDefinition {name : Text} (ha : s.starts a = s.startable name) :
    Does s a { s with runtime := (s.runtime.startDefinition name).2 } .returned := by
  rcases s.startDefinition_cases name with ⟨manualStop, heq⟩ | ⟨definition, m, hd, hnone, heq⟩
  · rw [heq]
    exact .moves _ s.holder ⟨rfl, rfl, rfl⟩ .returned
  · rw [heq]
    exact .starts _ (ha.trans hd) hnone .returned

/-- A siphon that cannot be created leaves the daemon as it is. -/
theorem createDurableSiphon_error {d d' : Daemon} {network name : Text} {streams : List Text}
    {start : Text} {e : Failure}
    (h : d.createDurableSiphon network name streams start = (.error e, d')) : d' = d := by
  unfold Daemon.createDurableSiphon at h
  repeat' split at h
  all_goals cases h <;> rfl

/-- A siphon that cannot be deleted leaves the daemon as it is. -/
theorem deleteDurableSiphon_error {d d' : Daemon} {network name : Text} {e : Failure}
    (h : d.deleteDurableSiphon network name = (.error e, d')) : d' = d := by
  unfold Daemon.deleteDurableSiphon at h
  split at h
  all_goals cases h <;> rfl

theorem effect_of_proceed {c : Nat} {old : Call} (hc : s.calls[c]? = some old)
    (hended : ∀ w ∈ old.awaits, w ∉ s.runtime.running) (h : s.proceed c old = some s') :
    Effect s (.proceed c) s' := by
  have hgoes {t : System} {call : Call} (hreturned : old ≠ .returned)
      (ht : Does s (.proceed c) t call) : Effect s (.proceed c) (t.setCall c call) :=
    .goes hc hreturned hended ht
  cases old with
  | awaiting candidate worker =>
    cases h
    exact hgoes (by simp) (.moves _ s.holder ⟨rfl, rfl, rfl⟩ (.removing candidate))
  | removing candidate =>
    simp only [proceed] at h
    split_ifs at h
    cases h
    exact hgoes (by simp) (.moves _ s.holder ⟨rfl, rfl, rfl⟩ (.starting _))
  | starting definitions =>
    cases definitions with
    | nil =>
      cases h
      exact hgoes (by simp) (.moves _ none ⟨rfl, rfl, rfl⟩ .returned)
    | cons definition definitions =>
      simp only [proceed, Runtime.startMissingLocked] at h
      split_ifs at h with hskip
      · cases h
        exact hgoes (by simp) (.moves _ s.holder ⟨rfl, rfl, rfl⟩ (.starting definitions))
      · cases h
        simp only [Bool.or_eq_true, Bool.not_eq_true', decide_eq_true_eq, not_or,
          Bool.not_eq_false, Option.not_isSome_iff_eq_none] at hskip
        refine hgoes (by simp) (.starts s.runtime.manualStop ?_ hskip.2
          (.starting definitions))
        simp only [starts, hc]
        rw [if_pos ⟨hskip.1.1, hskip.1.2, hskip.2⟩]
  | stopping current =>
    cases h
    exact hgoes (by simp) (.moves _ s.holder ⟨rfl, rfl, rfl⟩ .returned)
  | restarting name current =>
    simp only [proceed] at h
    split_ifs at h
    cases h
    exact hgoes (by simp) (does_startDefinition (by simp only [starts, hc]))
  | resetting definition current =>
    cases h
    split_ifs with hkind
    · exact hgoes (by simp) (.moves _ s.holder ⟨rfl, rfl, rfl⟩ .returned)
    · refine hgoes (by simp) (.marks (List.mem_of_getElem? hc) hkind fun w hw => ?_)
      exact hended w (Option.mem_toList.mpr hw)
  | closing workers =>
    cases h
    exact hgoes (by simp) (.closes (by simp only [closes, hc]))
  | loaded candidate | deleting definition | returned => cases h

/-- **What an action does.** -/
theorem step_effect (h : s.step a = some s') : Effect s a s' := by
  have hquiet {r : Runtime} {call : Call} (ha : a.begins = true) (hr : SameWorkers s.runtime r)
      (hcall : call.Quiet) : Effect s a ({ s with runtime := r }.begin call) :=
    .begins ha (.moves _ s.holder hr hcall)
  cases a with
  | restart readError directory now fails =>
    cases h
    refine .restarts (Runtime.Tabled.start ?_ readError directory now fails)
      (Runtime.start_started _ _ _ _ _)
    exact ⟨fun _ _ h => by simp [Runtime.new] at h, fun _ _ h => by simp [Runtime.new] at h,
      fun _ h => by simp [Runtime.new] at h, List.nodup_nil⟩
  | reload directory now =>
    simp only [step] at h
    split at h
    · split_ifs at h
      cases h
      exact hquiet rfl ⟨rfl, rfl, rfl⟩ .returned
    · cases h
      exact hquiet rfl ⟨rfl, rfl, rfl⟩ (.loaded _)
  | accept c fails =>
    simp only [step] at h
    split at h
    · next candidate _ hc =>
      split at h
      · next haccept =>
        cases h
        exact .goes hc (by simp) (by simp [Call.awaits])
          (.moves _ s.holder (acceptLocked_sameWorkers haccept) .returned)
      · next haccept =>
        cases h
        exact .goes hc (by simp) (by simp [Call.awaits])
          (.moves _ (some c) (acceptLocked_sameWorkers haccept) (.removing candidate))
    · cases h
  | remove c name =>
    simp only [step] at h
    split at h
    · next candidate worker hc hworker =>
      split_ifs at h
      cases h
      refine .goes hc (by simp) (by simp [Call.awaits])
        (.takes rfl rfl rfl (fun w hw => ?_) (.awaiting candidate worker))
      obtain rfl := Option.some.inj (hw.symm.trans hworker)
      exact List.mem_singleton_self w
    · cases h
  | startDefinition name =>
    simp only [step] at h
    split_ifs at h
    cases h
    exact .begins rfl (does_startDefinition rfl)
  | stopDefinition name =>
    simp only [step] at h
    split_ifs at h
    rcases stopLocked_cases s.runtime name with ⟨e, heq⟩ | heq
    · rw [heq] at h
      cases h
      exact hquiet rfl ⟨rfl, rfl, rfl⟩ .returned
    · rw [heq] at h
      cases h
      exact .begins rfl (.takes rfl rfl rfl (fun w hw => Option.mem_toList.mpr hw)
        (.stopping _))
  | restartDefinition name =>
    simp only [step] at h
    split_ifs at h
    rcases stopLocked_cases s.runtime name with ⟨e, heq⟩ | heq
    · rw [heq] at h
      cases h
      exact hquiet rfl ⟨rfl, rfl, rfl⟩ .returned
    · rw [heq] at h
      cases h
      exact .begins rfl (.takes rfl rfl rfl (fun w hw => Option.mem_toList.mpr hw)
        (.restarting name _))
  | resetDefinition name =>
    simp only [step] at h
    split_ifs at h
    rcases resetLocked_cases s.runtime name with ⟨e, heq⟩ | ⟨definition, hfind, heq⟩
    · rw [heq] at h
      cases h
      exact hquiet rfl ⟨rfl, rfl, rfl⟩ .returned
    · rw [heq] at h
      cases h
      exact .begins rfl (.resets rfl hfind rfl rfl rfl)
  | close =>
    simp only [step] at h
    split_ifs at h with hholder hstarted
    · cases h
      exact .begins rfl .empties
    · cases h
      exact .begins rfl (.closes (by simpa [closes] using hstarted))
  | proceed c =>
    simp only [step] at h
    split at h
    · next call hc =>
      split_ifs at h with hended
      exact effect_of_proceed hc (fun w hw hrun => hended ⟨w, hw, hrun⟩) h
    · cases h
  | deleteDurable c =>
    simp only [step] at h
    split at h
    · next definition hc =>
      split at h
      · next hdelete =>
        cases h
        obtain rfl := deleteDurableSiphon_error hdelete
        exact .goes hc (by simp) (by simp [Call.awaits])
          (.moves _ s.holder ⟨rfl, rfl, rfl⟩ .returned)
      · next hdelete =>
        cases h
        exact .goes hc (by simp) (by simp [Call.awaits])
          (.deletes (List.mem_of_getElem? hc) hdelete)
    · cases h
  | createDurable worker =>
    simp only [step] at h
    split_ifs at h with hpossible
    cases h
    simp only [createDurable]
    split
    · next hcreate =>
      obtain rfl := createDurableSiphon_error hcreate
      exact .finishes worker
    · next hcreate => exact .creates rfl hpossible.1 hcreate
  | pollDurable worker random =>
    simp only [step] at h
    split_ifs at h
    cases h
    refine .performs (.pollDurableSiphon worker.definition.spec.network
      worker.definition.durableName worker.definition.spec.delivery.maxEvents random)
      ⟨0, rfl⟩ fun network name hsiphon _ => Or.inl ?_
    cases hsiphon
    exact ⟨_, _, rfl⟩
  | acknowledgeDurable worker deliveryID =>
    simp only [step] at h
    split_ifs at h
    cases h
    refine .performs (.acknowledgeDurableSiphon worker.definition.spec.network
      worker.definition.durableName deliveryID) ⟨0, rfl⟩ fun network name hsiphon _ => Or.inr ?_
    cases hsiphon
    exact ⟨_, rfl⟩
  | finish worker =>
    simp only [step] at h
    split_ifs at h
    cases h
    exact .finishes worker
  | other fuel operation =>
    simp only [step] at h
    split at h
    · next network name hsiphon =>
      split_ifs at h with hreserved
      obtain ⟨⟨r, daemon⟩, hperform, rfl⟩ := Option.map_eq_some_iff.mp h
      refine .performs operation ⟨fuel, hperform⟩ fun network' name' hsiphon' hprefix => ?_
      obtain ⟨-, rfl⟩ := Prod.mk.inj (Option.some.inj (hsiphon.symm.trans hsiphon'))
      exact absurd hprefix hreserved
    · next hsiphon =>
      obtain ⟨⟨r, daemon⟩, hperform, rfl⟩ := Option.map_eq_some_iff.mp h
      refine .performs operation ⟨fuel, hperform⟩ fun network' name' hsiphon' _ => ?_
      rw [hsiphon] at hsiphon'
      cases hsiphon'

/-! ### The workers after an action -/

theorem mem_awaited_iff {w : Worker} : w ∈ s.awaited ↔ ∃ call ∈ s.calls, w ∈ call.awaits :=
  List.mem_flatMap

theorem mem_awaited_begin {call : Call} {w : Worker} :
    w ∈ (s.begin call).awaited ↔ w ∈ s.awaited ∨ w ∈ call.awaits := by
  simp [awaited, begin]

/-- A call that goes on waits for what it has waited for, unless that has ended. -/
theorem mem_awaited_setCall {c : Nat} {old call : Call} (hc : s.calls[c]? = some old) {w : Worker}
    (hw : w ∈ s.awaited) (hold : w ∉ old.awaits) : w ∈ (s.setCall c call).awaited := by
  obtain ⟨other, hother, hmem⟩ := mem_awaited_iff.mp hw
  obtain ⟨i, hi⟩ := List.mem_iff_getElem?.mp hother
  have hic : i ≠ c := by
    rintro rfl
    obtain rfl := Option.some.inj (hc.symm.trans hi)
    exact hold hmem
  refine mem_awaited_iff.mpr ⟨other, List.mem_iff_getElem?.mpr ⟨i, ?_⟩, hmem⟩
  rw [setCall, List.getElem?_set_ne hic.symm, hi]

/-- No worker starts: workers end, and those that leave the table are waited for. -/
structure Keeps (s s' : System) : Prop where
  running : s'.runtime.running.Sublist s.runtime.running
  table : ∀ name w, s'.runtime.workers.get name = some w → s.runtime.workers.get name = some w
  held : ∀ w ∈ s'.runtime.running,
    s.runtime.workers.get w.definition.name = some w ∨ w ∈ s.awaited →
      s'.runtime.workers.get w.definition.name = some w ∨ w ∈ s'.awaited
  started : s'.runtime.started = true → s.runtime.started = true
  emptied : s'.runtime.started = false →
    s.runtime.started = false ∨ ∀ name, s'.runtime.workers.get name = none

/-- A worker starts for a definition that has none in the table. -/
structure Starts (s s' : System) (definition : Definition) : Prop where
  absent : s.runtime.workers.get definition.name = none
  running : s'.runtime.running = s.runtime.running ++ [⟨s.runtime.nextWorker, definition⟩]
  workers : s'.runtime.workers =
    s.runtime.workers.set definition.name ⟨s.runtime.nextWorker, definition⟩
  awaited : ∀ w ∈ s.runtime.running, w ∈ s.awaited → w ∈ s'.awaited
  started : s'.runtime.started = s.runtime.started

/-- A new runtime has workers in its table only. -/
structure Renewed (s' : System) : Prop where
  tabled : s'.runtime.Tabled
  started : s'.runtime.started = true
  calls : s'.calls = []
  closed : s'.closed = false

/-- The table stays as it is. -/
theorem Keeps.of_workers_eq (hrunning : s'.runtime.running.Sublist s.runtime.running)
    (hworkers : s'.runtime.workers = s.runtime.workers)
    (hstarted : s'.runtime.started = s.runtime.started)
    (hawaited : ∀ w ∈ s'.runtime.running, w ∈ s.awaited → w ∈ s'.awaited) : Keeps s s' where
  running := hrunning
  table _ _ h := hworkers ▸ h
  held w hw h := h.imp (fun h => hworkers ▸ h) (hawaited w hw)
  started h := hstarted ▸ h
  emptied h := Or.inl (hstarted ▸ h)

/-- A worker leaves the table, and a call waits for it. -/
theorem Keeps.of_delete {name : Text} (hrunning : s'.runtime.running = s.runtime.running)
    (hworkers : s'.runtime.workers = s.runtime.workers.delete name)
    (hstarted : s'.runtime.started = s.runtime.started)
    (hawaited : ∀ w ∈ s.runtime.running, w ∈ s.awaited → w ∈ s'.awaited)
    (hcall : ∀ w, s.runtime.workers.get name = some w → w ∈ s'.awaited) : Keeps s s' where
  running := hrunning ▸ List.Sublist.refl _
  table name' w h := by
    rw [hworkers, OrderedStore.get_delete] at h
    split_ifs at h
    exact h
  held w hw h := by
    rw [hworkers, OrderedStore.get_delete]
    rcases h with h | h
    · split_ifs with hname
      · exact Or.inr (hcall w (hname ▸ h))
      · exact Or.inl h
    · exact Or.inr (hawaited w (hrunning ▸ hw) h)
  started h := hstarted ▸ h
  emptied h := Or.inl (hstarted ▸ h)

/-- What a call does to the workers. -/
theorem Does.keeps_or_starts {t : System} {call : Call} (h : Does s a t call)
    (hruntime : s'.runtime = t.runtime)
    (hawaited : ∀ w ∈ s.runtime.running, w ∈ s.awaited → w ∈ s'.awaited)
    (hcall : ∀ w ∈ call.awaits, w ∈ s'.awaited) :
    Keeps s s' ∨ ∃ definition, s.starts a = some definition ∧ Starts s s' definition := by
  have hsame (hruntime : s'.runtime = s.runtime) : Keeps s s' := by
    refine .of_workers_eq ?_ ?_ ?_ ?_
    all_goals rw [hruntime]
    · exact hawaited
  cases h with
  | moves _ _ hr _ =>
    refine Or.inl (.of_workers_eq ?_ ?_ ?_ ?_)
    all_goals rw [hruntime]
    · exact hr.running ▸ List.Sublist.refl _
    · exact hr.workers
    · exact hr.started
    · exact fun w hw => hawaited w (hr.running ▸ hw)
  | takes hrunning hworkers hstarted hget _ =>
    refine Or.inl (.of_delete ?_ ?_ ?_ hawaited fun w hw => hcall w (hget w hw))
    all_goals rw [hruntime]
    · exact hrunning
    · exact hworkers
    · exact hstarted
  | resets _ _ hrunning hworkers hstarted =>
    refine Or.inl (.of_delete ?_ ?_ ?_ hawaited fun w hw => hcall w (Option.mem_toList.mpr hw))
    all_goals rw [hruntime]
    · exact hrunning
    · exact hworkers
    · exact hstarted
  | starts _ ha hnone _ =>
    refine Or.inr ⟨_, ha, hnone, ?_, ?_, hawaited, ?_⟩
    all_goals
      rw [hruntime]
      rfl
  | empties =>
    refine Or.inl ⟨?_, fun name w hw => ?_, fun w hw hheld => Or.inr ?_, fun hstarted => ?_,
      fun _ => Or.inr fun name => ?_⟩
    all_goals try rw [hruntime] at *
    · exact List.Sublist.refl _
    · simp [Runtime.closeLocked] at hw
    · refine hheld.elim (fun hget => hcall w ?_) (hawaited w hw)
      exact List.mem_map.mpr ⟨_, OrderedStore.get_eq_some_iff.mp hget, rfl⟩
    · simp [Runtime.closeLocked] at hstarted
    · rfl
  | closes | marks | deletes => exact Or.inl (hsame hruntime)

theorem Does.calls_eq {t : System} {call : Call} (h : Does s a t call) : t.calls = s.calls := by
  cases h <;> rfl

/-- **What an action does to the workers.** -/
theorem keeps_or_starts_of_step (h : s.step a = some s') :
    Renewed s' ∨ Keeps s s' ∨ ∃ definition, s.starts a = some definition ∧
      Starts s s' definition := by
  cases step_effect h with
  | restarts htabled hstarted => exact Or.inl ⟨htabled, hstarted, rfl, rfl⟩
  | begins _ hdoes =>
    refine Or.inr (hdoes.keeps_or_starts rfl (fun w _ hw => ?_) fun w hw => ?_)
    · exact mem_awaited_begin.mpr (Or.inl (by rwa [awaited, hdoes.calls_eq]))
    · exact mem_awaited_begin.mpr (Or.inr hw)
  | @goes t c old call hc _ hended hdoes =>
    refine Or.inr (hdoes.keeps_or_starts rfl (fun w hrun hw => ?_) fun w hw => ?_)
    · have hc' : t.calls[c]? = some old := by rwa [hdoes.calls_eq]
      refine mem_awaited_setCall hc' ?_ fun hold => hended w hold hrun
      rwa [awaited, hdoes.calls_eq]
    · refine mem_awaited_iff.mpr ⟨call, List.mem_set ?_ _, hw⟩
      rw [hdoes.calls_eq]
      exact (List.getElem?_eq_some_iff.mp hc).choose
  | finishes worker =>
    exact Or.inr (Or.inl (.of_workers_eq List.filter_sublist rfl rfl fun _ _ hw => hw))
  | performs | creates =>
    exact Or.inr (Or.inl (.of_workers_eq (List.Sublist.refl _) rfl rfl fun _ _ hw => hw))

/-! ### The calls after an action -/

/-- A call that an action brings about. -/
inductive Enters (s : System) (a : Action) (s' : System) : Call → Prop where
  | closing (workers : List Worker) : s'.runtime.started = false → Enters s a s' (.closing workers)
  | resetting {name : Text} {definition : Definition} : a = .resetDefinition name →
      findDefinition s.runtime.snapshot.definitions name = some definition →
      Enters s a s' (.resetting definition (s.runtime.workers.get name))
  | deleting {definition : Definition} {current : Option Worker} :
      .resetting definition current ∈ s.calls → definition.kind ≠ .source →
      (∀ w ∈ current, w ∉ s.runtime.running) → Enters s a s' (.deleting definition)
  | quiet {call : Call} : call.Quiet → Enters s a s' call

theorem Does.enters {t : System} {call : Call} (h : Does s a t call) : Enters s a t call := by
  cases h with
  | moves _ _ _ hquiet | takes _ _ _ _ hquiet | starts _ _ _ hquiet => exact .quiet hquiet
  | resets ha hfind => exact .resetting ha hfind
  | empties => exact .closing _ rfl
  | closes | deletes => exact .quiet .returned
  | marks hmem hkind hended => exact .deleting hmem hkind hended

theorem Enters.of_runtime_eq {t : System} {call : Call} (h : Enters s a t call)
    (hruntime : s'.runtime = t.runtime) : Enters s a s' call := by
  cases h with
  | closing workers hstarted => exact .closing workers (hruntime ▸ hstarted)
  | resetting ha hfind => exact .resetting ha hfind
  | deleting hmem hkind hended => exact .deleting hmem hkind hended
  | quiet hquiet => exact .quiet hquiet

/-- **What an action does to the calls.** -/
theorem calls_of_step (h : s.step a = some s') :
    ∀ call ∈ s'.calls, call ∈ s.calls ∨ Enters s a s' call := by
  intro call hcall
  cases step_effect h with
  | restarts => cases hcall
  | begins _ hdoes =>
    rcases List.mem_append.mp hcall with hold | hnew
    · exact Or.inl (hdoes.calls_eq ▸ hold)
    · obtain rfl := List.mem_singleton.mp hnew
      exact Or.inr (hdoes.enters.of_runtime_eq rfl)
  | goes _ _ _ hdoes =>
    rcases List.mem_or_eq_of_mem_set hcall with hold | rfl
    · exact Or.inl (hdoes.calls_eq ▸ hold)
    · exact Or.inr (hdoes.enters.of_runtime_eq rfl)
  | finishes | performs | creates => exact Or.inl hcall

theorem Does.closed {t : System} {call : Call} (h : Does s a t call) (hclosed : t.closed = true) :
    s.closed = true ∨ s.closes a = true := by
  cases h with
  | closes hcloses => exact Or.inr hcloses
  | moves | takes | resets | starts | empties | marks | deletes => exact Or.inl hclosed

/-- The return of `Close` is noted. -/
theorem closed_of_step (h : s.step a = some s') (hclosed : s'.closed = true) :
    s.closed = true ∨ s.closes a = true := by
  cases step_effect h with
  | restarts => cases hclosed
  | begins _ hdoes | goes _ _ _ hdoes => exact hdoes.closed hclosed
  | finishes | performs | creates => exact Or.inl hclosed

/-! ### The workers that have not ended -/

/-- A worker that has not ended is in the table or a call waits for it. -/
structure Managed (s : System) : Prop where
  name : ∀ name w, s.runtime.workers.get name = some w → w.definition.name = name
  held : ∀ w ∈ s.runtime.running,
    s.runtime.workers.get w.definition.name = some w ∨ w ∈ s.awaited
  closing : ∀ workers, .closing workers ∈ s.calls → s.runtime.started = false

theorem managed_initial (deviceID : Text) (hdeviceID : deviceID ≠ []) (now : Nat → Instant) :
    Managed (initial deviceID hdeviceID now) where
  name _ _ h := by simp [initial, Runtime.new] at h
  held _ h := by simp [initial, Runtime.new] at h
  closing _ h := by simp [initial] at h

/-- A call of `Close` comes to wait in a runtime that it has closed. -/
theorem Managed.closing_step (hs : Managed s) (h : s.step a = some s')
    (hstarted : s'.runtime.started = true → s.runtime.started = true) {workers : List Worker}
    (hmem : .closing workers ∈ s'.calls) : s'.runtime.started = false := by
  rcases calls_of_step h _ hmem with hold | henters
  · exact Bool.eq_false_iff.mpr fun hnew =>
      Bool.eq_false_iff.mp (hs.closing workers hold) (hstarted hnew)
  · cases henters with
    | closing _ hstopped => exact hstopped
    | quiet hquiet => exact absurd hquiet (by rintro ⟨⟩)

theorem Managed.step (hs : Managed s) (h : s.step a = some s') : Managed s' := by
  rcases keeps_or_starts_of_step h with hrenewed | hkeeps | ⟨definition, -, hstarts⟩
  · refine ⟨hrenewed.tabled.name, fun w hw => Or.inl (hrenewed.tabled.running w hw), ?_⟩
    rw [hrenewed.calls]
    simp
  · exact ⟨fun name w hw => hs.name name w (hkeeps.table name w hw),
      fun w hw => hkeeps.held w hw (hs.held w (hkeeps.running.subset hw)),
      fun _ => hs.closing_step h hkeeps.started⟩
  · refine ⟨fun name w hw => ?_, fun w hw => ?_,
      fun _ => hs.closing_step h fun hstarted => hstarts.started ▸ hstarted⟩
    · rw [hstarts.workers, OrderedStore.get_set] at hw
      split_ifs at hw with hname
      · cases hw
        exact hname.symm
      · exact hs.name name w hw
    · rw [hstarts.running] at hw
      rw [hstarts.workers]
      rcases List.mem_append.mp hw with hold | hnew
      · refine (hs.held w hold).imp (fun hget => ?_) (hstarts.awaited w hold)
        have hne : w.definition.name ≠ definition.name := by
          intro heq
          rw [heq, hstarts.absent] at hget
          cases hget
        rwa [OrderedStore.get_set_of_ne _ hne]
      · obtain rfl := List.mem_singleton.mp hnew
        exact Or.inl (OrderedStore.get_set_self _ _ _)

end Effects

/-! ### A daemon with one Sink -/

/-- A Sink for all events of a network. -/
def archive : Definition where
  kind := .sink
  metadata := ⟨['a'], []⟩
  spec :=
    { enabled := none
      network := ['h']
      events := ⟨[], "earliest".toList⟩
      delivery := ⟨25, 0⟩
      output := ⟨[]⟩
      retry := ⟨"on-failure".toList, 1, 1⟩
      timeout := 0 }
  digest := ['1']

/-- The registry directory with one Sink. -/
def sinkDirectory (sink : Definition) : RegistryDirectory :=
  ⟨.ok [], .ok [("a.yaml".toList, .ok sink)], .ok []⟩

/-- The daemon starts with one Sink. -/
def opening : Action := .restart none (sinkDirectory archive) [] fun _ => false

/-- A system whose daemon has a fresh database. -/
def fresh : System := initial ['d'] Daemon.deviceName_ne_nil fun _ => Daemon.newYear

end System

end Thalweg.Registry
