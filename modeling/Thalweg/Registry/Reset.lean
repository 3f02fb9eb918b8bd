import Thalweg.Daemon.Delivery
import Thalweg.Registry.Interleaving

/-!
# Resetting a consumer

`ResetDefinition` takes the worker from the table, waits for it without the mutex and deletes the
siphon without it. A worker that starts in between creates the siphon anew or finds the old one, and
then it is deleted under that worker; so is the siphon of a worker that another call has taken from
the table. Apart from that, no consumer is caught.

## Main definitions

* `System.Undisturbed`: no worker starts for a definition that is reset, and no call waits for one
  when the reset begins.

## Main results

* `System.siphon_of_undisturbed`: the runs of such actions.
* `System.not_siphon_disturbedRun`: another run.
-/

namespace Thalweg.Registry

open Machine

namespace System

variable {s s' : System}

/-! ### The consumers and their siphons -/

/-- The name of a siphon tells the name of the definition. -/
theorem name_eq_of_durableName_eq {d d' : Definition} (h : d.durableName = d'.durableName) :
    d.name = d'.name := by
  have hdot (kind : Kind) : ∀ c ∈ lowerKind kind, decide (c ≠ '.') = true := by
    refine List.all_eq_true.mp ?_
    cases kind <;> rfl
  have hdrop (d : Definition) :
      (d.durableName.drop registryReservedPrefix.length).dropWhile (fun c => decide (c ≠ '.')) =
        '.' :: d.name := by
    rw [Definition.durableName, List.append_assoc, List.drop_left,
      List.dropWhile_append_of_pos (hdot d.kind)]
    rfl
  exact (List.cons.inj ((hdrop d).symm.trans (h ▸ hdrop d'))).2

/-- The definition whose reset an action begins. -/
def marks (s : System) : Action → Option Definition
  | .resetDefinition name => findDefinition s.runtime.snapshot.definitions name
  | _ => none

/-- No worker starts for a consumer that is being reset, and the reset of a consumer begins when no
call waits for a worker of it that has not ended. -/
def Undisturbed (s : System) (a : Action) : Prop :=
  (∀ definition ∈ s.starts a, ∀ call ∈ s.calls, ∀ reset ∈ call.resets,
    reset.kind ≠ .source → reset.name ≠ definition.name) ∧
  ∀ reset ∈ s.marks a, reset.kind ≠ .source →
    ∀ w ∈ s.awaited, w ∈ s.runtime.running → w.definition.name ≠ reset.name

instance (s : System) (a : Action) : Decidable (Undisturbed s a) :=
  inferInstanceAs (Decidable (_ ∧ _))

/-- The siphon of a definition is stored. -/
def HasSiphon (s : System) (definition : Definition) : Prop :=
  (s.daemon.store.get
    (durableSiphonKey definition.spec.network definition.durableName)).isSome = true

/-- While a consumer is reset, only the worker that the call waits for runs, and consumers have
their siphons. -/
structure Guarded (s : System) : Prop extends Managed s where
  resetting : ∀ definition current, .resetting definition current ∈ s.calls →
    definition.kind ≠ .source → ∀ w ∈ s.runtime.running,
      w.definition.name = definition.name → some w = current
  deleting : ∀ definition, .deleting definition ∈ s.calls →
    definition.kind ≠ .source ∧ ∀ w ∈ s.runtime.running, w.definition.name ≠ definition.name
  consuming : ∀ w ∈ s.consuming, w ∈ s.runtime.running
  siphon : ∀ w ∈ s.consuming, s.HasSiphon w.definition
  reachable : s.daemon.Reachable

theorem guarded_initial (deviceID : Text) (hdeviceID : deviceID ≠ []) (now : Nat → Instant) :
    Guarded (initial deviceID hdeviceID now) :=
  { managed_initial deviceID hdeviceID now with
    resetting := fun _ _ h => by simp [initial] at h
    deleting := fun _ h => by simp [initial] at h
    consuming := fun _ h => by simp [initial] at h
    siphon := fun _ h => by simp [initial] at h
    reachable := ⟨deviceID, hdeviceID, now, Relation.ReflTransGen.refl⟩ }

/-- What resets are in progress after an action. -/
theorem Guarded.resets_step {a : Action} (hs : Guarded s) (hcondition : Undisturbed s a)
    (h : s.step a = some s') :
    (∀ definition current, .resetting definition current ∈ s'.calls →
      definition.kind ≠ .source → ∀ w ∈ s.runtime.running,
        w.definition.name = definition.name → some w = current) ∧
    (∀ definition, .deleting definition ∈ s'.calls →
      definition.kind ≠ .source ∧ ∀ w ∈ s.runtime.running,
        w.definition.name ≠ definition.name) := by
  refine ⟨fun definition current hmem hkind w hw hname => ?_, fun definition hmem => ?_⟩
  · rcases calls_of_step h _ hmem with hold | henters
    · exact hs.resetting definition current hold hkind w hw hname
    · cases henters with
      | resetting ha hfind =>
        -- the worker is in the table, since no call waits for it
        obtain ⟨-, rfl⟩ := findDefinition_eq_some hfind
        subst ha
        rcases hs.held w hw with hget | hawaited
        · rw [← hget, hname]
        · exact absurd hname (hcondition.2 definition hfind hkind w hawaited hw)
      | quiet hquiet => exact absurd hquiet (by rintro ⟨⟩)
  · rcases calls_of_step h _ hmem with hold | henters
    · exact hs.deleting definition hold
    · cases henters with
      | deleting hold hkind hended =>
        refine ⟨hkind, fun w hw hname => ?_⟩
        exact hended w (hs.resetting definition _ hold hkind w hw hname).symm hw
      | quiet hquiet => exact absurd hquiet (by rintro ⟨⟩)

/-- A consumer whose `CreateDurable` succeeds has a siphon with its streams, which it has found or
created. -/
theorem createDurableSiphon_streams {d d' : Daemon}
    {network name : Text} {streams : List Text} {start : Text} {info : DurableSiphonInfo}
    (h : d.createDurableSiphon network name streams start = (.ok info, d')) :
    ∃ definition, readDurableSiphon d'.store network name = .ok (some definition) ∧
      normalizeDurableStreams streams = .ok definition.streams ∧
      (readDurableSiphon d.store network name = .ok none ∨ d'.store = d.store) := by
  unfold Daemon.createDurableSiphon at h
  split at h
  · cases h
  split at h
  · cases h
  · cases h
  next streams' _ hstreams =>
  split at h
  · cases h
  split at h
  · cases h
  · next existing hread =>
    split at h
    · cases h
    · next hsame =>
      cases h
      exact ⟨existing, hread, by rw [hstreams, not_not.mp hsame], Or.inr rfl⟩
  · next hread =>
    split at h
    · cases h
    · next cursor _ =>
      cases h
      have hwell : DurableSiphonDefinition.WellFormed ⟨durableSiphonVersion, name, network,
        streams', cursor, d.clockNow.format, d.clockNow.format, none⟩ := .of_none rfl rfl
      exact ⟨_, readDurableSiphon_writeDurableSiphon d.store hwell, hstreams, Or.inl hread⟩

/-- A siphon is stored after its creation. -/
theorem isSome_get_of_createDurableSiphon {d d' : Daemon} {network name : Text}
    {streams : List Text} {start : Text} {info : DurableSiphonInfo}
    (h : d.createDurableSiphon network name streams start = (.ok info, d')) :
    (d'.store.get (durableSiphonKey network name)).isSome = true := by
  obtain ⟨definition, hread, -⟩ := createDurableSiphon_streams h
  unfold readDurableSiphon at hread
  split at hread
  · cases hread
  · next hget =>
    rw [hget]
    rfl

/-- Other siphons are left by a deletion. -/
theorem get_deleteDurableSiphon {d d' : Daemon} {network name : Text} {result : Result Unit}
    (h : d.deleteDurableSiphon network name = (result, d')) {key : Text}
    (hkey : key ≠ durableSiphonKey network name) : d'.store.get key = d.store.get key := by
  unfold Daemon.deleteDurableSiphon at h
  split at h
  all_goals cases h
  · rfl
  · rfl
  · rw [OrderedStore.get_delete, if_neg hkey]

/-- Operations that spare the siphons of the registry leave them stored. -/
theorem isSome_get_of_spares {d d' : Daemon} (hd : d.Reachable) {operation : Thalweg.Operation}
    {r : Result Unit} (hp : d.Performs operation r d') (hspares : Spares operation)
    {network name : Text} (hname : registryReservedPrefix <+: name)
    (hsome : (d.store.get (durableSiphonKey network name)).isSome = true) :
    (d'.store.get (durableSiphonKey network name)).isSome = true := by
  obtain ⟨L, hL⟩ := hd.exists_holds.1
  by_cases hsiphon : Daemon.siphonOf operation = some (network, name)
  · rcases Daemon.writesOnly_of_siphonOf hL hd.siphonsFiled hp hsiphon with hwrites | ⟨rfl, -⟩
    · exact Daemon.isSome_of_writesOnly hwrites hsome
    · rcases hspares network name hsiphon hname with ⟨limit, random, heq⟩ | ⟨deliveryID, heq⟩
      all_goals cases heq
  · rwa [Daemon.get_durableSiphonKey_of_performs hL hd.siphonsFiled hp hsiphon]

theorem prefix_durableName (definition : Definition) :
    registryReservedPrefix <+: definition.durableName := by
  rw [Definition.durableName, List.append_assoc]
  exact List.prefix_append _ _

/-- A call leaves the consumers running, with their siphons. -/
theorem Guarded.siphons_of_does {a : Action} (hs : Guarded s) {t : System} {call : Call}
    (h : Does s a t call) :
    (∀ w ∈ t.consuming, w ∈ t.runtime.running) ∧ (∀ w ∈ t.consuming, t.HasSiphon w.definition) ∧
      t.daemon.Reachable := by
  cases h with
  | moves _ _ hr _ => exact ⟨fun w hw => hr.running ▸ hs.consuming w hw, hs.siphon, hs.reachable⟩
  | takes hrunning | resets _ _ hrunning =>
    exact ⟨fun w hw => hrunning ▸ hs.consuming w hw, hs.siphon, hs.reachable⟩
  | starts =>
    exact ⟨fun w hw => List.mem_append_left _ (hs.consuming w hw), hs.siphon, hs.reachable⟩
  | empties | closes | marks => exact ⟨hs.consuming, hs.siphon, hs.reachable⟩
  | @deletes definition daemon hmem hdelete =>
    refine ⟨hs.consuming, fun w hw => ?_, ?_⟩
    · have hname := (hs.deleting definition hmem).2 w (hs.consuming w hw)
      have hkey : durableSiphonKey w.definition.spec.network w.definition.durableName ≠
          durableSiphonKey definition.spec.network definition.durableName := fun heq =>
        hname (name_eq_of_durableName_eq (durableSiphonKey_inj.mp heq).2)
      rw [HasSiphon, get_deleteDurableSiphon hdelete hkey]
      exact hs.siphon w hw
    · refine hs.reachable.run (.single ⟨.deleteDurableSiphon definition.spec.network
        definition.durableName, .ok (), ⟨0, ?_⟩, trivial⟩)
      rw [Operation.perform, hdelete]

/-- An action leaves the consumers running, with their siphons. -/
theorem Guarded.siphons_step {a : Action} (hs : Guarded s) (h : s.step a = some s') :
    (∀ w ∈ s'.consuming, w ∈ s'.runtime.running) ∧ (∀ w ∈ s'.consuming, s'.HasSiphon w.definition) ∧
      s'.daemon.Reachable := by
  cases step_effect h with
  | restarts => exact ⟨by simp, by simp, hs.reachable⟩
  | begins _ hdoes | goes _ _ _ hdoes =>
    obtain ⟨hconsuming, hsiphon, hreachable⟩ := hs.siphons_of_does hdoes
    exact ⟨hconsuming, hsiphon, hreachable⟩
  | finishes worker =>
    refine ⟨fun w hw => ?_, fun w hw => ?_, hs.reachable⟩
    · obtain ⟨hw, hne⟩ := List.mem_filter.mp hw
      exact List.mem_filter.mpr ⟨hs.consuming w hw, by simpa using hne⟩
    · exact hs.siphon w (List.mem_filter.mp hw).1
  | performs _ hp hspares =>
    refine ⟨hs.consuming, fun w hw => ?_, hs.reachable.run (.single ⟨_, _, hp, trivial⟩)⟩
    exact isSome_get_of_spares hs.reachable hp hspares (prefix_durableName w.definition)
      (hs.siphon w hw)
  | @creates worker info daemon _ hworker hcreate =>
    have hsome := isSome_get_of_createDurableSiphon hcreate
    refine ⟨?_, ?_, ?_⟩
    · rintro w (_ | ⟨_, hw⟩)
      · exact hworker
      · exact hs.consuming w hw
    · rintro w (_ | ⟨_, hw⟩)
      · exact hsome
      · have hwrites := Daemon.createDurableSiphon_writesOnly s.daemon
          worker.definition.spec.network worker.definition.durableName
          worker.definition.spec.events.streams worker.definition.spec.events.start
        rw [hcreate] at hwrites
        by_cases hkey : durableSiphonKey w.definition.spec.network w.definition.durableName =
          durableSiphonKey worker.definition.spec.network worker.definition.durableName
        · rwa [HasSiphon, hkey]
        · rw [HasSiphon, hwrites.get hkey]
          exact hs.siphon w hw
    · refine hs.reachable.run (.single ⟨.createDurableSiphon worker.definition.spec.network
        worker.definition.durableName worker.definition.spec.events.streams
        worker.definition.spec.events.start, .ok (), ⟨0, ?_⟩, trivial⟩)
      rw [Operation.perform, hcreate]
      rfl

theorem Guarded.step {a : Action} (hs : Guarded s) (hcondition : Undisturbed s a)
    (h : s.step a = some s') : Guarded s' := by
  obtain ⟨hconsuming, hsiphon, hreachable⟩ := hs.siphons_step h
  obtain ⟨hresetting, hdeleting⟩ := hs.resets_step hcondition h
  suffices hrunning : ∀ w ∈ s'.runtime.running, w ∈ s.runtime.running ∨
      ∀ call ∈ s'.calls, ∀ reset ∈ call.resets, reset.kind ≠ .source →
        w.definition.name ≠ reset.name by
    refine { hs.toManaged.step h with
      resetting := fun definition current hmem hkind w hw hname => ?_
      deleting := fun definition hmem => ⟨(hdeleting definition hmem).1, fun w hw hname => ?_⟩
      consuming := hconsuming
      siphon := hsiphon
      reachable := hreachable }
    · rcases hrunning w hw with hold | hnew
      · exact hresetting definition current hmem hkind w hold hname
      · exact absurd hname (hnew _ hmem definition rfl hkind)
    · obtain ⟨hkind, hother⟩ := hdeleting definition hmem
      rcases hrunning w hw with hold | hnew
      · exact hother w hold hname
      · exact absurd hname (hnew _ hmem definition rfl hkind)
  rcases keeps_or_starts_of_step h with hrenewed | hkeeps | ⟨definition, hdefinition, hstarts⟩
  · exact fun w _ => Or.inr (by simp [hrenewed.calls])
  · exact fun w hw => Or.inl (hkeeps.running.subset hw)
  · intro w hw
    rw [hstarts.running] at hw
    refine (List.mem_append.mp hw).imp id fun hnew => ?_
    obtain rfl := List.mem_singleton.mp hnew
    intro call hcall reset hreset hkind
    rcases calls_of_step h call hcall with hold | henters
    · exact (hcondition.1 definition hdefinition call hold reset hreset hkind).symm
    · cases henters with
      | closing => cases hreset
      | resetting ha =>
        subst ha
        cases hdefinition
      | deleting hold =>
        obtain rfl := Option.some.inj hreset
        exact (hcondition.1 definition hdefinition _ hold _ rfl hkind).symm
      | quiet hquiet =>
        rw [hquiet.resets_eq] at hreset
        cases hreset

/-- **A reset deletes no siphon in use.** In a run in which no worker starts for a consumer that is
being reset, and no call waits for one when a reset begins, no consumer that is to lose its siphon
has a worker between `CreateDurable` and its end, and every worker that polls and acknowledges has
its siphon. -/
theorem siphon_of_undisturbed {deviceID : Text} {hdeviceID : deviceID ≠ []} {now : Nat → Instant}
    {actions : List Action} {s : System}
    (hmeets : Meets step Undisturbed (initial deviceID hdeviceID now) actions)
    (hrun : run step (initial deviceID hdeviceID now) actions = some s) :
    (∀ definition, .deleting definition ∈ s.calls →
      ∀ w ∈ s.consuming, w.definition.name ≠ definition.name) ∧
    ∀ w ∈ s.consuming, s.HasSiphon w.definition := by
  have hguarded := run_invariant (fun s a s' hs hcondition h => Guarded.step hs hcondition h)
    (guarded_initial deviceID hdeviceID now) hmeets hrun
  exact ⟨fun definition hmem w hw =>
    (hguarded.deleting definition hmem).2 w (hguarded.consuming w hw), hguarded.siphon⟩

/-! ### Runs with one Sink -/

/-- The daemon has the network of the Sink, starts, and the Sink creates its siphon. -/
def archiving : List Action :=
  [.other 0 (.networkCreate ['h'] (List.replicate 16 0) (List.replicate 32 0)), opening,
    .createDurable ⟨0, archive⟩]

/-- The Sink is reset and started again. -/
def resetRun : List Action :=
  archiving ++ [.resetDefinition ['a'], .finish ⟨0, archive⟩, .proceed 0, .deleteDurable 0,
    .startDefinition ['a'], .createDurable ⟨1, archive⟩, .pollDurable ⟨1, archive⟩ []]

theorem siphon_resetRun : ∃ s, run step fresh resetRun = some s ∧ s.consuming ≠ [] ∧
    ∀ w ∈ s.consuming, s.HasSiphon w.definition := by
  have hmeets : Meets step Undisturbed fresh resetRun := by decide +kernel
  have hrun : ((run step fresh resetRun).any fun s => s.consuming ≠ []) = true := by decide +kernel
  obtain ⟨s, hs, hconsuming⟩ := (Option.any_eq_true _ _).mp hrun
  exact ⟨s, hs, of_decide_eq_true hconsuming, (siphon_of_undisturbed hmeets hs).2⟩

/-- The Sink is started while `ResetDefinition` waits for its worker. -/
def disturbedRun : List Action :=
  archiving ++ [.resetDefinition ['a'], .startDefinition ['a'], .finish ⟨0, archive⟩, .proceed 0,
    .createDurable ⟨1, archive⟩]

instance (s : System) (definition : Definition) : Decidable (s.HasSiphon definition) :=
  inferInstanceAs (Decidable (_ = true))

/-- The siphon is deleted under the second worker, which goes on without one. -/
theorem not_siphon_disturbedRun :
    (∃ s, run step fresh disturbedRun = some s ∧ .deleting archive ∈ s.calls ∧
      ⟨1, archive⟩ ∈ s.consuming) ∧
    ∃ s, run step fresh (disturbedRun ++ [.deleteDurable 0, .pollDurable ⟨1, archive⟩ []]) =
      some s ∧ ⟨1, archive⟩ ∈ s.consuming ∧ ¬ s.HasSiphon archive := by
  have hdeleting : ((run step fresh disturbedRun).any fun s =>
      .deleting archive ∈ s.calls ∧ ⟨1, archive⟩ ∈ s.consuming) = true := by decide +kernel
  have hlost : ((run step fresh (disturbedRun ++
      [.deleteDurable 0, .pollDurable ⟨1, archive⟩ []])).any fun s =>
        ⟨1, archive⟩ ∈ s.consuming ∧ ¬ s.HasSiphon archive) = true := by decide +kernel
  obtain ⟨s, hs, hboth⟩ := (Option.any_eq_true _ _).mp hdeleting
  obtain ⟨t, ht, hsiphon⟩ := (Option.any_eq_true _ _).mp hlost
  exact ⟨⟨s, hs, of_decide_eq_true hboth⟩, t, ht, of_decide_eq_true hsiphon⟩

end System

end Thalweg.Registry
