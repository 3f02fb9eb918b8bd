import Thalweg.Registry.Reset

/-!
# Cursors and selections

A consumer finds the siphon of its name, which outlives restarts, stops and the removal of its
definition. `CreateDurable` compares the streams of that siphon with those of the definition but not
the start position, and `Reload` compares the candidate with the snapshot before it only. When calls
come one after the other, a consumer polls a siphon that was created for its selection if every
consumer that finds a siphon with its streams finds one that was created for its start position.

## Main definitions

* `System.InTurn`: calls come one after the other.
* `System.Expected`: the siphon that a consumer finds was created for its start position.
* `SameSelection`.

## Main results

* `System.selected_of_expected`: the runs of such actions.
* `System.not_selected_readdedRun`: another run.
-/

namespace Thalweg.Registry

open Machine

/-- The set of streams of a definition, as a siphon has it. -/
def Definition.streams (definition : Definition) : Option (List Text) :=
  (normalizeDurableStreams definition.spec.events.streams).toOption

/-- The definitions select the same events: network, set of streams and start position. -/
structure SameSelection (first second : Definition) : Prop where
  network : first.spec.network = second.spec.network
  streams : first.streams = second.streams
  start : first.spec.events.start = second.spec.events.start

namespace System

variable {s s' : System} {a : Action}

/-! ### One call after the other -/

/-- A call begins when the calls before it have returned. -/
def InTurn (s : System) (a : Action) : Prop :=
  a.begins = true → ∀ call ∈ s.calls, call = .returned

instance (s : System) (a : Action) : Decidable (InTurn s a) :=
  inferInstanceAs (Decidable (_ → _))

/-- The calls before the last one have returned. -/
def Turns (s : System) : Prop := ∀ i, i + 1 < s.calls.length → s.calls[i]? = some .returned

theorem Turns.step (hs : Turns s) (hturn : InTurn s a) (h : s.step a = some s') : Turns s' := by
  intro i hi
  cases step_effect h with
  | restarts => simp at hi
  | @begins t call hbegins hdoes =>
    simp only [begin, hdoes.calls_eq, List.length_append, List.length_singleton] at hi ⊢
    rw [List.getElem?_append_left (by omega)]
    have hmem := List.getElem_mem (l := s.calls) (n := i) (by omega)
    rw [List.getElem?_eq_getElem (by omega), hturn hbegins _ hmem]
  | @goes t c old call hc hold _ hdoes =>
    simp only [setCall, hdoes.calls_eq, List.length_set] at hi ⊢
    have hic : c ≠ i := by
      rintro rfl
      exact hold (Option.some.inj (hc.symm.trans (hs c hi)))
    rw [List.getElem?_set_ne hic]
    exact hs i hi
  | finishes | performs | creates => exact hs i hi

/-- A call that has not returned is the last one. -/
theorem Turns.eq_of_ne_returned (hs : Turns s) {c : Nat} {call other : Call}
    (hc : s.calls[c]? = some call) (hcall : call ≠ .returned) (hother : other ∈ s.calls)
    (hne : other ≠ .returned) : other = call := by
  obtain ⟨i, hi⟩ := List.mem_iff_getElem?.mp hother
  have hlast {j : Nat} {x : Call} (hj : s.calls[j]? = some x) (hx : x ≠ .returned) :
      j + 1 = s.calls.length := by
    have hlt := (List.getElem?_eq_some_iff.mp hj).choose
    by_contra hshort
    exact hx (Option.some.inj (hj.symm.trans (hs j (by omega))))
  have hic : i = c := Nat.succ.inj ((hlast hi hne).trans (hlast hc hcall).symm)
  subst hic
  exact Option.some.inj (hi.symm.trans hc)

/-- Calls that come one after the other do not disturb a reset. -/
theorem Turns.undisturbed (hs : Turns s) (hturn : InTurn s a) : Undisturbed s a := by
  have hresets {call : Call} {reset : Definition} (hreset : reset ∈ call.resets) :
      call ≠ .returned := by
    rintro rfl
    cases hreset
  refine ⟨fun definition hstarts call hcall reset hreset _ => ?_, fun reset hmarks _ w hw => ?_⟩
  · -- the call that starts a worker is not the one that resets a definition
    cases a with
    | startDefinition name => exact absurd (hturn rfl call hcall) (hresets hreset)
    | proceed c =>
      simp only [starts] at hstarts
      split at hstarts
      · next hc =>
        obtain rfl := hs.eq_of_ne_returned hc (by simp) hcall (hresets hreset)
        cases hreset
      · next hc =>
        obtain rfl := hs.eq_of_ne_returned hc (by simp) hcall (hresets hreset)
        cases hreset
      · cases hstarts
    | _ => cases hstarts
  · cases a with
    | resetDefinition name =>
      obtain ⟨call, hcall, hmem⟩ := mem_awaited_iff.mp hw
      rw [hturn rfl call hcall] at hmem
      cases hmem
    | _ => cases hmarks

/-! ### The streams of a siphon -/

theorem streams_of_pendDurableDelivery {d : Daemon}
    {definition definition' : DurableSiphonDefinition} {limit : Nat} {random : Text} {store : Store}
    (h : d.pendDurableDelivery definition limit random = .ok (store, definition')) :
    definition'.streams = definition.streams := by
  unfold Daemon.pendDurableDelivery at h
  split at h
  · simp only [prepareDurableDelivery, bind_eq_ok_iff] at h
    obtain ⟨resolutions, -, ⟨keys, through⟩, -, h⟩ := h
    simp only at h
    split_ifs at h
    all_goals
      cases h
      rfl
  · cases h
    rfl

theorem pollDurableSiphon_streams {d : Daemon} {L : Ledger} (h : d.Holds L)
    (hfiled : SiphonsFiled d.store) {network name : Text} {definition : DurableSiphonDefinition}
    (hread : readDurableSiphon d.store network name = .ok (some definition)) (limit : Int)
    (random : Text) :
    ∃ definition', readDurableSiphon (d.pollDurableSiphon network name limit random).2.store network
        name = .ok (some definition') ∧ definition'.streams = definition.streams := by
  obtain ⟨hwell, rfl, rfl, -⟩ := hfiled.of_read hread
  unfold Daemon.pollDurableSiphon
  simp only
  generalize (if limit = 0 then durableSiphonDefaultBatch else limit) = limit
  split
  · exact ⟨definition, hread, rfl⟩
  simp only [hread]
  split
  · exact ⟨definition, hread, rfl⟩
  next store definition' hpend =>
  obtain ⟨hwell', hn, hm, hstore⟩ :=
    Daemon.pendDurableDelivery_cases h.represents.arrivalsLead hwell hpend
  split
  · exact ⟨definition, hread, rfl⟩
  rcases hstore with rfl | rfl
  · exact ⟨definition, hread, rfl⟩
  · refine ⟨definition', ?_, streams_of_pendDurableDelivery hpend⟩
    rw [← hn, ← hm]
    exact readDurableSiphon_writeDurableSiphon d.store hwell'

theorem acknowledgeDurableSiphon_streams {d : Daemon} (hfiled : SiphonsFiled d.store)
    {network name : Text} {definition : DurableSiphonDefinition}
    (hread : readDurableSiphon d.store network name = .ok (some definition)) (deliveryID : Text) :
    ∃ definition', readDurableSiphon (d.acknowledgeDurableSiphon network name deliveryID).2.store
        network name = .ok (some definition') ∧ definition'.streams = definition.streams := by
  rcases Daemon.acknowledgeDurableSiphon_cases hfiled hread deliveryID with
    ⟨e, herr⟩ | ⟨pending, info, updatedAt, -, -, -, -, hread'⟩
  · rw [herr]
    exact ⟨definition, hread, rfl⟩
  · exact ⟨_, hread', rfl⟩

/-- What spares the siphons of the registry leaves their streams. -/
theorem exists_streams_of_spares {d d' : Daemon} (hd : d.Reachable)
    {operation : Thalweg.Operation} {r : Result Unit} (hp : d.Performs operation r d')
    (hspares : Spares operation) {network name : Text} (hname : registryReservedPrefix <+: name)
    {definition' : DurableSiphonDefinition}
    (hread' : readDurableSiphon d'.store network name = .ok (some definition')) :
    ∃ definition, readDurableSiphon d.store network name = .ok (some definition) ∧
      definition.streams = definition'.streams := by
  obtain ⟨L, hL⟩ := hd.exists_holds.1
  have hfiled := hd.siphonsFiled
  by_cases hsiphon : Daemon.siphonOf operation = some (network, name)
  swap
  · refine ⟨definition', ?_, rfl⟩
    rw [← hread', readDurableSiphon, readDurableSiphon,
      Daemon.get_durableSiphonKey_of_performs hL hfiled hp hsiphon]
  rcases hfiled.read_cases network name with ⟨-, hnone⟩ | ⟨definition, -, -, -, -, hread⟩
  · -- there is no siphon to poll or to acknowledge
    have hstore : d'.store = d.store := by
      obtain ⟨fuel, hp⟩ := hp
      rcases hspares network name hsiphon hname with ⟨limit, random, rfl⟩ | ⟨deliveryID, rfl⟩
      · obtain rfl : (d.pollDurableSiphon network name limit random).2 = d' :=
          congrArg Prod.snd (Option.some.inj hp)
        simp only [Daemon.pollDurableSiphon, hnone]
        split_ifs <;> rfl
      · obtain rfl : (d.acknowledgeDurableSiphon network name deliveryID).2 = d' :=
          congrArg Prod.snd (Option.some.inj hp)
        simp only [Daemon.acknowledgeDurableSiphon, hnone]
        split_ifs <;> rfl
    rw [hstore, hnone] at hread'
    cases hread'
  · suffices hkept : ∃ found, readDurableSiphon d'.store network name = .ok (some found) ∧
        found.streams = definition.streams by
      obtain ⟨found, hfound, hstreams⟩ := hkept
      rw [hread'] at hfound
      cases hfound
      exact ⟨definition, hread, hstreams.symm⟩
    obtain ⟨fuel, hp⟩ := hp
    rcases hspares network name hsiphon hname with ⟨limit, random, rfl⟩ | ⟨deliveryID, rfl⟩
    · obtain rfl : (d.pollDurableSiphon network name limit random).2 = d' :=
        congrArg Prod.snd (Option.some.inj hp)
      exact pollDurableSiphon_streams hL hfiled hread limit random
    · obtain rfl : (d.acknowledgeDurableSiphon network name deliveryID).2 = d' :=
        congrArg Prod.snd (Option.some.inj hp)
      exact acknowledgeDurableSiphon_streams hfiled hread deliveryID

/-! ### The selection of a siphon -/

/-- A consumer that finds a siphon with its streams finds one that was created for its start
position. Since a reload compares a candidate with the snapshot before, this is not so if the siphon
outlived its definition: the definition was missing from a snapshot in between, the file of the
snapshot could not be read or was missing at a restart, or the change was permitted by a reset that
did not delete the siphon or after which a worker made it again. -/
def Expected (s : System) (a : Action) : Prop :=
  match a with
  | .createDurable worker => ∀ made ∈ s.creator worker.definition.siphon,
      made.streams = worker.definition.streams →
        made.spec.events.start = worker.definition.spec.events.start
  | _ => True

/-- The siphons of the registry have the network and the streams of the definitions that they were
created for. -/
def Recorded (s : System) : Prop :=
  ∀ network name definition, registryReservedPrefix <+: name →
    readDurableSiphon s.daemon.store network name = .ok (some definition) →
      ∃ made, s.creator (network, name) = some made ∧ made.spec.network = network ∧
        made.streams = some definition.streams

/-- The siphons of the consumers were created for their selections. -/
def Fitting (s : System) : Prop :=
  ∀ w ∈ s.consuming, ∃ made, s.creator w.definition.siphon = some made ∧
    SameSelection made w.definition

structure Selected (s : System) : Prop extends Guarded s where
  turns : Turns s
  recorded : Recorded s
  fitting : Fitting s

/-- Siphons of other names are read as before. -/
theorem readDurableSiphon_congr {store store' : Store} {network name : Text}
    (h : store'.get (durableSiphonKey network name) = store.get (durableSiphonKey network name)) :
    readDurableSiphon store' network name = readDurableSiphon store network name := by
  rw [readDurableSiphon, readDurableSiphon, h]

/-- A siphon that is deleted is gone. -/
theorem readDurableSiphon_deleteDurableSiphon {d d' : Daemon} {network name : Text}
    (h : d.deleteDurableSiphon network name = (.ok (), d')) :
    readDurableSiphon d'.store network name = .ok none := by
  unfold Daemon.deleteDurableSiphon at h
  split at h
  · cases h
  · next hnone =>
    cases h
    exact hnone
  · cases h
    rw [readDurableSiphon, OrderedStore.get_delete, if_pos rfl]

theorem readDurableSiphon_initial (deviceID : Text) (hdeviceID : deviceID ≠ [])
    (now : Nat → Instant) (network name : Text) :
    readDurableSiphon (Daemon.initial deviceID hdeviceID now).store network name = .ok none := by
  unfold readDurableSiphon
  split
  · rfl
  · next value hget =>
    have hkey : keyFamily (durableSiphonKey network name) = .durableSiphon := by simp
    rcases get_initialStore_eq_some_iff.mp hget with ⟨heq, -⟩ | ⟨heq, -⟩ | ⟨heq, -⟩
    all_goals
      rw [heq] at hkey
      simp at hkey

theorem selected_initial (deviceID : Text) (hdeviceID : deviceID ≠ []) (now : Nat → Instant) :
    Selected (initial deviceID hdeviceID now) :=
  { guarded_initial deviceID hdeviceID now with
    turns := fun _ hi => by simp [initial] at hi
    recorded := fun network name _ _ hread => by
      rw [initial, readDurableSiphon_initial] at hread
      cases hread
    fitting := fun _ h => by simp [initial] at h }

/-- A siphon that is deleted leaves those of the consumers. -/
theorem Selected.deletes (hs : Selected s) {definition : Definition} {daemon : Daemon}
    (hmem : .deleting definition ∈ s.calls)
    (hdelete : s.daemon.deleteDurableSiphon definition.spec.network definition.durableName =
      (.ok (), daemon)) {t : System} (hdaemon : t.daemon = daemon)
    (hcreator : t.creator = Function.update s.creator definition.siphon none)
    (hconsuming : t.consuming = s.consuming) : Recorded t ∧ Fitting t := by
  refine ⟨fun network name found hname hread => ?_, fun w hw => ?_⟩
  · rw [hdaemon] at hread
    have hne : (network, name) ≠ definition.siphon := by
      intro heq
      obtain ⟨rfl, rfl⟩ := Prod.mk.inj heq
      rw [readDurableSiphon_deleteDurableSiphon hdelete] at hread
      cases hread
    have hkey : durableSiphonKey network name ≠
        durableSiphonKey definition.spec.network definition.durableName := fun heq =>
      hne (Prod.ext (durableSiphonKey_inj.mp heq).1 (durableSiphonKey_inj.mp heq).2)
    rw [readDurableSiphon_congr (get_deleteDurableSiphon hdelete hkey)] at hread
    rw [hcreator, Function.update_of_ne hne]
    exact hs.recorded network name found hname hread
  · rw [hconsuming] at hw
    have hname := (hs.deleting definition hmem).2 w (hs.consuming w hw)
    have hne : w.definition.siphon ≠ definition.siphon := fun heq =>
      hname (name_eq_of_durableName_eq (Prod.mk.inj heq).2)
    rw [hcreator, Function.update_of_ne hne]
    exact hs.fitting w hw

/-- A consumer that creates its siphon creates it for its selection. -/
theorem Selected.creates (hs : Selected s) {worker : Worker} {info : DurableSiphonInfo}
    {daemon : Daemon}
    (hcreate : s.daemon.createDurableSiphon worker.definition.spec.network
      worker.definition.durableName worker.definition.spec.events.streams
      worker.definition.spec.events.start = (.ok info, daemon))
    (hnone : readDurableSiphon s.daemon.store worker.definition.spec.network
      worker.definition.durableName = .ok none) {t : System} (hdaemon : t.daemon = daemon)
    (hcreator : t.creator =
      Function.update s.creator worker.definition.siphon (some worker.definition))
    (hconsuming : t.consuming = worker :: s.consuming) : Recorded t ∧ Fitting t := by
  obtain ⟨definition, hread, hstreams, -⟩ := createDurableSiphon_streams hcreate
  have hwrites := Daemon.createDurableSiphon_writesOnly s.daemon worker.definition.spec.network
    worker.definition.durableName worker.definition.spec.events.streams
    worker.definition.spec.events.start
  rw [hcreate] at hwrites
  refine ⟨fun network name found hname hfound => ?_, fun w hw => ?_⟩
  · rw [hdaemon] at hfound
    rw [hcreator]
    by_cases heq : (network, name) = worker.definition.siphon
    · obtain ⟨rfl, rfl⟩ := Prod.mk.inj heq
      rw [hread] at hfound
      cases hfound
      exact ⟨worker.definition, by rw [heq, Function.update_self], rfl,
        congrArg Except.toOption hstreams⟩
    · have hkey : durableSiphonKey network name ≠ durableSiphonKey worker.definition.spec.network
          worker.definition.durableName := fun h =>
        heq (Prod.ext (durableSiphonKey_inj.mp h).1 (durableSiphonKey_inj.mp h).2)
      rw [readDurableSiphon_congr (hwrites.get hkey)] at hfound
      rw [Function.update_of_ne heq]
      exact hs.recorded network name found hname hfound
  · rw [hcreator]
    by_cases heq : w.definition.siphon = worker.definition.siphon
    · rw [hconsuming] at hw
      rcases List.mem_cons.mp hw with rfl | hold
      · exact ⟨w.definition, Function.update_self _ _ _, rfl, rfl, rfl⟩
      · -- the other consumer has that siphon already
        have hsiphon := hs.siphon w hold
        obtain ⟨hnetwork, hname⟩ := Prod.mk.inj heq
        rw [HasSiphon, hnetwork, hname] at hsiphon
        rcases hs.reachable.siphonsFiled.read_cases worker.definition.spec.network
            worker.definition.durableName with ⟨hget, -⟩ | ⟨found, -, -, -, -, hsome⟩
        · rw [hget] at hsiphon
          cases hsiphon
        · rw [hnone] at hsome
          cases hsome
    · rw [hconsuming] at hw
      rcases List.mem_cons.mp hw with rfl | hold
      · exact absurd rfl heq
      · rw [Function.update_of_ne heq]
        exact hs.fitting w hold

/-- A consumer that finds a siphon finds one of its selection. -/
theorem Selected.finds (hs : Selected s) {worker : Worker} {definition : DurableSiphonDefinition}
    (hexpected : Expected s (.createDurable worker))
    (hread : readDurableSiphon s.daemon.store worker.definition.spec.network
      worker.definition.durableName = .ok (some definition))
    (hstreams : normalizeDurableStreams worker.definition.spec.events.streams =
      .ok definition.streams) :
    ∃ made, s.creator worker.definition.siphon = some made ∧
      SameSelection made worker.definition := by
  obtain ⟨made, hmade, hnetwork, hsame⟩ :=
    hs.recorded _ _ definition (prefix_durableName worker.definition) hread
  have heq := hsame.trans (congrArg Except.toOption hstreams).symm
  exact ⟨made, hmade, hnetwork, heq, hexpected made hmade heq⟩

/-- An action leaves the consumers with siphons of their selections. -/
theorem Selected.selections_step (hs : Selected s) (hexpected : Expected s a)
    (h : s.step a = some s') : Recorded s' ∧ Fitting s' := by
  cases step_effect h with
  | restarts => exact ⟨hs.recorded, fun w hw => by simp at hw⟩
  | begins _ hdoes | goes _ _ _ hdoes =>
    cases hdoes with
    | moves | takes | resets | starts | empties | closes | marks =>
      exact ⟨hs.recorded, hs.fitting⟩
    | deletes hmem hdelete => exact hs.deletes hmem hdelete rfl rfl rfl
  | finishes worker => exact ⟨hs.recorded, fun w hw => hs.fitting w (List.mem_filter.mp hw).1⟩
  | performs _ hp hspares =>
    refine ⟨fun network name definition hname hread => ?_, hs.fitting⟩
    obtain ⟨found, hfound, hstreams⟩ :=
      exists_streams_of_spares hs.reachable hp hspares hname hread
    rw [← hstreams]
    exact hs.recorded network name found hname hfound
  | @creates worker info daemon ha hworker hcreate =>
    subst ha
    obtain ⟨definition, hread, hstreams, hnone | hstore⟩ := createDurableSiphon_streams hcreate
    · exact hs.creates hcreate hnone rfl (by simp only [hnone]) rfl
    · rw [hstore] at hread
      simp only [hread]
      refine ⟨fun network name found hname hfound => ?_, fun w hw => ?_⟩
      · rw [hstore] at hfound
        exact hs.recorded network name found hname hfound
      · rcases List.mem_cons.mp hw with rfl | hold
        · exact hs.finds hexpected hread hstreams
        · exact hs.fitting w hold

theorem Selected.step (hs : Selected s) (hturn : InTurn s a) (hexpected : Expected s a)
    (h : s.step a = some s') : Selected s' := by
  obtain ⟨hrecorded, hfitting⟩ := hs.selections_step hexpected h
  exact { hs.toGuarded.step (hs.turns.undisturbed hturn) h with
    turns := hs.turns.step hturn h
    recorded := hrecorded
    fitting := hfitting }

/-- A reload is refused if it changes the selection of a consumer that was not reset. -/
theorem acceptLocked_of_selection_changed {r : Runtime} {candidate : Snapshot}
    (fails : WriteStep → Bool) {definition previous : Definition}
    (hmem : definition ∈ candidate.definitions)
    (hprevious : (definitionsByName r.snapshot.definitions).get definition.name = some previous)
    (hkind : previous.kind ≠ .source) (hdigest : previous.digest ≠ definition.digest)
    (hchanged : statefulSelectionChanged previous definition = true)
    (hreset : definition.name ∉ r.resetAllowed) :
    ∃ e lastError, r.acceptLocked candidate fails = (.error e, { r with lastError }) := by
  have hsome : (r.rejectedSelection candidate).isSome = true := by
    rw [Runtime.rejectedSelection, List.find?_isSome]
    refine ⟨definition, hmem, ?_⟩
    rw [hprevious]
    simp [hkind, hdigest, hchanged, hreset]
  obtain ⟨rejected, hrejected⟩ := Option.isSome_iff_exists.mp hsome
  unfold Runtime.acceptLocked
  split_ifs
  · rw [hrejected]
    exact ⟨_, _, rfl⟩
  · exact ⟨_, r.lastError, rfl⟩

/-- **A consumer resumes no cursor of another selection.** In a run whose calls come one after the
other, and in which every consumer that finds a siphon with its streams finds one that was created
for its start position, every worker that polls has a siphon that was created for the network, the
streams and the start position of its definition. A reload that changes the selection of a consumer
is refused unless the consumer was reset. -/
theorem selected_of_expected {deviceID : Text} {hdeviceID : deviceID ≠ []} {now : Nat → Instant}
    {actions : List Action} {s : System}
    (hmeets : Meets step (fun s a => InTurn s a ∧ Expected s a)
      (initial deviceID hdeviceID now) actions)
    (hrun : run step (initial deviceID hdeviceID now) actions = some s) :
    (∀ w ∈ s.consuming, ∃ made, s.creator w.definition.siphon = some made ∧
      SameSelection made w.definition) ∧
    ∀ (candidate : Snapshot) (fails : WriteStep → Bool), ∀ definition ∈ candidate.definitions,
      ∀ previous, (definitionsByName s.runtime.snapshot.definitions).get definition.name =
        some previous → previous.kind ≠ .source → previous.digest ≠ definition.digest →
      statefulSelectionChanged previous definition = true →
      definition.name ∉ s.runtime.resetAllowed →
      ∃ e lastError, s.runtime.acceptLocked candidate fails =
        (.error e, { s.runtime with lastError }) := by
  have hselected := run_invariant
    (fun _ _ _ hs hcondition h => Selected.step hs hcondition.1 hcondition.2 h)
    (selected_initial deviceID hdeviceID now) hmeets hrun
  refine ⟨hselected.fitting, fun candidate fails definition hmem previous hprevious hkind hdigest
    hchanged hreset => ?_⟩
  exact acceptLocked_of_selection_changed fails hmem hprevious hkind hdigest hchanged hreset

/-! ### Runs with one Sink -/

/-- The Sink with another start position. -/
def archiveLatest : Definition :=
  { archive with
    spec := { archive.spec with events := ⟨[], "latest".toList⟩ }
    digest := ['2'] }

/-- The Sink is reset and gets another start position. -/
def changedRun : List Action :=
  archiving ++ [.resetDefinition ['a'], .finish ⟨0, archive⟩, .proceed 0, .deleteDurable 0,
    .reload (sinkDirectory archiveLatest) [], .accept 1 fun _ => false, .proceed 1, .proceed 1,
    .proceed 1, .createDurable ⟨1, archiveLatest⟩, .pollDurable ⟨1, archiveLatest⟩ []]

instance (s : System) (a : Action) : Decidable (Expected s a) :=
  match a with
  | .createDurable _ => inferInstanceAs (Decidable (∀ made ∈ s.creator _, _ → _))
  | .restart _ _ _ _ | .reload _ _ | .accept _ _ | .remove _ _ | .startDefinition _
  | .stopDefinition _ | .restartDefinition _ | .resetDefinition _ | .close | .proceed _
  | .deleteDurable _ | .pollDurable _ _ | .acknowledgeDurable _ _ | .finish _ | .other _ _ =>
    instDecidableTrue

theorem selected_changedRun : ∃ s, run step fresh changedRun = some s ∧
    ⟨1, archiveLatest⟩ ∈ s.consuming ∧ ∀ w ∈ s.consuming, ∃ made,
      s.creator w.definition.siphon = some made ∧ SameSelection made w.definition := by
  have hmeets : Meets step (fun s a => InTurn s a ∧ Expected s a) fresh changedRun := by
    decide +kernel
  have hrun : ((run step fresh changedRun).any fun s =>
      ⟨1, archiveLatest⟩ ∈ s.consuming) = true := by decide +kernel
  obtain ⟨s, hs, hconsuming⟩ := (Option.any_eq_true _ _).mp hrun
  exact ⟨s, hs, of_decide_eq_true hconsuming, (selected_of_expected hmeets hs).1⟩

/-- The Sink is removed, and a Sink of its name with another start position is added. -/
def readdedRun : List Action :=
  archiving ++ [.reload ⟨.ok [], .ok [], .ok []⟩ [], .accept 0 fun _ => false, .remove 0 ['a'],
    .finish ⟨0, archive⟩, .proceed 0, .proceed 0, .proceed 0,
    .reload (sinkDirectory archiveLatest) [], .accept 1 fun _ => false, .proceed 1, .proceed 1,
    .proceed 1, .createDurable ⟨1, archiveLatest⟩]

/-- The second reload is accepted, and its Sink goes on with the siphon of the first one. -/
theorem not_selected_readdedRun : Meets step InTurn fresh readdedRun ∧
    ∃ s, run step fresh readdedRun = some s ∧ ⟨1, archiveLatest⟩ ∈ s.consuming ∧
      s.creator archiveLatest.siphon = some archive ∧ ¬ SameSelection archive archiveLatest := by
  have hturn : Meets step InTurn fresh readdedRun := by decide +kernel
  have hrun : ((run step fresh readdedRun).any fun s => ⟨1, archiveLatest⟩ ∈ s.consuming ∧
      s.creator archiveLatest.siphon = some archive) = true := by decide +kernel
  obtain ⟨s, hs, hboth⟩ := (Option.any_eq_true _ _).mp hrun
  obtain ⟨hconsuming, hcreator⟩ := of_decide_eq_true hboth
  refine ⟨hturn, s, hs, hconsuming, hcreator, fun hsame => ?_⟩
  exact absurd hsame.start (by decide)

end System

end Thalweg.Registry
