import Thalweg.Registry.Runtime

/-!
# Reloading the registry

A reload that fails changes nothing but the last error. One that succeeds installs its candidate in
memory and on disk and leaves the table with the workers that the candidate asks for.

## Main definitions

* `Runtime.Consistent`: the invariant of the runtime.
* `Runtime.Reloaded`: what a reload does that succeeds.

## Main results

* `Runtime.consistent_after`.
* `Runtime.reload_all_or_nothing`.
-/

namespace Thalweg.Registry

/-! ### Writing the snapshot -/

theorem writeSteps_cases (fails : WriteStep → Bool) (snapshot : Snapshot) (steps : List WriteStep)
    (files : SnapshotFiles) :
    writeSteps fails snapshot steps files =
        (.ok (), steps.foldl (WriteStep.perform snapshot) files) ∨
      ∃ done failed rest, steps = done ++ failed :: rest ∧ writeSteps fails snapshot steps files =
        (.error failed.error, done.foldl (WriteStep.perform snapshot) files) := by
  induction steps generalizing files with
  | nil => exact Or.inl rfl
  | cons step steps ih =>
    unfold writeSteps
    split_ifs with hfails
    · exact Or.inr ⟨[], step, steps, rfl, rfl⟩
    · rcases ih (step.perform snapshot files) with hok | ⟨done, failed, rest, rfl, herror⟩
      · exact Or.inl hok
      · exact Or.inr ⟨step :: done, failed, rest, rfl, herror⟩

/-- Only the renaming replaces the accepted snapshot. -/
theorem accepted_foldl_perform {snapshot : Snapshot} {steps : List WriteStep}
    (h : WriteStep.rename ∉ steps) (files : SnapshotFiles) :
    (steps.foldl (WriteStep.perform snapshot) files).accepted = files.accepted := by
  induction steps generalizing files with
  | nil => rfl
  | cons step steps ih =>
    obtain ⟨hstep, hsteps⟩ := not_or.mp (List.mem_cons.not.mp h)
    rw [List.foldl_cons, ih hsteps]
    cases step
    case rename => exact absurd rfl hstep
    all_goals rfl

/-- A step that fails is a step before the renaming, or the renaming itself. -/
theorem writeSnapshot_error {fails : WriteStep → Bool} {files files' : SnapshotFiles}
    {snapshot : Snapshot} {e : Failure}
    (h : writeSnapshot fails files snapshot = (.error e, files'))
    (htemporary : files.temporary = none) : files' = files := by
  unfold writeSnapshot at h
  rcases writeSteps_cases fails snapshot [.mkdirAll, .chmodDirectory, .marshalIndent, .createTemp,
    .chmod, .write, .sync, .close, .rename] files with hok | ⟨done, failed, rest, hsteps, herror⟩
  · rw [hok] at h
    cases h
  · have hdone : done ++ (failed :: rest).dropLast = [WriteStep.mkdirAll, .chmodDirectory,
        .marshalIndent, .createTemp, .chmod, .write, .sync, .close] := by
      rw [← List.dropLast_append_of_ne_nil (List.cons_ne_nil failed rest), ← hsteps]
      rfl
    have hrename : WriteStep.rename ∉ done := by
      intro hmem
      have hearly := List.mem_append_left (failed :: rest).dropLast hmem
      rw [hdone] at hearly
      simp at hearly
    rw [herror] at h
    cases h
    rw [accepted_foldl_perform hrename, ← htemporary]

theorem writeSnapshot_ok {fails : WriteStep → Bool} {files files' : SnapshotFiles}
    {snapshot : Snapshot} (h : writeSnapshot fails files snapshot = (.ok (), files')) :
    files' = ⟨some snapshot, none⟩ := by
  unfold writeSnapshot at h
  rcases writeSteps_cases fails snapshot [.mkdirAll, .chmodDirectory, .marshalIndent, .createTemp,
    .chmod, .write, .sync, .close, .rename] files with hok | ⟨done, failed, rest, -, herror⟩
  · rw [hok] at h
    cases h
    rfl
  · rw [herror] at h
    cases h

namespace Runtime

variable {r : Runtime}

/-! ### The table of workers -/

/-- The table has workers under their names, and the workers that have not ended are in it. -/
structure Tabled (r : Runtime) : Prop where
  name : ∀ name w, r.workers.get name = some w → w.definition.name = name
  fresh : ∀ name w, r.workers.get name = some w → w.id < r.nextWorker
  running : ∀ w ∈ r.running, r.workers.get w.definition.name = some w
  distinct : (r.running.map fun w => w.definition.name).Nodup

/-- Names of definitions are not used twice, and the workers of the table run definitions that are
accepted and enabled. -/
structure Consistent (r : Runtime) : Prop extends Tabled r where
  names : (r.snapshot.definitions.map Definition.name).Nodup
  disk : ∀ s ∈ r.files.accepted, (s.definitions.map Definition.name).Nodup
  temporary : r.files.temporary = none
  accepted : ∀ name w, r.workers.get name = some w → ∃ d ∈ r.snapshot.definitions,
    d.name = name ∧ d.enabled = true ∧ d.digest = w.definition.digest

theorem Tabled.ended (h : Tabled r) (p : Worker → Bool) : Tabled (r.ended p) where
  name := h.name
  fresh := h.fresh
  running w hw := h.running w (List.mem_filter.mp hw).1
  distinct := h.distinct.sublist (List.filter_sublist.map _)

theorem Consistent.ended (h : Consistent r) (p : Worker → Bool) : Consistent (r.ended p) :=
  { h.toTabled.ended p with
    names := h.names
    disk := h.disk
    temporary := h.temporary
    accepted := h.accepted }

theorem Tabled.startWorkerLocked (h : Tabled r) {d : Definition}
    (hnone : r.workers.get d.name = none) : Tabled (r.startWorkerLocked d) where
  name name w hw := by
    simp only [Runtime.startWorkerLocked, OrderedStore.get_set] at hw
    split_ifs at hw with hname
    · cases hw
      exact hname.symm
    · exact h.name name w hw
  fresh name w hw := by
    simp only [Runtime.startWorkerLocked, OrderedStore.get_set] at hw
    split_ifs at hw with hname
    · cases hw
      exact Nat.lt_succ_self _
    · exact Nat.lt_succ_of_lt (h.fresh name w hw)
  running w hw := by
    simp only [Runtime.startWorkerLocked] at hw ⊢
    rcases List.mem_append.mp hw with hold | hnew
    · have hget := h.running w hold
      have hne : w.definition.name ≠ d.name := by
        intro heq
        rw [heq, hnone] at hget
        cases hget
      rw [OrderedStore.get_set_of_ne _ hne, hget]
    · obtain rfl := List.mem_singleton.mp hnew
      exact OrderedStore.get_set_self _ _ _
  distinct := by
    simp only [Runtime.startWorkerLocked, List.map_append, List.map_cons, List.map_nil]
    refine h.distinct.append (List.nodup_singleton _) (List.disjoint_singleton.mpr fun hmem => ?_)
    obtain ⟨w, hw, hname⟩ := List.mem_map.mp hmem
    have hget := h.running w hw
    rw [hname, hnone] at hget
    cases hget

theorem Consistent.startWorkerLocked (h : Consistent r) {d : Definition}
    (hd : d ∈ r.snapshot.definitions) (henabled : d.enabled = true)
    (hnone : r.workers.get d.name = none) : Consistent (r.startWorkerLocked d) :=
  { h.toTabled.startWorkerLocked hnone with
    names := h.names
    disk := h.disk
    temporary := h.temporary
    accepted := fun name w hw => by
      simp only [Runtime.startWorkerLocked, OrderedStore.get_set] at hw
      split_ifs at hw with hname
      · cases hw
        exact ⟨d, hd, hname.symm, henabled, rfl⟩
      · exact h.accepted name w hw }

/-- What starting workers does: those of the table stay, and the enabled definitions that are not
stopped and have no worker get a new one. -/
structure Started (r r' : Runtime) (definitions : List Definition) : Prop where
  kept : ∀ name w, r.workers.get name = some w → r'.workers.get name = some w
  running : ∀ w ∈ r.running, w ∈ r'.running
  new : ∀ name w, r'.workers.get name = some w → r.workers.get name = some w ∨
    (∃ d ∈ definitions, d.enabled = true ∧ d.name = name ∧ w.definition = d) ∧
      r.nextWorker ≤ w.id ∧ w ∈ r'.running
  started : ∀ d ∈ definitions, d.enabled = true → d.name ∉ r.manualStop →
    (r'.workers.get d.name).isSome = true
  next : r.nextWorker ≤ r'.nextWorker
  snapshot : r'.snapshot = r.snapshot
  files : r'.files = r.files
  manualStop : r'.manualStop = r.manualStop

theorem Started.trans {r₁ r₂ r₃ : Runtime} {first second : List Definition}
    (h : Started r₁ r₂ first) (h' : Started r₂ r₃ second) : Started r₁ r₃ (first ++ second) where
  kept name w hw := h'.kept name w (h.kept name w hw)
  running w hw := h'.running w (h.running w hw)
  new name w hw := by
    rcases h'.new name w hw with hw | ⟨⟨d, hd, hrest⟩, hid, hw⟩
    · rcases h.new name w hw with hw | ⟨⟨d, hd, hrest⟩, hid, hw⟩
      · exact Or.inl hw
      · exact Or.inr ⟨⟨d, List.mem_append_left _ hd, hrest⟩, hid, h'.running w hw⟩
    · exact Or.inr ⟨⟨d, List.mem_append_right _ hd, hrest⟩, h.next.trans hid, hw⟩
  started d hd henabled hstop := by
    rcases List.mem_append.mp hd with hd | hd
    · obtain ⟨w, hw⟩ := Option.isSome_iff_exists.mp (h.started d hd henabled hstop)
      exact Option.isSome_iff_exists.mpr ⟨w, h'.kept _ w hw⟩
    · exact h'.started d hd henabled (h.manualStop ▸ hstop)
  next := h.next.trans h'.next
  snapshot := h'.snapshot.trans h.snapshot
  files := h'.files.trans h.files
  manualStop := h'.manualStop.trans h.manualStop

theorem Started.refl (r : Runtime) : Started r r [] :=
  ⟨fun _ _ h => h, fun _ h => h, fun _ _ h => Or.inl h, by simp, le_rfl, rfl, rfl, rfl⟩

theorem started_startWorkerLocked {d : Definition} (henabled : d.enabled = true)
    (hnone : r.workers.get d.name = none) : Started r (r.startWorkerLocked d) [d] where
  kept name w hw := by
    have hne : name ≠ d.name := by
      rintro rfl
      rw [hnone] at hw
      cases hw
    exact (OrderedStore.get_set_of_ne _ hne _).trans hw
  running w hw := List.mem_append_left _ hw
  new name w hw := by
    simp only [Runtime.startWorkerLocked, OrderedStore.get_set] at hw
    split_ifs at hw with hname
    · cases hw
      refine Or.inr ⟨⟨d, List.mem_cons_self, henabled, hname.symm, rfl⟩, le_rfl, ?_⟩
      exact List.mem_append_right _ List.mem_cons_self
    · exact Or.inl hw
  started d' hd' _ _ := by
    obtain rfl := List.mem_singleton.mp hd'
    exact Option.isSome_iff_exists.mpr ⟨_, OrderedStore.get_set_self _ _ _⟩
  next := Nat.le_succ _
  snapshot := rfl
  files := rfl
  manualStop := rfl

theorem startWorkersLocked_spec (definitions : List Definition) (r : Runtime) :
    Started r (r.startWorkersLocked definitions) definitions := by
  induction definitions generalizing r with
  | nil => exact Started.refl r
  | cons d definitions ih =>
    simp only [startWorkersLocked, List.foldl_cons, startMissingLocked]
    split_ifs with hskip
    · -- the worker of the definition stays, or the definition gets none
      have hskipped : Started r r [d] := by
        refine ⟨fun _ _ h => h, fun _ h => h, fun _ _ h => Or.inl h, ?_, le_rfl, rfl, rfl, rfl⟩
        intro d' hd' henabled hstop
        obtain rfl := List.mem_singleton.mp hd'
        simpa [henabled, hstop] using hskip
      exact hskipped.trans (ih r)
    · simp only [Bool.or_eq_true, Bool.not_eq_true', decide_eq_true_eq, not_or,
        Bool.not_eq_false, Option.not_isSome_iff_eq_none] at hskip
      exact (started_startWorkerLocked hskip.1.1 hskip.2).trans (ih _)

theorem Consistent.startWorkersLocked (h : Consistent r) {definitions : List Definition}
    (hsub : ∀ d ∈ definitions, d ∈ r.snapshot.definitions) :
    Consistent (r.startWorkersLocked definitions) := by
  induction definitions generalizing r with
  | nil => exact h
  | cons d definitions ih =>
    simp only [Runtime.startWorkersLocked, List.foldl_cons, startMissingLocked]
    split_ifs with hskip
    · exact ih h fun d' hd' => hsub d' (List.mem_cons_of_mem d hd')
    · simp only [Bool.or_eq_true, Bool.not_eq_true', decide_eq_true_eq, not_or,
        Bool.not_eq_false, Option.not_isSome_iff_eq_none] at hskip
      exact ih (h.startWorkerLocked (hsub d List.mem_cons_self) hskip.1.1 hskip.2)
        fun d' hd' => hsub d' (List.mem_cons_of_mem d hd')

/-! ### Reconciling -/

/-- A worker stays in the table if its definition is enabled and has the same digest. -/
theorem isStale_eq_false_iff {definitions : List Definition}
    (hnames : (definitions.map Definition.name).Nodup) {name : Text} {w : Worker} :
    isStale (definitionsByName definitions) (name, w) = false ↔
      ∃ d ∈ definitions, d.name = name ∧ d.enabled = true ∧ d.digest = w.definition.digest := by
  unfold isStale
  split
  · next hnone =>
    simp only [Bool.true_eq_false, false_iff, not_exists, not_and]
    intro d hd hname
    rw [(get_definitionsByName hnames).mpr ⟨hd, hname⟩] at hnone
    cases hnone
  · next d hget =>
    obtain ⟨hd, hname⟩ := (get_definitionsByName hnames).mp hget
    simp only [Bool.or_eq_false_iff, Bool.not_eq_eq_eq_not, Bool.not_false, bne_eq_false_iff_eq]
    constructor
    · rintro ⟨henabled, hdigest⟩
      exact ⟨d, hd, hname, henabled, hdigest⟩
    · rintro ⟨d', hd', hname', henabled, hdigest⟩
      obtain rfl := List.inj_on_of_nodup_map hnames hd' hd (hname'.trans hname.symm)
      exact ⟨henabled, hdigest⟩

theorem get_removeStaleLocked {snapshot : Snapshot} {name : Text} {w : Worker} :
    (r.removeStaleLocked snapshot).workers.get name = some w ↔
      r.workers.get name = some w ∧
        isStale (definitionsByName snapshot.definitions) (name, w) = false := by
  simp [removeStaleLocked, Runtime.ended, OrderedStore.get_filter_eq_some_iff]

/-- A worker goes on running exactly if it does not leave the table. -/
theorem mem_running_removeStaleLocked (h : Tabled r) {snapshot : Snapshot} {w : Worker} :
    w ∈ (r.removeStaleLocked snapshot).running ↔
      w ∈ r.running ∧ isStale (definitionsByName snapshot.definitions) (w.definition.name, w) =
        false := by
  simp only [Runtime.removeStaleLocked, Runtime.ended, OrderedStore.filter, List.mem_filter,
    and_congr_right_iff, Bool.not_eq_true', List.any_eq_false, decide_eq_true_eq]
  intro hw
  have hget := h.running w hw
  constructor
  · intro hnone
    by_contra hstale
    exact hnone (w.definition.name, w) ⟨OrderedStore.get_eq_some_iff.mp hget,
      Bool.not_eq_false _ |>.mp hstale⟩ rfl
  · rintro hfits ⟨name, w'⟩ ⟨hentry, hstale⟩ rfl
    obtain rfl := h.name name w' (OrderedStore.get_eq_some_iff.mpr hentry)
    rw [hfits] at hstale
    cases hstale

theorem Tabled.removeStaleLocked (h : Tabled r) (snapshot : Snapshot) :
    Tabled (r.removeStaleLocked snapshot) where
  name name w hw := h.name name w (get_removeStaleLocked.mp hw).1
  fresh name w hw := h.fresh name w (get_removeStaleLocked.mp hw).1
  running w hw := by
    obtain ⟨hrunning, hfits⟩ := (mem_running_removeStaleLocked h).mp hw
    exact get_removeStaleLocked.mpr ⟨h.running w hrunning, hfits⟩
  distinct := h.distinct.sublist (List.filter_sublist.map _)

theorem Tabled.startWorkersLocked (h : Tabled r) (definitions : List Definition) :
    Tabled (r.startWorkersLocked definitions) := by
  induction definitions generalizing r with
  | nil => exact h
  | cons d definitions ih =>
    simp only [Runtime.startWorkersLocked, List.foldl_cons, startMissingLocked]
    split_ifs with hskip
    · exact ih h
    · simp only [Bool.or_eq_true, not_or, Option.not_isSome_iff_eq_none] at hskip
      exact ih (h.startWorkerLocked hskip.2)

/-- Reconciling with the accepted snapshot makes the runtime consistent. -/
theorem Tabled.reconcileLocked (h : Tabled r)
    (hnames : (r.snapshot.definitions.map Definition.name).Nodup)
    (hdisk : ∀ s ∈ r.files.accepted, (s.definitions.map Definition.name).Nodup)
    (htemporary : r.files.temporary = none) : Consistent (r.reconcileLocked r.snapshot) := by
  refine Consistent.startWorkersLocked (r := r.removeStaleLocked r.snapshot)
    { h.removeStaleLocked r.snapshot with
      names := hnames
      disk := hdisk
      temporary := htemporary
      accepted := fun name w hw => ?_ } fun d hd => hd
  exact (isStale_eq_false_iff hnames).mp (get_removeStaleLocked.mp hw).2

/-! ### Operations -/

theorem consistent_new {files : SnapshotFiles}
    (hdisk : ∀ s ∈ files.accepted, (s.definitions.map Definition.name).Nodup)
    (htemporary : files.temporary = none) (nextWorker : Nat) :
    Consistent (new files nextWorker) where
  name _ _ h := by simp [new] at h
  fresh _ _ h := by simp [new] at h
  running _ h := by simp [new] at h
  distinct := List.nodup_nil
  names := List.nodup_nil
  disk := hdisk
  temporary := htemporary
  accepted _ _ h := by simp [new] at h

theorem Consistent.start (h : Consistent r) (readError : Option Failure)
    (directory : RegistryDirectory) (now : Text) (fails : WriteStep → Bool) :
    Consistent (r.start readError directory now fails).2 := by
  unfold Runtime.start
  split_ifs
  · exact h
  · split
    · exact { h with }
    · next snapshot hload =>
      have hdisk : snapshot ∈ r.files.accepted := by
        unfold loadSnapshot at hload
        split at hload
        · cases hload
        · exact Except.ok.inj hload
      exact Tabled.reconcileLocked (r := { r with snapshot, started := true })
        { h.toTabled with } (h.disk snapshot hdisk) h.disk h.temporary
    · split
      · exact { h with }
      · next snapshot hload =>
        split
        · next hwrite =>
          rw [writeSnapshot_error hwrite h.temporary]
          exact { h with }
        · next hwrite =>
          rw [writeSnapshot_ok hwrite]
          refine Tabled.reconcileLocked
            (r := { r with files := ⟨some snapshot, none⟩, snapshot, started := true })
            { h.toTabled with } (load_nodup hload) ?_ rfl
          rintro s ⟨⟩
          exact load_nodup hload

theorem Tabled.start (h : Tabled r) (readError : Option Failure) (directory : RegistryDirectory)
    (now : Text) (fails : WriteStep → Bool) : Tabled (r.start readError directory now fails).2 := by
  have hreconcile {r' : Runtime} (hr' : Tabled r') (snapshot : Snapshot) :
      Tabled (r'.reconcileLocked snapshot) :=
    (hr'.removeStaleLocked snapshot).startWorkersLocked snapshot.definitions
  unfold Runtime.start
  split_ifs
  · exact h
  · split
    · exact { h with }
    · refine hreconcile ?_ _
      exact { h with }
    · split
      · exact { h with }
      · split
        · exact { h with }
        · refine hreconcile ?_ _
          exact { h with }

theorem startWorkersLocked_started (r : Runtime) (definitions : List Definition) :
    (r.startWorkersLocked definitions).started = r.started := by
  induction definitions generalizing r with
  | nil => rfl
  | cons d definitions ih =>
    refine (ih (r.startMissingLocked d)).trans ?_
    unfold startMissingLocked
    split_ifs <;> rfl

/-- A runtime is started, whether or not there is a snapshot to run. -/
theorem start_started (r : Runtime) (readError : Option Failure) (directory : RegistryDirectory)
    (now : Text) (fails : WriteStep → Bool) :
    (r.start readError directory now fails).2.started = true := by
  unfold Runtime.start
  split_ifs with hstarted
  · exact hstarted
  · split
    · rfl
    · exact startWorkersLocked_started _ _
    · split
      · rfl
      · split
        · rfl
        · exact startWorkersLocked_started _ _

theorem Consistent.close (h : Consistent r) : Consistent r.close := by
  unfold Runtime.close
  split_ifs
  · refine { h with
      name := fun _ _ hw => by simp [closeLocked, Runtime.ended] at hw
      fresh := fun _ _ hw => by simp [closeLocked, Runtime.ended] at hw
      accepted := fun _ _ hw => by simp [closeLocked, Runtime.ended] at hw
      running := fun w hw => ?_
      distinct := h.distinct.sublist (List.filter_sublist.map _) }
    obtain ⟨hw, hnone⟩ := List.mem_filter.mp hw
    have hentry := OrderedStore.get_eq_some_iff.mp (h.running w hw)
    have hmem : w ∈ r.workers.entries.map Prod.snd := List.mem_map.mpr ⟨_, hentry, rfl⟩
    simp [hmem] at hnone
  · exact h

theorem Consistent.acceptLocked_error (h : Consistent r) {candidate : Snapshot}
    {fails : WriteStep → Bool} {e : Failure} {r' : Runtime}
    (haccept : r.acceptLocked candidate fails = (.error e, r')) :
    r' = { r with lastError := r'.lastError } := by
  unfold Runtime.acceptLocked at haccept
  split_ifs at haccept with hstarted
  · split at haccept
    · cases haccept
      rfl
    · split at haccept
      · next hwrite =>
        cases haccept
        rw [writeSnapshot_error hwrite h.temporary]
        rfl
      · cases haccept
  · cases haccept
    rfl

/-- The runtime that has accepted a candidate and is to reconcile. -/
def installed (r : Runtime) (candidate : Snapshot) : Runtime :=
  { r with
    files := ⟨some candidate, none⟩
    snapshot := candidate
    lastError := none
    manualStop := []
    resetAllowed := [] }

theorem acceptLocked_ok {candidate : Snapshot} {fails : WriteStep → Bool} {r' : Runtime}
    (haccept : r.acceptLocked candidate fails = (.ok (), r')) :
    r' = r.installed candidate := by
  unfold Runtime.acceptLocked at haccept
  split_ifs at haccept with hstarted
  · split at haccept
    · cases haccept
    · split at haccept
      · cases haccept
      · next hwrite =>
        cases haccept
        rw [writeSnapshot_ok hwrite]
        rfl
  · cases haccept

theorem Consistent.startDefinition (h : Consistent r) (name : Text) :
    Consistent (r.startDefinition name).2 := by
  unfold Runtime.startDefinition
  split
  · exact h
  · next definition hfind =>
    obtain ⟨hd, rfl⟩ := findDefinition_eq_some hfind
    have hr : Consistent { r with manualStop := r.manualStop.filter (· ≠ definition.name) } :=
      { h with }
    dsimp only
    split_ifs with henabled
    · split
      · exact hr
      · next hnone => exact hr.startWorkerLocked hd henabled hnone
    · exact h

/-- A worker is taken from the table and ends. -/
theorem Consistent.remove (h : Consistent r) (name : Text) (manualStop resetAllowed : List Text) :
    Consistent (Runtime.ended { r with
      manualStop, resetAllowed, workers := r.workers.delete name }
        fun w => some w = r.workers.get name) where
  name name' w hw := by
    simp only [Runtime.ended, OrderedStore.get_delete] at hw
    split_ifs at hw
    exact h.name name' w hw
  fresh name' w hw := by
    simp only [Runtime.ended, OrderedStore.get_delete] at hw
    split_ifs at hw
    exact h.fresh name' w hw
  running w hw := by
    obtain ⟨hw, hother⟩ := List.mem_filter.mp hw
    have hget := h.running w hw
    refine (OrderedStore.get_delete _ _ _).trans ((if_neg ?_).trans hget)
    rintro rfl
    simp [hget] at hother
  distinct := h.distinct.sublist (List.filter_sublist.map _)
  names := h.names
  disk := h.disk
  temporary := h.temporary
  accepted name' w hw := by
    simp only [Runtime.ended, OrderedStore.get_delete] at hw
    split_ifs at hw
    exact h.accepted name' w hw

theorem Consistent.stopDefinition (h : Consistent r) (name : Text) :
    Consistent (r.stopDefinition name).2 := by
  unfold Runtime.stopDefinition Runtime.stopLocked
  cases findDefinition r.snapshot.definitions name with
  | none => exact h
  | some definition => exact h.remove name _ _

theorem Consistent.restartDefinition (h : Consistent r) (name : Text) :
    Consistent (r.restartDefinition name).2 := by
  have hstop := h.stopDefinition name
  unfold Runtime.restartDefinition
  split
  · next hresult => rwa [hresult] at hstop
  · next hresult =>
    rw [hresult] at hstop
    exact hstop.startDefinition name

theorem Consistent.resetDefinition (h : Consistent r) (name : Text)
    (deleteError : Option Failure) : Consistent (r.resetDefinition name deleteError).2 := by
  unfold Runtime.resetDefinition Runtime.resetLocked
  cases findDefinition r.snapshot.definitions name with
  | none => exact h
  | some definition =>
    dsimp only
    split
    all_goals exact h.remove name _ _

theorem Consistent.reload (h : Consistent r) (directory : RegistryDirectory) (now : Text)
    (fails : WriteStep → Bool) : Consistent (r.reload directory now fails).2 := by
  unfold Runtime.reload
  split
  · exact { h with }
  · next candidate hload =>
    split
    · next haccept =>
      rw [h.acceptLocked_error haccept]
      exact { h with }
    · next haccept =>
      rw [acceptLocked_ok haccept]
      refine Tabled.reconcileLocked (r := r.installed candidate) { h.toTabled with }
        (load_nodup hload) ?_ rfl
      rintro s ⟨⟩
      exact load_nodup hload

theorem Consistent.perform (h : Consistent r) (operation : Operation) :
    Consistent (r.perform operation) := by
  cases operation with
  | start readError directory now fails => exact h.start readError directory now fails
  | close => exact h.close
  | reload directory now fails => exact h.reload directory now fails
  | startDefinition name => exact h.startDefinition name
  | stopDefinition name => exact h.stopDefinition name
  | restartDefinition name => exact h.restartDefinition name
  | resetDefinition name deleteError => exact h.resetDefinition name deleteError
  | finish p => exact h.ended p
  | renew => exact consistent_new h.disk h.temporary _

/-- The runtime is consistent after all operations. -/
theorem consistent_after (operations : List Operation) : Consistent (after operations) := by
  have hnew : Consistent (new ⟨none, none⟩ 0) := consistent_new (by simp) rfl 0
  unfold after
  generalize new ⟨none, none⟩ 0 = r at hnew
  induction operations generalizing r with
  | nil => exact hnew
  | cons operation operations ih => exact ih _ (hnew.perform operation)

/-! ### All or nothing -/

/-- What a reload does that succeeds: the candidate is accepted, in memory and on disk; the table
has one worker for each enabled definition and no other; what has not changed keeps its worker; the
other workers have ended, and new ones run. -/
structure Reloaded (r r' : Runtime) (candidate : Snapshot) : Prop where
  memory : r'.snapshot = candidate
  disk : r'.files.accepted = some candidate
  enabled : ∀ name, (∃ w, r'.workers.get name = some w) ↔
    ∃ d ∈ candidate.definitions, d.name = name ∧ d.enabled = true
  fits : ∀ name w, r'.workers.get name = some w → ∃ d ∈ candidate.definitions,
    d.name = name ∧ d.digest = w.definition.digest
  kept : ∀ d ∈ candidate.definitions, d.enabled = true → ∀ old ∈ r.snapshot.definitions,
    old.name = d.name → old.digest = d.digest → ∀ w, r.workers.get d.name = some w →
      r'.workers.get d.name = some w ∧ (w ∈ r.running → w ∈ r'.running)
  new : ∀ name w, r'.workers.get name = some w → r.workers.get name = some w ∨
    r.nextWorker ≤ w.id ∧ w ∈ r'.running
  ended : ∀ w ∈ r'.running, r'.workers.get w.definition.name = some w

theorem Consistent.reloaded (h : Consistent r) {candidate : Snapshot}
    (hnames : (candidate.definitions.map Definition.name).Nodup)
    (hconsistent : Consistent ((r.installed candidate).reconcileLocked candidate)) :
    Reloaded r ((r.installed candidate).reconcileLocked candidate) candidate := by
  have htabled : Tabled (r.installed candidate) := { h.toTabled with }
  have hstarted := startWorkersLocked_spec candidate.definitions
    ((r.installed candidate).removeStaleLocked candidate)
  have hsnapshot : ((r.installed candidate).reconcileLocked candidate).snapshot = candidate :=
    hstarted.snapshot
  refine ⟨hsnapshot, congrArg SnapshotFiles.accepted hstarted.files, fun name => ⟨?_, ?_⟩, ?_, ?_,
    ?_, hconsistent.running⟩
  · rintro ⟨w, hw⟩
    obtain ⟨d, hd, hname, henabled, -⟩ := hconsistent.accepted name w hw
    rw [hsnapshot] at hd
    exact ⟨d, hd, hname, henabled⟩
  · rintro ⟨d, hd, rfl, henabled⟩
    exact Option.isSome_iff_exists.mp (hstarted.started d hd henabled List.not_mem_nil)
  · intro name w hw
    obtain ⟨d, hd, hname, -, hdigest⟩ := hconsistent.accepted name w hw
    rw [hsnapshot] at hd
    exact ⟨d, hd, hname, hdigest⟩
  · intro d hd henabled old hold hname hdigest w hw
    -- the worker runs the definition that was accepted before
    obtain ⟨d', hd', hname', -, hdigest'⟩ := h.accepted d.name w hw
    obtain rfl := List.inj_on_of_nodup_map h.names hd' hold (hname'.trans hname.symm)
    have hfits : isStale (definitionsByName candidate.definitions) (d.name, w) = false :=
      (isStale_eq_false_iff hnames).mpr ⟨d, hd, rfl, henabled, hdigest.symm.trans hdigest'⟩
    refine ⟨hstarted.kept d.name w (get_removeStaleLocked.mpr ⟨hw, hfits⟩), fun hrunning => ?_⟩
    refine hstarted.running w ((mem_running_removeStaleLocked htabled).mpr ⟨hrunning, ?_⟩)
    rwa [h.name d.name w hw]
  · intro name w hw
    rcases hstarted.new name w hw with hold | ⟨-, hid, hrunning⟩
    · exact Or.inl (get_removeStaleLocked.mp hold).1
    · exact Or.inr ⟨hid, hrunning⟩

/-- **A reload is all or nothing.** After any operations, a reload of any registry directory that
fails changes nothing but the last error, and one that succeeds installs the directory's
candidate. -/
theorem reload_all_or_nothing (operations : List Operation) (directory : RegistryDirectory)
    (now : Text) (fails : WriteStep → Bool) (r' : Runtime) :
    (∀ e, (after operations).reload directory now fails = (.error e, r') →
      r' = { after operations with lastError := r'.lastError }) ∧
    ((after operations).reload directory now fails = (.ok (), r') →
      ∃ candidate, load directory now = .ok candidate ∧
        Reloaded (after operations) r' candidate) := by
  have h := consistent_after operations
  generalize after operations = r at h
  refine ⟨fun e hreload => ?_, fun hreload => ?_⟩
  · unfold Runtime.reload at hreload
    split at hreload
    · cases hreload
      rfl
    · split at hreload
      · next haccept =>
        cases hreload
        exact h.acceptLocked_error haccept
      · cases hreload
  · have hconsistent := h.reload directory now fails
    rw [hreload] at hconsistent
    unfold Runtime.reload at hreload
    split at hreload
    · cases hreload
    · next candidate hload =>
      split at hreload
      · cases hreload
      · next haccept =>
        rw [acceptLocked_ok haccept] at hreload
        cases hreload
        exact ⟨candidate, hload, h.reloaded (load_nodup hload) hconsistent⟩

end Runtime

end Thalweg.Registry
