import Thalweg.Registry.Interleaving

/-!
# One worker for a definition

`StopDefinition`, `RestartDefinition` and `ResetDefinition` take a worker from the table and wait
for it without the mutex, `Close` only waits for the workers of the table, and `StartDefinition`
starts workers in a runtime that is closed. Apart from that, no two workers of one definition run
side by side, and none runs after `Close` has returned.

## Main definitions

* `System.Separate`: no worker starts while one of its definition is waited for or after `Close`,
  and `Close` returns when no other call waits.

## Main results

* `System.single_worker`: the runs of such actions.
* `System.not_single_worker_overlappedRun`: other runs.
-/

namespace Thalweg.Registry

open Machine

namespace System

variable {s s' : System}

/-- The names of the definitions whose workers have not ended. -/
def runningNames (s : System) : List Text := s.runtime.running.map fun w => w.definition.name

/-- A worker starts in a runtime that is not closed, when no call waits for a worker of its
definition; `Close` returns when no call waits for a worker. A worker that has ended is not waited
for. -/
def Separate (s : System) (a : Action) : Prop :=
  (∀ definition ∈ s.starts a, s.runtime.started = true ∧
    ∀ w ∈ s.awaited, w ∈ s.runtime.running → w.definition.name ≠ definition.name) ∧
  (s.closes a = true → ∀ w ∈ s.awaited, w ∉ s.runtime.running)

instance (s : System) (a : Action) : Decidable (Separate s a) :=
  inferInstanceAs (Decidable (_ ∧ _))

/-- A definition has one worker, and a runtime that is closed has none. -/
structure Single (s : System) : Prop extends Managed s where
  distinct : s.runningNames.Nodup
  emptied : s.runtime.started = false → ∀ name, s.runtime.workers.get name = none
  ended : s.closed = true → s.runtime.started = false ∧ s.runtime.running = []

theorem single_initial (deviceID : Text) (hdeviceID : deviceID ≠ []) (now : Nat → Instant) :
    Single (initial deviceID hdeviceID now) :=
  { managed_initial deviceID hdeviceID now with
    distinct := List.nodup_nil
    emptied := fun _ _ => rfl
    ended := fun h => by simp [initial] at h }

/-- The workers of a runtime that is closed are waited for. -/
theorem Single.running_eq_nil (hs : Single s) (hstarted : s.runtime.started = false)
    (hended : ∀ w ∈ s.awaited, w ∉ s.runtime.running) : s.runtime.running = [] := by
  refine List.eq_nil_iff_forall_not_mem.mpr fun w hw => ?_
  rcases hs.held w hw with hget | hawaited
  · rw [hs.emptied hstarted] at hget
    cases hget
  · exact hended w hawaited hw

/-- `Close` returns from a runtime that is closed. -/
theorem Managed.started_of_closes (hs : Managed s) {a : Action} (h : s.closes a = true) :
    s.runtime.started = false := by
  cases a with
  | close => simpa [closes] using h
  | proceed c =>
    simp only [closes] at h
    split at h
    · next workers hc => exact hs.closing workers (List.mem_of_getElem? hc)
    · cases h
  | _ => cases h

theorem Single.step {a : Action} (hs : Single s) (hcondition : Separate s a)
    (h : s.step a = some s') : Single s' := by
  refine { hs.toManaged.step h with distinct := ?_, emptied := ?_, ended := ?_ }
  all_goals rcases keeps_or_starts_of_step h with hrenewed | hkeeps |
    ⟨definition, hdefinition, hstarts⟩
  · exact hrenewed.tabled.distinct
  · exact hs.distinct.sublist (hkeeps.running.map _)
  · -- a worker of the same definition is in the table or waited for
    obtain ⟨-, hother⟩ := hcondition.1 definition hdefinition
    rw [runningNames, hstarts.running, List.map_append]
    refine hs.distinct.append (List.nodup_singleton _) (List.disjoint_singleton.mpr fun hmem => ?_)
    obtain ⟨w, hw, hname⟩ := List.mem_map.mp hmem
    rcases hs.held w hw with hget | hawaited
    · rw [hname, hstarts.absent] at hget
      cases hget
    · exact hother w hawaited hw hname
  · intro hstarted
    rw [hrenewed.started] at hstarted
    cases hstarted
  · intro hstarted name
    rcases hkeeps.emptied hstarted with hold | hnone
    · refine Option.eq_none_iff_forall_ne_some.mpr fun w hw => ?_
      have hget := hkeeps.table name w hw
      rw [hs.emptied hold] at hget
      cases hget
    · exact hnone name
  · intro hstarted
    rw [hstarts.started, (hcondition.1 definition hdefinition).1] at hstarted
    cases hstarted
  · intro hclosed
    rw [hrenewed.closed] at hclosed
    cases hclosed
  · intro hclosed
    have hstopped : s.runtime.started = false ∧ s.runtime.running = [] := by
      rcases closed_of_step h hclosed with hold | hcloses
      · exact hs.ended hold
      · have hstarted := hs.started_of_closes hcloses
        exact ⟨hstarted, hs.running_eq_nil hstarted (hcondition.2 hcloses)⟩
    refine ⟨Bool.eq_false_iff.mpr fun hstarted =>
      Bool.eq_false_iff.mp hstopped.1 (hkeeps.started hstarted), ?_⟩
    exact List.eq_nil_of_sublist_nil (hstopped.2 ▸ hkeeps.running)
  · intro hclosed
    have hstarted := (hcondition.1 definition hdefinition).1
    rcases closed_of_step h hclosed with hold | hcloses
    · rw [(hs.ended hold).1] at hstarted
      cases hstarted
    · rw [hs.started_of_closes hcloses] at hstarted
      cases hstarted

/-- **One worker for a definition.** In a run whose workers start apart from those that calls wait
for, and whose calls of `Close` return when no other call waits, no two workers of one definition
run side by side, and no worker runs after `Close` has returned. -/
theorem single_worker {deviceID : Text} {hdeviceID : deviceID ≠ []} {now : Nat → Instant}
    {actions : List Action} {s : System}
    (hmeets : Meets step Separate (initial deviceID hdeviceID now) actions)
    (hrun : run step (initial deviceID hdeviceID now) actions = some s) :
    s.runningNames.Nodup ∧ (s.closed = true → s.runtime.running = []) := by
  have hsingle := run_invariant (fun s a s' hs hcondition h => Single.step hs hcondition h)
    (single_initial deviceID hdeviceID now) hmeets hrun
  exact ⟨hsingle.distinct, fun hclosed => (hsingle.ended hclosed).2⟩

/-! ### Runs with one definition -/

/-- The Sink is stopped and started, and the runtime is closed; what is waited for ends. -/
def stoppedRun : List Action :=
  [opening, .stopDefinition ['a'], .finish ⟨0, archive⟩, .proceed 0, .startDefinition ['a'], .close,
    .finish ⟨1, archive⟩, .proceed 2]

theorem single_worker_stoppedRun : ∃ s, run step fresh stoppedRun = some s ∧
    s.runningNames.Nodup ∧ (s.closed = true → s.runtime.running = []) := by
  have hmeets : Meets step Separate fresh stoppedRun := by decide +kernel
  have hrun : ((run step fresh stoppedRun).any fun s => s.closed) = true := by decide +kernel
  obtain ⟨s, hs, -⟩ := (Option.any_eq_true _ _).mp hrun
  exact ⟨s, hs, single_worker hmeets hs⟩

/-- The Sink is started while `StopDefinition` waits for its worker. -/
def overlappedRun : List Action := [opening, .stopDefinition ['a'], .startDefinition ['a']]

/-- The Sink is started after `Close` has returned. -/
def closedRun : List Action :=
  [opening, .close, .finish ⟨0, archive⟩, .proceed 0, .startDefinition ['a']]

theorem not_single_worker_overlappedRun :
    (∃ s, run step fresh overlappedRun = some s ∧ ¬ s.runningNames.Nodup) ∧
      ∃ s, run step fresh closedRun = some s ∧ s.closed = true ∧ s.runtime.running ≠ [] := by
  have hoverlapped : ((run step fresh overlappedRun).any fun s =>
      ¬ s.runningNames.Nodup) = true := by decide +kernel
  have hclosed : ((run step fresh closedRun).any fun s =>
      s.closed ∧ s.runtime.running ≠ []) = true := by decide +kernel
  obtain ⟨s, hs, hnames⟩ := (Option.any_eq_true _ _).mp hoverlapped
  obtain ⟨t, ht, hrunning⟩ := (Option.any_eq_true _ _).mp hclosed
  exact ⟨⟨s, hs, of_decide_eq_true hnames⟩, t, ht, of_decide_eq_true hrunning⟩

end System

end Thalweg.Registry
