import Thalweg.Registry.Interleaving

/-!
# The order of reloads

`Reload` reads the registry directory before it takes the mutex, and compares its candidate only
with the snapshot that it finds then. Calls that take the mutex in the order in which they have read
the directory are accepted in that order; other calls bring back an earlier version.

## Main definitions

* `System.accepts`: the candidate that an action accepts.
* `ReloadHistory`: the system with the reloads that were accepted, by the time of their reading.
* `ReloadHistory.InOrder`: the accepted snapshot is the latest version that was accepted.
* `ReloadHistory.InTurn`: no reload that has read earlier still waits for the mutex.

## Main results

* `ReloadHistory.inOrder_of_inTurn`: the runs of such reloads.
* `ReloadHistory.not_inOrder_overtakenRun`: other runs.
-/

namespace Thalweg.Registry

open Machine

/-- The call is a `Reload` that has read the directory and waits for the mutex. -/
def Call.isLoaded : Call → Bool
  | .loaded _ => true
  | .removing _ | .awaiting _ _ | .starting _ | .stopping _ | .restarting _ _ | .resetting _ _
  | .deleting _ | .closing _ | .returned => false

namespace System

/-- The call that an action accepts, with its candidate. -/
def accepts (s : System) : Action → Option (Nat × Snapshot)
  | .accept c fails =>
    match s.holder, s.calls[c]? with
    | none, some (.loaded candidate) =>
      match (s.runtime.acceptLocked candidate fails).1 with
      | .ok () => some (c, candidate)
      | .error _ => none
    | _, _ => none
  | _ => none

/-- The action opens a new runtime. -/
def restarts : Action → Bool
  | .restart _ _ _ _ => true
  | _ => false

/-- What an action leaves that accepts nothing: the snapshot, and the calls that have read the
directory. -/
structure KeepsSnapshot (s s' : System) : Prop where
  snapshot : s'.runtime.snapshot = s.runtime.snapshot
  files : s'.runtime.files = s.runtime.files
  length : s.calls.length ≤ s'.calls.length
  loaded : ∀ c < s.calls.length, (s'.calls[c]?).any Call.isLoaded = true →
    (s.calls[c]?).any Call.isLoaded = true

section Steps

variable {s s' : System}

theorem KeepsSnapshot.of_calls_eq (hsnapshot : s'.runtime.snapshot = s.runtime.snapshot)
    (hfiles : s'.runtime.files = s.runtime.files) (hcalls : s'.calls = s.calls) :
    KeepsSnapshot s s' where
  snapshot := hsnapshot
  files := hfiles
  length := hcalls ▸ Nat.le_refl _
  loaded _ _ h := hcalls ▸ h

theorem KeepsSnapshot.begin {t : System} (h : KeepsSnapshot s t) (hcalls : t.calls = s.calls)
    (call : Call) : KeepsSnapshot s (t.begin call) where
  snapshot := h.snapshot
  files := h.files
  length := by
    simp [System.begin, hcalls]
  loaded c hc hloaded := by
    rwa [System.begin, hcalls, List.getElem?_append_left hc] at hloaded

theorem KeepsSnapshot.setCall {t : System} (h : KeepsSnapshot s t) (hcalls : t.calls = s.calls)
    (i : Nat) {call : Call} (hcall : call.isLoaded = false) :
    KeepsSnapshot s (t.setCall i call) where
  snapshot := h.snapshot
  files := h.files
  length := by
    simp [System.setCall, hcalls]
  loaded c hc hloaded := by
    rw [System.setCall, hcalls] at hloaded
    by_cases hi : i = c
    · rw [hi, List.getElem?_set_self hc, Option.any_some, hcall] at hloaded
      cases hloaded
    · rwa [List.getElem?_set_ne hi] at hloaded

theorem keeps_begin {t : System} {call : Call}
    (hsnapshot : t.runtime.snapshot = s.runtime.snapshot)
    (hfiles : t.runtime.files = s.runtime.files) (hcalls : t.calls = s.calls) :
    KeepsSnapshot s (t.begin call) :=
  (KeepsSnapshot.of_calls_eq hsnapshot hfiles hcalls).begin hcalls call

theorem keeps_setCall {t : System} {i : Nat} {call : Call}
    (hsnapshot : t.runtime.snapshot = s.runtime.snapshot)
    (hfiles : t.runtime.files = s.runtime.files) (hcalls : t.calls = s.calls)
    (hcall : call.isLoaded = false) : KeepsSnapshot s (t.setCall i call) :=
  (KeepsSnapshot.of_calls_eq hsnapshot hfiles hcalls).setCall hcalls i hcall

theorem startDefinition_keeps (s : System) (name : Text) :
    KeepsSnapshot s { s with runtime := (s.runtime.startDefinition name).2 } := by
  rcases s.startDefinition_cases name with ⟨manualStop, heq⟩ | ⟨definition, manualStop, -, -, heq⟩
  all_goals
    rw [heq]
    exact .of_calls_eq rfl rfl rfl

theorem startMissingLocked_keeps (s : System) (definition : Definition) :
    KeepsSnapshot s { s with runtime := s.runtime.startMissingLocked definition } := by
  unfold Runtime.startMissingLocked
  split_ifs
  all_goals exact .of_calls_eq rfl rfl rfl

theorem proceed_keeps {c : Nat} {call : Call} (h : s.proceed c call = some s') :
    KeepsSnapshot s s' := by
  have hsame : KeepsSnapshot s s := .of_calls_eq rfl rfl rfl
  cases call with
  | awaiting candidate worker =>
    cases h
    exact hsame.setCall rfl c rfl
  | removing candidate =>
    simp only [proceed] at h
    split_ifs at h
    cases h
    exact hsame.setCall rfl c rfl
  | starting definitions =>
    cases definitions with
    | nil =>
      cases h
      exact keeps_setCall rfl rfl rfl rfl
    | cons definition definitions =>
      cases h
      exact (s.startMissingLocked_keeps definition).setCall rfl c rfl
  | stopping current =>
    cases h
    exact hsame.setCall rfl c rfl
  | restarting name current =>
    simp only [proceed] at h
    split_ifs at h
    cases h
    exact (s.startDefinition_keeps name).setCall rfl c rfl
  | resetting definition current =>
    cases h
    refine hsame.setCall rfl c ?_
    split_ifs <;> rfl
  | closing workers =>
    cases h
    exact keeps_setCall rfl rfl rfl rfl
  | loaded candidate | deleting definition | returned => cases h

/-- A candidate that is not accepted leaves the snapshot as it is. -/
theorem acceptLocked_error_keeps {r r' : Runtime} {candidate : Snapshot} {fails : WriteStep → Bool}
    {e : Failure} (htemporary : r.files.temporary = none)
    (h : r.acceptLocked candidate fails = (.error e, r')) :
    r'.snapshot = r.snapshot ∧ r'.files = r.files := by
  unfold Runtime.acceptLocked at h
  split_ifs at h with hstarted
  · split at h
    · cases h
      exact ⟨rfl, rfl⟩
    · split at h
      · next hwrite =>
        cases h
        exact ⟨rfl, writeSnapshot_error hwrite htemporary⟩
      · cases h
  · cases h
    exact ⟨rfl, rfl⟩

/-- **What an action does to the snapshot.** It opens a new runtime, accepts the candidate of a
reload, or leaves the snapshot as it is. -/
theorem snapshot_of_step {a : Action} (htemporary : s.runtime.files.temporary = none)
    (h : s.step a = some s') (hrestart : restarts a = false) :
    (∃ c candidate, s.accepts a = some (c, candidate) ∧ s.calls[c]? = some (.loaded candidate) ∧
      s'.runtime = s.runtime.installed candidate ∧
      s'.calls = s.calls.set c (.removing candidate)) ∨
    (s.accepts a = none ∧ KeepsSnapshot s s') := by
  have hsame : KeepsSnapshot s s := .of_calls_eq rfl rfl rfl
  cases a with
  | restart readError directory now fails => cases hrestart
  | reload directory now =>
    refine Or.inr ⟨rfl, ?_⟩
    simp only [step] at h
    split at h
    · split_ifs at h
      cases h
      exact keeps_begin rfl rfl rfl
    · cases h
      exact hsame.begin rfl _
  | accept c fails =>
    simp only [step] at h
    split at h
    · next candidate hholder hc =>
      split at h
      · next e runtime haccept =>
        cases h
        obtain ⟨hsnapshot, hfiles⟩ := acceptLocked_error_keeps htemporary haccept
        refine Or.inr ⟨by simp only [accepts, hholder, hc, haccept], ?_⟩
        exact keeps_setCall hsnapshot hfiles rfl rfl
      · next runtime haccept =>
        cases h
        refine Or.inl ⟨c, candidate, by simp only [accepts, hholder, hc, haccept], hc,
          Runtime.acceptLocked_ok haccept, rfl⟩
    · cases h
  | remove c name =>
    refine Or.inr ⟨rfl, ?_⟩
    simp only [step] at h
    split at h
    · split_ifs at h
      cases h
      exact keeps_setCall rfl rfl rfl rfl
    · cases h
  | startDefinition name =>
    refine Or.inr ⟨rfl, ?_⟩
    simp only [step] at h
    split_ifs at h
    cases h
    exact (s.startDefinition_keeps name).begin rfl _
  | stopDefinition name | restartDefinition name =>
    refine Or.inr ⟨rfl, ?_⟩
    simp only [step] at h
    split_ifs at h
    rcases stopLocked_cases s.runtime name with ⟨e, heq⟩ | heq
    all_goals
      rw [heq] at h
      cases h
      exact keeps_begin rfl rfl rfl
  | resetDefinition name =>
    refine Or.inr ⟨rfl, ?_⟩
    simp only [step] at h
    split_ifs at h
    rcases resetLocked_cases s.runtime name with ⟨e, heq⟩ | ⟨definition, -, heq⟩
    all_goals
      rw [heq] at h
      cases h
      exact keeps_begin rfl rfl rfl
  | close =>
    refine Or.inr ⟨rfl, ?_⟩
    simp only [step] at h
    split_ifs at h
    all_goals
      cases h
      exact keeps_begin rfl rfl rfl
  | proceed c =>
    refine Or.inr ⟨rfl, ?_⟩
    simp only [step] at h
    split at h
    · split_ifs at h
      exact proceed_keeps h
    · cases h
  | deleteDurable c =>
    refine Or.inr ⟨rfl, ?_⟩
    simp only [step] at h
    split at h
    · split at h
      all_goals
        cases h
        exact keeps_setCall rfl rfl rfl rfl
    · cases h
  | createDurable worker =>
    refine Or.inr ⟨rfl, ?_⟩
    simp only [step] at h
    split_ifs at h
    cases h
    simp only [createDurable]
    split
    all_goals exact .of_calls_eq rfl rfl rfl
  | pollDurable worker random | acknowledgeDurable worker deliveryID | finish worker =>
    refine Or.inr ⟨rfl, ?_⟩
    simp only [step] at h
    split_ifs at h
    cases h
    exact .of_calls_eq rfl rfl rfl
  | other fuel operation =>
    refine Or.inr ⟨rfl, ?_⟩
    simp only [step] at h
    split at h
    · split_ifs at h
      obtain ⟨result, -, rfl⟩ := Option.map_eq_some_iff.mp h
      exact .of_calls_eq rfl rfl rfl
    · obtain ⟨result, -, rfl⟩ := Option.map_eq_some_iff.mp h
      exact .of_calls_eq rfl rfl rfl

end Steps

end System

namespace Runtime

/-- Starting workers leaves the snapshot as it is. -/
theorem reconcileLocked_snapshot (r : Runtime) (snapshot : Snapshot) :
    (r.reconcileLocked snapshot).snapshot = r.snapshot ∧
      (r.reconcileLocked snapshot).files = r.files := by
  have hstarted := startWorkersLocked_spec snapshot.definitions (r.removeStaleLocked snapshot)
  exact ⟨hstarted.snapshot, hstarted.files⟩

/-- A new runtime takes up the accepted snapshot, unless it cannot read it. -/
theorem start_new_spec {files : SnapshotFiles} (htemporary : files.temporary = none)
    (nextWorker : Nat) (readError : Option Failure) (directory : RegistryDirectory) (now : Text)
    (fails : WriteStep → Bool) :
    let r := ((new files nextWorker).start readError directory now fails).2
    r.files.temporary = none ∧ ∀ snapshot, files.accepted = some snapshot →
      r.files.accepted = some snapshot ∧ (readError = none → r.snapshot = snapshot) := by
  intro r
  have hr : r = ((new files nextWorker).start readError directory now fails).2 := rfl
  simp only [start, new, Bool.false_eq_true, if_false, loadSnapshot] at hr
  cases readError with
  | some e =>
    rw [hr]
    exact ⟨htemporary, fun snapshot h => ⟨h, fun hnone => absurd hnone (Option.some_ne_none e)⟩⟩
  | none =>
    cases haccepted : files.accepted with
    | some snapshot =>
      simp only [haccepted] at hr
      obtain ⟨hsnapshot, hfiles⟩ := reconcileLocked_snapshot
        { new files nextWorker with snapshot, started := true } snapshot
      have hrsnapshot : r.snapshot = snapshot := hr ▸ hsnapshot
      have hrfiles : r.files = files := hr ▸ hfiles
      rw [hrfiles, hrsnapshot, haccepted]
      refine ⟨htemporary, ?_⟩
      rintro _ ⟨⟩
      exact ⟨rfl, fun _ => rfl⟩
    | none =>
      simp only [haccepted] at hr
      refine ⟨?_, fun snapshot h => absurd h.symm (Option.some_ne_none snapshot)⟩
      split at hr
      · exact hr ▸ htemporary
      · next snapshot hload =>
        split at hr
        · next hwrite => rw [hr, writeSnapshot_error hwrite htemporary, htemporary]
        · next files' hwrite =>
          obtain ⟨-, hfiles⟩ := reconcileLocked_snapshot
            { new files nextWorker with files := files', snapshot, started := true } snapshot
          have hrfiles : r.files = files' := hr ▸ hfiles
          rw [hrfiles, writeSnapshot_ok hwrite]

end Runtime

/-! ### The reloads that were accepted -/

/-- The system with the reloads that were accepted, in the order of their acceptance, each with the
place of its reading among all calls. -/
structure ReloadHistory where
  system : System
  /-- The number of calls that ended with a process. -/
  base : Nat
  accepted : List (Nat × Snapshot)
  /-- The accepted snapshot could not be read at the start, and none was accepted since. -/
  unread : Bool

namespace ReloadHistory

/-- The history at the first start. -/
def initial (deviceID : Text) (hdeviceID : deviceID ≠ []) (now : Nat → Instant) : ReloadHistory :=
  ⟨System.initial deviceID hdeviceID now, 0, [], false⟩

/-- The reload that an action accepts. -/
def newlyAccepted (h : ReloadHistory) (a : Action) : Option (Nat × Snapshot) :=
  (h.system.accepts a).map fun accepted => (h.base + accepted.1, accepted.2)

/-- Whether the accepted snapshot is unread after an action that does not accept another one. -/
def unreadAfter (unread : Bool) : Action → Bool
  | .restart readError _ _ _ => readError.isSome
  | _ => unread

theorem unreadAfter_eq {unread : Bool} {a : Action} (h : System.restarts a = false) :
    unreadAfter unread a = unread := by
  cases a with
  | restart => cases h
  | _ => rfl

/-- A step of the system, with what it means for reloads. -/
def step (h : ReloadHistory) (a : Action) : Option ReloadHistory :=
  (h.system.step a).map fun system =>
    { system
      base := if System.restarts a then h.base + h.system.calls.length else h.base
      accepted := h.accepted ++ (h.newlyAccepted a).toList
      unread := unreadAfter (h.unread && (h.newlyAccepted a).isNone) a }

/-- Reloads are accepted in the order in which they have read the directory, and the accepted
snapshot, on disk and in memory, is that of the one that has read last. -/
def InOrder (h : ReloadHistory) : Prop :=
  (h.accepted.Pairwise fun m m' => m.1 < m'.1) ∧
  ∀ m ∈ h.accepted, (∀ m' ∈ h.accepted, m'.1 ≤ m.1) →
    h.system.runtime.files.accepted = some m.2 ∧
      (h.unread = false → h.system.runtime.snapshot = m.2)

/-- When a reload is accepted, no reload that has read the directory before it waits for the
mutex. -/
def InTurn (h : ReloadHistory) (a : Action) : Prop :=
  ∀ accepted ∈ h.system.accepts a, ∀ c < accepted.1,
    (h.system.calls[c]?).any Call.isLoaded = false

instance (h : ReloadHistory) (a : Action) : Decidable (InTurn h a) := by
  unfold InTurn
  infer_instance

/-- What holds in a run of reloads in turn: all that were accepted have read before those that
wait. -/
structure Ordered (h : ReloadHistory) : Prop where
  temporary : h.system.runtime.files.temporary = none
  ascending : h.accepted.Pairwise fun m m' => m.1 < m'.1
  past : ∀ m ∈ h.accepted, m.1 < h.base + h.system.calls.length
  waiting : ∀ c, (h.system.calls[c]?).any Call.isLoaded = true → ∀ m ∈ h.accepted, m.1 < h.base + c
  latest : ∀ m, h.accepted.getLast? = some m → h.system.runtime.files.accepted = some m.2 ∧
    (h.unread = false → h.system.runtime.snapshot = m.2)

theorem ordered_initial (deviceID : Text) (hdeviceID : deviceID ≠ []) (now : Nat → Instant) :
    Ordered (initial deviceID hdeviceID now) where
  temporary := rfl
  ascending := List.Pairwise.nil
  past _ h := absurd h List.not_mem_nil
  waiting _ _ _ h := absurd h List.not_mem_nil
  latest _ h := by simp [initial] at h

variable {h h' : ReloadHistory}

/-- In a list that ascends the last place is the greatest. -/
theorem Ordered.inOrder (ho : Ordered h) : InOrder h := by
  refine ⟨ho.ascending, fun m hm hgreatest => ?_⟩
  obtain ⟨before, last, hlast⟩ :=
    (List.eq_nil_or_concat' h.accepted).resolve_left (List.ne_nil_of_mem hm)
  have hascending := ho.ascending
  rw [hlast, List.pairwise_append] at hascending
  have hmlast : m = last := by
    rw [hlast] at hm
    rcases List.mem_append.mp hm with hbefore | hsingle
    · have hlt := hascending.2.2 m hbefore last (List.mem_singleton_self last)
      have hle := hgreatest last (by simp [hlast])
      omega
    · exact List.mem_singleton.mp hsingle
  exact ho.latest m (by rw [hlast, hmlast, List.getLast?_concat])

theorem Ordered.restart (ho : Ordered h) {readError : Option Failure}
    {directory : RegistryDirectory} {now : Text} {fails : WriteStep → Bool}
    (hstep : h.step (.restart readError directory now fails) = some h') : Ordered h' := by
  obtain ⟨s', hs', rfl⟩ := Option.map_eq_some_iff.mp hstep
  cases hs'
  obtain ⟨htemporary, hread⟩ := Runtime.start_new_spec ho.temporary
    h.system.runtime.nextWorker readError directory now fails
  have hnew : h.accepted ++ (h.newlyAccepted (.restart readError directory now fails)).toList =
      h.accepted := List.append_nil _
  refine ⟨htemporary, ?_, ?_, ?_, ?_⟩
  all_goals simp only [hnew, System.restarts, if_true]
  · exact ho.ascending
  · intro m hm
    simpa using ho.past m hm
  · intro c hc
    simp at hc
  · intro m hm
    obtain ⟨hdisk, hmemory⟩ := hread m.2 (ho.latest m hm).1
    exact ⟨hdisk, fun hread => hmemory (by simpa [unreadAfter] using hread)⟩

theorem Ordered.step {a : Action} (ho : Ordered h) (hturn : InTurn h a)
    (hstep : h.step a = some h') : Ordered h' := by
  cases hrestart : System.restarts a with
  | true =>
    cases a with
    | restart readError directory now fails => exact ho.restart hstep
    | _ => cases hrestart
  | false =>
    obtain ⟨s', hs', rfl⟩ := Option.map_eq_some_iff.mp hstep
    rcases System.snapshot_of_step ho.temporary hs' hrestart with
      ⟨c, candidate, haccepts, hc, hruntime, hcalls⟩ | ⟨haccepts, hkeeps⟩
    · -- all that were accepted have read before this one, and those that wait after it
      have hloaded : (h.system.calls[c]?).any Call.isLoaded = true := by simp [hc, Call.isLoaded]
      have hlt : c < h.system.calls.length := (List.getElem?_eq_some_iff.mp hc).1
      have hnew : h.newlyAccepted a = some (h.base + c, candidate) := by
        simp [newlyAccepted, haccepts]
      refine ⟨?_, ?_, ?_, ?_, ?_⟩
      all_goals simp only [hrestart, hnew, Option.toList_some, Bool.false_eq_true, if_false]
      · rw [hruntime]
        rfl
      · refine List.pairwise_append.mpr ⟨ho.ascending, List.pairwise_singleton _ _, ?_⟩
        rintro m hm m' hm'
        rw [List.mem_singleton.mp hm']
        exact ho.waiting c hloaded m hm
      · intro m hm
        rw [hcalls, List.length_set]
        rcases List.mem_append.mp hm with hm | hm
        · exact ho.past m hm
        · rw [List.mem_singleton.mp hm]
          exact Nat.add_lt_add_left hlt _
      · intro c' hc' m hm
        rw [hcalls] at hc'
        have hne : c' ≠ c := by
          rintro rfl
          simp [List.getElem?_set_self hlt, Call.isLoaded] at hc'
        rw [List.getElem?_set_ne hne.symm] at hc'
        rcases List.mem_append.mp hm with hm | hm
        · exact ho.waiting c' hc' m hm
        · rw [List.mem_singleton.mp hm]
          have hle : ¬c' < c := fun hearly => by
            rw [hturn (c, candidate) haccepts c' hearly] at hc'
            cases hc'
          have hlater : c < c' := by omega
          exact Nat.add_lt_add_left hlater _
      · intro m hm
        rw [List.getLast?_concat] at hm
        cases hm
        rw [hruntime]
        exact ⟨rfl, fun _ => rfl⟩
    · have hnew : h.newlyAccepted a = none := by simp [newlyAccepted, haccepts]
      refine ⟨?_, ?_, ?_, ?_, ?_⟩
      all_goals
        simp only [hrestart, hnew, unreadAfter_eq hrestart, Option.toList_none, List.append_nil,
          Bool.false_eq_true, if_false, Option.isNone_none, Bool.and_true]
      · rw [hkeeps.files]
        exact ho.temporary
      · exact ho.ascending
      · exact fun m hm => (ho.past m hm).trans_le (Nat.add_le_add_left hkeeps.length _)
      · intro c hc m hm
        rcases lt_or_ge c h.system.calls.length with hlt | hge
        · exact ho.waiting c (hkeeps.loaded c hlt hc) m hm
        · exact (ho.past m hm).trans_le (Nat.add_le_add_left hge _)
      · rw [hkeeps.files, hkeeps.snapshot]
        exact ho.latest

/-- **The order of reloads.** In a run in which a reload is accepted only when none that has read
the directory before it waits for the mutex, reloads are accepted in the order in which they have
read the directory, and the accepted snapshot is the latest version that was accepted. -/
theorem inOrder_of_inTurn {deviceID : Text} {hdeviceID : deviceID ≠ []} {now : Nat → Instant}
    {actions : List Action} {h : ReloadHistory}
    (hmeets : Meets step InTurn (initial deviceID hdeviceID now) actions)
    (hrun : run step (initial deviceID hdeviceID now) actions = some h) : h.InOrder :=
  (run_invariant (fun _ _ _ ho hturn hstep => Ordered.step ho hturn hstep)
    (ordered_initial deviceID hdeviceID now) hmeets hrun).inOrder

/-! ### Runs with two versions -/

def fresh : ReloadHistory := initial ['d'] Daemon.deviceName_ne_nil fun _ => Daemon.newYear

/-- The registry directory without definitions. -/
def emptyDirectory : RegistryDirectory := ⟨.ok [], .ok [], .ok []⟩

/-- Two reloads read the directory, one before and one after its Sink is removed. -/
def readings : List Action :=
  [System.opening, .reload (System.sinkDirectory System.archive) ['1'],
    .reload emptyDirectory ['2']]

/-- The reload of the version with the Sink is accepted and returns; its worker is there already. -/
def acceptSink : List Action := [.accept 0 fun _ => false, .proceed 0, .proceed 0, .proceed 0]

/-- The reload of the version without the Sink is accepted and returns. -/
def acceptEmpty : List Action :=
  [.accept 1 fun _ => false, .remove 1 ['a'], .finish ⟨0, System.archive⟩, .proceed 1, .proceed 1,
    .proceed 1]

theorem inOrder_turnRun :
    ∃ h, run step fresh (readings ++ acceptSink ++ acceptEmpty) = some h ∧ h.InOrder := by
  have hmeets : Meets step InTurn fresh (readings ++ acceptSink ++ acceptEmpty) := by
    decide +kernel
  have hrun : (run step fresh (readings ++ acceptSink ++ acceptEmpty)).isSome = true := by
    decide +kernel
  obtain ⟨h, hh⟩ := Option.isSome_iff_exists.mp hrun
  exact ⟨h, hh, inOrder_of_inTurn hmeets hh⟩

/-- The reload that has read first takes the mutex last, and brings back the Sink. -/
theorem not_inOrder_overtakenRun :
    ∃ h, run step fresh (readings ++ acceptEmpty ++ acceptSink) = some h ∧
      (∀ call ∈ h.system.calls, call = .returned) ∧ ¬h.InOrder := by
  have hrun : ((run step fresh (readings ++ acceptEmpty ++ acceptSink)).any fun h =>
      (∀ call ∈ h.system.calls, call = .returned) ∧
        ¬h.accepted.Pairwise fun m m' => m.1 < m'.1) = true := by
    decide +kernel
  obtain ⟨h, hh, hproperty⟩ := (Option.any_eq_true _ _).mp hrun
  obtain ⟨hreturned, hascending⟩ := of_decide_eq_true hproperty
  exact ⟨h, hh, hreturned, fun horder => hascending horder.1⟩

end ReloadHistory

end Thalweg.Registry
