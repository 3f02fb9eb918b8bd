import Mathlib.Data.List.Forall2
import Mathlib.Data.List.Induction
import Mathlib.Logic.Function.Basic

/-!
# Machines and their histories

A machine has a state and moves by actions, some of which are not possible in some states. What is
left open in a system (which thread moves, what arrives, how long something takes) is a part of the
action, so that a run is given by its actions.

* `Machine.run`, `Machine.Reaches`, and the rules of invariants `Machine.run_invariant` and
  `Machine.Reaches.invariant`.
* `Machine.Meets`: all actions of a run meet a condition on the state before them.
* `Machine.run_simulates`: two machines that move alike.
* `Machine.Justified`: every event of a history follows the events that it needs.
* `Machine.Marked`, `Machine.Accounted`, `Machine.MarkStep`: marks on a list and who holds them.
-/

namespace Machine

variable {σ τ α β ε : Type*}

/-! ### Runs -/

/-- The state after actions, one after the other, if each of them is possible. -/
def run (step : σ → α → Option σ) : σ → List α → Option σ
  | s, [] => some s
  | s, a :: actions =>
    match step s a with
    | none => none
    | some s' => run step s' actions

/-- All actions of a run meet the condition. -/
def Meets (step : σ → α → Option σ) (condition : σ → α → Prop) : σ → List α → Prop
  | _, [] => True
  | s, a :: actions =>
    condition s a ∧
      match step s a with
      | none => True
      | some s' => Meets step condition s' actions

instance decidableMeets (step : σ → α → Option σ) (condition : σ → α → Prop)
    [∀ s a, Decidable (condition s a)] : ∀ s actions, Decidable (Meets step condition s actions)
  | _, [] => instDecidableTrue
  | s, a :: actions =>
    match h : step s a with
    | none => decidable_of_iff (condition s a) (by simp [Meets, h])
    | some s' =>
      have := decidableMeets step condition s' actions
      decidable_of_iff (condition s a ∧ Meets step condition s' actions) (by simp [Meets, h])

variable {step : σ → α → Option σ} {condition : σ → α → Prop}

theorem run_cons_eq_some_iff {s t : σ} {a : α} {actions : List α} :
    run step s (a :: actions) = some t ↔ ∃ s', step s a = some s' ∧ run step s' actions =
      some t := by
  cases h : step s a <;> simp [run, h]

theorem meets_cons_iff {s : σ} {a : α} {actions : List α} :
    Meets step condition s (a :: actions) ↔
      condition s a ∧ ∀ s', step s a = some s' → Meets step condition s' actions := by
  cases h : step s a <;> simp [Meets, h]

/-- **Invariants.** What actions that meet a condition keep holds after runs of such actions. -/
theorem run_invariant {P : σ → Prop}
    (hstep : ∀ s a s', P s → condition s a → step s a = some s' → P s') {s t : σ} {actions : List α}
    (hs : P s) (hmeets : Meets step condition s actions) (hrun : run step s actions = some t) :
      P t := by
  induction actions generalizing s with
  | nil => exact Option.some.inj hrun ▸ hs
  | cons a actions ih =>
    obtain ⟨s', ha, hrest⟩ := run_cons_eq_some_iff.mp hrun
    obtain ⟨hcondition, hmeets⟩ := meets_cons_iff.mp hmeets
    exact ih (hstep s a s' hs hcondition ha) (hmeets s' ha) hrest

/-- A condition that follows from another one where an invariant holds. -/
theorem Meets.of_invariant {condition' : σ → α → Prop} {P : σ → Prop} {Q : α → Prop}
    (hstep : ∀ s a s', P s → Q a → step s a = some s' → P s')
    (h : ∀ s a, P s → condition s a → condition' s a) {s : σ} {actions : List α} (hs : P s)
    (hactions : ∀ a ∈ actions, Q a) (hmeets : Meets step condition s actions) :
    Meets step condition' s actions := by
  induction actions generalizing s with
  | nil => trivial
  | cons a actions ih =>
    obtain ⟨hcondition, hrest⟩ := meets_cons_iff.mp hmeets
    obtain ⟨ha, hactions⟩ := List.forall_mem_cons.mp hactions
    exact meets_cons_iff.mpr ⟨h s a hs hcondition, fun s' hs' =>
      ih (hstep s a s' hs ha hs') hactions (hrest s' hs')⟩

/-- A condition that holds of the moves of a run which meet another one and keep an invariant. -/
theorem Meets.of_run {condition' : σ → α → Prop} {P : σ → Prop}
    (hstep : ∀ s a s', P s → condition s a → step s a = some s' → P s' ∧ condition' s a) {s t : σ}
    {actions : List α} (hs : P s) (hmeets : Meets step condition s actions)
    (hrun : run step s actions = some t) : Meets step condition' s actions := by
  induction actions generalizing s with
  | nil => trivial
  | cons a actions ih =>
    obtain ⟨s', ha, hrest⟩ := run_cons_eq_some_iff.mp hrun
    obtain ⟨hcondition, hmeets⟩ := meets_cons_iff.mp hmeets
    obtain ⟨hs', hcondition'⟩ := hstep s a s' hs hcondition ha
    refine meets_cons_iff.mpr ⟨hcondition', fun s'' ha' => ?_⟩
    rw [← Option.some.inj (ha.symm.trans ha')]
    exact ih hs' (hmeets s' ha) hrest

theorem Meets.and {condition' : σ → α → Prop} {s : σ} {actions : List α}
    (h : Meets step condition s actions) (h' : Meets step condition' s actions) :
    Meets step (fun s a => condition s a ∧ condition' s a) s actions := by
  induction actions generalizing s with
  | nil => trivial
  | cons a actions ih =>
    obtain ⟨hcondition, hrest⟩ := meets_cons_iff.mp h
    obtain ⟨hcondition', hrest'⟩ := meets_cons_iff.mp h'
    exact meets_cons_iff.mpr ⟨⟨hcondition, hcondition'⟩,
      fun s' ha => ih (hrest s' ha) (hrest' s' ha)⟩

/-- A condition on the actions alone. -/
theorem meets_of_forall_mem {P : α → Prop} {actions : List α} (h : ∀ a ∈ actions, P a) (s : σ) :
    Meets step (fun _ a => P a) s actions := by
  induction actions generalizing s with
  | nil => trivial
  | cons a actions ih =>
    obtain ⟨ha, hrest⟩ := List.forall_mem_cons.mp h
    exact meets_cons_iff.mpr ⟨ha, fun s' _ => ih hrest s'⟩

theorem meets_true (s : σ) (actions : List α) : Meets step (fun _ _ => True) s actions := by
  induction actions generalizing s with
  | nil => trivial
  | cons a actions ih => exact meets_cons_iff.mpr ⟨trivial, fun s' _ => ih s'⟩

/-- Some run leads to the state. -/
def Reaches (step : σ → α → Option σ) (s t : σ) : Prop := ∃ actions, run step s actions = some t

theorem Reaches.invariant {P : σ → Prop} (hstep : ∀ s a s', P s → step s a = some s' → P s')
    {s t : σ}
    (hs : P s) (h : Reaches step s t) : P t := by
  obtain ⟨actions, hrun⟩ := h
  refine run_invariant ?_ hs (meets_true s actions) hrun
  exact fun s a s' hP _ => hstep s a s' hP

/-- Machines that move alike by related actions stay related. -/
theorem run_simulates {step' : τ → β → Option τ} {R : σ → τ → Prop} {A : α → β → Prop}
    (hstep : ∀ s t a b s', R s t → A a b → step s a = some s' → ∃ t', step' t b = some t' ∧ R s' t')
    {s s' : σ} {t : τ} {actions : List α} {actions' : List β} (hR : R s t)
    (hactions : List.Forall₂ A actions actions') (hrun : run step s actions = some s') :
    ∃ t', run step' t actions' = some t' ∧ R s' t' := by
  induction hactions generalizing s t with
  | nil => exact ⟨t, rfl, Option.some.inj hrun ▸ hR⟩
  | cons hab _ ih =>
    obtain ⟨s₁, ha, hrest⟩ := run_cons_eq_some_iff.mp hrun
    obtain ⟨t₁, hb, hR₁⟩ := hstep _ _ _ _ _ hR hab ha
    obtain ⟨t', ht', hR'⟩ := ih hR₁ hrest
    exact ⟨t', run_cons_eq_some_iff.mpr ⟨t₁, hb, ht'⟩, hR'⟩

/-! ### Histories -/

/-- Every event of the history is justified by the events before it. -/
def Justified (p : List ε → ε → Prop) (history : List ε) : Prop :=
  ∀ before e after, history = before ++ e :: after → p before e

theorem justified_nil (p : List ε → ε → Prop) : Justified p [] := by
  intro before e after h
  simp at h

theorem justified_append_singleton {p : List ε → ε → Prop} {history : List ε} {e : ε} :
    Justified p (history ++ [e]) ↔ Justified p history ∧ p history e := by
  constructor
  · intro h
    refine ⟨fun before d after hd => ?_, h history e [] rfl⟩
    exact h before d (after ++ [e]) (by rw [hd, List.append_assoc, List.cons_append])
  · rintro ⟨h, he⟩ before d after hd
    rcases List.eq_nil_or_concat after with rfl | ⟨after, c, rfl⟩
    · obtain ⟨rfl, hc⟩ := List.append_inj' hd rfl
      obtain rfl := List.singleton_inj.mp hc
      exact he
    · rw [List.concat_eq_append, ← List.cons_append, ← List.append_assoc] at hd
      exact h before d after (List.append_inj' hd rfl).1

theorem Justified.append {p : List ε → ε → Prop} {history new : List ε} (h : Justified p history)
    (hnew : ∀ first e last, new = first ++ e :: last → p (history ++ first) e) :
    Justified p (history ++ new) := by
  induction new using List.reverseRecOn with
  | nil => rwa [List.append_nil]
  | append_singleton new e ih =>
    rw [← List.append_assoc, justified_append_singleton]
    refine ⟨ih fun first d last hd => hnew first d (last ++ [e]) ?_, hnew new e [] rfl⟩
    rw [hd, List.append_assoc, List.cons_append]

theorem Justified.exists_of_mem {p : List ε → ε → Prop} {history : List ε} (h : Justified p history)
    {e : ε} (he : e ∈ history) : ∃ before after, history = before ++ e :: after ∧ p before e := by
  obtain ⟨before, after, hsplit⟩ := List.append_of_mem he
  exact ⟨before, after, hsplit, h before e after hsplit⟩

/-- Of two events of a history, one comes before the other. -/
theorem Justified.exists_of_mem_of_mem {p : List ε → ε → Prop} {history : List ε}
    (h : Justified p history)
    {e e' : ε} (he : e ∈ history) (he' : e' ∈ history) (hne : e ≠ e') :
    (∃ before, e ∈ before ∧ p before e') ∨ ∃ before, e' ∈ before ∧ p before e := by
  obtain ⟨before, after, rfl⟩ := List.append_of_mem he
  rcases List.mem_append.mp he' with hbefore | hrest
  · exact Or.inr ⟨before, hbefore, h before e after rfl⟩
  · obtain ⟨middle, last, rfl⟩ := List.append_of_mem (List.mem_of_ne_of_mem hne.symm hrest)
    refine Or.inl ⟨before ++ e :: middle, by simp, h _ e' last ?_⟩
    rw [List.append_assoc, List.cons_append]

/-- The event has happened, and those events have followed it. -/
def Follows (history : List ε) (e : ε) (after : List ε) : Prop :=
  ∃ before, history = before ++ e :: after

theorem Follows.append {history : List ε} {e : ε} {after : List ε} (h : Follows history e after)
    (new : List ε) : Follows (history ++ new) e (after ++ new) := by
  obtain ⟨before, rfl⟩ := h
  exact ⟨before, by rw [List.append_assoc, List.cons_append]⟩

theorem follows_append_iff {history new : List ε} {e : ε} (hnew : e ∉ new) {after : List ε} :
    Follows (history ++ new) e after ↔ ∃ rest, after = rest ++ new ∧ Follows history e rest := by
  constructor
  · rintro ⟨before, h⟩
    rcases List.append_eq_append_iff.mp h with ⟨middle, -, rfl⟩ | ⟨middle, rfl, hmiddle⟩
    · exact absurd (by simp) hnew
    · cases middle with
      | nil => exact absurd (by simp [← List.nil_append new ▸ hmiddle]) hnew
      | cons c rest =>
        obtain ⟨rfl, rfl⟩ := List.cons.inj hmiddle
        exact ⟨rest, rfl, before, rfl⟩
  · rintro ⟨rest, rfl, h⟩
    exact h.append new

theorem follows_append_singleton {history : List ε} {e d : ε} {after : List ε}
    (h : Follows (history ++ [d]) e after) :
    after = [] ∨ ∃ rest, after = rest ++ [d] ∧ Follows history e rest := by
  obtain ⟨before, h⟩ := h
  rcases List.eq_nil_or_concat after with rfl | ⟨rest, c, rfl⟩
  · exact Or.inl rfl
  · rw [List.concat_eq_append, ← List.cons_append, ← List.append_assoc] at h
    obtain ⟨rfl, hc⟩ := List.append_inj' h rfl
    obtain rfl := List.singleton_inj.mp hc
    exact Or.inr ⟨rest, List.concat_eq_append, before, rfl⟩

/-! ### Marks -/

/-- Whoever holds a mark is the only one, and the mark is on the list. -/
structure Marked {ι κ : Type*} (marks : List κ) (holds : ι → Option κ) : Prop where
  mem : ∀ c k, holds c = some k → k ∈ marks
  unique : ∀ c d k, holds c = some k → holds d = some k → c = d

section Marks

variable {ι κ : Type*} {marks : List κ} {holds : ι → Option κ}

/-- A mark that is not on the list can be put on it and taken. -/
theorem Marked.acquire [DecidableEq ι] (h : Marked marks holds) {k : κ} (hk : k ∉ marks) (c : ι) :
    Marked (k :: marks) (Function.update holds c (some k)) where
  mem d j hj := by
    by_cases hd : d = c
    · subst hd
      simp_all
    · rw [Function.update_of_ne hd] at hj
      exact List.mem_cons_of_mem k (h.mem d j hj)
  unique d d' j hj hj' := by
    have hother : ∀ d, d ≠ c → holds d ≠ some k := fun d _ hd => hk (h.mem d k hd)
    by_cases hd : d = c
    · by_cases hd' : d' = c
      · rw [hd, hd']
      · rw [hd, Function.update_self] at hj
        rw [Function.update_of_ne hd', ← hj] at hj'
        exact absurd hj' (hother d' hd')
    · rw [Function.update_of_ne hd] at hj
      by_cases hd' : d' = c
      · rw [hd', Function.update_self] at hj'
        exact absurd (hj.trans hj'.symm) (hother d hd)
      · rw [Function.update_of_ne hd'] at hj'
        exact h.unique d d' j hj hj'

/-- A mark that is held can be let go and taken off the list. -/
theorem Marked.release [DecidableEq ι] [DecidableEq κ] (h : Marked marks holds) {k : κ} {c : ι}
    (hc : holds c = some k) :
    Marked (marks.filter (· ≠ k)) (Function.update holds c none) where
  mem d j hj := by
    by_cases hd : d = c
    · subst hd
      simp at hj
    · rw [Function.update_of_ne hd] at hj
      refine List.mem_filter.mpr ⟨h.mem d j hj, decide_eq_true ?_⟩
      rintro rfl
      exact hd (h.unique d c j hj hc)
  unique d d' j hj hj' := by
    have hold : ∀ d, Function.update holds c none d = some j → holds d = some j := by
      intro d hd
      by_cases hdc : d = c
      · subst hdc
        simp at hd
      · rwa [Function.update_of_ne hdc] at hd
    exact h.unique d d' j (hold d hj) (hold d' hj')

/-- Every mark on the list is held. -/
def Accounted (marks : List κ) (holds : ι → Option κ) : Prop := ∀ k ∈ marks, ∃ c, holds c = some k

/-- One step of a list of marks and of who holds them: nothing changes, or a mark is put on the list
and taken, or one is let go and taken off. -/
inductive MarkStep [DecidableEq ι] [DecidableEq κ] (marks : List κ) (holds : ι → Option κ) :
    List κ → (ι → Option κ) → Prop where
  | keep : MarkStep marks holds marks holds
  | acquire {c : ι} {k : κ} : k ∉ marks → holds c = none →
      MarkStep marks holds (k :: marks) (Function.update holds c (some k))
  | release {c : ι} {k : κ} : holds c = some k →
      MarkStep marks holds (marks.filter (· ≠ k)) (Function.update holds c none)

variable [DecidableEq ι] [DecidableEq κ] {marks' : List κ} {holds' : ι → Option κ}

theorem Marked.of_step (h : Marked marks holds) (hstep : MarkStep marks holds marks' holds') :
    Marked marks' holds' := by
  cases hstep with
  | keep => exact h
  | acquire hk _ => exact h.acquire hk _
  | release hc => exact h.release hc

theorem Accounted.of_step (h : Accounted marks holds) (hstep : MarkStep marks holds marks' holds') :
    Accounted marks' holds' := by
  cases hstep with
  | keep => exact h
  | @acquire c k hk hc =>
    intro j hj
    rcases List.mem_cons.mp hj with rfl | hj
    · exact ⟨c, Function.update_self c _ holds⟩
    · obtain ⟨d, hd⟩ := h j hj
      refine ⟨d, (Function.update_of_ne ?_ _ _).trans hd⟩
      rintro rfl
      rw [hc] at hd
      cases hd
  | @release c k hc =>
    intro j hj
    obtain ⟨hj, hne⟩ := List.mem_filter.mp hj
    obtain ⟨d, hd⟩ := h j hj
    refine ⟨d, (Function.update_of_ne ?_ _ _).trans hd⟩
    rintro rfl
    exact of_decide_eq_true hne (Option.some.inj (hd.symm.trans hc))

end Marks

end Machine
