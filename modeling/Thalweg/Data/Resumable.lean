import Mathlib.Data.Nat.Init
import Mathlib.Logic.Relation
import Mathlib.Order.Nat
import Mathlib.Tactic.SplitIfs

/-!
# Procedures that can be taken up again

A procedure goes through steps, each of which happens as a whole or not at all, and reads from the
state which step is the next one. If every step comes closer to the end, a run that is cut off
leaves the state of its last step, and running again from there ends as the run would have ended
(`Resumable.run_interrupted`).
-/

namespace Resumable

open Relation

variable {σ ε : Type*} (step : σ → Option (Except ε σ))

/-- At most `n` steps, up to the first error or to a state without a next step. -/
def run : ℕ → σ → Except ε Unit × σ
  | 0, s => (.ok (), s)
  | n + 1, s =>
    match step s with
    | none => (.ok (), s)
    | some (.error e) => (.error e, s)
    | some (.ok s') => run n s'

/-- The same, where the steps whose numbers `fails` holds of are not completed: the run ends there
with the error `fault`. -/
def interrupted (fault : ε) (fails : ℕ → Bool) : ℕ → ℕ → σ → Except ε Unit × σ
  | 0, _, s => (.ok (), s)
  | n + 1, i, s =>
    match step s with
    | none => (.ok (), s)
    | some (.error e) => (.error e, s)
    | some (.ok s') => if fails i then (.error fault, s) else interrupted fault fails n (i + 1) s'

/-- A completed step. -/
def Completes (s s' : σ) : Prop := step s = some (.ok s')

variable {step}

/-- A run that is cut off leaves the state after a number of completed steps. -/
theorem reaches_interrupted (fault : ε) (fails : ℕ → Bool) : ∀ (n i : ℕ) (s : σ),
    ReflTransGen (Completes step) s (interrupted step fault fails n i s).2
  | 0, _, _ => .refl
  | n + 1, i, s => by
    unfold interrupted
    split
    · exact .refl
    · exact .refl
    · next s' hstep =>
      split_ifs
      · exact .refl
      · exact (reaches_interrupted fault fails n (i + 1) s').head hstep

/-- The number of steps is at most the distance from the end. -/
def Bounded (step : σ → Option (Except ε σ)) (rank : σ → ℕ) : Prop :=
  ∀ s s', step s = some (.ok s') → rank s' < rank s

/-- Once the bound is large enough, it does not matter. -/
theorem run_eq_run {rank : σ → ℕ} (hrank : Bounded step rank) : ∀ {n m : ℕ} {s : σ}, rank s < n →
    rank s < m → run step n s = run step m s
  | 0, _, _, hn, _ => absurd hn (Nat.not_lt_zero _)
  | _ + 1, 0, _, _, hm => absurd hm (Nat.not_lt_zero _)
  | n + 1, m + 1, s, hn, hm => by
    unfold run
    split
    · rfl
    · rfl
    · next s' hstep =>
      have := hrank s s' hstep
      exact run_eq_run hrank (by omega) (by omega)

/-- Running from the state after a number of completed steps ends as running from the start. -/
theorem run_of_reaches {rank : σ → ℕ} (hrank : Bounded step rank) {n : ℕ} {s s' : σ} (hn : rank s < n)
    (h : ReflTransGen (Completes step) s s') : rank s' ≤ rank s ∧ run step n s' = run step n s := by
  induction h with
  | refl => exact ⟨le_rfl, rfl⟩
  | tail _ hstep ih =>
    next t u _ =>
    obtain ⟨hle, heq⟩ := ih
    have hlt : rank u < rank t := hrank t u hstep
    refine ⟨hlt.le.trans hle, ?_⟩
    obtain ⟨m, rfl⟩ : ∃ m, n = m + 1 := ⟨n - 1, by omega⟩
    have hnext : step t = some (.ok u) := hstep
    have hrun : run step (m + 1) t = run step m u := by rw [run, hnext]
    rw [← heq, hrun]
    exact run_eq_run hrank (by omega) (by omega)

/-- **Resumption.** Running again after a run that was cut off ends as the run would have ended. -/
theorem run_interrupted {rank : σ → ℕ} (hrank : Bounded step rank) {n : ℕ} {s : σ} (hn : rank s < n)
    (fault : ε) (fails : ℕ → Bool) (m i : ℕ) :
    run step n (interrupted step fault fails m i s).2 = run step n s :=
  (run_of_reaches hrank hn (reaches_interrupted fault fails m i s)).2

end Resumable
