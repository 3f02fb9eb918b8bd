import Mathlib.Data.Fintype.Pigeonhole
import Mathlib.Data.Set.Finite.Basic
import Mathlib.Logic.Relation

/-!
# Chains of a deterministic step

A step relation that leads from each state to at most one other one. From a state the steps form one
chain, which ends or goes on forever. When the states carry labels of which only finitely many
occur, and returning to a label leads to a loop, the chain ends exactly if no label occurs twice.

* `Chain.EndsAt`: the chain from a state ends at another one.
* `Chain.EndsAt.unique`: a chain has one end.
* `Chain.exists_endsAt_iff`: a chain ends if and only if it does not return to a label.
-/

namespace Chain

open Relation

variable {α ι : Type*} {r : α → α → Prop}

/-- The chain from `a` ends at `b`. -/
def EndsAt (r : α → α → Prop) (a b : α) : Prop := ReflTransGen r a b ∧ ∀ c, ¬ r b c

/-- The chain from `a` returns to a label. -/
def Returns (r : α → α → Prop) (label : α → ι) (a : α) : Prop :=
  ∃ b c, ReflTransGen r a b ∧ TransGen r b c ∧ label b = label c

theorem EndsAt.head {a b c : α} (h : EndsAt r b c) (hab : r a b) : EndsAt r a c :=
  ⟨ReflTransGen.head hab h.1, h.2⟩

theorem endsAt_self {a : α} (h : ∀ b, ¬ r a b) : EndsAt r a a := ⟨ReflTransGen.refl, h⟩

theorem eq_of_reflTransGen_of_end {a b : α} (h : ReflTransGen r a b) (ha : ∀ c, ¬ r a c) :
    b = a := by
  cases h.cases_head with
  | inl h => exact h.symm
  | inr h =>
    obtain ⟨c, hac, -⟩ := h
    exact absurd hac (ha c)

section Deterministic

variable (hdet : ∀ a b c, r a b → r a c → b = c)

include hdet

/-- What a state reaches lies on its chain, before or after any other state of the chain. -/
theorem reflTransGen_total {a b c : α} (hab : ReflTransGen r a b) (hac : ReflTransGen r a c) :
    ReflTransGen r b c ∨ ReflTransGen r c b :=
  ReflTransGen.total_of_right_unique hdet hab hac

theorem EndsAt.unique {a b c : α} (hb : EndsAt r a b) (hc : EndsAt r a c) : b = c := by
  rcases reflTransGen_total hdet hb.1 hc.1 with h | h
  · exact (eq_of_reflTransGen_of_end h hb.2).symm
  · exact eq_of_reflTransGen_of_end h hc.2

/-- The end of a chain is the end from every state of it. -/
theorem EndsAt.of_reflTransGen {a b c : α} (hc : EndsAt r a c) (hab : ReflTransGen r a b) :
    EndsAt r b c := by
  refine ⟨?_, hc.2⟩
  rcases reflTransGen_total hdet hab hc.1 with h | h
  · exact h
  · rw [eq_of_reflTransGen_of_end h hc.2]

/-- A loop is not left. -/
theorem transGen_self_of_reflTransGen {a b : α} (hloop : TransGen r a a)
    (hab : ReflTransGen r a b) : TransGen r b b := by
  induction hab with
  | refl => exact hloop
  | @tail b c _ hbc ih =>
    obtain ⟨d, hbd, hdb⟩ := TransGen.head'_iff.mp ih
    obtain rfl := hdet _ _ _ hbc hbd
    exact TransGen.tail' hdb hbc

/-- A chain that runs into a loop does not end. -/
theorem not_endsAt_of_loop {a b c : α} (hab : ReflTransGen r a b) (hloop : TransGen r b b) :
    ¬ EndsAt r a c := by
  intro hc
  have hbc := (hc.of_reflTransGen hdet hab).1
  obtain ⟨d, hcd, -⟩ := TransGen.head'_iff.mp (transGen_self_of_reflTransGen hdet hloop hbc)
  exact hc.2 d hcd

end Deterministic

/-- A chain that does not end has a state after every number of steps. -/
theorem exists_sequence {a : α} (h : ∀ b, ReflTransGen r a b → ∃ c, r b c) :
    ∃ f : Nat → α, f 0 = a ∧ ∀ n, r (f n) (f (n + 1)) ∧ ReflTransGen r a (f n) := by
  classical
  let next : {b // ReflTransGen r a b} → {b // ReflTransGen r a b} := fun b =>
    ⟨(h b.1 b.2).choose, b.2.tail (h b.1 b.2).choose_spec⟩
  let g : Nat → {b // ReflTransGen r a b} := fun n => next^[n] ⟨a, ReflTransGen.refl⟩
  refine ⟨fun n => (g n).1, rfl, fun n => ⟨?_, (g n).2⟩⟩
  have hsucc : g (n + 1) = next (g n) := Function.iterate_succ_apply' next n _
  simp only [hsucc]
  exact (h (g n).1 (g n).2).choose_spec

theorem transGen_of_sequence {f : Nat → α} (hf : ∀ n, r (f n) (f (n + 1))) {i j : Nat}
    (h : i < j) : TransGen r (f i) (f j) := by
  induction j, h using Nat.le_induction with
  | base => exact TransGen.single (hf i)
  | succ j _ ih => exact ih.tail (hf j)

/-- A chain on which finitely many labels occur ends or returns to a label. -/
theorem exists_endsAt_or_returns {label : α → ι} {a : α} {labels : Set ι} (hfinite : labels.Finite)
    (hlabels : ∀ b, ReflTransGen r a b → label b ∈ labels) :
    (∃ b, EndsAt r a b) ∨ Returns r label a := by
  by_contra hno
  push Not at hno
  obtain ⟨hend, hreturn⟩ := hno
  have hnext : ∀ b, ReflTransGen r a b → ∃ c, r b c := by
    intro b hb
    by_contra hc
    push Not at hc
    exact hend b ⟨hb, hc⟩
  obtain ⟨f, -, hf⟩ := exists_sequence hnext
  have := hfinite.to_subtype
  obtain ⟨i, j, hij, heq⟩ := Finite.exists_ne_map_eq_of_infinite
    fun n => (⟨label (f n), hlabels _ (hf n).2⟩ : labels)
  have heq : label (f i) = label (f j) := congrArg Subtype.val heq
  rcases lt_or_gt_of_ne hij with hlt | hlt
  · exact hreturn ⟨f i, f j, (hf i).2, transGen_of_sequence (fun n => (hf n).1) hlt, heq⟩
  · exact hreturn ⟨f j, f i, (hf j).2, transGen_of_sequence (fun n => (hf n).1) hlt, heq.symm⟩

/-- **Termination.** A chain on which finitely many labels occur ends exactly if it does not return
to a label, provided that a return to a label leads to a loop. -/
theorem exists_endsAt_iff (hdet : ∀ a b c, r a b → r a c → b = c) {label : α → ι} {a : α}
    {labels : Set ι} (hfinite : labels.Finite)
    (hlabels : ∀ b, ReflTransGen r a b → label b ∈ labels)
    (hloop : ∀ b c, ReflTransGen r a b → TransGen r b c → label b = label c → TransGen r c c) :
    (∃ b, EndsAt r a b) ↔ ¬ Returns r label a := by
  constructor
  · rintro ⟨d, hd⟩ ⟨b, c, hab, hbc, heq⟩
    exact not_endsAt_of_loop hdet (hab.trans hbc.to_reflTransGen) (hloop b c hab hbc heq) hd
  · exact (exists_endsAt_or_returns hfinite hlabels).resolve_right

end Chain
