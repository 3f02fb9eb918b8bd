import Mathlib.Data.List.Sort
import Mathlib.Order.Basic

/-!
# Sorting by a key

A list is sorted by a key of its members, upwards or downwards. When different members have
different keys, the result depends on the members only, and downwards is the reverse of upwards;
members that agree in their keys stay in the order in which they are.
-/

namespace KeySort

variable {α κ : Type*} [LinearOrder κ] (key : α → κ) {l l' : List α}

theorem total_key : Std.Total fun a b => key a ≤ key b := ⟨fun a b => le_total (key a) (key b)⟩

theorem isTrans_key : IsTrans α fun a b => key a ≤ key b := ⟨fun _ _ _ => le_trans⟩

theorem pairwise_upwards (l : List α) :
    (l.insertionSort fun a b => key a ≤ key b).Pairwise fun a b => key a ≤ key b :=
  haveI := total_key key
  haveI := isTrans_key key
  List.pairwise_insertionSort _ l

-- Downwards is upwards in the dual order of the keys.
theorem pairwise_downwards (l : List α) :
    (l.insertionSort fun a b => key b ≤ key a).Pairwise fun a b => key b ≤ key a :=
  pairwise_upwards (fun a => OrderDual.toDual (key a)) l

variable {key}

/-- However a list is sorted upwards, the result is the same. -/
theorem eq_upwards (hinj : ∀ a ∈ l, ∀ b ∈ l, key a = key b → a = b) (h : l'.Perm l)
    (hsorted : l'.Pairwise fun a b => key a ≤ key b) :
    l' = l.insertionSort fun a b => key a ≤ key b := by
  have hperm := h.trans (List.perm_insertionSort (fun a b => key a ≤ key b) l).symm
  refine hperm.eq_of_pairwise (fun a b ha hb hab hba => ?_) hsorted (pairwise_upwards key l)
  rw [List.mem_insertionSort] at hb
  exact hinj a (h.mem_iff.mp ha) b hb (le_antisymm hab hba)

/-- However a list is sorted downwards, the result is the same. -/
theorem eq_downwards (hinj : ∀ a ∈ l, ∀ b ∈ l, key a = key b → a = b) (h : l'.Perm l)
    (hsorted : l'.Pairwise fun a b => key b ≤ key a) :
    l' = l.insertionSort fun a b => key b ≤ key a :=
  @eq_upwards α κᵒᵈ _ (fun a => OrderDual.toDual (key a)) l l' hinj h hsorted

/-- Downwards is the reverse of upwards. -/
theorem downwards_eq_reverse (hinj : ∀ a ∈ l, ∀ b ∈ l, key a = key b → a = b) :
    (l.insertionSort fun a b => key b ≤ key a) =
      (l.insertionSort fun a b => key a ≤ key b).reverse :=
  (eq_downwards hinj ((List.reverse_perm _).trans (List.perm_insertionSort _ l))
    (List.pairwise_reverse.mpr (pairwise_upwards key l))).symm

/-- Members in order upwards stay in order. -/
theorem pair_sublist_upwards {a b : α} (hab : key a ≤ key b) (h : [a, b].Sublist l) :
    [a, b].Sublist (l.insertionSort fun a b => key a ≤ key b) :=
  haveI := total_key key
  haveI := isTrans_key key
  List.pair_sublist_insertionSort hab h

/-- Members in order downwards stay in order. -/
theorem pair_sublist_downwards {a b : α} (hab : key b ≤ key a) (h : [a, b].Sublist l) :
    [a, b].Sublist (l.insertionSort fun a b => key b ≤ key a) :=
  @pair_sublist_upwards α κᵒᵈ _ (fun a => OrderDual.toDual (key a)) l a b hab h

/-- Two different members stand in one order or in the other. -/
theorem pair_sublist_or {a b : α} (ha : a ∈ l) (hb : b ∈ l) (hne : a ≠ b) :
    [a, b].Sublist l ∨ [b, a].Sublist l := by
  obtain ⟨s, t, rfl⟩ := List.append_of_mem ha
  rcases List.mem_append.mp hb with hb | hb
  · exact Or.inr ((List.singleton_sublist.mpr hb).append
      ((List.nil_sublist t).cons_cons a))
  · rcases List.mem_cons.mp hb with rfl | hb
    · exact absurd rfl hne
    · exact Or.inl (((List.singleton_sublist.mpr hb).cons_cons a).trans
        (List.sublist_append_right s _))

end KeySort
