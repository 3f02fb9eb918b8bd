import Mathlib.Data.Set.Function

/-!
# Sets that absorb others

Elements have keys. A set absorbs another one by taking the elements whose keys it does not have; of
two elements with one key it keeps its own. Two sets that absorb each other have the same keys after
it, and then there is nothing left to absorb.

## Main definitions

* `Absorb.absorb`.
* `Absorb.clashes`: the keys under which two sets have different elements.
-/

namespace Absorb

variable {α κ : Type*} {key : α → κ} {S T U : Set α}

/-- The set with the elements of another one whose keys it does not have. -/
def absorb (key : α → κ) (S T : Set α) : Set α := S ∪ {t | t ∈ T ∧ ∀ s ∈ S, key s ≠ key t}

theorem mem_absorb_iff {a : α} :
    a ∈ absorb key S T ↔ a ∈ S ∨ a ∈ T ∧ ∀ s ∈ S, key s ≠ key a := Iff.rfl

theorem subset_absorb : S ⊆ absorb key S T := Set.subset_union_left

/-- The keys of both sets. -/
theorem exists_mem_absorb_iff {k : κ} :
    (∃ a ∈ absorb key S T, key a = k) ↔ (∃ s ∈ S, key s = k) ∨ ∃ t ∈ T, key t = k := by
  constructor
  · rintro ⟨a, ha | ⟨ha, -⟩, hk⟩
    · exact Or.inl ⟨a, ha, hk⟩
    · exact Or.inr ⟨a, ha, hk⟩
  · rintro (⟨s, hs, hk⟩ | ⟨t, ht, hk⟩)
    · exact ⟨s, Or.inl hs, hk⟩
    · by_cases hkey : ∃ s ∈ S, key s = key t
      · obtain ⟨s, hs, hst⟩ := hkey
        exact ⟨s, Or.inl hs, hst.trans hk⟩
      · push Not at hkey
        exact ⟨t, Or.inr ⟨ht, hkey⟩, hk⟩

/-- Where all keys are known there is nothing to absorb. -/
theorem absorb_eq_self (h : ∀ t ∈ T, ∃ s ∈ S, key s = key t) : absorb key S T = S := by
  refine Set.Subset.antisymm ?_ subset_absorb
  rintro a (ha | ⟨ha, hfresh⟩)
  · exact ha
  · obtain ⟨s, hs, hkey⟩ := h a ha
    exact absurd hkey (hfresh s hs)

/-- To absorb a set again with elements of one's own changes nothing. -/
theorem absorb_congr (hT : T ⊆ U) (hU : U ⊆ S ∪ T) : absorb key S U = absorb key S T := by
  ext a
  simp only [mem_absorb_iff]
  constructor
  · rintro (ha | ⟨ha, hfresh⟩)
    · exact Or.inl ha
    · exact (hU ha).imp_right fun ha => ⟨ha, hfresh⟩
  · rintro (ha | ⟨ha, hfresh⟩)
    · exact Or.inl ha
    · exact Or.inr ⟨hT ha, hfresh⟩

/-! ### Clashes -/

/-- The keys under which the sets have elements that differ. -/
def clashes (key : α → κ) (differ : α → α → Prop) (S T : Set α) : Set κ :=
  {k | ∃ s ∈ S, ∃ t ∈ T, key s = k ∧ key t = k ∧ differ s t}

variable {differ : α → α → Prop}

/-- Two sets that have absorbed each other clash as before. -/
theorem clashes_absorb_swap (hS : Set.InjOn key S) (hT : Set.InjOn key T)
    (hdiffer : ∀ s, ¬ differ s s) :
    clashes key differ (absorb key S T) (absorb key T S) = clashes key differ S T := by
  ext k
  constructor
  · rintro ⟨a, ha | ⟨ha, hfresh⟩, b, hb | ⟨hb, hfresh'⟩, hk, hk', hab⟩
    · exact ⟨a, ha, b, hb, hk, hk', hab⟩
    · obtain rfl := hS ha hb (hk.trans hk'.symm)
      exact absurd hab (hdiffer a)
    · obtain rfl := hT ha hb (hk.trans hk'.symm)
      exact absurd hab (hdiffer a)
    · exact absurd (hk'.trans hk.symm) (hfresh b hb)
  · rintro ⟨s, hs, t, ht, hk⟩
    exact ⟨s, Or.inl hs, t, Or.inl ht, hk⟩

end Absorb
