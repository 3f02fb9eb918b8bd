import Thalweg.Data.OrderedStore

/-!
# Fields of a text and the order of texts

When a text is a field followed by a rest, the order of two such texts is decided by the fields,
unless one of the fields is a prefix of the other.

* `FieldOrder.append_lt_append_of_lt`: the fields decide.
* `FieldOrder.append_lt_append_iff`: fields of one length and rests are ordered like pairs.
-/

namespace FieldOrder

variable {γ : Type*} [LinearOrder γ] {a b s t : List γ}

/-- A list that is smaller without being a prefix stays smaller whatever follows. -/
theorem append_lt_append_of_lt (h : a < b) (hpre : ¬ a <+: b) (s t : List γ) : a ++ s < b ++ t := by
  induction a generalizing b with
  | nil => exact absurd List.nil_prefix hpre
  | cons x a ih =>
    cases b with
    | nil => exact absurd h (List.not_lt_nil _)
    | cons y b =>
      rw [List.cons_append, List.cons_append, List.cons_lt_cons_iff]
      rcases List.cons_lt_cons_iff.mp h with hxy | ⟨rfl, hab⟩
      · exact Or.inl hxy
      · exact Or.inr ⟨rfl, ih hab fun hab' => hpre ((List.cons_prefix_cons).mpr ⟨rfl, hab'⟩)⟩

/-- A smaller list of the same length is not a prefix. -/
theorem not_isPrefix_of_lt (hlen : a.length = b.length) (h : a < b) : ¬ a <+: b := fun hpre =>
  h.ne (hpre.eq_of_length hlen)

theorem append_lt_append_iff (hlen : a.length = b.length) :
    a ++ s < b ++ t ↔ a < b ∨ a = b ∧ s < t := by
  rcases lt_trichotomy a b with hab | rfl | hab
  · exact iff_of_true (append_lt_append_of_lt hab (not_isPrefix_of_lt hlen hab) s t) (Or.inl hab)
  · rw [OrderedStore.append_lt_append_iff]
    simp
  · have hgt := append_lt_append_of_lt hab (not_isPrefix_of_lt hlen.symm hab) t s
    refine iff_of_false hgt.not_gt ?_
    rintro (h | ⟨rfl, -⟩)
    · exact absurd h hab.not_gt
    · exact lt_irrefl _ hab

end FieldOrder
