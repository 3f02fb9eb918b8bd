import Mathlib.Data.Set.Basic
import Thalweg.Data.OrderedStore

/-!
# Stores that agree on keys

Two stores agree on a set of keys. A write of one of the keys to both keeps the agreement, and so
does a write of another key to one of them; a scan that stays in the set sees the same in both.
-/

namespace OrderedStore

variable {γ α : Type*} [LinearOrder γ] {K : Set (List γ)} {s t u : OrderedStore γ α}

/-- The stores have the same values under the keys. -/
def AgreeOn (K : Set (List γ)) (s t : OrderedStore γ α) : Prop := ∀ k ∈ K, s.get k = t.get k

theorem AgreeOn.refl (K : Set (List γ)) (s : OrderedStore γ α) : AgreeOn K s s := fun _ _ => rfl

theorem AgreeOn.trans (h : AgreeOn K s t) (h' : AgreeOn K t u) : AgreeOn K s u := fun k hk =>
  (h k hk).trans (h' k hk)

/-- The same write to both stores. -/
theorem AgreeOn.set (h : AgreeOn K s t) (k : List γ) (v : α) :
    AgreeOn K (s.set k v) (t.set k v) := by
  intro k' hk'
  rw [get_set, get_set, h k' hk']

/-- A write of a key that is not compared. -/
theorem AgreeOn.set_right (h : AgreeOn K s t) {k : List γ} (hk : k ∉ K) (v : α) :
    AgreeOn K s (t.set k v) := by
  intro k' hk'
  have hne : k' ≠ k := fun heq => hk (heq ▸ hk')
  rw [get_set_of_ne t hne, h k' hk']

theorem AgreeOn.scan_eq (h : AgreeOn K s t) {pre seek : List γ} (hseek : pre <+: seek)
    (hK : ∀ k, pre <+: k → k ∈ K) : s.scan pre seek = t.scan pre seek :=
  scan_congr hseek fun k hk => h k (hK k hk)

end OrderedStore
