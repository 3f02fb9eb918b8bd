import Mathlib.Data.List.Lex
import Mathlib.Data.List.Basic
import Mathlib.Data.List.Sort
import Mathlib.Tactic.SplitIfs

/-!
# Ordered key-value stores

A store keeps its entries in the strict order of their keys, as a field of the structure. Keys are
lists over a linear order, compared lexicographically, so that the keys with a given prefix stand
together.

* `OrderedStore.get`, `OrderedStore.set` and `OrderedStore.delete` with their laws.
* `OrderedStore.scan`, an iterator that is placed at a key and runs while keys have a prefix; it
  sees exactly the entries with that prefix from that key on, in order
  (`OrderedStore.scan_eq_filter`).
-/

/-- A key-value store with its entries in the strict order of their keys. -/
structure OrderedStore (γ α : Type*) [LinearOrder γ] where
  entries : List (List γ × α)
  sorted : entries.Pairwise fun a b => a.1 < b.1

namespace OrderedStore

variable {γ α : Type*} [LinearOrder γ]

/-! ### Entries -/

/-- The value of a key in a list of entries. -/
def find (k : List γ) : List (List γ × α) → Option α
  | [] => none
  | e :: es => if e.1 = k then some e.2 else find k es

/-- Put an entry into a sorted list of entries, over one of the same key. -/
def insert (k : List γ) (v : α) : List (List γ × α) → List (List γ × α)
  | [] => [(k, v)]
  | e :: es =>
    if e.1 < k then e :: insert k v es
    else if e.1 = k then (k, v) :: es
    else (k, v) :: e :: es

theorem mem_insert {k : List γ} {v : α} {es : List (List γ × α)} {e : List γ × α}
    (h : e ∈ insert k v es) : e = (k, v) ∨ e ∈ es := by
  induction es with
  | nil => simpa [insert] using h
  | cons d es ih =>
    unfold insert at h
    split_ifs at h <;> simp only [List.mem_cons] at h ⊢
    · rcases h with h | h
      · exact Or.inr (Or.inl h)
      · exact (ih h).imp_right Or.inr
    · exact h.imp_right Or.inr
    · exact h

theorem sorted_insert (k : List γ) (v : α) {es : List (List γ × α)}
    (h : es.Pairwise fun a b => a.1 < b.1) :
    (insert k v es).Pairwise fun a b => a.1 < b.1 := by
  induction es with
  | nil => simp [insert]
  | cons e es ih =>
    obtain ⟨he, hes⟩ := List.pairwise_cons.mp h
    unfold insert
    split_ifs with hlt heq
    · refine List.pairwise_cons.mpr ⟨fun d hd => ?_, ih hes⟩
      rcases mem_insert hd with rfl | hd
      · exact hlt
      · exact he d hd
    · exact List.pairwise_cons.mpr ⟨fun d hd => heq ▸ he d hd, hes⟩
    · have hk : k < e.1 := lt_of_le_of_ne (not_lt.mp hlt) (Ne.symm heq)
      refine List.pairwise_cons.mpr ⟨fun d hd => ?_, h⟩
      rcases List.mem_cons.mp hd with rfl | hd
      · exact hk
      · exact lt_trans hk (he d hd)

theorem find_insert_self (k : List γ) (v : α) (es : List (List γ × α)) :
    find k (insert k v es) = some v := by
  induction es with
  | nil => simp [insert, find]
  | cons e es ih =>
    unfold insert
    split_ifs with hlt heq
    · rw [find, if_neg hlt.ne, ih]
    · simp [find]
    · simp [find]

theorem find_insert_of_ne {k k' : List γ} (hne : k' ≠ k) (v : α) (es : List (List γ × α)) :
    find k' (insert k v es) = find k' es := by
  induction es with
  | nil => simp [insert, find, Ne.symm hne]
  | cons e es ih =>
    unfold insert
    split_ifs with hlt heq
    · simp only [find, ih]
    · have he : e.1 ≠ k' := fun h => hne (h.symm.trans heq)
      simp [find, Ne.symm hne, he]
    · simp [find, Ne.symm hne]

theorem find_filter_ne (k k' : List γ) (es : List (List γ × α)) :
    find k' (es.filter fun e => decide (e.1 ≠ k)) = if k' = k then none else find k' es := by
  induction es with
  | nil => simp [find]
  | cons e es ih =>
    by_cases he : e.1 = k
    · rw [List.filter_cons_of_neg (by simpa using he), ih]
      split_ifs with hk
      · rfl
      · rw [find, if_neg fun h => hk (h.symm.trans he)]
    · rw [List.filter_cons_of_pos (by simpa using he), find, find, ih]
      split_ifs with h1 h2 h2
      · exact absurd (h1.trans h2) he
      · rfl
      · rfl
      · rfl

theorem find_eq_some_iff {k : List γ} {v : α} {es : List (List γ × α)}
    (h : es.Pairwise fun a b => a.1 < b.1) : find k es = some v ↔ (k, v) ∈ es := by
  induction es with
  | nil => simp [find]
  | cons e es ih =>
    obtain ⟨he, hes⟩ := List.pairwise_cons.mp h
    unfold find
    split_ifs with hk
    · constructor
      · rintro h
        cases h
        simp [← hk]
      · rintro h
        rcases List.mem_cons.mp h with h | h
        · rw [← h]
        · exact absurd hk (he _ h).ne
    · rw [ih hes]
      constructor
      · exact List.mem_cons_of_mem _
      · rintro h
        rcases List.mem_cons.mp h with h | h
        · exact absurd (by rw [← h]) hk
        · exact h

/-! ### Operations -/

/-- The store without entries. -/
def empty : OrderedStore γ α := ⟨[], List.Pairwise.nil⟩

/-- The value of a key. -/
def get (s : OrderedStore γ α) (k : List γ) : Option α := find k s.entries

/-- The store with one value set. -/
def set (s : OrderedStore γ α) (k : List γ) (v : α) : OrderedStore γ α :=
  ⟨insert k v s.entries, sorted_insert k v s.sorted⟩

/-- The store without a key. -/
def delete (s : OrderedStore γ α) (k : List γ) : OrderedStore γ α :=
  ⟨s.entries.filter fun e => decide (e.1 ≠ k), s.sorted.filter _⟩

/-- The store with the entries that meet a condition. -/
def filter (s : OrderedStore γ α) (p : List γ × α → Bool) : OrderedStore γ α :=
  ⟨s.entries.filter p, s.sorted.filter _⟩

/-- The entries that an iterator sees that is placed at the first key from `seek` on and runs as
long as the keys start with `pre`. -/
def scan (s : OrderedStore γ α) (pre seek : List γ) : List (List γ × α) :=
  (s.entries.dropWhile fun e => decide (e.1 < seek)).takeWhile fun e => pre.isPrefixOf e.1

@[simp] theorem get_empty (k : List γ) : (empty : OrderedStore γ α).get k = none := rfl

@[simp] theorem get_set_self (s : OrderedStore γ α) (k : List γ) (v : α) :
    (s.set k v).get k = some v :=
  find_insert_self k v s.entries

theorem get_set_of_ne (s : OrderedStore γ α) {k k' : List γ} (hne : k' ≠ k) (v : α) :
    (s.set k v).get k' = s.get k' :=
  find_insert_of_ne hne v s.entries

theorem get_set (s : OrderedStore γ α) (k k' : List γ) (v : α) :
    (s.set k v).get k' = if k' = k then some v else s.get k' := by
  split_ifs with h
  · rw [h, get_set_self]
  · exact get_set_of_ne s h v

theorem get_delete (s : OrderedStore γ α) (k k' : List γ) :
    (s.delete k).get k' = if k' = k then none else s.get k' :=
  find_filter_ne k k' s.entries

/-- The keys of a list are deleted, and no others. -/
theorem get_foldl_delete (es : List (List γ × α)) (s : OrderedStore γ α) (k : List γ) :
    (es.foldl (fun s e => s.delete e.1) s).get k = if k ∈ es.map Prod.fst then none else s.get k := by
  induction es generalizing s with
  | nil => simp
  | cons e es ih =>
    rw [List.foldl_cons, ih, get_delete, List.map_cons]
    by_cases hmem : k ∈ es.map Prod.fst
    · rw [if_pos hmem, if_pos (List.mem_cons_of_mem _ hmem)]
    · by_cases hk : k = e.1
      · rw [if_neg hmem, if_pos hk, if_pos (List.mem_cons.mpr (Or.inl hk))]
      · rw [if_neg hmem, if_neg hk, if_neg fun h => (List.mem_cons.mp h).elim hk hmem]

theorem get_eq_some_iff {s : OrderedStore γ α} {k : List γ} {v : α} :
    s.get k = some v ↔ (k, v) ∈ s.entries :=
  find_eq_some_iff s.sorted

/-- Stores that hold the same are the same. -/
theorem ext_get {s s' : OrderedStore γ α} (h : ∀ k, s.get k = s'.get k) : s = s' := by
  have hirrefl : Std.Irrefl fun a b : List γ × α => a.1 < b.1 := ⟨fun a => lt_irrefl a.1⟩
  have hanti : Std.Antisymm fun a b : List γ × α => a.1 < b.1 :=
    ⟨fun a b hab hba => absurd hab hba.asymm⟩
  have hentries : s.entries = s'.entries := by
    refine s.sorted.eq_of_mem_iff s'.sorted fun e => ?_
    rw [← Prod.mk.eta (p := e), ← get_eq_some_iff, ← get_eq_some_iff, h]
  cases s
  cases s'
  simp_all

theorem delete_set {s : OrderedStore γ α} {k : List γ} (h : s.get k = none) (v : α) :
    (s.set k v).delete k = s := by
  refine ext_get fun k' => ?_
  rw [get_delete, get_set]
  split_ifs with hk
  · rw [hk, h]
  · rfl

theorem set_delete {s : OrderedStore γ α} {k : List γ} {v : α} (h : s.get k = some v) :
    (s.delete k).set k v = s := by
  refine ext_get fun k' => ?_
  rw [get_set, get_delete]
  split_ifs with hk
  · rw [hk, h]
  · rfl

theorem get_filter_eq_some_iff {s : OrderedStore γ α} {p : List γ × α → Bool} {k : List γ} {v : α} :
    (s.filter p).get k = some v ↔ s.get k = some v ∧ p (k, v) = true := by
  rw [get_eq_some_iff, get_eq_some_iff, filter, List.mem_filter]

/-! ### Scans -/

theorem cons_le_cons_iff {c d : γ} {a b : List γ} : c :: a ≤ d :: b ↔ c < d ∨ c = d ∧ a ≤ b := by
  rw [← not_lt, List.cons_lt_cons_iff, not_or, not_lt, not_and, not_lt]
  constructor
  · rintro ⟨hle, h⟩
    rcases lt_or_eq_of_le hle with hlt | heq
    · exact Or.inl hlt
    · exact Or.inr ⟨heq, h heq.symm⟩
  · rintro (hlt | ⟨rfl, h⟩)
    · exact ⟨hlt.le, fun heq => absurd heq hlt.ne'⟩
    · exact ⟨le_refl _, fun _ => h⟩

theorem nil_lt_of_ne_nil {k : List γ} (h : k ≠ []) : [] < k := by
  obtain ⟨c, k, rfl⟩ := List.exists_cons_of_ne_nil h
  exact List.nil_lt_cons c k

theorem append_le_append_iff {pre a b : List γ} : pre ++ a ≤ pre ++ b ↔ a ≤ b := by
  induction pre with
  | nil => rfl
  | cons c pre ih => simp [cons_le_cons_iff, ih]

theorem append_lt_append_iff {pre a b : List γ} : pre ++ a < pre ++ b ↔ a < b := by
  rw [← not_le, append_le_append_iff, not_le]

/-- The keys with a prefix stand together. -/
theorem isPrefix_of_le_of_le {pre a b : List γ} (ha : pre ≤ a) (hab : a ≤ b) (hb : pre <+: b) :
    pre <+: a := by
  induction pre generalizing a b with
  | nil => exact List.nil_prefix
  | cons c pre ih =>
    obtain ⟨b', rfl⟩ := hb
    cases a with
    | nil => exact absurd ha (not_le.mpr (List.nil_lt_cons c pre))
    | cons d a =>
      rw [cons_le_cons_iff] at ha
      rw [List.cons_append, cons_le_cons_iff] at hab
      rcases ha with ha | ⟨rfl, ha⟩
      · rcases hab with hab | ⟨rfl, -⟩
        · exact absurd ha (not_lt.mpr hab.le)
        · exact absurd ha (lt_irrefl _)
      · rcases hab with hab | ⟨-, hab⟩
        · exact absurd hab (lt_irrefl _)
        · exact (List.prefix_cons_inj c).mpr (ih ha hab (List.prefix_append _ _))

/-- A sorted list loses its entries below a key at its start. -/
theorem dropWhile_eq_filter {es : List (List γ × α)} (h : es.Pairwise fun a b => a.1 < b.1)
    (seek : List γ) : (es.dropWhile fun e => decide (e.1 < seek)) =
      es.filter fun e => decide (seek ≤ e.1) := by
  induction es with
  | nil => rfl
  | cons e es ih =>
    obtain ⟨he, hes⟩ := List.pairwise_cons.mp h
    by_cases hlt : e.1 < seek
    · rw [List.dropWhile_cons_of_pos (by simpa using hlt),
        List.filter_cons_of_neg (by simpa using hlt), ih hes]
    · rw [List.dropWhile_cons_of_neg (by simpa using hlt)]
      symm
      rw [List.filter_eq_self]
      intro d hd
      have hle : seek ≤ e.1 := not_lt.mp hlt
      rcases List.mem_cons.mp hd with rfl | hd
      · simpa using hle
      · simpa using hle.trans (he d hd).le

theorem takeWhile_eq_filter {es : List (List γ × α)} (h : es.Pairwise fun a b => a.1 < b.1)
    {pre : List γ} (hpre : ∀ e ∈ es, pre ≤ e.1) :
    (es.takeWhile fun e => pre.isPrefixOf e.1) = es.filter fun e => pre.isPrefixOf e.1 := by
  induction es with
  | nil => rfl
  | cons e es ih =>
    obtain ⟨he, hes⟩ := List.pairwise_cons.mp h
    by_cases hp : pre.isPrefixOf e.1
    · rw [List.takeWhile_cons_of_pos (by exact hp), List.filter_cons_of_pos (by exact hp),
        ih hes fun d hd => hpre d (List.mem_cons_of_mem _ hd)]
    · rw [List.takeWhile_cons_of_neg (by exact hp)]
      symm
      rw [List.filter_eq_nil_iff]
      intro d hd hpd
      rcases List.mem_cons.mp hd with rfl | hd
      · exact hp hpd
      · refine hp (List.isPrefixOf_iff_prefix.mpr ?_)
        exact isPrefix_of_le_of_le (hpre e (by simp)) (he d hd).le
          (List.isPrefixOf_iff_prefix.mp hpd)

theorem le_of_isPrefix {pre k : List γ} (h : pre <+: k) : pre ≤ k := by
  induction pre generalizing k with
  | nil => exact not_lt.mp (List.not_lt_nil _)
  | cons c pre ih =>
    obtain ⟨k, rfl⟩ := h
    rw [List.cons_append, cons_le_cons_iff]
    exact Or.inr ⟨rfl, ih (List.prefix_append _ _)⟩

/-- **Scans.** An iterator sees exactly the entries with the prefix from the key it is placed at. -/
theorem scan_eq_filter (s : OrderedStore γ α) {pre seek : List γ} (h : pre <+: seek) :
    s.scan pre seek =
      s.entries.filter fun e => decide (seek ≤ e.1) && pre.isPrefixOf e.1 := by
  have hle := le_of_isPrefix h
  unfold scan
  rw [dropWhile_eq_filter s.sorted, takeWhile_eq_filter (s.sorted.filter _), List.filter_filter]
  · exact List.filter_congr fun e _ => Bool.and_comm _ _
  · intro e he
    have := (List.mem_filter.mp he).2
    exact hle.trans (by simpa using this)

theorem sorted_scan (s : OrderedStore γ α) (pre seek : List γ) :
    (s.scan pre seek).Pairwise fun a b => a.1 < b.1 := by
  have h1 := List.takeWhile_sublist (l := s.entries.dropWhile fun e => decide (e.1 < seek))
    (fun e => pre.isPrefixOf e.1)
  exact s.sorted.sublist (h1.trans (List.dropWhile_sublist _))

theorem mem_scan_iff (s : OrderedStore γ α) {pre seek : List γ} (h : pre <+: seek) {k : List γ}
    {v : α} : (k, v) ∈ s.scan pre seek ↔ s.get k = some v ∧ seek ≤ k ∧ pre <+: k := by
  rw [scan_eq_filter s h, List.mem_filter, get_eq_some_iff]
  simp [List.isPrefixOf_iff_prefix]

/-- The keys with a prefix are deleted, and no others. -/
theorem get_foldl_delete_scan (s : OrderedStore γ α) (pre k : List γ) :
    ((s.scan pre pre).foldl (fun s e => s.delete e.1) s).get k =
      if pre <+: k then none else s.get k := by
  rw [get_foldl_delete]
  have hmem : k ∈ (s.scan pre pre).map Prod.fst ↔ pre <+: k ∧ ∃ v, s.get k = some v := by
    rw [List.mem_map]
    constructor
    · rintro ⟨⟨k, v⟩, he, rfl⟩
      obtain ⟨hget, -, hpre⟩ := (s.mem_scan_iff List.prefix_rfl).mp he
      exact ⟨hpre, v, hget⟩
    · rintro ⟨hpre, v, hget⟩
      exact ⟨(k, v), (s.mem_scan_iff List.prefix_rfl).mpr ⟨hget, le_of_isPrefix hpre, hpre⟩, rfl⟩
  by_cases hpre : pre <+: k
  · cases hget : s.get k with
    | none => simp
    | some v => rw [if_pos (hmem.mpr ⟨hpre, v, hget⟩), if_pos hpre]
  · rw [if_neg fun h => hpre (hmem.mp h).1, if_neg hpre]

/-- Stores that agree on the keys with a prefix have the same scans of that prefix. -/
theorem scan_congr {s s' : OrderedStore γ α} {pre seek : List γ} (h : pre <+: seek)
    (hget : ∀ k, pre <+: k → s.get k = s'.get k) : s.scan pre seek = s'.scan pre seek := by
  have hirrefl : Std.Irrefl fun a b : List γ × α => a.1 < b.1 := ⟨fun a => lt_irrefl a.1⟩
  have hanti : Std.Antisymm fun a b : List γ × α => a.1 < b.1 :=
    ⟨fun a b hab hba => absurd hab hba.asymm⟩
  refine (s.sorted_scan pre seek).eq_of_mem_iff (s'.sorted_scan pre seek) fun e => ?_
  rw [← Prod.mk.eta (p := e), s.mem_scan_iff h, s'.mem_scan_iff h]
  constructor
  · rintro ⟨hv, hle, hpre⟩
    exact ⟨hget _ hpre ▸ hv, hle, hpre⟩
  · rintro ⟨hv, hle, hpre⟩
    exact ⟨(hget _ hpre).symm ▸ hv, hle, hpre⟩

end OrderedStore
