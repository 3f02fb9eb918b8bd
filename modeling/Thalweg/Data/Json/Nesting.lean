import Mathlib.Data.List.Pairwise
import Thalweg.Data.Json.Spelling

/-!
# Nesting

A text needs no more depth to be read than the value that is read nests (`parseValue_of_depth_le`).
So a text that spells a value at some depth spells it at the depth of the value, and is read on its
own exactly if the value nests no deeper than texts are read (`Spells.parse_eq_some_iff`).

Reading an object as a map keeps the last member of each name (`mem_sortMembers_of_nodup`).
-/

namespace Json

mutual

/-- A value is read at every depth that it nests to. -/
theorem parseValue_of_depth_le : ∀ (fuel : Nat) {depth depth' : Nat} {t rest : Text} {v : Json},
    parseValue fuel depth t = some (v, rest) → v.depth ≤ depth' →
    parseValue fuel depth' t = some (v, rest)
  | 0, _, _, _, _, _, h, _ => by simp [parseValue] at h
  | _ + 1, _, _, [], _, _, h, _ => by simp [parseValue] at h
  | fuel + 1, depth, depth', c :: t, rest, v, h, hd => by
    unfold parseValue at h ⊢
    split_ifs at h ⊢
    · obtain ⟨⟨members, rest'⟩, hm, heq⟩ := Option.map_eq_some_iff.mp h
      obtain ⟨rfl, rfl⟩ := Prod.mk.inj heq
      rw [parseObject_of_depth_le fuel hm hd]
      rfl
    · obtain ⟨⟨items, rest'⟩, hi, heq⟩ := Option.map_eq_some_iff.mp h
      obtain ⟨rfl, rfl⟩ := Prod.mk.inj heq
      rw [parseArray_of_depth_le fuel hi hd]
      rfl
    all_goals exact h

theorem parseArray_of_depth_le : ∀ (fuel : Nat) {depth depth' : Nat} {t rest : Text}
    {items : List Json}, parseArray fuel depth t = some (items, rest) →
    itemsDepth items + 1 ≤ depth' → parseArray fuel depth' t = some (items, rest)
  | 0, _, _, _, _, _, h, _ => by simp [parseArray] at h
  | _ + 1, 0, _, _, _, _, h, _ => by simp [parseArray] at h
  | _ + 1, _, 0, _, _, _, _, hd => absurd hd (by omega)
  | _ + 1, _ + 1, _, [], _, _, h, _ => by simp [parseArray] at h
  | fuel + 1, depth + 1, depth' + 1, c :: t, rest, items, h, hd => by
    unfold parseArray at h ⊢
    split_ifs at h ⊢
    · exact h
    · exact parseItems_of_depth_le fuel h (Nat.le_of_succ_le_succ hd)

theorem parseItems_of_depth_le : ∀ (fuel : Nat) {depth depth' : Nat} {t rest : Text}
    {items : List Json}, parseItems fuel depth t = some (items, rest) →
    itemsDepth items ≤ depth' → parseItems fuel depth' t = some (items, rest)
  | 0, _, _, _, _, _, h, _ => by simp [parseItems] at h
  | fuel + 1, depth, depth', t, rest, items, h, hd => by
    unfold parseItems at h ⊢
    split at h
    · cases h
    next v after hv =>
    split at h
    · cases h
    next c next hnext =>
    split_ifs at h with h1 h2
    · obtain ⟨rfl, rfl⟩ := Prod.mk.inj (Option.some.inj h)
      rw [parseValue_of_depth_le fuel hv (Nat.le_trans (Nat.le_max_left _ _) hd)]
      simp [hnext, h1]
    · obtain ⟨⟨items', rest'⟩, hi, heq⟩ := Option.map_eq_some_iff.mp h
      obtain ⟨rfl, rfl⟩ := Prod.mk.inj heq
      rw [parseValue_of_depth_le fuel hv (Nat.le_trans (Nat.le_max_left _ _) hd)]
      simp [hnext, h2, parseItems_of_depth_le fuel hi (Nat.le_trans (Nat.le_max_right _ _) hd)]

theorem parseObject_of_depth_le : ∀ (fuel : Nat) {depth depth' : Nat} {t rest : Text}
    {members : RawMembers}, parseObject fuel depth t = some (members, rest) →
    membersDepth (members.map fun m => (m.1, m.2.2)) + 1 ≤ depth' →
    parseObject fuel depth' t = some (members, rest)
  | 0, _, _, _, _, _, h, _ => by simp [parseObject] at h
  | _ + 1, 0, _, _, _, _, h, _ => by simp [parseObject] at h
  | _ + 1, _, 0, _, _, _, _, hd => absurd hd (by omega)
  | _ + 1, _ + 1, _, [], _, _, h, _ => by simp [parseObject] at h
  | fuel + 1, depth + 1, depth' + 1, c :: t, rest, members, h, hd => by
    unfold parseObject at h ⊢
    split_ifs at h ⊢
    · exact h
    · exact parseMembers_of_depth_le fuel h (Nat.le_of_succ_le_succ hd)

theorem parseMembers_of_depth_le : ∀ (fuel : Nat) {depth depth' : Nat} {t rest : Text}
    {members : RawMembers}, parseMembers fuel depth t = some (members, rest) →
    membersDepth (members.map fun m => (m.1, m.2.2)) ≤ depth' →
    parseMembers fuel depth' t = some (members, rest)
  | 0, _, _, _, _, _, h, _ => by simp [parseMembers] at h
  | fuel + 1, depth, depth', t, rest, members, h, hd => by
    unfold parseMembers at h ⊢
    split at h
    · cases h
    next k start hk =>
    split at h
    · cases h
    next v after hv =>
    split at h
    · cases h
    next c next hnext =>
    split_ifs at h with h1 h2
    · obtain ⟨rfl, rfl⟩ := Prod.mk.inj (Option.some.inj h)
      rw [parseValue_of_depth_le fuel hv (Nat.le_trans (Nat.le_max_left _ _) hd)]
      simp [hnext, h1]
    · obtain ⟨⟨members', rest'⟩, hm, heq⟩ := Option.map_eq_some_iff.mp h
      obtain ⟨rfl, rfl⟩ := Prod.mk.inj heq
      rw [parseValue_of_depth_le fuel hv (Nat.le_trans (Nat.le_max_left _ _) hd)]
      simp [hnext, h2, parseMembers_of_depth_le fuel hm (Nat.le_trans (Nat.le_max_right _ _) hd)]

end

/-- A text that spells a value spells it at the depth of the value. -/
theorem Spells.of_depth {depth : Nat} {v : Json} {w : Text} (h : Spells depth v w) :
    Spells v.depth v w where
  head := h.head
  read := fun {fuel d _} hfuel hd hr =>
    parseValue_of_depth_le fuel (h.read hfuel (le_max_left depth d) hr) hd
  size := h.size

theorem Spells.mono {d d' : Nat} {v : Json} {w : Text} (h : Spells d v w) (hle : d ≤ d') :
    Spells d' v w :=
  ⟨h.head, fun hfuel hd => h.read hfuel (hle.trans hd), h.size⟩

/-- A value nests no deeper than the depth at which a text spells it. -/
theorem Spells.depth_le {depth : Nat} {v : Json} {w : Text} (h : Spells depth v w) :
    v.depth ≤ depth :=
  (parseValue_spec _ _ _ _ _ (h.read (r := []) le_rfl le_rfl stops_nil)).2

/-- A text that spells a value is read as it, if it is read at all. -/
theorem Spells.parse_eq_some_iff {depth : Nat} {v u : Json} {w : Text} (h : Spells depth v w) :
    Json.parse w = some u ↔ u = v ∧ v.depth ≤ maxDepth := by
  constructor
  · intro hu
    have hdepth := (parse_spec hu).2
    have hread := @Spells.read _ _ _ h (2 * w.length + 1) _ [] (by omega)
      (le_max_left depth maxDepth) stops_nil
    have hspace := h.skipSpace_append isSpace_nil []
    simp only [List.nil_append, List.append_nil] at hread hspace
    unfold Json.parse parseFirst at hu
    rw [hspace] at hu
    split at hu
    · next u' rest hfirst =>
      split_ifs at hu
      obtain rfl := Option.some.inj hu
      have hsame := parseValue_mono le_rfl (le_max_right depth maxDepth) hfirst
      rw [hread] at hsame
      obtain rfl := (Prod.mk.inj (Option.some.inj hsame)).1
      exact ⟨rfl, hdepth⟩
    · cases hu
  · rintro ⟨rfl, hdepth⟩
    exact h.of_depth.parse hdepth

/-- A record of texts that spell the values of its members spells the object of them. -/
theorem spells_renderRecord {depth : Nat} {members : RawMembers} (hne : members ≠ [])
    (h : ∀ m ∈ members, Spells depth m.2.2 m.2.1) :
    Spells (depth + 1) (.obj (members.map fun m => (m.1, m.2.2)))
      (renderRecord (members.map fun m => (m.1, m.2.1))) := by
  have hspells := (spellsMembers_renderFields hne h).object.spells isSpace_nil
  obtain ⟨m, members, rfl⟩ := List.exists_cons_of_ne_nil hne
  have htext : renderRecord ((m :: members).map fun m => (m.1, m.2.1)) =
      ['{'] ++ ([] ++ (renderFields ((m :: members).map fun m => (m.1, m.2.1))).drop 1) := by
    simp [renderRecord, renderFields]
  rwa [htext]

/-! ### Members of maps -/

theorem mem_insertMember_self (k : Text) (v : Json) (members : List (Text × Json)) :
    (k, v) ∈ insertMember k v members := by
  induction members with
  | nil => exact List.mem_singleton.mpr rfl
  | cons m members ih =>
    rw [insertMember]
    split_ifs
    · exact List.mem_cons_self
    · exact List.mem_cons_self
    · exact List.mem_cons_of_mem _ ih

theorem mem_insertMember_of_ne {k : Text} (v : Json) {m : Text × Json} (hk : m.1 ≠ k)
    {members : List (Text × Json)} (h : m ∈ members) : m ∈ insertMember k v members := by
  induction members with
  | nil => cases h
  | cons n members ih =>
    obtain ⟨k', v'⟩ := n
    rw [insertMember]
    split_ifs with hlt heq
    · exact List.mem_cons_of_mem _ h
    · rcases List.mem_cons.mp h with rfl | h
      · exact absurd heq.symm hk
      · exact List.mem_cons_of_mem _ h
    · rcases List.mem_cons.mp h with rfl | h
      · exact List.mem_cons_self
      · exact List.mem_cons_of_mem _ (ih h)

theorem mem_foldl_insertMember {m : Text × Json} {members sorted : List (Text × Json)}
    (hnodup : (members.map Prod.fst).Nodup)
    (h : m ∈ members ∨ m ∈ sorted ∧ m.1 ∉ members.map Prod.fst) :
    m ∈ members.foldl (fun acc n => insertMember n.1 n.2 acc) sorted := by
  induction members generalizing sorted with
  | nil => exact h.elim nofun fun hm => hm.1
  | cons n members ih =>
    obtain ⟨hn, hnodup⟩ := List.nodup_cons.mp hnodup
    refine ih hnodup ?_
    rcases h with hm | ⟨hm, hnot⟩
    · rcases List.mem_cons.mp hm with rfl | hm
      · exact Or.inr ⟨mem_insertMember_self _ _ _, hn⟩
      · exact Or.inl hm
    · rw [List.map_cons, List.mem_cons, not_or] at hnot
      exact Or.inr ⟨mem_insertMember_of_ne _ hnot.1 hm, hnot.2⟩

/-- Where every name occurs once, every member is kept. -/
theorem mem_sortMembers_of_nodup {m : Text × Json} {members : List (Text × Json)}
    (hnodup : (members.map Prod.fst).Nodup) (h : m ∈ members) : m ∈ sortMembers members :=
  mem_foldl_insertMember hnodup (Or.inl h)

theorem Sorted.eq_of_name {members : List (Text × Json)} (h : Sorted members)
    {m n : Text × Json} (hm : m ∈ members) (hn : n ∈ members) (hname : m.1 = n.1) : m = n := by
  have hsymm : Std.Symm fun m n : Text × Json => m.1 = n.1 → m = n :=
    ⟨fun _ _ hmn heq => (hmn heq.symm).symm⟩
  have hpairs : members.Pairwise fun m n => m.1 = n.1 → m = n :=
    h.imp fun hlt heq => absurd heq (ne_of_lt hlt)
  exact List.Pairwise.forall_of_forall (fun _ _ _ => rfl) hpairs hm hn hname

theorem map_fst_canonicalMembers (members : List (Text × Json)) :
    (canonicalMembers members).map Prod.fst = members.map Prod.fst := by
  rw [canonicalMembers_eq_map, List.map_map]
  rfl

/-- Equal maps have equal values under a name, where it occurs once on either side. -/
theorem canonical_member_eq {members members' : List (Text × Json)}
    (h : canonical (.obj members) = canonical (.obj members'))
    (hnodup : (members.map Prod.fst).Nodup) (hnodup' : (members'.map Prod.fst).Nodup)
    {k : Text} {v v' : Json} (hv : (k, v) ∈ members) (hv' : (k, v') ∈ members') :
    canonical v = canonical v' := by
  have hmem : ∀ {ms : List (Text × Json)} {u : Json}, (ms.map Prod.fst).Nodup → (k, u) ∈ ms →
      (k, canonical u) ∈ sortMembers (canonicalMembers ms) := by
    intro ms u hms hu
    refine mem_sortMembers_of_nodup (by rwa [map_fst_canonicalMembers]) ?_
    rw [canonicalMembers_eq_map]
    exact List.mem_map.mpr ⟨(k, u), hu, rfl⟩
  have hsame : sortMembers (canonicalMembers members) =
      sortMembers (canonicalMembers members') := by
    simpa [canonical] using h
  have hfirst := hmem hnodup hv
  rw [hsame] at hfirst
  exact (Prod.mk.inj ((sorted_sortMembers _).eq_of_name hfirst (hmem hnodup' hv') rfl)).2

/-- The depth of a map in which every name occurs once. -/
theorem depth_canonical_obj {members : List (Text × Json)}
    (hnodup : (members.map Prod.fst).Nodup) :
    (canonical (.obj members)).depth = membersDepth (canonicalMembers members) + 1 := by
  refine congrArg (· + 1) (le_antisymm ?_ ?_)
  · exact membersDepth_le_iff.mpr fun m hm =>
      membersDepth_le_iff.mp le_rfl m (mem_of_mem_sortMembers hm)
  · rw [← map_fst_canonicalMembers] at hnodup
    exact membersDepth_le_iff.mpr fun m hm =>
      membersDepth_le_iff.mp le_rfl m (mem_sortMembers_of_nodup hnodup hm)

end Json
