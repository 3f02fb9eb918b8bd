import Thalweg.Data.Json.Nesting

/-!
# What JSON texts denote

An object denotes a map, in which the last member of a name counts; numbers are told apart by their
literals. Two values have the same canonical form exactly if they denote the same.

## Main definitions

* `Json.Value`, `Json.value`: what a JSON value denotes.

## Main results

* `Json.value_canonical`: the canonical form denotes the same.
* `Json.canonical_eq_iff`: canonical forms are equal exactly if the values denote the same.
-/

namespace Json

/-- What a JSON value denotes; an object is a map. -/
inductive Value where
  | null
  | bool (b : Bool)
  | num (literal : Text)
  | str (s : Text)
  | arr (items : List Value)
  | obj (members : Text → Option Value)

mutual

/-- What a JSON value denotes. -/
def value : Json → Value
  | .null => .null
  | .bool b => .bool b
  | .num literal => .num literal
  | .str s => .str s
  | .arr items => .arr (itemsValue items)
  | .obj members => .obj (membersValue members)

/-- What items denote. -/
def itemsValue : List Json → List Value
  | [] => []
  | v :: items => value v :: itemsValue items

/-- The map of a list of members, by the last one of each name. -/
def membersValue : List (Text × Json) → Text → Option Value
  | [], _ => none
  | (k, v) :: members, name =>
    (membersValue members name).or (if k = name then some (value v) else none)

end

/-! ### Last members -/

/-- The last member of a name. -/
def lastMember : List (Text × Json) → Text → Option Json
  | [], _ => none
  | (k, v) :: members, name => (lastMember members name).or (if k = name then some v else none)

theorem membersValue_eq (members : List (Text × Json)) (name : Text) :
    membersValue members name = (lastMember members name).map value := by
  induction members with
  | nil => rfl
  | cons m members ih =>
    rw [membersValue, lastMember, ih, Option.map_or]
    split_ifs <;> rfl

theorem lastMember_canonicalMembers (members : List (Text × Json)) (name : Text) :
    lastMember (canonicalMembers members) name = (lastMember members name).map canonical := by
  induction members with
  | nil => rfl
  | cons m members ih =>
    rw [canonicalMembers, lastMember, lastMember, ih, Option.map_or]
    split_ifs <;> rfl

theorem lookup_cons_eq (k : Text) (v : Json) (members : List (Text × Json)) (name : Text) :
    ((k, v) :: members).lookup name = if name = k then some v else members.lookup name := by
  by_cases h : name = k
  · rw [if_pos h, h, List.lookup_cons_self]
  · rw [if_neg h, List.lookup_cons, beq_eq_false_iff_ne.mpr h]

theorem lookup_insertMember (k : Text) (v : Json) (members : List (Text × Json)) (name : Text) :
    (insertMember k v members).lookup name = if name = k then some v else members.lookup name := by
  induction members with
  | nil => exact lookup_cons_eq k v [] name
  | cons m members ih =>
    obtain ⟨k', v'⟩ := m
    rw [insertMember]
    by_cases hlt : k < k'
    · rw [if_pos hlt, lookup_cons_eq]
    rw [if_neg hlt]
    by_cases heq : k = k'
    · rw [if_pos heq, lookup_cons_eq, lookup_cons_eq, heq]
      split_ifs <;> rfl
    · rw [if_neg heq, lookup_cons_eq, lookup_cons_eq, ih]
      split_ifs with hname hname'
      · exact absurd (hname'.symm.trans hname) heq
      · rfl
      · rfl
      · rfl

theorem lookup_foldl_insertMember (members sorted : List (Text × Json)) (name : Text) :
    (members.foldl (fun acc m => insertMember m.1 m.2 acc) sorted).lookup name =
      (lastMember members name).or (sorted.lookup name) := by
  induction members generalizing sorted with
  | nil => rfl
  | cons m members ih =>
    rw [List.foldl_cons, ih, lookup_insertMember, lastMember, Option.or_assoc]
    simp only [eq_comm (a := m.1)]
    split_ifs <;> rfl

/-- Sorting keeps the last member of each name. -/
theorem lookup_sortMembers (members : List (Text × Json)) (name : Text) :
    (sortMembers members).lookup name = lastMember members name := by
  rw [sortMembers, lookup_foldl_insertMember, List.lookup_nil, Option.or_none]

/-- In the order of their names, the last member of a name is the one that is found. -/
theorem Sorted.lastMember_eq {members : List (Text × Json)} (h : Sorted members) (name : Text) :
    lastMember members name = members.lookup name := by
  rw [← lookup_sortMembers, sortMembers_of_sorted h]

theorem lookup_eq_none_of_lt {name : Text} {members : List (Text × Json)}
    (h : ∀ m ∈ members, name < m.1) : members.lookup name = none :=
  List.lookup_eq_none_iff.mpr fun m hm => bne_iff_ne.mpr (ne_of_lt (h m hm))

theorem Sorted.forall_lt {k : Text} {v : Json} {members : List (Text × Json)}
    (h : Sorted ((k, v) :: members)) {name : Text} (hname : name < k) :
    ∀ m ∈ (k, v) :: members, name < m.1 :=
  List.forall_mem_cons.mpr
    ⟨hname, fun m hm => hname.trans ((List.pairwise_cons.mp h).1 m hm)⟩

/-- Members in the order of their names are known by what is found under each name. -/
theorem Sorted.ext : ∀ {members members' : List (Text × Json)}, Sorted members → Sorted members' →
    (∀ name, members.lookup name = members'.lookup name) → members = members'
  | [], [], _, _, _ => rfl
  | [], (k, v) :: _, _, _, h => by
    have hk := h k
    rw [List.lookup_cons_self] at hk
    cases hk
  | (k, v) :: _, [], _, _, h => by
    have hk := h k
    rw [List.lookup_cons_self] at hk
    cases hk
  | (k, v) :: members, (k', v') :: members', hs, hs', h => by
    have hfirst := h k
    have hsecond := h k'
    rw [List.lookup_cons_self] at hfirst hsecond
    rcases lt_trichotomy k k' with hlt | rfl | hlt
    · rw [lookup_eq_none_of_lt (hs'.forall_lt hlt)] at hfirst
      cases hfirst
    · rw [List.lookup_cons_self] at hfirst
      obtain rfl := Option.some.inj hfirst
      obtain ⟨hlt, hs⟩ := List.pairwise_cons.mp hs
      obtain ⟨hlt', hs'⟩ := List.pairwise_cons.mp hs'
      refine congrArg (List.cons (k, v)) (Sorted.ext hs hs' fun name => ?_)
      by_cases hname : name = k
      · rw [hname, lookup_eq_none_of_lt hlt, lookup_eq_none_of_lt hlt']
      · have hrest := h name
        rwa [lookup_cons_eq, lookup_cons_eq, if_neg hname, if_neg hname] at hrest
    · rw [lookup_eq_none_of_lt (hs.forall_lt hlt)] at hsecond
      cases hsecond

/-! ### Canonical forms -/

theorem membersValue_sortMembers (members : List (Text × Json)) :
    membersValue (sortMembers members) = membersValue members := by
  funext name
  rw [membersValue_eq, membersValue_eq, (sorted_sortMembers members).lastMember_eq,
    lookup_sortMembers]

mutual

/-- The canonical form denotes the same. -/
theorem value_canonical : ∀ v : Json, value (canonical v) = value v
  | .null | .bool _ | .num _ | .str _ => rfl
  | .arr items => congrArg Value.arr (itemsValue_canonicalItems items)
  | .obj members => by
    rw [canonical, value, value, membersValue_sortMembers]
    exact congrArg Value.obj (funext fun name => membersValue_canonicalMembers members name)

theorem itemsValue_canonicalItems : ∀ items : List Json,
    itemsValue (canonicalItems items) = itemsValue items
  | [] => rfl
  | v :: items => by
    rw [canonicalItems, itemsValue, itemsValue, value_canonical v, itemsValue_canonicalItems items]

theorem membersValue_canonicalMembers : ∀ (members : List (Text × Json)) (name : Text),
    membersValue (canonicalMembers members) name = membersValue members name
  | [], _ => rfl
  | (k, v) :: members, name => by
    rw [canonicalMembers, membersValue, membersValue, value_canonical v,
      membersValue_canonicalMembers members name]

end

mutual

/-- Values that denote the same have the same canonical form. -/
theorem canonical_eq_of_value : ∀ {v w : Json}, value v = value w → canonical v = canonical w
  | .null, w, h => by cases w <;> cases h; rfl
  | .bool _, w, h => by cases w <;> cases h; rfl
  | .num _, w, h => by cases w <;> cases h; rfl
  | .str _, w, h => by cases w <;> cases h; rfl
  | .arr items, w, h => by
    cases w with
    | arr items' => exact congrArg Json.arr (canonicalItems_eq_of_value (Value.arr.inj h))
    | _ => cases h
  | .obj members, w, h => by
    cases w with
    | obj members' =>
      refine congrArg Json.obj ((sorted_sortMembers _).ext (sorted_sortMembers _) fun name => ?_)
      have hname := congrFun (Value.obj.inj h) name
      rw [membersValue_eq, membersValue_eq] at hname
      rw [lookup_sortMembers, lookup_sortMembers, lastMember_canonicalMembers,
        lastMember_canonicalMembers]
      exact map_canonical_lastMember members name hname
    | _ => cases h

theorem canonicalItems_eq_of_value : ∀ {items items' : List Json},
    itemsValue items = itemsValue items' → canonicalItems items = canonicalItems items'
  | [], [], _ => rfl
  | [], _ :: _, h => by cases h
  | _ :: _, [], h => by cases h
  | v :: items, w :: items', h => by
    obtain ⟨hv, hitems⟩ := List.cons.inj h
    rw [canonicalItems, canonicalItems, canonical_eq_of_value hv,
      canonicalItems_eq_of_value hitems]

theorem map_canonical_lastMember : ∀ (members : List (Text × Json)) (name : Text)
    {found : Option Json}, (lastMember members name).map value = found.map value →
    (lastMember members name).map canonical = found.map canonical
  | [], _, found, h => by
    cases found with
    | none => rfl
    | some w => cases h
  | (k, v) :: members, name, found, h => by
    have hrest := @map_canonical_lastMember members name found
    rw [lastMember] at h ⊢
    cases hlast : lastMember members name with
    | some u =>
      rw [hlast] at hrest h
      exact hrest h
    | none =>
      rw [hlast, Option.none_or] at h
      rw [Option.none_or]
      split_ifs at h ⊢ with hname
      · cases found with
        | none => cases h
        | some w => exact congrArg some (canonical_eq_of_value (Option.some.inj h))
      · cases found with
        | none => rfl
        | some w => cases h

end

/-- **Canonical forms.** They are equal exactly if the values denote the same. -/
theorem canonical_eq_iff {v w : Json} : canonical v = canonical w ↔ value v = value w :=
  ⟨fun h => by rw [← value_canonical v, h, value_canonical w], canonical_eq_of_value⟩

end Json
