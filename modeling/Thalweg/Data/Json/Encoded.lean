import Thalweg.Data.Json.Items
import Thalweg.Data.Json.Marshal

/-!
# What an encoding is read as

The encoding of a value spells a JSON value: that of its parts, with the values of the raw texts it
embeds. Every reader of JSON reads this value.

## Main definitions

* `Marshalable.value`: the JSON value of a value to encode.

## Main results

* `spells_marshal`: an encoding spells the value.
* `Spells.unique`: a text spells one value.
* `parseRecord_marshal`: an encoded object is read as its members.
-/

namespace Json

/-- A text spells no two values. -/
theorem Spells.unique {d d' : Nat} {v v' : Json} {w : Text} (h : Spells d v w)
    (h' : Spells d' v' w) : v = v' := by
  have hread := h.read (r := []) (le_refl (2 * w.length)) (le_max_left d d') stops_nil
  rw [h'.read (le_refl (2 * w.length)) (le_max_right d d') stops_nil] at hread
  exact (Prod.mk.inj (Option.some.inj hread)).1.symm

mutual

/-- The JSON value that is encoded; a raw text stands for what it is read as. -/
def Marshalable.value : Marshalable → Json
  | .null => .null
  | .bool b => .bool b
  | .num literal => .num literal
  | .str s => .str s
  | .raw message => (parse message).getD .null
  | .arr items => .arr (itemValues items)
  | .obj members => .obj (memberValues members)

/-- The values of items. -/
def itemValues : List Marshalable → List Json
  | [] => []
  | v :: items => v.value :: itemValues items

/-- The members with their values. -/
def memberValues : List (Text × Marshalable) → List (Text × Json)
  | [] => []
  | (k, v) :: members => (k, v.value) :: memberValues members

end

theorem spells_of_compact {message w : Text} (h : compact message = some w) :
    Spells ((parse message).getD .null).depth ((parse message).getD .null) w := by
  unfold compact at h
  cases hparse : parse message with
  | none => simp [hparse] at h
  | some v =>
    rw [hparse] at h
    obtain rfl := Option.some.inj h
    exact (parse_spells hparse).of_depth

mutual

/-- **Encodings are read.** The encoding of a value spells its JSON value. -/
theorem spells_marshal : ∀ (v : Marshalable) {w : Text}, marshal v = some w →
    Spells v.value.depth v.value w
  | .null, w, h => by
    obtain rfl := Option.some.inj h
    exact spells_word _ (Or.inl rfl)
  | .bool true, w, h => by
    obtain rfl := Option.some.inj h
    exact spells_word _ (Or.inr (Or.inl rfl))
  | .bool false, w, h => by
    obtain rfl := Option.some.inj h
    exact spells_word _ (Or.inr (Or.inr rfl))
  | .num literal, w, h => by
    rw [marshal] at h
    split_ifs at h with hnum
    obtain rfl := Option.some.inj h
    exact spells_number _ hnum
  | .str s, w, h => by
    obtain rfl := Option.some.inj h
    exact spells_quote _ s
  | .raw message, w, h => spells_of_compact h
  | .arr items, w, h => by
    obtain ⟨texts, htexts, rfl⟩ := Option.map_eq_some_iff.mp h
    obtain ⟨pairs, hvalues, rfl, hspells⟩ := spells_marshalItems items htexts le_rfl
    rw [Marshalable.value, ← hvalues]
    exact (spells_renderArray hspells).of_depth
  | .obj members, w, h => by
    obtain ⟨fields, hfields, rfl⟩ := Option.map_eq_some_iff.mp h
    obtain ⟨raws, hvalues, rfl, hspells⟩ := spells_marshalMembers members hfields le_rfl
    rw [Marshalable.value, ← hvalues]
    cases raws with
    | nil => exact ((spellsObject_nil 0).spells isSpace_nil).of_depth
    | cons m raws => exact (spells_renderRecord (List.cons_ne_nil m raws) hspells).of_depth

theorem spells_marshalItems : ∀ (items : List Marshalable) {texts : List Text} {depth : Nat},
    marshalItems items = some texts → itemsDepth (itemValues items) ≤ depth →
    ∃ pairs : List (Text × Json), pairs.map Prod.snd = itemValues items ∧
      pairs.map Prod.fst = texts ∧ ∀ m ∈ pairs, Spells depth m.2 m.1
  | [], texts, depth, h, _ => by
    obtain rfl := Option.some.inj h
    exact ⟨[], rfl, rfl, List.forall_mem_nil _⟩
  | v :: items, texts, depth, h, hdepth => by
    simp only [marshalItems, Option.bind_eq_bind, Option.bind_eq_some_iff] at h
    obtain ⟨text, htext, rest, hrest, heq⟩ := h
    obtain rfl := Option.some.inj heq
    obtain ⟨hfirst, hitems⟩ := max_le_iff.mp hdepth
    obtain ⟨pairs, hvalues, rfl, hspells⟩ := spells_marshalItems items hrest hitems
    refine ⟨(text, v.value) :: pairs, ?_, rfl, List.forall_mem_cons.mpr
      ⟨(spells_marshal v htext).mono hfirst, hspells⟩⟩
    rw [List.map_cons, hvalues, itemValues]

theorem spells_marshalMembers : ∀ (members : List (Text × Marshalable))
    {fields : List (Text × Text)} {depth : Nat}, marshalMembers members = some fields →
    membersDepth (memberValues members) ≤ depth →
    ∃ raws : RawMembers, (raws.map fun m => (m.1, m.2.2)) = memberValues members ∧
      (raws.map fun m => (m.1, m.2.1)) = fields ∧ ∀ m ∈ raws, Spells depth m.2.2 m.2.1
  | [], fields, depth, h, _ => by
    obtain rfl := Option.some.inj h
    exact ⟨[], rfl, rfl, List.forall_mem_nil _⟩
  | (k, v) :: members, fields, depth, h, hdepth => by
    simp only [marshalMembers, Option.bind_eq_bind, Option.bind_eq_some_iff] at h
    obtain ⟨text, htext, rest, hrest, heq⟩ := h
    obtain rfl := Option.some.inj heq
    obtain ⟨hfirst, hmembers⟩ := max_le_iff.mp hdepth
    obtain ⟨raws, hvalues, rfl, hspells⟩ := spells_marshalMembers members hrest hmembers
    refine ⟨(k, text, v.value) :: raws, ?_, rfl, List.forall_mem_cons.mpr
      ⟨(spells_marshal v htext).mono hfirst, hspells⟩⟩
    rw [List.map_cons, hvalues, memberValues]

end

/-! ### Encoded records -/

/-- The members of an encoded object: their names, the encodings of their values and what these
spell. -/
def encodedMembers (members : List (Text × Marshalable)) : RawMembers :=
  members.map fun m => (m.1, (marshal m.2).getD [], m.2.value)

theorem encodedMembers_eq {members : List (Text × Marshalable)} {fields : List (Text × Text)}
    (h : marshalMembers members = some fields) :
    ((encodedMembers members).map fun m => (m.1, m.2.2)) = memberValues members ∧
      ((encodedMembers members).map fun m => (m.1, m.2.1)) = fields ∧
      ∀ m ∈ encodedMembers members,
        Spells (membersDepth (memberValues members)) m.2.2 m.2.1 := by
  induction members generalizing fields with
  | nil =>
    obtain rfl := Option.some.inj h
    exact ⟨rfl, rfl, List.forall_mem_nil _⟩
  | cons m members ih =>
    obtain ⟨k, v⟩ := m
    simp only [marshalMembers, Option.bind_eq_bind, Option.bind_eq_some_iff] at h
    obtain ⟨text, htext, rest, hrest, heq⟩ := h
    obtain rfl := Option.some.inj heq
    obtain ⟨hvalues, htexts, hspells⟩ := ih hrest
    simp only [encodedMembers, List.map_cons, htext, Option.getD_some, memberValues,
      membersDepth, List.forall_mem_cons] at hvalues htexts hspells ⊢
    refine ⟨by rw [hvalues], by rw [htexts], ?_, fun m hm => ?_⟩
    · exact (spells_marshal v htext).mono (le_max_left _ _)
    · exact (hspells m hm).mono (le_max_right _ _)

/-- An encoded object is read as its members if they do not nest too deep. -/
theorem parseRecord_marshal {members : List (Text × Marshalable)} {w : Text} (hne : members ≠ [])
    (h : marshal (.obj members) = some w)
    (hdepth : membersDepth (memberValues members) < maxDepth) :
    parseRecord w = some (encodedMembers members) := by
  obtain ⟨fields, hfields, rfl⟩ := Option.map_eq_some_iff.mp h
  obtain ⟨-, htexts, hspells⟩ := encodedMembers_eq hfields
  rw [← htexts]
  refine parseRecord_renderRecord (by simpa [encodedMembers] using hne) fun m hm => ?_
  exact (hspells m hm).mono (by omega)

/-- A text that spells a value is read first, if it is flat enough. -/
theorem Spells.parseFirst_append {d : Nat} {v : Json} {w : Text} (h : Spells d v w) {r : Text}
    (hr : Stops r) :
    parseFirst (w ++ r) = if v.depth ≤ maxDepth then some (v, r) else none := by
  have hspace : skipSpace (w ++ r) = w ++ r := h.skipSpace_append isSpace_nil r
  have hfuel : 2 * w.length ≤ 2 * (w ++ r).length + 1 := by
    rw [List.length_append]
    omega
  rw [parseFirst, hspace]
  split_ifs with hdepth
  · exact h.of_depth.read hfuel hdepth hr
  · refine Option.eq_none_iff_forall_ne_some.mpr fun p hp => hdepth ?_
    have hread := h.read hfuel (le_max_left d maxDepth) hr
    rw [parseValue_mono le_rfl (le_max_right d maxDepth) hp] at hread
    have hvalue : p.1 = v := congrArg Prod.fst (Option.some.inj hread)
    exact hvalue ▸ (parseValue_spec _ _ _ _ _ hp).2

end Json
