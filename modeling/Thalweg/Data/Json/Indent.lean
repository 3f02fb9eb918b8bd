import Thalweg.Data.Json.Record
import Thalweg.Data.Json.Nesting

/-!
# Indented texts of JSON values

A value is written with every item and every member on a line of its own, indented by two spaces
for each level of nesting. Such a text spells the value, so that it is read as the value.
-/

namespace Json

/-- A line break with the indentation of a level. -/
def breakLine (level : Nat) : Text := '\n' :: List.replicate (2 * level) ' '

mutual

/-- The indented text of a value at a level of nesting. -/
def renderIndent : Nat → Json → Text
  | level, .arr (v :: items) =>
    ['['] ++ (breakLine (level + 1) ++ (renderIndent (level + 1) v ++
      renderIndentItems level items))
  | level, .obj ((k, v) :: members) =>
    ['{'] ++ (breakLine (level + 1) ++ (quote k ++ [':'] ++ ([' '] ++ (renderIndent (level + 1) v ++
      renderIndentMembers level members))))
  | _, v => render v

/-- The items after the first of an array, up to the closing bracket. -/
def renderIndentItems : Nat → List Json → Text
  | level, [] => breakLine level ++ [']']
  | level, v :: items =>
    [','] ++ (breakLine (level + 1) ++ (renderIndent (level + 1) v ++
      renderIndentItems level items))

/-- The members after the first of an object, up to the closing brace. -/
def renderIndentMembers : Nat → List (Text × Json) → Text
  | level, [] => breakLine level ++ ['}']
  | level, (k, v) :: members =>
    [','] ++ (breakLine (level + 1) ++ (quote k ++ [':'] ++ ([' '] ++ (renderIndent (level + 1) v ++
      renderIndentMembers level members))))

end

/-- The members of an object as they are read from its indented text. -/
def indentedMembers (level : Nat) (members : List (Text × Json)) : RawMembers :=
  members.map fun m => (m.1, renderIndent level m.2, m.2)

theorem isSpace_breakLine (level : Nat) : IsSpace (breakLine level) := by
  intro c hc
  rcases List.mem_cons.mp hc with rfl | hc
  · rfl
  · rw [List.eq_of_mem_replicate hc]
    rfl

theorem isSpace_singleton : IsSpace [' '] := by
  intro c hc
  rw [List.mem_singleton.mp hc]
  rfl

mutual

/-- **Indentation.** The indented text of a value spells it. -/
theorem spells_renderIndent : ∀ (level d : Nat) (v : Json), WellFormed IsNumber v → v.depth ≤ d →
    Spells d v (renderIndent level v)
  | level, d, .arr (v :: items), h, hdepth => by
    obtain ⟨d, rfl⟩ : ∃ n, d = n + 1 := ⟨d - 1, by simp only [depth] at hdepth; omega⟩
    have hitems := spells_renderIndentItems level d v items h
      (by simp only [depth] at hdepth; omega)
    rw [renderIndent]
    exact hitems.array.spells (isSpace_breakLine _)
  | level, d, .obj ((k, v) :: members), h, hdepth => by
    obtain ⟨d, rfl⟩ : ∃ n, d = n + 1 := ⟨d - 1, by simp only [depth] at hdepth; omega⟩
    have hmembers := spells_renderIndentMembers level d k v members h
      (by simp only [depth] at hdepth; omega)
    have hobject := hmembers.object.spells (isSpace_breakLine (level + 1))
    rw [renderIndent]
    simpa [indentedMembers, Function.comp_def] using hobject
  | _, _, .null, _, _ => spells_word _ (Or.inl rfl)
  | _, _, .bool true, _, _ => spells_word _ (Or.inr (Or.inl rfl))
  | _, _, .bool false, _, _ => spells_word _ (Or.inr (Or.inr rfl))
  | _, _, .num literal, h, _ => spells_number _ h
  | _, _, .str s, _, _ => spells_quote _ s
  | _, _, .arr [], _, hdepth => by
    obtain ⟨d, rfl⟩ := Nat.exists_eq_add_of_le' hdepth
    exact ((spellsArray_nil 0).spells isSpace_nil).mono hdepth
  | _, _, .obj [], _, hdepth => by
    exact ((spellsObject_nil 0).spells isSpace_nil).mono hdepth

theorem spells_renderIndentItems : ∀ (level d : Nat) (v : Json) (items : List Json),
    ItemsWellFormed IsNumber (v :: items) → itemsDepth (v :: items) ≤ d →
    SpellsItems d (v :: items) (renderIndent (level + 1) v ++ renderIndentItems level items)
  | level, d, v, [], h, hdepth => by
    have hv := spells_renderIndent (level + 1) d v h.1 (by simp only [itemsDepth] at hdepth; omega)
    exact hv.lastItem (isSpace_breakLine level)
  | level, d, v, w :: items, h, hdepth => by
    have hv := spells_renderIndent (level + 1) d v h.1 (by simp only [itemsDepth] at hdepth; omega)
    have hrest := spells_renderIndentItems level d w items h.2
      (by simp only [itemsDepth] at hdepth ⊢; omega)
    exact hrest.cons hv isSpace_nil (isSpace_breakLine (level + 1))

theorem spells_renderIndentMembers : ∀ (level d : Nat) (k : Text) (v : Json)
    (members : List (Text × Json)), MembersWellFormed IsNumber ((k, v) :: members) →
    membersDepth ((k, v) :: members) ≤ d →
    SpellsMembers d (indentedMembers (level + 1) ((k, v) :: members))
      (quote k ++ [':'] ++ ([' '] ++ (renderIndent (level + 1) v ++
        renderIndentMembers level members)))
  | level, d, k, v, [], h, hdepth => by
    have hv := spells_renderIndent (level + 1) d v h.1
      (by simp only [membersDepth] at hdepth; omega)
    exact Spells.lastMember (spellsName_quote k) hv isSpace_singleton (isSpace_breakLine level)
  | level, d, k, v, (k', v') :: members, h, hdepth => by
    have hv := spells_renderIndent (level + 1) d v h.1
      (by simp only [membersDepth] at hdepth; omega)
    have hrest := spells_renderIndentMembers level d k' v' members h.2
      (by simp only [membersDepth] at hdepth ⊢; omega)
    exact hrest.cons (spellsName_quote k) hv isSpace_singleton isSpace_nil
      (isSpace_breakLine (level + 1))

end

/-- A text that spells members is read as a record, with the space before them and after it. -/
theorem SpellsMembers.parseRecord_eq {d : Nat} {members : RawMembers} {w sp sp' : Text}
    (h : SpellsMembers d members w) (hd : d + 1 ≤ maxDepth) (hsp : IsSpace sp)
    (hsp' : IsSpace sp') :
    parseRecord (['{'] ++ (sp ++ w) ++ sp') = some members := by
  have hspace : skipSpace sp' = [] := by
    have := hsp'.skipSpace_append []
    rwa [List.append_nil] at this
  have hread := @SpellsObject.read _ _ _ h.object (2 * (['{'] ++ (sp ++ w) ++ sp').length) maxDepth
    sp' (by simp only [List.length_append]; omega) hd
  have htext : ['{'] ++ (sp ++ w) ++ sp' = '{' :: (sp ++ (w ++ sp')) := by simp
  rw [htext] at hread ⊢
  unfold parseRecord
  rw [skipSpace_cons rfl]
  simp only [h.skipSpace_append hsp, hread, hspace, if_true]

/-- An indented record is read as its members. -/
theorem parseRecord_renderIndent {members : List (Text × Json)} (hne : members ≠ [])
    (h : MembersWellFormed IsNumber members) (hdepth : membersDepth members + 1 ≤ maxDepth)
    (level : Nat) {sp : Text} (hsp : IsSpace sp) :
    parseRecord (renderIndent level (.obj members) ++ sp) =
      some (indentedMembers (level + 1) members) := by
  obtain ⟨⟨k, v⟩, members, rfl⟩ := List.exists_cons_of_ne_nil hne
  have hmembers := spells_renderIndentMembers level _ k v members h le_rfl
  rw [renderIndent]
  exact hmembers.parseRecord_eq hdepth (isSpace_breakLine (level + 1)) hsp

end Json
