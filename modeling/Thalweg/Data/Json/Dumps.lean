import Thalweg.Data.Json.Indent
import Thalweg.Data.Json.Items
import Thalweg.Data.Json.Marshal

/-!
# Values written with few escapes

The compact text of a value as most encoders write it: of the characters of a string, quotes,
backslashes and control characters are escaped only. Every reader of JSON reads the value.

## Main definitions

* `Json.dumps`: the text of a value.

## Main results

* `Json.spells_dumps`: the text spells the value.
* `Json.parseRecord_dumps`: the text of an object is read as its members.
* `Json.isLine_dumps`: the text is one line.
-/

namespace Json

/-! ### Strings -/

/-- The characters that stand for a character in a string. -/
def escapeRune (c : Char) : Text :=
  if c = '"' ∨ c = '\\' then ['\\', c]
  else if c = '\n' then ['\\', 'n']
  else if c = '\r' then ['\\', 'r']
  else if c = '\t' then ['\\', 't']
  else if c.toNat = 8 then ['\\', 'b']
  else if c.toNat = 12 then ['\\', 'f']
  else if c.toNat < 0x20 then unicodeEscape c.toNat
  else [c]

/-- The characters of a string up to the closing quote. -/
def escapeRunes (s : Text) : Text := s.flatMap escapeRune ++ ['"']

/-- The literal of a string. -/
def dumpsText (s : Text) : Text := '"' :: escapeRunes s

theorem spellsRune_backslash {c e : Char} (low : Bool) (hne : e ≠ 'u')
    (h : ∀ x, readRune '\\' (e :: x) = some (c, 1)) : SpellsRune c low '\\' [e] where
  ne := by decide
  read x _ := h x
  starts x x' := by
    rw [List.cons_append, List.cons_append, List.cons_append, List.cons_append,
      startsLow_of_ne_u hne, startsLow_of_ne_u hne]

theorem spellsRune_escapeRune (c : Char) (low : Bool) :
    ∃ head chunk, escapeRune c = head :: chunk ∧ SpellsRune c low head chunk := by
  unfold escapeRune
  split_ifs with h1 h2 h3 h4 h5 h6 h7
  · refine ⟨_, _, rfl, spellsRune_backslash low ?_ ?_⟩
    · rcases h1 with rfl | rfl <;> decide
    · rcases h1 with rfl | rfl <;> exact fun x => rfl
  · subst h2
    exact ⟨_, _, rfl, spellsRune_backslash low (by decide) fun x => rfl⟩
  · subst h3
    exact ⟨_, _, rfl, spellsRune_backslash low (by decide) fun x => rfl⟩
  · subst h4
    exact ⟨_, _, rfl, spellsRune_backslash low (by decide) fun x => rfl⟩
  · obtain rfl : c = Char.ofNat 8 := by rw [← h5, Char.ofNat_toNat]
    exact ⟨_, _, rfl, spellsRune_backslash low (by decide) fun x => rfl⟩
  · obtain rfl : c = Char.ofNat 12 := by rw [← h6, Char.ofNat_toNat]
    exact ⟨_, _, rfl, spellsRune_backslash low (by decide) fun x => rfl⟩
  · exact ⟨_, _, rfl, spellsRune_unicodeEscape (by omega) low⟩
  · push Not at h1
    exact ⟨_, _, rfl, spellsRune_self h1.1 h1.2 h7 low⟩

theorem spellsString_escapeRunes (s : Text) : SpellsString s (escapeRunes s) := by
  induction s with
  | nil => exact spellsString_nil
  | cons c s ih =>
    obtain ⟨head, chunk, hescape, hrune⟩ := spellsRune_escapeRune c (startsLow (escapeRunes s))
    have htext : escapeRunes (c :: s) = head :: chunk ++ escapeRunes s := by
      rw [escapeRunes, List.flatMap_cons, hescape, List.append_assoc]
      rfl
    rw [htext]
    refine SpellsString.cons hrune ih fun r => ?_
    rw [ih.starts r [], List.append_nil]

theorem spells_dumpsText (depth : Nat) (s : Text) : Spells depth (.str s) (dumpsText s) :=
  spells_string depth (spellsString_escapeRunes s)

theorem spellsName_dumpsText (k : Text) : SpellsName k (dumpsText k ++ [':']) where
  head := ⟨_, rfl⟩
  read r := by
    have hkey := (spellsString_escapeRunes k).read (':' :: r)
    have htext : dumpsText k ++ [':'] ++ r = '"' :: (escapeRunes k ++ ':' :: r) := by
      rw [List.append_assoc]
      rfl
    rw [htext]
    simp only [parseName, if_true, hkey, skipSpace_cons (show isSpace ':' = false from rfl)]

/-! ### Values -/

mutual

/-- The text of a value, with no space around its separators. -/
def dumps : Json → Text
  | .null => ['n', 'u', 'l', 'l']
  | .bool true => ['t', 'r', 'u', 'e']
  | .bool false => ['f', 'a', 'l', 's', 'e']
  | .num literal => literal
  | .str s => dumpsText s
  | .arr [] => ['[', ']']
  | .arr (v :: items) => ['['] ++ (dumps v ++ dumpsItems items)
  | .obj [] => ['{', '}']
  | .obj ((k, v) :: members) => ['{'] ++ (dumpsText k ++ [':'] ++ (dumps v ++ dumpsMembers members))

/-- The items after the first of an array, up to the closing bracket. -/
def dumpsItems : List Json → Text
  | [] => [']']
  | v :: items => [','] ++ (dumps v ++ dumpsItems items)

/-- The members after the first of an object, up to the closing brace. -/
def dumpsMembers : List (Text × Json) → Text
  | [] => ['}']
  | (k, v) :: members => [','] ++ (dumpsText k ++ [':'] ++ (dumps v ++ dumpsMembers members))

end

/-- The members of an object as they are read from its text. -/
def dumpedMembers (members : List (Text × Json)) : RawMembers :=
  members.map fun m => (m.1, dumps m.2, m.2)

mutual

/-- The text of a value spells it. -/
theorem spells_dumps : ∀ (d : Nat) (v : Json), WellFormed IsNumber v → v.depth ≤ d →
    Spells d v (dumps v)
  | _, .null, _, _ => spells_word _ (Or.inl rfl)
  | _, .bool true, _, _ => spells_word _ (Or.inr (Or.inl rfl))
  | _, .bool false, _, _ => spells_word _ (Or.inr (Or.inr rfl))
  | _, .num literal, h, _ => spells_number _ h
  | _, .str s, _, _ => spells_dumpsText _ s
  | _, .arr [], _, hdepth => ((spellsArray_nil 0).spells isSpace_nil).mono hdepth
  | d, .arr (v :: items), h, hdepth => by
    obtain ⟨d, rfl⟩ : ∃ n, d = n + 1 := ⟨d - 1, by simp only [depth] at hdepth; omega⟩
    have hitems := spells_dumpsItems d v items h (by simp only [depth] at hdepth; omega)
    rw [dumps]
    exact hitems.array.spells isSpace_nil
  | _, .obj [], _, hdepth => ((spellsObject_nil 0).spells isSpace_nil).mono hdepth
  | d, .obj ((k, v) :: members), h, hdepth => by
    obtain ⟨d, rfl⟩ : ∃ n, d = n + 1 := ⟨d - 1, by simp only [depth] at hdepth; omega⟩
    have hmembers := spells_dumpsMembers d k v members h (by simp only [depth] at hdepth; omega)
    have hobject := hmembers.object.spells isSpace_nil
    rw [dumps]
    simpa [dumpedMembers, Function.comp_def] using hobject

theorem spells_dumpsItems : ∀ (d : Nat) (v : Json) (items : List Json),
    ItemsWellFormed IsNumber (v :: items) → itemsDepth (v :: items) ≤ d →
    SpellsItems d (v :: items) (dumps v ++ dumpsItems items)
  | d, v, [], h, hdepth => by
    have hv := spells_dumps d v h.1 (by simp only [itemsDepth] at hdepth; omega)
    exact hv.lastItem isSpace_nil
  | d, v, w :: items, h, hdepth => by
    have hv := spells_dumps d v h.1 (by simp only [itemsDepth] at hdepth; omega)
    have hrest := spells_dumpsItems d w items h.2 (by simp only [itemsDepth] at hdepth ⊢; omega)
    exact hrest.cons hv isSpace_nil isSpace_nil

theorem spells_dumpsMembers : ∀ (d : Nat) (k : Text) (v : Json) (members : List (Text × Json)),
    MembersWellFormed IsNumber ((k, v) :: members) → membersDepth ((k, v) :: members) ≤ d →
    SpellsMembers d (dumpedMembers ((k, v) :: members))
      (dumpsText k ++ [':'] ++ (dumps v ++ dumpsMembers members))
  | d, k, v, [], h, hdepth => by
    have hv := spells_dumps d v h.1 (by simp only [membersDepth] at hdepth; omega)
    exact Spells.lastMember (spellsName_dumpsText k) hv isSpace_nil isSpace_nil
  | d, k, v, (k', v') :: members, h, hdepth => by
    have hv := spells_dumps d v h.1 (by simp only [membersDepth] at hdepth; omega)
    have hrest := spells_dumpsMembers d k' v' members h.2
      (by simp only [membersDepth] at hdepth ⊢; omega)
    exact hrest.cons (spellsName_dumpsText k) hv isSpace_nil isSpace_nil isSpace_nil

end

/-- **Round trip of objects.** The text of an object is read as its members. -/
theorem parseRecord_dumps {members : List (Text × Json)} (hne : members ≠ [])
    (h : MembersWellFormed IsNumber members) (hdepth : membersDepth members + 1 ≤ maxDepth)
    {sp : Text} (hsp : IsSpace sp) :
    parseRecord (dumps (.obj members) ++ sp) = some (dumpedMembers members) := by
  obtain ⟨⟨k, v⟩, members, rfl⟩ := List.exists_cons_of_ne_nil hne
  have hmembers := spells_dumpsMembers _ k v members h le_rfl
  rw [dumps]
  exact hmembers.parseRecord_eq hdepth isSpace_nil hsp

/-! ### Arrays -/

theorem dumpsItems_eq (items : List Json) : dumpsItems items = renderRest (items.map dumps) := by
  induction items with
  | nil => rfl
  | cons v items ih => simp [dumpsItems, renderRest, ih]

theorem dumps_arr (items : List Json) : dumps (.arr items) = renderArray (items.map dumps) := by
  cases items with
  | nil => rfl
  | cons v items => simp [dumps, renderArray, dumpsItems_eq]

theorem parse_dumps {v : Json} (h : WellFormed IsNumber v) (hdepth : v.depth ≤ maxDepth) :
    parse (dumps v) = some v :=
  (spells_dumps _ v h le_rfl).parse_eq_some_iff.mpr ⟨rfl, hdepth⟩

/-! ### Lines -/

theorem notMem_escapeRune (c : Char) : '\n' ∉ escapeRune c := by
  unfold escapeRune
  split_ifs with h1 h2 h3 h4 h5 h6 h7
  · rcases h1 with rfl | rfl <;> decide
  · decide
  · decide
  · decide
  · decide
  · decide
  · exact notMem_unicodeEscape c.toNat
  · exact fun hmem => h2 (List.mem_singleton.mp hmem).symm

theorem notMem_dumpsText (s : Text) : '\n' ∉ dumpsText s := by
  simp only [dumpsText, escapeRunes, List.mem_cons, List.mem_append, List.mem_flatMap,
    List.not_mem_nil, or_false, not_or, not_exists, not_and]
  exact ⟨by decide, fun c _ => notMem_escapeRune c, by decide⟩

mutual

/-- The text of a value has no line break. -/
theorem notMem_dumps : ∀ v : Json, WellFormed IsNumber v → '\n' ∉ dumps v
  | .null, _ => by decide
  | .bool true, _ => by decide
  | .bool false, _ => by decide
  | .num _, h => (isLine_of_isNumber h).noBreak
  | .str s, _ => notMem_dumpsText s
  | .arr [], _ => by decide
  | .arr (v :: items), h => by
    have hv := notMem_dumps v h.1
    have hitems := notMem_dumpsItems items h.2
    simp [dumps, hv, hitems]
  | .obj [], _ => by decide
  | .obj ((k, v) :: members), h => by
    have hk := notMem_dumpsText k
    have hv := notMem_dumps v h.1
    have hmembers := notMem_dumpsMembers members h.2
    simp [dumps, hk, hv, hmembers]

theorem notMem_dumpsItems : ∀ items : List Json, ItemsWellFormed IsNumber items →
    '\n' ∉ dumpsItems items
  | [], _ => by decide
  | v :: items, h => by
    have hv := notMem_dumps v h.1
    have hitems := notMem_dumpsItems items h.2
    simp [dumpsItems, hv, hitems]

theorem notMem_dumpsMembers : ∀ members : List (Text × Json), MembersWellFormed IsNumber members →
    '\n' ∉ dumpsMembers members
  | [], _ => by decide
  | (k, v) :: members, h => by
    have hk := notMem_dumpsText k
    have hv := notMem_dumps v h.1
    have hmembers := notMem_dumpsMembers members h.2
    simp [dumpsMembers, hk, hv, hmembers]

end

/-- A text of a value without line breaks is one line without white space at its ends. -/
theorem Spells.isLine {d : Nat} {v : Json} {w : Text} (h : Spells d v w) (hbreak : '\n' ∉ w) :
    IsLine w := by
  obtain ⟨c, u, htext, -⟩ := h.head
  have hread := h.read (r := []) le_rfl le_rfl stops_nil
  rw [List.append_nil] at hread
  refine ⟨hbreak, ⟨c, u, htext, ?_⟩, ?_⟩
  · rw [htext] at hread
    exact isEdge_of_parseValue hread
  · obtain ⟨last, hlast, x, hx⟩ := (takes_parseValue _ _ hread).last
    exact ⟨x, last, hx.symm, hlast⟩

theorem isLine_dumps {v : Json} (h : WellFormed IsNumber v) : IsLine (dumps v) :=
  (spells_dumps _ v h le_rfl).isLine (notMem_dumps v h)

end Json
