import Thalweg.Data.Json.RoundTrip

/-!
# Records as JSON objects

A record is written as an object with its fields in a fixed order and read by setting, from a
default, the field that each member names. A member names the field of exactly its name or else the
first field whose name differs from it in case only; other members are skipped or, in strict
reading, refused.

* `Json.renderRecord` writes the fields of a record, each given by the text of its value.
* `Json.decodeRecord` reads a record by the setters of its fields.
* `Json.decodeRecord_renderRecord`: a record that was written is read by setting its fields in turn.
-/

namespace Json

/-! ### Writing -/

/-- The fields after the first of a record, up to the closing brace. -/
def renderFields : List (Text × Text) → Text
  | [] => ['}']
  | f :: fields => ',' :: quote f.1 ++ ':' :: f.2 ++ renderFields fields

/-- The text of a record with the given names and texts of values. -/
def renderRecord : List (Text × Text) → Text
  | [] => ['{', '}']
  | f :: fields => '{' :: quote f.1 ++ ':' :: f.2 ++ renderFields fields

/-- The items after the first of an array of texts, up to the closing bracket. -/
def renderRest : List Text → Text
  | [] => [']']
  | t :: ts => ',' :: t ++ renderRest ts

/-- The text of an array with the given texts of items. -/
def renderArray : List Text → Text
  | [] => ['[', ']']
  | t :: ts => '[' :: t ++ renderRest ts

theorem renderFields_map (members : List (Text × Json)) :
    renderFields (members.map fun m => (m.1, render m.2)) = renderMembers members := by
  induction members with
  | nil => rfl
  | cons m members ih =>
    obtain ⟨k, v⟩ := m
    simp [renderFields, renderMembers, ih]

/-- A record whose fields hold the compact texts of values is the compact text of an object. -/
theorem renderRecord_map (members : List (Text × Json)) :
    renderRecord (members.map fun m => (m.1, render m.2)) = render (.obj members) := by
  rcases members with _ | ⟨⟨k, v⟩, members⟩
  · rfl
  · simp [renderRecord, render, renderFields_map]

/-- The text of a field is a part of the text of the record. -/
theorem length_le_renderFields {fields : List (Text × Text)} {f : Text × Text} (h : f ∈ fields) :
    f.2.length ≤ (renderFields fields).length := by
  induction fields with
  | nil => cases h
  | cons g fields ih =>
    simp only [renderFields, List.length_cons, List.length_append]
    rcases List.mem_cons.mp h with rfl | hf
    · omega
    · have := ih hf
      omega

theorem length_le_renderRecord {fields : List (Text × Text)} {f : Text × Text} (h : f ∈ fields) :
    f.2.length ≤ (renderRecord fields).length := by
  cases fields with
  | nil => cases h
  | cons g fields => simpa [renderRecord, renderFields] using length_le_renderFields h

theorem length_le_quote (s : Text) : s.length ≤ (quote s).length := by
  have hrune : ∀ c, 1 ≤ (quoteRune c).length := by
    intro c
    unfold quoteRune
    split_ifs <;> simp [unicodeEscape]
  have hbody : s.length ≤ (s.flatMap quoteRune).length := by
    induction s with
    | nil => simp
    | cons c s ih =>
      have := hrune c
      simp only [List.flatMap_cons, List.length_append, List.length_cons]
      omega
  simp only [quote, List.length_append, List.length_cons]
  omega

/-! ### Reading -/

/-- The rune that stands for all runes that differ from it in case only, as far as ASCII names can
contain one of them. -/
def foldRune (c : Char) : Char :=
  if c.toNat = 0x212A then 'K'
  else if c.toNat = 0x17F then 'S'
  else c.toUpper

/-- The element for the field that a member of name `key` names. -/
def lookupField {σ : Type*} (fields : List (Text × σ)) (key : Text) : Option σ :=
  match fields.find? fun f => decide (f.1 = key) with
  | some f => some f.2
  | none => (fields.find? fun f => decide (f.1.map foldRune = key.map foldRune)).map Prod.snd

/-- How a field is set from the raw text and the value of a member. -/
abbrev Setter (σ : Type*) := σ → Text → Json → Option σ

/-- Set the field that a member names; `strict` refuses members that name none. -/
def setMember {σ : Type*} (strict : Bool) (fields : List (Text × Setter σ)) (s : σ)
    (m : Text × Text × Json) : Option σ :=
  match lookupField fields m.1 with
  | some set => set s m.2.1 m.2.2
  | none => if strict then none else some s

/-- The record of a text; `null` leaves the default. -/
def decodeRecord {σ : Type*} (strict : Bool) (fields : List (Text × Setter σ)) (default : σ)
    (t : Text) : Option σ :=
  match parseRecord t with
  | some members => members.foldlM (setMember strict fields) default
  | none =>
    match parse t with
    | some .null => some default
    | _ => none

/-- A text field; `null` leaves it as it is. -/
def decodeText (old : Text) : Json → Option Text
  | .str s => some s
  | .null => some old
  | _ => none

/-- A field of unsigned 64-bit numbers. -/
def decodeUInt64 (old : UInt64) : Json → Option UInt64
  | .num literal =>
    match Text.parseDecimal literal with
    | some n => if n < 2 ^ 64 then some (UInt64.ofNat n) else none
    | none => none
  | .null => some old
  | _ => none

/-- A field of signed 64-bit numbers. -/
def decodeInt (old : Int) : Json → Option Int
  | .num ('-' :: literal) =>
    match Text.parseDecimal literal with
    | some n => if n ≤ 2 ^ 63 then some (-(n : Int)) else none
    | none => none
  | .num literal =>
    match Text.parseDecimal literal with
    | some n => if n < 2 ^ 63 then some (n : Int) else none
    | none => none
  | .null => some old
  | _ => none

/-- The texts of an array. -/
def decodeTexts : Json → Option (List Text)
  | .arr items => items.mapM (decodeText [])
  | .null => some []
  | _ => none

/-- A record inside another one. -/
def decodeObject {σ : Type*} (fields : List (Text × Setter σ)) (default : σ) : Json → Option σ
  | .obj members => (rawMembers members).foldlM (setMember false fields) default
  | .null => some default
  | _ => none

/-- A record reads back from its text by setting its fields in turn. -/
theorem decodeRecord_renderRecord {σ : Type*} (strict : Bool) (fields : List (Text × Setter σ))
    (default : σ) {members : List (Text × Json)} (hne : members ≠ [])
    (h : MembersWellFormed IsNumber members) (hdepth : membersDepth members + 1 ≤ maxDepth) :
    decodeRecord strict fields default (render (.obj members)) =
      (rawMembers members).foldlM (setMember strict fields) default := by
  rw [decodeRecord, parseRecord_render hne h hdepth]

theorem parseRecord_cons_of_ne {c : Char} (hs : isSpace c = false) (hc : c ≠ '{') (t : Text) :
    parseRecord (c :: t) = none := by
  unfold parseRecord
  rw [skipSpace_cons hs]
  split
  · next inner hinner => exact absurd (List.head_eq_of_cons_eq hinner) hc
  · rfl

/-- Only objects are read as records. -/
theorem parseRecord_render_eq_none {v : Json} (h : WellFormed IsNumber v)
    (hv : ∀ members, v ≠ .obj members) : parseRecord (render v) = none := by
  cases v with
  | obj members => exact absurd rfl (hv members)
  | null => exact parseRecord_cons_of_ne rfl (by decide) _
  | bool b => cases b <;> exact parseRecord_cons_of_ne rfl (by decide) _
  | str s => exact parseRecord_cons_of_ne rfl (by decide) _
  | arr items => cases items <;> exact parseRecord_cons_of_ne rfl (by decide) _
  | num literal =>
    obtain ⟨c, t, hc, hs, -⟩ := head_render (.num literal) h
    rw [hc]
    refine parseRecord_cons_of_ne hs ?_ t
    rintro rfl
    have hnumber := forall_mem_isNumber h '{' (by simp [show literal = '{' :: t from hc])
    cases hnumber

theorem parseRecord_render_empty : parseRecord (render (.obj [])) = some [] := by
  have hread : parseObject 4 maxDepth ['}'] = some ([], []) := by simp [parseObject, maxDepth]
  simp [parseRecord, render, skipSpace, isSpace, hread]

/-- What reading a record from the text of a value says about the value. -/
theorem decodeRecord_render_eq_some {σ : Type*} {strict : Bool} {fields : List (Text × Setter σ)}
    {default s : σ} {v : Json} (h : WellFormed IsNumber v) (hdepth : v.depth ≤ maxDepth)
    (hread : decodeRecord strict fields default (render v) = some s) :
    s = default ∨ ∃ members, v = .obj members ∧
      (rawMembers members).foldlM (setMember strict fields) default = some s := by
  unfold decodeRecord at hread
  split at hread
  · next raw hraw =>
    cases v with
    | obj members =>
      refine Or.inr ⟨members, rfl, ?_⟩
      by_cases hne : members = []
      · subst hne
        rw [parseRecord_render_empty] at hraw
        cases hraw
        exact hread
      · rwa [← (parseRecord_render_eq_some hne h hraw).1]
    | _ =>
      rw [parseRecord_render_eq_none h (by simp)] at hraw
      cases hraw
  · next hnone =>
    rw [parse_render h hdepth] at hread
    cases v <;> cases hread
    exact Or.inl rfl

theorem exists_mem_of_lookupField {σ : Type*} {fields : List (Text × σ)} {key : Text} {x : σ}
    (h : lookupField fields key = some x) : ∃ f ∈ fields, f.2 = x := by
  unfold lookupField at h
  split at h
  · next f hf =>
    cases h
    exact ⟨f, List.mem_of_find?_eq_some hf, rfl⟩
  · obtain ⟨f, hf, rfl⟩ := Option.map_eq_some_iff.mp h
    exact ⟨f, List.mem_of_find?_eq_some hf, rfl⟩

/-- In strict reading, every member satisfies what the setters demand of the values. -/
theorem forall_mem_of_foldlM_setMember {σ : Type*} {fields : List (Text × Setter σ)} {p : Json → Prop}
    (hp : ∀ f ∈ fields, ∀ s raw v s', f.2 s raw v = some s' → p v) {members : RawMembers} {s s' : σ}
    (h : members.foldlM (setMember true fields) s = some s') : ∀ m ∈ members, p m.2.2 := by
  induction members generalizing s with
  | nil => simp
  | cons m members ih =>
    simp only [List.foldlM_cons, Option.bind_eq_bind, Option.bind_eq_some_iff] at h
    obtain ⟨t, ht, h⟩ := h
    refine List.forall_mem_cons.mpr ⟨?_, ih h⟩
    unfold setMember at ht
    split at ht
    · next set hset =>
      obtain ⟨f, hf, rfl⟩ := exists_mem_of_lookupField hset
      exact hp f hf _ _ _ _ ht
    · cases ht

/-- A property of records that every field keeps, when it is set from a member, holds of what is
read. -/
theorem foldlM_setMember_induction {σ : Type*} {strict : Bool} {fields : List (Text × Setter σ)}
    {P : σ → Prop} {p : Text → Json → Prop}
    (hset : ∀ f ∈ fields, ∀ s raw v s', P s → p raw v → f.2 s raw v = some s' → P s')
    {members : RawMembers} (hmembers : ∀ m ∈ members, p m.2.1 m.2.2) {s s' : σ} (hs : P s)
    (h : members.foldlM (setMember strict fields) s = some s') : P s' := by
  induction members generalizing s with
  | nil =>
    obtain rfl := Option.some.inj h
    exact hs
  | cons m members ih =>
    obtain ⟨hm, hrest⟩ := List.forall_mem_cons.mp hmembers
    simp only [List.foldlM_cons, Option.bind_eq_bind, Option.bind_eq_some_iff] at h
    obtain ⟨t, ht, h⟩ := h
    refine ih hrest ?_ h
    unfold setMember at ht
    split at ht
    · next set hset' =>
      obtain ⟨f, hf, rfl⟩ := exists_mem_of_lookupField hset'
      exact hset f hf _ _ _ _ hs hm ht
    · cases strict
      · obtain rfl := Option.some.inj ht
        exact hs
      · cases ht

theorem depth_of_decodeText {old s : Text} {v : Json} (h : decodeText old v = some s) :
    v.depth = 0 := by
  cases v <;> first | rfl | cases h

theorem depth_of_decodeInt {old n : Int} {v : Json} (h : decodeInt old v = some n) :
    v.depth = 0 := by
  cases v <;> first | rfl | cases h

/-- The first and the last character of the text of a value are not white space. -/
theorem trimSpace_render {v : Json} (h : WellFormed IsNumber v) :
    Text.trimSpace (render v) = render v := by
  have hitems : ∀ items : List Json, (renderItems items).getLast? = some ']' := by
    intro items
    induction items with
    | nil => rfl
    | cons v items ih => simp [renderItems, List.getLast?_cons, List.getLast?_append, ih]
  have hmembers : ∀ members : List (Text × Json), (renderMembers members).getLast? = some '}' := by
    intro members
    induction members with
    | nil => rfl
    | cons m members ih => simp [renderMembers, List.getLast?_cons, List.getLast?_append, ih]
  have hnumber : ∀ c, isNumberChar c = true → Text.isSpace c = false := by
    intro c hc
    simp only [isNumberChar, Bool.or_eq_true, beq_iff_eq] at hc
    rcases hc with ((((hc | rfl) | rfl) | rfl) | rfl) | rfl
    · simp only [Char.isDigit, Bool.and_eq_true, decide_eq_true_eq, UInt32.le_iff_toNat_le] at hc
      have h1 : 48 ≤ c.toNat := hc.1
      have h2 : c.toNat ≤ 57 := hc.2
      simp [Text.isSpace]
      omega
    all_goals decide
  cases v with
  | null => rfl
  | bool b => cases b <;> rfl
  | num literal =>
    have hall := forall_mem_isNumber h
    exact Text.trimSpace_eq_self (fun c hc => hnumber c (hall c (List.mem_of_head? hc)))
      fun c hc => hnumber c (hall c (List.mem_of_getLast? hc))
  | str s =>
    refine Text.trimSpace_eq_self ?_ ?_
    · rintro c ⟨⟩
      rfl
    · intro c hc
      simp only [render, quote, List.getLast?_append, List.getLast?_singleton, Option.some_or,
        Option.some.injEq] at hc
      subst hc
      rfl
  | arr items =>
    cases items with
    | nil => rfl
    | cons v items =>
      refine Text.trimSpace_eq_self ?_ ?_
      · rintro c ⟨⟩
        rfl
      · intro c hc
        simp only [render, List.getLast?_append, hitems, Option.some_or, Option.some.injEq] at hc
        subst hc
        rfl
  | obj members =>
    rcases members with _ | ⟨⟨k, v⟩, members⟩
    · rfl
    · refine Text.trimSpace_eq_self ?_ ?_
      · rintro c ⟨⟩
        rfl
      · intro c hc
        simp only [render, List.getLast?_append, hmembers, Option.some_or, Option.some.injEq] at hc
        subst hc
        rfl

theorem spanDigits_of_forall {t : Text} (h : ∀ c ∈ t, c.isDigit = true) :
    spanDigits t = (t, []) := by
  induction t with
  | nil => rfl
  | cons c t ih => simp [spanDigits, h c (by simp), ih fun d hd => h d (by simp [hd])]

theorem intPart_decimal (n : Nat) : intPart (Text.decimal n) = some (Text.decimal n, []) := by
  have hall : ∀ c ∈ Text.decimal n, c.isDigit = true := fun _ hc => Text.isDigit_of_mem_decimal hc
  obtain ⟨c, t, hct⟩ := List.exists_cons_of_ne_nil (Text.decimal_ne_nil n)
  by_cases hc : c = '0'
  · have hn : n = 0 := by
      by_contra hpos
      exact Text.head_decimal_ne_zero n (by omega) (by simp [hct, hc])
    subst hn
    rfl
  · rw [hct, intPart_of_isDigit hc, ← hct]
    exact digits1_eq_some.mpr ⟨Text.decimal_ne_nil n, spanDigits_of_forall hall⟩

/-- A number in decimal is a number literal. -/
theorem isNumber_decimal (n : Nat) : IsNumber (Text.decimal n) := by
  obtain ⟨c, t, hct⟩ := List.exists_cons_of_ne_nil (Text.decimal_ne_nil n)
  have hsign : signPart false (Text.decimal n) = ([], Text.decimal n) := by
    have hdigit := isDigit_ne_sign (Text.isDigit_of_mem_decimal (c := c) (n := n) (by simp [hct]))
    rw [hct]
    unfold signPart
    split
    · next h => cases h; exact absurd rfl hdigit.1
    · next h => cases h; exact absurd rfl hdigit.2.1
    · rfl
  simp [IsNumber, readNumber, hsign, intPart_decimal, fracPart, expPart]

theorem isNumber_decimalInt (n : Int) : IsNumber (Text.decimalInt n) := by
  unfold Text.decimalInt
  split_ifs
  · simp [IsNumber, readNumber, signPart, intPart_decimal, fracPart, expPart]
  · exact isNumber_decimal _

/-- A signed 64-bit number reads back from its decimal text. -/
theorem decodeInt_decimalInt (old : Int) {n : Int} (hlow : -2 ^ 63 ≤ n) (hhigh : n < 2 ^ 63) :
    decodeInt old (.num (Text.decimalInt n)) = some n := by
  unfold Text.decimalInt
  split_ifs with hn
  · have habs : n.natAbs ≤ 2 ^ 63 := by omega
    have hneg : -(n.natAbs : Int) = n := by omega
    simp only [decodeInt, Text.parseDecimal_decimal, habs, if_true, hneg]
  · have habs : n.natAbs < 2 ^ 63 := by omega
    have hpos : (n.natAbs : Int) = n := by omega
    obtain ⟨c, t, hct⟩ := List.exists_cons_of_ne_nil (Text.decimal_ne_nil n.natAbs)
    have hdigit := isDigit_ne_sign
      (Text.isDigit_of_mem_decimal (c := c) (n := n.natAbs) (by simp [hct]))
    have hparse := Text.parseDecimal_decimal n.natAbs
    rw [hct] at hparse ⊢
    unfold decodeInt
    split
    · next h => cases h; exact absurd rfl hdigit.1
    · next h => cases h; simp only [hparse, habs, if_true, hpos]
    all_goals simp_all

end Json
