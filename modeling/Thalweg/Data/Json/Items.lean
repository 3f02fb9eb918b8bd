import Thalweg.Data.Json.Nesting

/-!
# Arrays of items

The items of an array are decoded from their raw texts, each into the element that the list holds in
its place already.

## Main definitions

* `Json.parseTexts`: the raw texts of the items of an array.
* `Json.Slice`, `Json.decodeSlice`: lists that are decoded into the elements that they hold.

## Main results

* `Json.parseTexts_renderArray`: the texts that an array is written from are its raw texts.
* `Json.decodeSlice_nil`: a list that holds no elements gets those of the array.
* `Json.parse_of_parseRecord`: a record is read within the depth of texts.
-/

namespace Json

/-- The raw texts of one or more items of an array up to its closing bracket, and the rest. -/
def splitItems : Nat → Nat → Text → Option (List Text × Text)
  | 0, _, _ => none
  | fuel + 1, depth, t =>
    match parseValue fuel depth t with
    | none => none
    | some (_, after) =>
      match skipSpace after with
      | [] => none
      | c :: rest =>
        if c = ']' then some ([before t after], rest)
        else if c = ',' then
          (splitItems fuel depth (skipSpace rest)).map fun p => (before t after :: p.1, p.2)
        else none

/-- The raw texts of the items of a text that holds exactly one array. -/
def parseTexts (t : Text) : Option (List Text) :=
  match skipSpace t with
  | '[' :: inner =>
    match skipSpace inner with
    | [] => none
    | c :: rest =>
      if c = ']' then if skipSpace rest = [] then some [] else none
      else
        match splitItems (2 * (c :: rest).length) (maxDepth - 1) (c :: rest) with
        | some (texts, rest) => if skipSpace rest = [] then some texts else none
        | none => none
  | _ => none

/-! ### Slices -/

/-- A list with the elements that its array keeps behind its end. -/
structure Slice (α : Type) where
  items : List α
  spare : List α

/-- The list without an array. -/
def Slice.nil {α : Type} : Slice α := ⟨[], []⟩

/-- Decode items into the elements of an array, the first of which hold values already. -/
def decodeElements {α ι : Type} (decode : α → ι → Option α) (zero : α) :
    List α → List ι → Option (List α)
  | _, [] => some []
  | olds, item :: items => do
    let x ← decode (olds.head?.getD zero) item
    let xs ← decodeElements decode zero olds.tail items
    some (x :: xs)

/-- Decode items into a list. What the array holds is decoded into, also behind the list's end. -/
def Slice.refill {α ι : Type} (decode : α → ι → Option α) (zero : α) (old : Slice α)
    (items : List ι) : Option (Slice α) := do
  let xs ← decodeElements decode zero (old.items ++ old.spare) items
  some (if items.isEmpty then .nil else ⟨xs, (old.items ++ old.spare).drop items.length⟩)

/-- A field of a list whose items are decoded from their raw texts. -/
def decodeSlice {α : Type} (decode : α → Text → Option α) (zero : α) (old : Slice α) (raw : Text) :
    Json → Option (Slice α)
  | .arr _ => (parseTexts raw).bind (old.refill decode zero)
  | .null => some .nil
  | _ => none

/-- A field of a list whose items are decoded from their values. -/
def decodeItems {α : Type} (decode : α → Json → Option α) (zero : α) (old : Slice α) :
    Json → Option (Slice α)
  | .arr items => old.refill decode zero items
  | .null => some .nil
  | _ => none

/-- An element of a list of texts. -/
def decodeTextElement (old text : Text) : Option Text := (parse text).bind (decodeText old)

theorem decodeElements_map {α β ι : Type} {decode : α → ι → Option α} {zero : α} {item : β → ι}
    {element : β → α} : ∀ {xs : List β}, (∀ x ∈ xs, decode zero (item x) = some (element x)) →
      decodeElements decode zero [] (xs.map item) = some (xs.map element)
  | [], _ => rfl
  | x :: xs, h => by
    obtain ⟨hx, hxs⟩ := List.forall_mem_cons.mp h
    have hrest := decodeElements_map hxs
    rw [List.map_cons, decodeElements, List.head?_nil, Option.getD_none, List.tail_nil, hx, hrest]
    rfl

/-- A list without an array gets the elements that the items are decoded to. -/
theorem refill_nil {α β ι : Type} {decode : α → ι → Option α} {zero : α} {item : β → ι}
    {element : β → α} {xs : List β} (h : ∀ x ∈ xs, decode zero (item x) = some (element x)) :
    Slice.nil.refill decode zero (xs.map item) = some ⟨xs.map element, []⟩ := by
  simp only [Slice.refill, Slice.nil, decodeElements_map h, Option.bind_eq_bind, Option.bind_some,
    List.append_nil, List.drop_nil]
  cases xs with
  | nil => rfl
  | cons x xs => rfl

theorem decodeSlice_nil {α β : Type} {decode : α → Text → Option α} {zero : α} {text : β → Text}
    {element : β → α} {xs : List β} {raw : Text} (hraw : parseTexts raw = some (xs.map text))
    (h : ∀ x ∈ xs, decode zero (text x) = some (element x)) (values : List Json) :
    decodeSlice decode zero .nil raw (.arr values) = some ⟨xs.map element, []⟩ := by
  rw [decodeSlice, hraw, Option.bind_some, refill_nil h]

theorem itemsDepth_le_iff {items : List Json} {n : Nat} :
    itemsDepth items ≤ n ↔ ∀ v ∈ items, v.depth ≤ n := by
  induction items with
  | nil => simp [itemsDepth]
  | cons v items ih => simp [itemsDepth, ih]

/-! ### Arrays of texts that spell values -/

/-- An array that is written from texts that spell values spells the array of them. -/
theorem spellsItems_renderRest {depth : Nat} : ∀ {v : Json} {w : Text} {items : List (Text × Json)},
    Spells depth v w → (∀ m ∈ items, Spells depth m.2 m.1) →
    SpellsItems depth (v :: items.map Prod.snd) (w ++ renderRest (items.map Prod.fst))
  | v, w, [], hv, _ => hv.lastItem isSpace_nil
  | v, w, (w', v') :: items, hv, h => by
    obtain ⟨hv', hitems⟩ := List.forall_mem_cons.mp h
    exact (spellsItems_renderRest hv' hitems).cons hv isSpace_nil isSpace_nil

theorem spells_renderArray {depth : Nat} {items : List (Text × Json)}
    (h : ∀ m ∈ items, Spells depth m.2 m.1) :
    Spells (depth + 1) (.arr (items.map Prod.snd)) (renderArray (items.map Prod.fst)) := by
  cases items with
  | nil => exact (spellsArray_nil depth).spells isSpace_nil
  | cons m items =>
    obtain ⟨hm, hitems⟩ := List.forall_mem_cons.mp h
    exact (spellsItems_renderRest hm hitems).array.spells isSpace_nil

/-- The raw texts of the items of a written array. -/
theorem splitItems_renderRest {depth : Nat} : ∀ {w : Text} {texts : List Text} {fuel : Nat},
    (∀ u ∈ w :: texts, ∃ v, Spells depth v u) →
    2 * (w ++ renderRest texts).length ≤ fuel + 1 →
    splitItems fuel depth (w ++ renderRest texts) = some (w :: texts, [])
  | w, [], fuel, h, hfuel => by
    obtain ⟨v, hv⟩ := h w List.mem_cons_self
    have hlen := hv.one_le_length
    rw [renderRest, List.length_append, List.length_singleton] at hfuel
    obtain ⟨fuel, rfl⟩ : ∃ n, fuel = n + 1 := ⟨fuel - 1, by omega⟩
    have hread := hv.read (show 2 * w.length ≤ fuel by omega) le_rfl
      (stops_cons (c := ']') rfl [])
    rw [renderRest, splitItems, hread]
    simp only [skipSpace_cons (show isSpace ']' = false from rfl), if_true, before_append]
  | w, u :: texts, fuel, h, hfuel => by
    obtain ⟨⟨v, hv⟩, htexts⟩ := List.forall_mem_cons.mp h
    obtain ⟨x, hx⟩ := htexts u List.mem_cons_self
    have hlen := hv.one_le_length
    have hrender : renderRest (u :: texts) = ',' :: (u ++ renderRest texts) := rfl
    rw [hrender, List.length_append, List.length_cons] at hfuel
    obtain ⟨fuel, rfl⟩ : ∃ n, fuel = n + 1 := ⟨fuel - 1, by omega⟩
    have hread := hv.read (show 2 * w.length ≤ fuel by omega) le_rfl
      (stops_cons (c := ',') rfl (u ++ renderRest texts))
    have hnext : skipSpace (u ++ renderRest texts) = u ++ renderRest texts := by
      simpa using hx.skipSpace_append isSpace_nil (renderRest texts)
    have hrest := splitItems_renderRest htexts (show _ ≤ fuel + 1 by omega)
    rw [hrender, splitItems, hread]
    simp only [skipSpace_cons (show isSpace ',' = false from rfl), hnext, hrest, before_append]
    rfl

/-- **Round trip of arrays.** The texts that an array is written from are its raw texts. -/
theorem parseTexts_renderArray {texts : List Text}
    (h : ∀ w ∈ texts, ∃ v, Spells (maxDepth - 1) v w) :
    parseTexts (renderArray texts) = some texts := by
  unfold parseTexts
  cases texts with
  | nil => decide
  | cons w texts =>
    obtain ⟨v, hv⟩ := h w List.mem_cons_self
    obtain ⟨c, u, hw, hspace, hc⟩ := hv.head
    have htext : renderArray (w :: texts) = '[' :: (w ++ renderRest texts) := rfl
    have hstart : skipSpace (w ++ renderRest texts) = w ++ renderRest texts := by
      simpa using hv.skipSpace_append isSpace_nil (renderRest texts)
    have hsplit := splitItems_renderRest h
      (show _ ≤ 2 * (w ++ renderRest texts).length + 1 by omega)
    rw [htext, skipSpace_cons (show isSpace '[' = false from rfl)]
    have hend : skipSpace [] = [] := rfl
    rw [hw, List.cons_append] at hstart hsplit ⊢
    simp only [hstart, if_neg hc, hsplit, hend, if_true]

/-! ### Written records -/

theorem renderRecord_ne_nil (fields : List (Text × Text)) : renderRecord fields ≠ [] := by
  cases fields <;> exact List.cons_ne_nil _ _

theorem getLast?_renderFields (fields : List (Text × Text)) :
    (renderFields fields).getLast? = some '}' := by
  induction fields with
  | nil => rfl
  | cons f fields ih => simp [renderFields, List.getLast?_cons, List.getLast?_append, ih]

/-- A written record has no white space at its ends. -/
theorem trimSpace_renderRecord (fields : List (Text × Text)) :
    Text.trimSpace (renderRecord fields) = renderRecord fields := by
  cases fields with
  | nil => decide
  | cons f fields =>
    have hlast : (renderRecord (f :: fields)).getLast? = some '}' := by
      simp [renderRecord, List.getLast?_cons, List.getLast?_append, getLast?_renderFields]
    refine Text.trimSpace_eq_self (fun c hc => ?_) (fun c hc => ?_)
    · obtain rfl : '{' = c := Option.some.inj hc
      rfl
    · obtain rfl : '}' = c := Option.some.inj (hlast.symm.trans hc)
      rfl

/-! ### Records that are too deep -/

/-- A record is read within the depth of texts. -/
theorem parse_of_parseRecord {t : Text} {members : RawMembers} (h : parseRecord t = some members) :
    parse t = some (.obj (members.map fun m => (m.1, m.2.2))) := by
  unfold parseRecord at h
  split at h
  · next inner hinner =>
    split at h
    · next members' rest hread =>
      split_ifs at h with hrest
      obtain rfl := Option.some.inj h
      rw [hinner] at hread
      rw [parse, parseFirst, hinner, parseValue, if_pos rfl, hread]
      simp only [Option.map_some, hrest, if_true]
    · cases h
  · cases h

theorem Spells.decodeRecord_eq_none {σ : Type*} {strict : Bool} {fields : List (Text × Setter σ)}
    {default : σ} {depth : Nat} {v : Json} {w : Text} (h : Spells depth v w)
    (hdeep : maxDepth < v.depth) : decodeRecord strict fields default w = none := by
  have hparse : Json.parse w = none := Option.eq_none_iff_forall_ne_some.mpr fun u hu =>
    absurd (h.parse_eq_some_iff.mp hu).2 (Nat.not_le_of_lt hdeep)
  have hrecord : parseRecord w = none := Option.eq_none_iff_forall_ne_some.mpr fun members hm => by
    rw [parse_of_parseRecord hm] at hparse
    cases hparse
  rw [decodeRecord, hrecord, hparse]

end Json
