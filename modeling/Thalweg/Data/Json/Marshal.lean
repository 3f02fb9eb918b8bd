import Thalweg.Data.Json.Spelling

/-!
# Encoded values

A value is encoded as the compact JSON text of what it is made of. Of the values that hold a raw
JSON text, the text is embedded in its compact form; a raw text that is no JSON text has no
encoding, and a number has none unless its literal is one.

An encoding is one line without white space at its ends (`isLine_of_marshal`).

## Main definitions

* `Marshalable`, `marshal`: the values and their encodings.
* `unbroken`: no newline of a text is met inside a string.
* `IsLine`: a text of one line without white space at its ends.
-/

namespace Json

/-- A value to encode: its strings, numbers, arrays and objects, and the raw texts it embeds. -/
inductive Marshalable where
  | null
  | bool (b : Bool)
  | num (literal : Text)
  | str (s : Text)
  | raw (message : Text)
  | arr (items : List Marshalable)
  | obj (members : List (Text × Marshalable))

mutual

/-- The encoding of a value. -/
def marshal : Marshalable → Option Text
  | .null => some ['n', 'u', 'l', 'l']
  | .bool true => some ['t', 'r', 'u', 'e']
  | .bool false => some ['f', 'a', 'l', 's', 'e']
  | .num literal => if IsNumber literal then some literal else none
  | .str s => some (quote s)
  | .raw message => compact message
  | .arr items => (marshalItems items).map renderArray
  | .obj members => (marshalMembers members).map renderRecord

/-- The encodings of the items of an array. -/
def marshalItems : List Marshalable → Option (List Text)
  | [] => some []
  | v :: items => do
    let text ← marshal v
    let texts ← marshalItems items
    some (text :: texts)

/-- The names of the members of an object with the encodings of their values. -/
def marshalMembers : List (Text × Marshalable) → Option (List (Text × Text))
  | [] => some []
  | (k, v) :: members => do
    let text ← marshal v
    let fields ← marshalMembers members
    some ((k, text) :: fields)

end

/-- The encoding of an object from the encodings of its members. -/
theorem marshal_obj_eq {members : List (Text × Marshalable)} {fields : List (Text × Text)}
    (h : List.Forall₂ (fun m f => m.1 = f.1 ∧ marshal m.2 = some f.2) members fields) :
    marshal (.obj members) = some (renderRecord fields) := by
  have hmembers : marshalMembers members = some fields := by
    induction h with
    | nil => rfl
    | @cons m f members fields hm _ ih =>
      obtain ⟨k, v⟩ := m
      obtain ⟨k', text⟩ := f
      obtain ⟨rfl, hv⟩ := hm
      rw [marshalMembers, hv, ih]
      rfl
  rw [marshal, hmembers, Option.map_some]

/-! ### Newlines inside strings -/

/-- No newline of the text is met inside a string. -/
def unbroken : CompactState → Text → Bool
  | _, [] => true
  | s, c :: t => (s == .outside || c != '\n') && unbroken (s.next c) t

theorem notMem_unicodeEscape (n : Nat) : '\n' ∉ unicodeEscape n := by
  have hdigit : ∀ n < 16, hexDigit n ≠ '\n' := by decide
  intro hmem
  simp only [unicodeEscape, List.mem_cons, List.not_mem_nil, or_false] at hmem
  rcases hmem with hmem | hmem | hmem | hmem | hmem | hmem
  · exact absurd hmem (by decide)
  · exact absurd hmem (by decide)
  all_goals exact hdigit _ (Nat.mod_lt _ (by decide)) hmem.symm

theorem notMem_compactChar {c : Char} (h : c ≠ '\n') : '\n' ∉ compactChar c := by
  unfold compactChar
  split_ifs
  · exact notMem_unicodeEscape c.toNat
  · exact fun hmem => h (List.mem_singleton.mp hmem).symm

/-- Compaction drops the newlines outside strings. -/
theorem notMem_compactFrom {s : CompactState} {t : Text} (h : unbroken s t = true) :
    '\n' ∉ compactFrom s t := by
  induction t generalizing s with
  | nil => exact List.not_mem_nil
  | cons c t ih =>
    simp only [unbroken, Bool.and_eq_true, Bool.or_eq_true, beq_iff_eq, bne_iff_ne] at h
    obtain ⟨hc, ht⟩ := h
    rw [compactFrom]
    split_ifs with hspace
    · obtain ⟨rfl, hspace⟩ := hspace
      refine ih ?_
      rwa [CompactState.next, if_neg] at ht
      rintro rfl
      exact absurd hspace (by decide)
    · have hne : c ≠ '\n' := by
        rintro rfl
        exact hspace ⟨hc.resolve_right (fun hne => hne rfl), rfl⟩
      rw [List.mem_append]
      exact not_or.mpr ⟨notMem_compactChar hne, ih ht⟩

/-- A character of a string literal that is no quote, no backslash and no newline. -/
theorem unbroken_inside_cons {c : Char} (hquote : c ≠ '"') (hslash : c ≠ '\\') (hc : c ≠ '\n')
    (t : Text) : unbroken .inside (c :: t) = unbroken .inside t := by
  simp [unbroken, CompactState.next, hquote, hslash, hc]

theorem unbroken_escape {e : Char} (he : e ≠ '\n') (t : Text) :
    unbroken .inside ('\\' :: e :: t) = unbroken .inside t := by
  simp [unbroken, CompactState.next, he]

theorem unbroken_hexDigit {c : Char} {n : Nat} (h : hexValue c = some n) (t : Text) :
    unbroken .inside (c :: t) = unbroken .inside t := by
  have hne : ∀ d, hexValue d = none → c ≠ d := by
    rintro d hd rfl
    rw [h] at hd
    cases hd
  exact unbroken_inside_cons (hne _ (by decide)) (hne _ (by decide)) (hne _ (by decide)) t

theorem unbroken_hex4 {t : Text} {n : Nat} (h : hex4 t = some n) :
    unbroken .inside t = unbroken .inside (t.drop 4) := by
  rcases t with _ | ⟨a, _ | ⟨b, _ | ⟨c, _ | ⟨d, t⟩⟩⟩⟩
  · cases h
  · cases h
  · cases h
  · cases h
  simp only [hex4, Option.bind_eq_bind, Option.bind_eq_some_iff] at h
  obtain ⟨_, ha, _, hb, _, hc, _, hd, -⟩ := h
  rw [unbroken_hexDigit ha, unbroken_hexDigit hb, unbroken_hexDigit hc, unbroken_hexDigit hd]
  rfl

/-- What a code unit takes of the text after it. -/
theorem unbroken_readUnit (n : Nat) (t : Text) :
    unbroken .inside t = unbroken .inside (t.drop (readUnit n t).2) := by
  unfold readUnit
  split_ifs
  · split
    · next m hm =>
      split_ifs
      · obtain ⟨u, rfl, hu⟩ := escapedUnit_eq_some hm
        rw [unbroken_escape (by decide), unbroken_hex4 hu]
        rfl
      · rfl
    · rfl
  · rfl
  · rfl

theorem unbroken_readRune {c rune : Char} {t : Text} {skip : Nat} (hquote : c ≠ '"')
    (h : readRune c t = some (rune, skip)) :
    unbroken .inside (c :: t) = unbroken .inside (t.drop skip) := by
  unfold readRune at h
  split_ifs at h with hcontrol hslash
  · obtain ⟨rfl, rfl⟩ := Prod.mk.inj (Option.some.inj h)
    refine unbroken_inside_cons hquote hslash ?_ t
    rintro rfl
    exact hcontrol (by decide)
  obtain rfl : c = '\\' := not_not.mp hslash
  rcases t with _ | ⟨e, t⟩
  · cases h
  have hsimple : e ≠ '\n' → skip = 1 →
      unbroken .inside ('\\' :: e :: t) = unbroken .inside ((e :: t).drop skip) := by
    rintro he rfl
    exact unbroken_escape he t
  simp only at h
  split_ifs at h with h1 h2 h3 h4 h5 h6 h7
  · refine hsimple ?_ (Prod.mk.inj (Option.some.inj h)).2.symm
    rcases h1 with rfl | rfl | rfl <;> decide
  · exact hsimple (by rw [h2]; decide) (Prod.mk.inj (Option.some.inj h)).2.symm
  · exact hsimple (by rw [h3]; decide) (Prod.mk.inj (Option.some.inj h)).2.symm
  · exact hsimple (by rw [h4]; decide) (Prod.mk.inj (Option.some.inj h)).2.symm
  · exact hsimple (by rw [h5]; decide) (Prod.mk.inj (Option.some.inj h)).2.symm
  · exact hsimple (by rw [h6]; decide) (Prod.mk.inj (Option.some.inj h)).2.symm
  · subst h7
    obtain ⟨n, hn, heq⟩ := Option.map_eq_some_iff.mp h
    obtain ⟨-, rfl⟩ := Prod.mk.inj heq
    rw [unbroken_escape (by decide), unbroken_hex4 hn, unbroken_readUnit n, List.drop_drop]
    rw [show 5 + (readUnit n (t.drop 4)).2 = 4 + (readUnit n (t.drop 4)).2 + 1 by omega,
      List.drop_succ_cons]

/-- The end of a string literal that is read. -/
theorem unbroken_readString {skip : Nat} {t s rest : Text}
    (h : readString skip t = some (s, rest)) :
    unbroken .inside (t.drop skip) = unbroken .outside rest ∧ ('"' :: rest) <:+ t := by
  induction t generalizing skip s with
  | nil => cases skip <;> cases h
  | cons c t ih =>
    cases skip with
    | succ skip =>
      obtain ⟨hbreak, hend⟩ := ih h
      exact ⟨hbreak, hend.trans (List.suffix_cons c t)⟩
    | zero =>
      by_cases hquote : c = '"'
      · subst hquote
        rw [readString, if_pos rfl] at h
        obtain ⟨-, rfl⟩ := Prod.mk.inj (Option.some.inj h)
        exact ⟨rfl, List.suffix_refl _⟩
      rw [readString, if_neg hquote] at h
      split at h
      · cases h
      next rune skip hrune =>
      obtain ⟨⟨s', rest'⟩, hs, heq⟩ := Option.map_eq_some_iff.mp h
      obtain ⟨-, rfl⟩ := Prod.mk.inj heq
      obtain ⟨hbreak, hend⟩ := ih hs
      refine ⟨?_, hend.trans (List.suffix_cons c t)⟩
      rw [List.drop_zero, unbroken_readRune hquote hrune, hbreak]

/-! ### What is read of a text -/

/-- An ASCII character that is no white space. -/
def IsEdge (c : Char) : Prop := c.toNat < 128 ∧ Text.isSpace c = false

instance (c : Char) : Decidable (IsEdge c) := inferInstanceAs (Decidable (_ ∧ _))

/-- The text goes on with the rest, and before it no newline is inside a string. -/
structure Passes (t rest : Text) : Prop where
  unbroken : unbroken .outside t = unbroken .outside rest
  suffix : rest <:+ t

/-- Some of the text is read before the rest, and the last character of it is no white space. -/
structure Takes (t rest : Text) : Prop where
  unbroken : unbroken .outside t = unbroken .outside rest
  last : ∃ c, IsEdge c ∧ (c :: rest) <:+ t

theorem Takes.passes {t rest : Text} (h : Takes t rest) : Passes t rest where
  unbroken := h.unbroken
  suffix := by
    obtain ⟨c, -, hsuffix⟩ := h.last
    exact (List.suffix_cons c rest).trans hsuffix

theorem Passes.takes {t u rest : Text} (h : Passes t u) (hu : Takes u rest) : Takes t rest where
  unbroken := h.unbroken.trans hu.unbroken
  last := by
    obtain ⟨c, hc, hsuffix⟩ := hu.last
    exact ⟨c, hc, hsuffix.trans h.suffix⟩

theorem Passes.trans {t u rest : Text} (h : Passes t u) (hu : Passes u rest) : Passes t rest where
  unbroken := h.unbroken.trans hu.unbroken
  suffix := hu.suffix.trans h.suffix

theorem passes_cons {c : Char} (hc : c ≠ '"') (t : Text) : Passes (c :: t) t where
  unbroken := by simp [Json.unbroken, CompactState.next, hc]
  suffix := List.suffix_cons c t

theorem takes_cons {c : Char} (hedge : IsEdge c) (hc : c ≠ '"') (t : Text) : Takes (c :: t) t where
  unbroken := (passes_cons hc t).unbroken
  last := ⟨c, hedge, List.suffix_refl _⟩

theorem passes_skipSpace (t : Text) : Passes t (skipSpace t) := by
  induction t with
  | nil => exact ⟨rfl, List.suffix_refl _⟩
  | cons c t ih =>
    rw [skipSpace]
    split_ifs with hc
    · refine (passes_cons ?_ t).trans ih
      rintro rfl
      exact absurd hc (by decide)
    · exact ⟨rfl, List.suffix_refl _⟩

/-- A word of characters that are neither white space nor quotes. -/
theorem takes_append {w : Text} (hne : w ≠ []) (h : ∀ c ∈ w, IsEdge c ∧ c ≠ '"') (rest : Text) :
    Takes (w ++ rest) rest := by
  induction w with
  | nil => exact absurd rfl hne
  | cons c w ih =>
    obtain ⟨⟨hedge, hc⟩, h⟩ := List.forall_mem_cons.mp h
    cases w with
    | nil => exact takes_cons hedge hc rest
    | cons d w => exact (passes_cons hc _).takes (ih (List.cons_ne_nil _ _) h)

theorem takes_expect {c : Char} {w t rest : Text}
    (h : ((c :: w).all fun d => decide (IsEdge d ∧ d ≠ '"')) = true)
    (hrest : expect w t = some rest) : Takes (c :: t) rest := by
  rw [← expect_append_rest hrest]
  exact takes_append (List.cons_ne_nil c w)
    (fun d hd => of_decide_eq_true (List.all_eq_true.mp h d hd)) rest

theorem isEdge_of_isNumberChar {c : Char} (h : isNumberChar c = true) : IsEdge c ∧ c ≠ '"' := by
  refine ⟨?_, (keptOutside_of_isNumberChar h).2.1⟩
  simp only [isNumberChar, Bool.or_eq_true, beq_iff_eq] at h
  rcases h with ((((h | rfl) | rfl) | rfl) | rfl) | rfl
  · simp only [Char.isDigit, Bool.and_eq_true, decide_eq_true_eq, UInt32.le_iff_toNat_le] at h
    have h1 : 48 ≤ c.toNat := h.1
    have h2 : c.toNat ≤ 57 := h.2
    simp only [IsEdge, Text.isSpace, Bool.or_eq_false_iff, Bool.and_eq_false_iff,
      decide_eq_false_iff_not, beq_eq_false_iff_ne]
    omega
  all_goals decide

theorem takes_readNumber {t literal rest : Text} (h : readNumber t = some (literal, rest)) :
    Takes t rest := by
  have hnum := isNumber_of_readNumber h
  rw [← readNumber_append_rest h]
  refine takes_append ?_ (fun c hc => isEdge_of_isNumberChar (forall_mem_isNumber hnum c hc)) rest
  obtain ⟨c, u, rfl, -⟩ := head_isNumber hnum
  exact List.cons_ne_nil c u

theorem takes_string {t s rest : Text} (h : readString 0 t = some (s, rest)) :
    Takes ('"' :: t) rest where
  unbroken := (unbroken_readString h).1
  last := ⟨'"', by decide, (unbroken_readString h).2.trans (List.suffix_cons _ t)⟩

theorem takes_parseName {t k rest : Text} (h : parseName t = some (k, rest)) : Takes t rest := by
  unfold parseName at h
  split at h
  · cases h
  next c t =>
  split_ifs at h with hc
  subst hc
  split at h
  · cases h
  next k' after hs =>
  have hnext := passes_skipSpace after
  split at h
  · cases h
  next c rest' hskip =>
  split_ifs at h with hc
  subst hc
  obtain ⟨-, rfl⟩ := Prod.mk.inj (Option.some.inj h)
  rw [hskip] at hnext
  exact ((takes_string hs).passes.trans hnext).takes (takes_cons (by decide) (by decide) rest')

mutual

theorem takes_parseValue : ∀ (fuel depth : Nat) {t rest : Text} {v : Json},
    parseValue fuel depth t = some (v, rest) → Takes t rest
  | 0, _, _, _, _, h => by simp [parseValue] at h
  | _ + 1, _, [], _, _, h => by simp [parseValue] at h
  | fuel + 1, depth, c :: t, rest, v, h => by
    unfold parseValue at h
    split_ifs at h with h1 h2 h3 h4 h5 h6
    · obtain ⟨⟨members, rest'⟩, hm, heq⟩ := Option.map_eq_some_iff.mp h
      obtain ⟨-, rfl⟩ := Prod.mk.inj heq
      subst h1
      exact ((passes_cons (by decide) t).trans (passes_skipSpace t)).takes
        (takes_parseObject fuel depth hm)
    · obtain ⟨⟨items, rest'⟩, hi, heq⟩ := Option.map_eq_some_iff.mp h
      obtain ⟨-, rfl⟩ := Prod.mk.inj heq
      subst h2
      exact ((passes_cons (by decide) t).trans (passes_skipSpace t)).takes
        (takes_parseArray fuel depth hi)
    · obtain ⟨⟨s, rest'⟩, hs, heq⟩ := Option.map_eq_some_iff.mp h
      obtain ⟨-, rfl⟩ := Prod.mk.inj heq
      subst h3
      exact takes_string hs
    · obtain ⟨rest', hr, heq⟩ := Option.map_eq_some_iff.mp h
      obtain ⟨-, rfl⟩ := Prod.mk.inj heq
      exact takes_expect (by rw [h4]; decide) hr
    · obtain ⟨rest', hr, heq⟩ := Option.map_eq_some_iff.mp h
      obtain ⟨-, rfl⟩ := Prod.mk.inj heq
      exact takes_expect (by rw [h5]; decide) hr
    · obtain ⟨rest', hr, heq⟩ := Option.map_eq_some_iff.mp h
      obtain ⟨-, rfl⟩ := Prod.mk.inj heq
      exact takes_expect (by rw [h6]; decide) hr
    · obtain ⟨⟨literal, rest'⟩, hn, heq⟩ := Option.map_eq_some_iff.mp h
      obtain ⟨-, rfl⟩ := Prod.mk.inj heq
      exact takes_readNumber hn

theorem takes_parseArray : ∀ (fuel depth : Nat) {t rest : Text} {items : List Json},
    parseArray fuel depth t = some (items, rest) → Takes t rest
  | 0, _, _, _, _, h => by simp [parseArray] at h
  | _ + 1, 0, _, _, _, h => by simp [parseArray] at h
  | _ + 1, _ + 1, [], _, _, h => by simp [parseArray] at h
  | fuel + 1, depth + 1, c :: t, rest, items, h => by
    unfold parseArray at h
    split_ifs at h with hc
    · obtain ⟨-, rfl⟩ := Prod.mk.inj (Option.some.inj h)
      subst hc
      exact takes_cons (by decide) (by decide) t
    · exact takes_parseItems fuel depth h

theorem takes_parseItems : ∀ (fuel depth : Nat) {t rest : Text} {items : List Json},
    parseItems fuel depth t = some (items, rest) → Takes t rest
  | 0, _, _, _, _, h => by simp [parseItems] at h
  | fuel + 1, depth, t, rest, items, h => by
    unfold parseItems at h
    split at h
    · cases h
    next v after hv =>
    have hafter := (takes_parseValue fuel depth hv).passes.trans (passes_skipSpace after)
    split at h
    · cases h
    next c next hnext =>
    rw [hnext] at hafter
    split_ifs at h with h1 h2
    · obtain ⟨-, rfl⟩ := Prod.mk.inj (Option.some.inj h)
      subst h1
      exact hafter.takes (takes_cons (by decide) (by decide) next)
    · obtain ⟨⟨items', rest'⟩, hi, heq⟩ := Option.map_eq_some_iff.mp h
      obtain ⟨-, rfl⟩ := Prod.mk.inj heq
      subst h2
      exact ((hafter.trans (passes_cons (by decide) next)).trans (passes_skipSpace next)).takes
        (takes_parseItems fuel depth hi)

theorem takes_parseObject : ∀ (fuel depth : Nat) {t rest : Text} {members : RawMembers},
    parseObject fuel depth t = some (members, rest) → Takes t rest
  | 0, _, _, _, _, h => by simp [parseObject] at h
  | _ + 1, 0, _, _, _, h => by simp [parseObject] at h
  | _ + 1, _ + 1, [], _, _, h => by simp [parseObject] at h
  | fuel + 1, depth + 1, c :: t, rest, members, h => by
    unfold parseObject at h
    split_ifs at h with hc
    · obtain ⟨-, rfl⟩ := Prod.mk.inj (Option.some.inj h)
      subst hc
      exact takes_cons (by decide) (by decide) t
    · exact takes_parseMembers fuel depth h

theorem takes_parseMembers : ∀ (fuel depth : Nat) {t rest : Text} {members : RawMembers},
    parseMembers fuel depth t = some (members, rest) → Takes t rest
  | 0, _, _, _, _, h => by simp [parseMembers] at h
  | fuel + 1, depth, t, rest, members, h => by
    unfold parseMembers at h
    split at h
    · cases h
    next k start hk =>
    split at h
    · cases h
    next v after hv =>
    have hvalue := (passes_skipSpace start).takes (takes_parseValue fuel depth hv)
    have hafter := ((takes_parseName hk).passes.trans hvalue.passes).trans (passes_skipSpace after)
    split at h
    · cases h
    next c next hnext =>
    rw [hnext] at hafter
    split_ifs at h with h1 h2
    · obtain ⟨-, rfl⟩ := Prod.mk.inj (Option.some.inj h)
      subst h1
      exact hafter.takes (takes_cons (by decide) (by decide) next)
    · obtain ⟨⟨members', rest'⟩, hm, heq⟩ := Option.map_eq_some_iff.mp h
      obtain ⟨-, rfl⟩ := Prod.mk.inj heq
      subst h2
      exact ((hafter.trans (passes_cons (by decide) next)).trans (passes_skipSpace next)).takes
        (takes_parseMembers fuel depth hm)

end

/-- The first character of a value. -/
theorem isEdge_of_parseValue {fuel depth : Nat} {c : Char} {t rest : Text} {v : Json}
    (h : parseValue fuel depth (c :: t) = some (v, rest)) : IsEdge c := by
  cases fuel with
  | zero => simp [parseValue] at h
  | succ fuel =>
    unfold parseValue at h
    split_ifs at h with h1 h2 h3 h4 h5 h6
    · rw [h1]; decide
    · rw [h2]; decide
    · rw [h3]; decide
    · rw [h4]; decide
    · rw [h5]; decide
    · rw [h6]; decide
    · obtain ⟨⟨literal, rest'⟩, hn, -⟩ := Option.map_eq_some_iff.mp h
      have hnum := isNumber_of_readNumber hn
      have htext := readNumber_append_rest hn
      obtain ⟨d, u, rfl, -⟩ := head_isNumber hnum
      obtain ⟨rfl, -⟩ := List.cons.inj htext
      exact (isEdge_of_isNumberChar (forall_mem_isNumber hnum d List.mem_cons_self)).1

/-! ### Encodings -/

/-- A text of one line with no white space at its ends. -/
structure IsLine (t : Text) : Prop where
  noBreak : '\n' ∉ t
  first : ∃ c u, t = c :: u ∧ IsEdge c
  last : ∃ u c, t = u ++ [c] ∧ IsEdge c

/-- The compact form of a raw text. -/
theorem isLine_of_compact {t w : Text} (h : compact t = some w) : IsLine w := by
  unfold compact at h
  split at h
  · next v hv =>
    obtain rfl := Option.some.inj h
    have hspells := parse_spells hv
    obtain ⟨c, u, htext, -⟩ := hspells.head
    have hread := hspells.read (r := []) le_rfl le_rfl stops_nil
    rw [List.append_nil] at hread
    refine ⟨?_, ⟨c, u, htext, ?_⟩, ?_⟩
    · refine notMem_compactFrom ?_
      unfold parse at hv
      split at hv
      · next v' rest hfirst =>
        split_ifs at hv with hrest
        have hpass := ((passes_skipSpace t).trans (takes_parseValue _ _ hfirst).passes).trans
          (passes_skipSpace rest)
        rw [hpass.unbroken, hrest]
        rfl
      · cases hv
    · rw [htext] at hread
      exact isEdge_of_parseValue hread
    · obtain ⟨d, hd, x, hx⟩ := (takes_parseValue _ _ hread).last
      exact ⟨x, d, hx.symm, hd⟩
  · cases h

theorem isLine_of_isNumber {literal : Text} (h : IsNumber literal) : IsLine literal := by
  have hall : ∀ c ∈ literal, IsEdge c := fun c hc =>
    (isEdge_of_isNumberChar (forall_mem_isNumber h c hc)).1
  obtain ⟨c, u, rfl, -⟩ := head_isNumber h
  refine ⟨fun hmem => absurd (hall _ hmem) (by decide), ⟨c, u, rfl, hall c List.mem_cons_self⟩, ?_⟩
  refine ⟨_, _, (List.dropLast_append_getLast (List.cons_ne_nil c u)).symm, ?_⟩
  exact hall _ (List.getLast_mem _)

theorem notMem_quoteRune (c : Char) : '\n' ∉ quoteRune c := by
  unfold quoteRune
  split_ifs with h1 h2 h3 h4 h5 h6 h7
  · rcases h1 with rfl | rfl <;> decide
  · decide
  · decide
  · decide
  · decide
  · decide
  · exact notMem_unicodeEscape c.toNat
  · exact fun hmem => h4 (List.mem_singleton.mp hmem).symm

theorem notMem_quote (s : Text) : '\n' ∉ quote s := by
  intro hmem
  rcases List.mem_append.mp hmem with hmem | hmem
  · rcases List.mem_cons.mp hmem with hmem | hmem
    · exact absurd hmem (by decide)
    · obtain ⟨c, -, hc⟩ := List.mem_flatMap.mp hmem
      exact notMem_quoteRune c hc
  · exact absurd hmem (by decide)

theorem isLine_quote (s : Text) : IsLine (quote s) where
  noBreak := notMem_quote s
  first := ⟨'"', s.flatMap quoteRune ++ ['"'], rfl, by decide⟩
  last := ⟨'"' :: s.flatMap quoteRune, '"', rfl, by decide⟩

/-- The rest of an array of texts without newlines. -/
theorem renderRest_spec {texts : List Text} (h : ∀ t ∈ texts, '\n' ∉ t) :
    '\n' ∉ renderRest texts ∧ ∃ u, renderRest texts = u ++ [']'] := by
  induction texts with
  | nil => exact ⟨by decide, [], rfl⟩
  | cons t texts ih =>
    obtain ⟨ht, h⟩ := List.forall_mem_cons.mp h
    obtain ⟨hbreak, u, hu⟩ := ih h
    refine ⟨?_, ',' :: t ++ u, ?_⟩
    · simp [renderRest, ht, hbreak]
    · rw [renderRest, hu, List.append_assoc]

theorem isLine_renderArray {texts : List Text} (h : ∀ t ∈ texts, '\n' ∉ t) :
    IsLine (renderArray texts) := by
  cases texts with
  | nil => exact ⟨by decide, ⟨'[', [']'], rfl, by decide⟩, ['['], ']', rfl, by decide⟩
  | cons t texts =>
    obtain ⟨ht, h⟩ := List.forall_mem_cons.mp h
    obtain ⟨hbreak, u, hu⟩ := renderRest_spec h
    refine ⟨?_, ⟨'[', t ++ renderRest texts, rfl, by decide⟩, '[' :: t ++ u, ']', ?_, by decide⟩
    · simp [renderArray, ht, hbreak]
    · rw [renderArray, hu, List.append_assoc]

/-- The rest of a record of texts without newlines. -/
theorem renderFields_spec {fields : List (Text × Text)} (h : ∀ f ∈ fields, '\n' ∉ f.2) :
    '\n' ∉ renderFields fields ∧ ∃ u, renderFields fields = u ++ ['}'] := by
  induction fields with
  | nil => exact ⟨by decide, [], rfl⟩
  | cons f fields ih =>
    obtain ⟨hf, h⟩ := List.forall_mem_cons.mp h
    obtain ⟨hbreak, u, hu⟩ := ih h
    refine ⟨?_, ',' :: quote f.1 ++ ':' :: f.2 ++ u, ?_⟩
    · simp [renderFields, notMem_quote, hf, hbreak]
    · simp [renderFields, hu]

theorem isLine_renderRecord {fields : List (Text × Text)} (h : ∀ f ∈ fields, '\n' ∉ f.2) :
    IsLine (renderRecord fields) := by
  cases fields with
  | nil => exact ⟨by decide, ⟨'{', ['}'], rfl, by decide⟩, ['{'], '}', rfl, by decide⟩
  | cons f fields =>
    obtain ⟨hf, h⟩ := List.forall_mem_cons.mp h
    obtain ⟨hbreak, u, hu⟩ := renderFields_spec h
    refine ⟨?_, ⟨'{', quote f.1 ++ ':' :: f.2 ++ renderFields fields, rfl, by decide⟩,
      '{' :: quote f.1 ++ ':' :: f.2 ++ u, '}', ?_, by decide⟩
    · simp [renderRecord, notMem_quote, hf, hbreak]
    · simp [renderRecord, hu]

mutual

/-- **Encodings.** What a value is encoded to is one line without white space at its ends. -/
theorem isLine_of_marshal : ∀ (v : Marshalable) {w : Text}, marshal v = some w → IsLine w
  | .null, w, h => by
    obtain rfl := Option.some.inj h
    exact ⟨by decide, ⟨_, _, rfl, by decide⟩, ['n', 'u', 'l'], 'l', rfl, by decide⟩
  | .bool true, w, h => by
    obtain rfl := Option.some.inj h
    exact ⟨by decide, ⟨_, _, rfl, by decide⟩, ['t', 'r', 'u'], 'e', rfl, by decide⟩
  | .bool false, w, h => by
    obtain rfl := Option.some.inj h
    exact ⟨by decide, ⟨_, _, rfl, by decide⟩, ['f', 'a', 'l', 's'], 'e', rfl, by decide⟩
  | .num literal, w, h => by
    rw [marshal] at h
    split_ifs at h with hnum
    obtain rfl := Option.some.inj h
    exact isLine_of_isNumber hnum
  | .str s, w, h => by
    obtain rfl := Option.some.inj h
    exact isLine_quote s
  | .raw message, w, h => isLine_of_compact h
  | .arr items, w, h => by
    obtain ⟨texts, htexts, rfl⟩ := Option.map_eq_some_iff.mp h
    exact isLine_renderArray (notMem_marshalItems items htexts)
  | .obj members, w, h => by
    obtain ⟨fields, hfields, rfl⟩ := Option.map_eq_some_iff.mp h
    exact isLine_renderRecord (notMem_marshalMembers members hfields)

theorem notMem_marshalItems : ∀ (items : List Marshalable) {texts : List Text},
    marshalItems items = some texts → ∀ t ∈ texts, '\n' ∉ t
  | [], texts, h => by
    obtain rfl := Option.some.inj h
    exact List.forall_mem_nil _
  | v :: items, texts, h => by
    simp only [marshalItems, Option.bind_eq_bind, Option.bind_eq_some_iff] at h
    obtain ⟨text, htext, rest, hrest, heq⟩ := h
    obtain rfl := Option.some.inj heq
    exact List.forall_mem_cons.mpr ⟨(isLine_of_marshal v htext).noBreak,
      notMem_marshalItems items hrest⟩

theorem notMem_marshalMembers : ∀ (members : List (Text × Marshalable))
    {fields : List (Text × Text)}, marshalMembers members = some fields → ∀ f ∈ fields, '\n' ∉ f.2
  | [], fields, h => by
    obtain rfl := Option.some.inj h
    exact List.forall_mem_nil _
  | (k, v) :: members, fields, h => by
    simp only [marshalMembers, Option.bind_eq_bind, Option.bind_eq_some_iff] at h
    obtain ⟨text, htext, rest, hrest, heq⟩ := h
    obtain rfl := Option.some.inj heq
    exact List.forall_mem_cons.mpr ⟨(isLine_of_marshal v htext).noBreak,
      notMem_marshalMembers members hrest⟩

end

end Json
