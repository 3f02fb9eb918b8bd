import Mathlib.Order.MinMax
import Thalweg.Data.Json.Parse

/-!
# Round trips between JSON values and texts

* `Json.parse_render`: the compact text of a value reads back as the value, as long as the value
  nests at most to the depth that texts are read to.
* `Json.parse_spec`: what is read is well formed and nests no deeper than that.
* `Json.compact_render`: compaction leaves the compact text of a value as it is.
* `Json.canonical_canonical`: reading objects as maps twice changes nothing more.
-/

namespace Json

/-! ### Numbers -/

/-- A character that may continue a number literal. -/
def isNumberChar (c : Char) : Bool :=
  c.isDigit || c == '.' || c == 'e' || c == 'E' || c == '+' || c == '-'

/-- The text does not continue a number literal. -/
def Stops (r : Text) : Prop := ∀ c, r.head? = some c → isNumberChar c = false

/-- The text does not continue a sequence of digits. -/
def StopsDigits (r : Text) : Prop := ∀ c, r.head? = some c → c.isDigit = false

theorem stops_nil : Stops [] := by simp [Stops]

theorem stops_cons {c : Char} (h : isNumberChar c = false) (r : Text) : Stops (c :: r) := by
  simpa [Stops] using h

theorem Stops.stopsDigits {r : Text} (h : Stops r) : StopsDigits r := fun c hc => by
  have := h c hc
  simp only [isNumberChar, Bool.or_eq_false_iff] at this
  exact this.1.1.1.1.1

theorem spanDigits_append_of_stops {r : Text} (hr : StopsDigits r) (t : Text) :
    spanDigits (t ++ r) = ((spanDigits t).1, (spanDigits t).2 ++ r) := by
  induction t with
  | nil =>
    cases r with
    | nil => rfl
    | cons c r => simp [spanDigits, hr c rfl]
  | cons c t ih =>
    by_cases hc : c.isDigit <;> simp [spanDigits, hc, ih]

theorem spanDigits_fst (t : Text) : spanDigits (spanDigits t).1 = ((spanDigits t).1, []) := by
  induction t with
  | nil => rfl
  | cons c t ih =>
    by_cases hc : c.isDigit <;> simp [spanDigits, hc, ih]

theorem digits1_eq_some {t ds rest : Text} :
    digits1 t = some (ds, rest) ↔ ds ≠ [] ∧ spanDigits t = (ds, rest) := by
  unfold digits1
  rcases spanDigits t with ⟨_ | ⟨c, ds'⟩, rest'⟩
  · simp only [reduceCtorEq, Prod.mk.injEq, false_iff, not_and]
    exact fun hne h => absurd h.symm hne
  · simp only [Option.some.injEq, Prod.mk.injEq]
    exact ⟨fun h => ⟨by simp [← h.1], h⟩, fun h => h.2⟩

/-- Digits that were read are read again, whatever text that stops digits follows. -/
theorem digits1_reread {t ds rest r : Text} (h : digits1 t = some (ds, rest))
    (hr : StopsDigits r) : digits1 (ds ++ r) = some (ds, r) := by
  obtain ⟨hne, hspan⟩ := digits1_eq_some.mp h
  refine digits1_eq_some.mpr ⟨hne, ?_⟩
  have hds : (spanDigits t).1 = ds := by rw [hspan]
  rw [spanDigits_append_of_stops hr, ← hds, spanDigits_fst, List.nil_append]

theorem isDigit_of_digits1 {t ds rest : Text} (h : digits1 t = some (ds, rest)) :
    ∃ c ds' t', ds = c :: ds' ∧ t = c :: t' ∧ c.isDigit = true := by
  obtain ⟨hne, hspan⟩ := digits1_eq_some.mp h
  cases t with
  | nil =>
    cases hspan
    exact absurd rfl hne
  | cons c t =>
    by_cases hc : c.isDigit
    · simp only [spanDigits, hc, if_true, Prod.mk.injEq] at hspan
      exact ⟨c, _, t, hspan.1.symm, rfl, hc⟩
    · simp only [spanDigits, hc, Bool.false_eq_true, if_false, Prod.mk.injEq] at hspan
      exact absurd hspan.1.symm hne

theorem intPart_of_isDigit {c : Char} {t : Text} (hc : c ≠ '0') :
    intPart (c :: t) = digits1 (c :: t) := by
  unfold intPart
  split
  · next h => cases h; exact absurd rfl hc
  · rfl

theorem intPart_reread {t int rest r : Text} (h : intPart t = some (int, rest))
    (hr : StopsDigits r) : intPart (int ++ r) = some (int, r) := by
  unfold intPart at h
  split at h
  · cases h
    rfl
  · next hne =>
    obtain ⟨c, ds, t', rfl, rfl, -⟩ := isDigit_of_digits1 h
    have hc : c ≠ '0' := by
      rintro rfl
      exact hne t' rfl
    rw [List.cons_append, intPart_of_isDigit hc, ← List.cons_append]
    exact digits1_reread h hr

theorem isDigit_of_intPart {t int rest : Text} (h : intPart t = some (int, rest)) :
    ∃ c int', int = c :: int' ∧ c.isDigit = true := by
  unfold intPart at h
  split at h
  · cases h
    exact ⟨'0', [], rfl, rfl⟩
  · obtain ⟨c, ds, -, hds, -, hc⟩ := isDigit_of_digits1 h
    exact ⟨c, ds, hds, hc⟩

theorem fracPart_reread {t frac rest r : Text} (h : fracPart t = some (frac, rest))
    (hr : StopsDigits r) (hdot : r.head? ≠ some '.') : fracPart (frac ++ r) = some (frac, r) := by
  unfold fracPart at h
  split at h
  · next t =>
    simp only [Option.map_eq_some_iff] at h
    obtain ⟨⟨ds, rest'⟩, hds, heq⟩ := h
    cases heq
    simp only [List.cons_append, fracPart, digits1_reread hds hr, Option.map_some]
  · cases h
    rw [List.nil_append]
    unfold fracPart
    split
    · next heq => exact absurd rfl hdot
    · rfl

/-- A fraction starts with a point or is empty. -/
theorem stopsDigits_fracPart {t frac rest r : Text} (h : fracPart t = some (frac, rest))
    (hr : StopsDigits r) : StopsDigits (frac ++ r) := by
  unfold fracPart at h
  split at h
  · simp only [Option.map_eq_some_iff] at h
    obtain ⟨⟨ds, rest'⟩, -, heq⟩ := h
    cases heq
    intro c hc
    cases hc
    rfl
  · cases h
    exact hr

theorem signPart_reread (plus : Bool) (t : Text) {r : Text}
    (hr : r.head? ≠ some '-' ∧ r.head? ≠ some '+') :
    signPart plus ((signPart plus t).1 ++ r) = ((signPart plus t).1, r) := by
  have hnil : signPart plus r = ([], r) := by
    unfold signPart
    split
    · exact absurd rfl hr.1
    · exact absurd rfl hr.2
    · rfl
  cases t with
  | nil => simpa [signPart] using hnil
  | cons c t =>
    by_cases h1 : c = '-'
    · subst h1
      rfl
    · by_cases h2 : c = '+'
      · subst h2
        cases plus
        · simpa [signPart] using hnil
        · rfl
      · have : signPart plus (c :: t) = ([], c :: t) := by
          unfold signPart
          split
          · next h => cases h; exact absurd rfl h1
          · next h => cases h; exact absurd rfl h2
          · rfl
        simpa [this] using hnil

theorem isDigit_ne_sign {c : Char} (hc : c.isDigit = true) :
    c ≠ '-' ∧ c ≠ '+' ∧ c ≠ '.' ∧ c ≠ 'e' ∧ c ≠ 'E' := by
  refine ⟨?_, ?_, ?_, ?_, ?_⟩ <;> (rintro rfl; revert hc; decide)

theorem expPart_reread {t exp rest r : Text} (h : expPart t = some (exp, rest)) (hr : Stops r) :
    expPart (exp ++ r) = some (exp, r) := by
  have hnil : expPart r = some ([], r) := by
    cases r with
    | nil => rfl
    | cons c r =>
      have hc := hr c rfl
      simp only [isNumberChar, Bool.or_eq_false_iff, beq_eq_false_iff_ne, ne_eq] at hc
      simp [expPart, hc]
  cases t with
  | nil =>
    cases h
    exact hnil
  | cons c t =>
    by_cases hc : c = 'e' ∨ c = 'E'
    · simp only [expPart, hc, if_true, Option.map_eq_some_iff] at h
      obtain ⟨⟨ds, rest'⟩, hds, heq⟩ := h
      cases heq
      obtain ⟨d, ds', -, rfl, -, hd⟩ := isDigit_of_digits1 hds
      have hsign := isDigit_ne_sign hd
      have hre := digits1_reread hds hr.stopsDigits
      have hsp := signPart_reread true t (r := d :: ds' ++ r) (by simp [hsign.1, hsign.2.1])
      simp only [List.cons_append, List.append_assoc, expPart, hc, if_true]
      rw [← List.cons_append, hsp, hre]
      rfl
    · simp only [expPart, hc, if_false, Option.some.injEq, Prod.mk.injEq] at h
      obtain ⟨rfl, -⟩ := h
      exact hnil

/-- An exponent starts with `e` or `E` or is empty. -/
theorem head_expPart {t exp rest : Text} (h : expPart t = some (exp, rest)) :
    exp = [] ∨ exp.head? = some 'e' ∨ exp.head? = some 'E' := by
  cases t with
  | nil =>
    cases h
    exact Or.inl rfl
  | cons c t =>
    by_cases hc : c = 'e' ∨ c = 'E'
    · simp only [expPart, hc, if_true, Option.map_eq_some_iff] at h
      obtain ⟨⟨ds, rest'⟩, -, heq⟩ := h
      cases heq
      rcases hc with rfl | rfl
      · exact Or.inr (Or.inl rfl)
      · exact Or.inr (Or.inr rfl)
    · simp only [expPart, hc, if_false, Option.some.injEq, Prod.mk.injEq] at h
      exact Or.inl h.1.symm

/-- A number literal that was read is read again, whatever text that stops numbers follows. -/
theorem readNumber_reread {t literal rest r : Text} (h : readNumber t = some (literal, rest))
    (hr : Stops r) : readNumber (literal ++ r) = some (literal, r) := by
  unfold readNumber at h
  dsimp only at h
  split at h
  · cases h
  · next int hint =>
    split at h
    · cases h
    · next frac hfrac =>
      split at h
      · cases h
      · next exp hexp =>
        cases h
        have hexpr : StopsDigits (exp.1 ++ r) ∧ (exp.1 ++ r).head? ≠ some '.' := by
          rcases head_expPart hexp with h | h | h
          · rw [h, List.nil_append]
            refine ⟨hr.stopsDigits, fun hdot => ?_⟩
            have := hr '.' hdot
            simp [isNumberChar] at this
          all_goals
            cases hcons : exp.1 with
            | nil => simp [hcons] at h
            | cons c e =>
              rw [hcons] at h
              cases h
              refine ⟨?_, by simp⟩
              rintro c hc
              cases hc
              rfl
        obtain ⟨d, int', hcons, hd⟩ := isDigit_of_intPart hint
        have hsign := isDigit_ne_sign hd
        have h1 := signPart_reread false t (r := int.1 ++ (frac.1 ++ (exp.1 ++ r)))
          (by simp [hcons, hsign.1, hsign.2.1])
        have h2 := intPart_reread hint (stopsDigits_fracPart hfrac hexpr.1)
        have h3 := fracPart_reread hfrac hexpr.1 hexpr.2
        have h4 := expPart_reread hexp hr
        unfold readNumber
        simp only [List.append_assoc, h1, h2, h3, h4]

theorem isNumber_of_readNumber {t literal rest : Text}
    (h : readNumber t = some (literal, rest)) : IsNumber literal := by
  have := readNumber_reread h stops_nil
  rwa [List.append_nil] at this

theorem readNumber_append {literal r : Text} (h : IsNumber literal) (hr : Stops r) :
    readNumber (literal ++ r) = some (literal, r) :=
  readNumber_reread h hr

/-- A number literal starts with a digit or a minus sign. -/
theorem head_isNumber {literal : Text} (h : IsNumber literal) :
    ∃ c t, literal = c :: t ∧ (c.isDigit = true ∨ c = '-') := by
  unfold IsNumber readNumber at h
  dsimp only at h
  cases literal with
  | nil => simp [signPart, intPart, digits1, spanDigits] at h
  | cons c t =>
    refine ⟨c, t, rfl, ?_⟩
    by_cases hm : c = '-'
    · exact Or.inr hm
    · left
      have hs : signPart false (c :: t) = ([], c :: t) := by
        unfold signPart
        split
        · next h' => cases h'; exact absurd rfl hm
        · next h' => cases h'; rfl
        · rfl
      rw [hs] at h
      dsimp only at h
      split at h
      · cases h
      · next int hint =>
        by_contra hd
        have hd' : c.isDigit = false := by simpa using hd
        have h0 : c ≠ '0' := by rintro rfl; exact hd rfl
        rw [intPart_of_isDigit h0] at hint
        simp [digits1, spanDigits, hd'] at hint

/-! ### Strings -/

theorem hexValue_hexDigit : ∀ n < 16, hexValue (hexDigit n) = some n := by decide

theorem hex4_unicodeEscape {n : Nat} (h : n < 65536) (r : Text) :
    hex4 ((unicodeEscape n).drop 2 ++ r) = some n := by
  have h1 := hexValue_hexDigit (n / 4096 % 16) (by omega)
  have h2 := hexValue_hexDigit (n / 256 % 16) (by omega)
  have h3 := hexValue_hexDigit (n / 16 % 16) (by omega)
  have h4 := hexValue_hexDigit (n % 16) (by omega)
  simp only [unicodeEscape, List.drop_succ_cons, List.drop_zero, List.cons_append, List.nil_append,
    hex4, h1, h2, h3, h4, Option.bind_eq_bind, Option.bind_some, Option.some.injEq]
  omega

theorem readRune_unicodeEscape {c : Char} (h : c.toNat < 65536) (r : Text) :
    readRune '\\' ('u' :: (unicodeEscape c.toNat).drop 2 ++ r) = some (c, 5) := by
  have hunit : readUnit c.toNat r = (c, 0) := by
    have hrange := Text.toNat_range c
    unfold readUnit
    rw [if_neg (by omega), if_neg (by omega), Char.ofNat_toNat]
  have hdrop : ((unicodeEscape c.toNat).drop 2 ++ r).drop 4 = r := rfl
  rw [List.cons_append]
  simp [readRune, hex4_unicodeEscape h, hdrop, hunit]

/-- Reading the text of a rune inside a string literal gives the rune and takes the whole text. -/
theorem readRune_quoteRune (c : Char) (r : Text) :
    ∃ a tail, quoteRune c = a :: tail ∧ a ≠ '"' ∧ readRune a (tail ++ r) = some (c, tail.length) := by
  unfold quoteRune
  split_ifs with h1 h2 h3 h4 h5 h6 h7
  · refine ⟨'\\', [c], rfl, by decide, ?_⟩
    have h1' : c = '"' ∨ c = '\\' ∨ c = '/' := by tauto
    simp [readRune, h1']
  · exact ⟨'\\', ['b'], rfl, by decide, by simp [readRune, h2]⟩
  · exact ⟨'\\', ['f'], rfl, by decide, by simp [readRune, h3]⟩
  · exact ⟨'\\', ['n'], rfl, by decide, by simp [readRune, h4]⟩
  · exact ⟨'\\', ['r'], rfl, by decide, by simp [readRune, h5]⟩
  · exact ⟨'\\', ['t'], rfl, by decide, by simp [readRune, h6]⟩
  · refine ⟨'\\', 'u' :: (unicodeEscape c.toNat).drop 2, rfl, by decide, ?_⟩
    have hc : c.toNat < 65536 := by
      rcases h7 with h | rfl | rfl | rfl | h | h
      · omega
      · decide
      · decide
      · decide
      · omega
      · omega
    exact readRune_unicodeEscape hc r
  · refine ⟨c, [], rfl, fun h => h1 (Or.inl h), ?_⟩
    have hc : ¬ c.toNat < 0x20 := fun h => h7 (Or.inl h)
    have hne : c ≠ '\\' := fun h => h1 (Or.inr h)
    simp [readRune, hc, hne]

theorem readString_skip (skipped r : Text) :
    readString skipped.length (skipped ++ r) = readString 0 r := by
  induction skipped with
  | nil => rfl
  | cons c skipped ih => simpa [readString] using ih

/-- **Round trip of strings.** The text of a string literal reads back as the string. -/
theorem readString_quote (s r : Text) :
    readString 0 (s.flatMap quoteRune ++ '"' :: r) = some (s, r) := by
  induction s with
  | nil => rfl
  | cons c s ih =>
    rw [List.flatMap_cons, List.append_assoc]
    obtain ⟨a, tail, hq, ha, hread⟩ := readRune_quoteRune c (s.flatMap quoteRune ++ '"' :: r)
    rw [hq, List.cons_append, readString, if_neg ha, hread]
    simp only [readString_skip, ih, Option.map_some]

/-! ### Values -/

theorem skipSpace_cons {c : Char} (h : isSpace c = false) (t : Text) :
    skipSpace (c :: t) = c :: t := by
  simp [skipSpace, h]

/-- The name of a member reads back from its string literal and the colon. -/
theorem parseName_quote (k r : Text) : parseName (quote k ++ ':' :: r) = some (k, r) := by
  have hkey := readString_quote k (':' :: r)
  simp only [quote, List.cons_append, List.append_assoc, List.nil_append, parseName, if_true, hkey,
    skipSpace_cons (show isSpace ':' = false from rfl)]

theorem before_append (t rest : Text) : before (t ++ rest) rest = t := by
  simp [before]

/-- The text of a value starts with a character that is no space and no closing bracket. -/
theorem head_render (v : Json) (h : WellFormed IsNumber v) :
    ∃ c t, render v = c :: t ∧ isSpace c = false ∧ c ≠ ']' := by
  cases v with
  | null => exact ⟨'n', _, rfl, rfl, by decide⟩
  | bool b => cases b <;> exact ⟨_, _, rfl, rfl, by decide⟩
  | num literal =>
    obtain ⟨c, t, rfl, hc⟩ := head_isNumber h
    refine ⟨c, t, rfl, ?_, ?_⟩
    · rcases hc with hc | rfl
      · simp only [isSpace, Bool.or_eq_false_iff, beq_eq_false_iff_ne, ne_eq]
        refine ⟨⟨⟨?_, ?_⟩, ?_⟩, ?_⟩ <;> (rintro rfl; revert hc; decide)
      · rfl
    · rintro rfl
      revert hc
      decide
  | str s => exact ⟨'"', _, rfl, rfl, by decide⟩
  | arr items => cases items <;> exact ⟨'[', _, rfl, rfl, by decide⟩
  | obj members =>
    rcases members with _ | ⟨⟨k, w⟩, members⟩ <;> exact ⟨'{', _, rfl, rfl, by decide⟩

theorem skipSpace_render (v : Json) (h : WellFormed IsNumber v) (r : Text) :
    skipSpace (render v ++ r) = render v ++ r := by
  obtain ⟨c, t, hc, hs, -⟩ := head_render v h
  rw [hc, List.cons_append, skipSpace_cons hs]

/-- What follows an item stops numbers and is no space. -/
theorem head_renderItems (items : List Json) :
    ∃ c t, renderItems items = c :: t ∧ isNumberChar c = false ∧ isSpace c = false := by
  cases items <;> exact ⟨_, _, rfl, rfl, rfl⟩

theorem head_renderMembers (members : List (Text × Json)) :
    ∃ c t, renderMembers members = c :: t ∧ isNumberChar c = false ∧ isSpace c = false := by
  rcases members with _ | ⟨⟨k, v⟩, members⟩ <;> exact ⟨_, _, rfl, rfl, rfl⟩

/-- The members of an object as they are read from its compact text. -/
def rawMembers (members : List (Text × Json)) : RawMembers :=
  members.map fun m => (m.1, render m.2, m.2)

theorem map_rawMembers (members : List (Text × Json)) :
    (rawMembers members).map (fun m => (m.1, m.2.2)) = members := by
  simp [rawMembers, Function.comp_def]

mutual

/-- A value reads back from its compact text, whatever text that stops numbers follows. -/
theorem parseValue_render : ∀ (v : Json) (fuel depth : Nat) (r : Text), WellFormed IsNumber v →
    2 * (render v).length ≤ fuel → v.depth ≤ depth → Stops r →
    parseValue fuel depth (render v ++ r) = some (v, r)
  | v, 0, _, _, h, hfuel, _, _ => by
    obtain ⟨c, t, hc, -⟩ := head_render v h
    simp [hc] at hfuel
  | .null, _ + 1, _, _, _, _, _, _ => by
    simp [render, parseValue, expect]
  | .bool true, _ + 1, _, _, _, _, _, _ => by
    simp [render, parseValue, expect]
  | .bool false, _ + 1, _, _, _, _, _, _ => by
    simp [render, parseValue, expect]
  | .num literal, fuel + 1, depth, r, h, _, _, hr => by
    obtain ⟨c, t, rfl, hc⟩ := head_isNumber h
    have hread := readNumber_append h hr
    have hne : c ≠ '{' ∧ c ≠ '[' ∧ c ≠ '"' ∧ c ≠ 'n' ∧ c ≠ 't' ∧ c ≠ 'f' := by
      rcases hc with hc | rfl
      · refine ⟨?_, ?_, ?_, ?_, ?_, ?_⟩ <;> (rintro rfl; revert hc; decide)
      · decide
    rw [List.cons_append] at hread
    simp [render, parseValue, hne, hread]
  | .str s, _ + 1, _, r, _, _, _, _ => by
    have hread := readString_quote s r
    simp [render, quote, parseValue, hread]
  | .arr [], fuel + 1, depth, r, _, hfuel, hdepth, _ => by
    simp only [render, List.length_cons, List.length_nil] at hfuel
    simp only [Json.depth] at hdepth
    obtain ⟨fuel, rfl⟩ : ∃ n, fuel = n + 1 := ⟨fuel - 1, by omega⟩
    obtain ⟨depth, rfl⟩ : ∃ n, depth = n + 1 := ⟨depth - 1, by omega⟩
    simp [render, parseValue, parseArray, skipSpace, isSpace]
  | .arr (v :: items), fuel + 1, depth, r, h, hfuel, hdepth, hr => by
    simp only [render, List.length_cons, List.length_append] at hfuel
    simp only [Json.depth] at hdepth
    obtain ⟨fuel, rfl⟩ : ∃ n, fuel = n + 1 := ⟨fuel - 1, by omega⟩
    obtain ⟨depth, rfl⟩ : ∃ n, depth = n + 1 := ⟨depth - 1, by omega⟩
    obtain ⟨c, t, hc, hs, hne⟩ := head_render v h.1
    have hitems := parseItems_render (v :: items) fuel depth r (by simp) h
      (by simp only [renderItems, List.length_cons, List.length_append]; omega) (by omega)
    simp only [renderItems, List.drop_succ_cons, List.drop_zero, List.append_assoc, hc,
      List.cons_append] at hitems
    have hspace := skipSpace_cons hs (t ++ (renderItems items ++ r))
    simp [render, hc, parseValue, hspace, parseArray, hne, hitems]
  | .obj [], fuel + 1, depth, r, _, hfuel, hdepth, _ => by
    simp only [render, List.length_cons, List.length_nil] at hfuel
    simp only [Json.depth] at hdepth
    obtain ⟨fuel, rfl⟩ : ∃ n, fuel = n + 1 := ⟨fuel - 1, by omega⟩
    obtain ⟨depth, rfl⟩ : ∃ n, depth = n + 1 := ⟨depth - 1, by omega⟩
    simp [render, parseValue, parseObject, skipSpace, isSpace]
  | .obj ((k, v) :: members), fuel + 1, depth, r, h, hfuel, hdepth, hr => by
    simp only [render, List.length_cons, List.length_append] at hfuel
    simp only [Json.depth] at hdepth
    have hmembers := parseObject_render ((k, v) :: members) fuel depth r (by simp) h
      (by simp only [renderMembers, List.length_cons, List.length_append]; omega) hdepth
    simp only [renderMembers, quote, List.drop_succ_cons, List.drop_zero, List.append_assoc,
      List.cons_append, List.nil_append] at hmembers
    have hspace := skipSpace_cons (c := '"') rfl (k.flatMap quoteRune ++
      '"' :: ':' :: (render v ++ (renderMembers members ++ r)))
    simp only [render, quote, List.append_assoc, List.cons_append, List.nil_append, parseValue,
      if_true, hspace, hmembers, Option.map_some, map_rawMembers]

/-- The items of an array read back from their text without the leading comma. -/
theorem parseItems_render : ∀ (items : List Json) (fuel depth : Nat) (r : Text), items ≠ [] →
    ItemsWellFormed IsNumber items → 2 * (renderItems items).length ≤ fuel + 3 →
    itemsDepth items ≤ depth →
    parseItems fuel depth ((renderItems items).drop 1 ++ r) = some (items, r)
  | [], _, _, _, hne, _, _, _ => absurd rfl hne
  | v :: items, 0, _, _, _, h, hfuel, _ => by
    obtain ⟨c, t, hc, -⟩ := head_render v h.1
    obtain ⟨c', t', hc', -⟩ := head_renderItems items
    simp [renderItems, hc, hc'] at hfuel
    omega
  | [v], fuel + 1, depth, r, _, h, hfuel, hdepth => by
    simp only [renderItems, List.length_cons, List.length_append, List.length_nil] at hfuel
    have hv := parseValue_render v fuel depth (']' :: r) h.1 (by omega)
      (by simpa [itemsDepth] using hdepth) (stops_cons rfl r)
    simp only [renderItems, List.drop_succ_cons, List.drop_zero, List.append_assoc,
      List.cons_append, List.nil_append, parseItems, hv,
      skipSpace_cons (show isSpace ']' = false from rfl), if_true]
  | v :: w :: items, fuel + 1, depth, r, _, h, hfuel, hdepth => by
    simp only [itemsDepth, Nat.max_le] at hdepth
    have hlen : 2 * (render v).length ≤ fuel ∧
        2 * (renderItems (w :: items)).length ≤ fuel + 3 := by
      obtain ⟨c, t, hc, -⟩ := head_render v h.1
      simp only [renderItems, List.length_cons, List.length_append] at hfuel ⊢
      simp only [hc, List.length_cons] at hfuel ⊢
      omega
    have hv := parseValue_render v fuel depth (renderItems (w :: items) ++ r) h.1 hlen.1
      hdepth.1 (stops_cons rfl _)
    have hitems := parseItems_render (w :: items) fuel depth r (by simp) h.2 hlen.2
      (by simpa only [itemsDepth, Nat.max_le] using hdepth.2)
    simp only [renderItems, List.drop_succ_cons, List.drop_zero, List.append_assoc,
      List.cons_append] at hv hitems
    simp only [renderItems, List.drop_succ_cons, List.drop_zero, List.append_assoc,
      List.cons_append, parseItems, hv, skipSpace_cons (show isSpace ',' = false from rfl),
      skipSpace_render w h.2.1, hitems]
    simp

/-- The members of an object read back from their text without the leading comma, each with the
compact text of its value as raw text. -/
theorem parseMembers_render : ∀ (members : List (Text × Json)) (fuel depth : Nat) (r : Text),
    members ≠ [] → MembersWellFormed IsNumber members →
    2 * (renderMembers members).length ≤ fuel + 3 → membersDepth members ≤ depth →
    parseMembers fuel depth ((renderMembers members).drop 1 ++ r) = some (rawMembers members, r)
  | [], _, _, _, hne, _, _, _ => absurd rfl hne
  | (k, v) :: members, 0, _, _, _, h, hfuel, _ => by
    simp only [renderMembers, quote, List.length_cons, List.length_append] at hfuel
    omega
  | (k, v) :: members, fuel + 1, depth, r, _, h, hfuel, hdepth => by
    simp only [membersDepth, Nat.max_le] at hdepth
    obtain ⟨c, t, hc, hstop, hspace⟩ := head_renderMembers members
    have hlen : 2 * (render v).length ≤ fuel ∧ 2 * (renderMembers members).length ≤ fuel + 3 := by
      simp only [renderMembers, quote, List.length_cons, List.length_append] at hfuel ⊢
      omega
    have hname := parseName_quote k (render v ++ (renderMembers members ++ r))
    have hv := parseValue_render v fuel depth (renderMembers members ++ r) h.1 hlen.1 hdepth.1
      (by rw [hc]; exact stops_cons hstop _)
    simp only [renderMembers, List.drop_succ_cons, List.drop_zero, List.append_assoc,
      List.cons_append, parseMembers, hname, skipSpace_render v h.1, hv, before_append]
    cases members with
    | nil =>
      simp only [renderMembers, List.cons_append, List.nil_append,
        skipSpace_cons (show isSpace '}' = false from rfl), if_true]
      rfl
    | cons m members =>
      have hmembers := parseMembers_render (m :: members) fuel depth r (by simp) h.2 hlen.2 hdepth.2
      simp only [renderMembers, List.drop_succ_cons, List.drop_zero, List.append_assoc,
        List.cons_append] at hmembers
      have hspace : skipSpace (quote m.1 ++ ':' :: (render m.2 ++ (renderMembers members ++ r))) =
          quote m.1 ++ ':' :: (render m.2 ++ (renderMembers members ++ r)) := rfl
      simp only [renderMembers, List.append_assoc, List.cons_append,
        skipSpace_cons (show isSpace ',' = false from rfl), hspace, hmembers]
      simp [rawMembers]

/-- The members of an object read back from their text after the opening brace. -/
theorem parseObject_render : ∀ (members : List (Text × Json)) (fuel depth : Nat) (r : Text),
    members ≠ [] → MembersWellFormed IsNumber members →
    2 * (renderMembers members).length ≤ fuel + 2 → membersDepth members + 1 ≤ depth →
    parseObject fuel depth ((renderMembers members).drop 1 ++ r) = some (rawMembers members, r)
  | [], _, _, _, hne, _, _, _ => absurd rfl hne
  | (k, v) :: members, 0, _, _, _, _, hfuel, _ => by
    simp only [renderMembers, quote, List.length_cons, List.length_append] at hfuel
    omega
  | (k, v) :: members, fuel + 1, 0, r, _, _, _, hdepth => absurd hdepth (by omega)
  | (k, v) :: members, fuel + 1, depth + 1, r, hne, h, hfuel, hdepth => by
    have hmembers := parseMembers_render ((k, v) :: members) fuel depth r hne h (by omega)
      (by omega)
    simp only [renderMembers, quote, List.drop_succ_cons, List.drop_zero, List.cons_append]
      at hmembers ⊢
    simpa [parseObject] using hmembers

end

theorem render_ne_nil (v : Json) (h : WellFormed IsNumber v) : render v ≠ [] := by
  obtain ⟨c, t, hc, -⟩ := head_render v h
  simp [hc]

/-- **Round trip of values.** A well-formed value within the depth that is read reads back from its
compact text. -/
theorem parse_render {v : Json} (h : WellFormed IsNumber v) (hdepth : v.depth ≤ maxDepth) :
    parse (render v) = some v := by
  have hspace := skipSpace_render v h []
  have hread := parseValue_render v (2 * (render v).length + 1) maxDepth [] h (by omega) hdepth
    stops_nil
  simp only [List.append_nil] at hspace hread
  simp [parse, parseFirst, hspace, hread, skipSpace]

/-- The members of an object read back from its compact text, each with the compact text of its
value as raw text. -/
theorem parseRecord_render {members : List (Text × Json)} (hne : members ≠ [])
    (h : MembersWellFormed IsNumber members) (hdepth : membersDepth members + 1 ≤ maxDepth) :
    parseRecord (render (.obj members)) = some (rawMembers members) := by
  obtain ⟨⟨k, v⟩, members, rfl⟩ := List.exists_cons_of_ne_nil hne
  have hread := parseObject_render ((k, v) :: members)
    (2 * (render (.obj ((k, v) :: members))).length) maxDepth [] hne h
    (by simp only [render, renderMembers, List.length_cons, List.length_append]; omega) hdepth
  simp only [renderMembers, quote, List.drop_succ_cons, List.drop_zero, List.cons_append,
    List.append_nil] at hread
  simp only [render, quote, List.cons_append] at hread ⊢
  unfold parseRecord
  rw [skipSpace_cons rfl]
  simp only
  rw [skipSpace_cons rfl, hread]
  simp [skipSpace]

/-! ### What is read is well formed -/

mutual

theorem parseValue_spec : ∀ (fuel depth : Nat) (t rest : Text) (v : Json),
    parseValue fuel depth t = some (v, rest) → WellFormed IsNumber v ∧ v.depth ≤ depth
  | 0, _, _, _, _, h => by simp [parseValue] at h
  | _ + 1, _, [], _, _, h => by simp [parseValue] at h
  | fuel + 1, depth, c :: t, rest, v, h => by
    unfold parseValue at h
    split_ifs at h
    · simp only [Option.map_eq_some_iff, Prod.mk.injEq] at h
      obtain ⟨⟨members, rest'⟩, hm, rfl, -⟩ := h
      simpa [WellFormed, Json.depth] using parseObject_spec fuel depth _ _ _ hm
    · simp only [Option.map_eq_some_iff, Prod.mk.injEq] at h
      obtain ⟨⟨items, rest'⟩, hi, rfl, -⟩ := h
      simpa [WellFormed, Json.depth] using parseArray_spec fuel depth _ _ _ hi
    · simp only [Option.map_eq_some_iff, Prod.mk.injEq] at h
      obtain ⟨p, -, rfl, -⟩ := h
      simp [WellFormed, Json.depth]
    · simp only [Option.map_eq_some_iff, Prod.mk.injEq] at h
      obtain ⟨p, -, rfl, -⟩ := h
      simp [WellFormed, Json.depth]
    · simp only [Option.map_eq_some_iff, Prod.mk.injEq] at h
      obtain ⟨p, -, rfl, -⟩ := h
      simp [WellFormed, Json.depth]
    · simp only [Option.map_eq_some_iff, Prod.mk.injEq] at h
      obtain ⟨p, -, rfl, -⟩ := h
      simp [WellFormed, Json.depth]
    · simp only [Option.map_eq_some_iff, Prod.mk.injEq] at h
      obtain ⟨⟨literal, rest'⟩, hn, rfl, -⟩ := h
      exact ⟨isNumber_of_readNumber hn, Nat.zero_le _⟩

theorem parseArray_spec : ∀ (fuel depth : Nat) (t rest : Text) (items : List Json),
    parseArray fuel depth t = some (items, rest) →
    ItemsWellFormed IsNumber items ∧ itemsDepth items + 1 ≤ depth
  | 0, _, _, _, _, h => by simp [parseArray] at h
  | _ + 1, 0, _, _, _, h => by simp [parseArray] at h
  | _ + 1, _ + 1, [], _, _, h => by simp [parseArray] at h
  | fuel + 1, depth + 1, c :: t, rest, items, h => by
    unfold parseArray at h
    split_ifs at h
    · cases h
      simp [ItemsWellFormed, itemsDepth]
    · simpa using parseItems_spec fuel depth _ _ _ h

theorem parseItems_spec : ∀ (fuel depth : Nat) (t rest : Text) (items : List Json),
    parseItems fuel depth t = some (items, rest) →
    ItemsWellFormed IsNumber items ∧ itemsDepth items ≤ depth
  | 0, _, _, _, _, h => by simp [parseItems] at h
  | fuel + 1, depth, t, rest, items, h => by
    unfold parseItems at h
    split at h
    · cases h
    · next v after hv =>
      have hv := parseValue_spec fuel depth _ _ _ hv
      split at h
      · cases h
      · next c t' _ =>
        split_ifs at h
        · cases h
          simpa [ItemsWellFormed, itemsDepth] using hv
        · simp only [Option.map_eq_some_iff, Prod.mk.injEq] at h
          obtain ⟨⟨items', rest'⟩, hi, rfl, -⟩ := h
          have hi := parseItems_spec fuel depth _ _ _ hi
          exact ⟨⟨hv.1, hi.1⟩, Nat.max_le.mpr ⟨hv.2, hi.2⟩⟩

theorem parseObject_spec : ∀ (fuel depth : Nat) (t rest : Text) (members : RawMembers),
    parseObject fuel depth t = some (members, rest) →
    MembersWellFormed IsNumber (members.map fun m => (m.1, m.2.2)) ∧
      membersDepth (members.map fun m => (m.1, m.2.2)) + 1 ≤ depth
  | 0, _, _, _, _, h => by simp [parseObject] at h
  | _ + 1, 0, _, _, _, h => by simp [parseObject] at h
  | _ + 1, _ + 1, [], _, _, h => by simp [parseObject] at h
  | fuel + 1, depth + 1, c :: t, rest, members, h => by
    unfold parseObject at h
    split_ifs at h
    · cases h
      simp [MembersWellFormed, membersDepth]
    · simpa using parseMembers_spec fuel depth _ _ _ h

theorem parseMembers_spec : ∀ (fuel depth : Nat) (t rest : Text) (members : RawMembers),
    parseMembers fuel depth t = some (members, rest) →
    MembersWellFormed IsNumber (members.map fun m => (m.1, m.2.2)) ∧
      membersDepth (members.map fun m => (m.1, m.2.2)) ≤ depth
  | 0, _, _, _, _, h => by simp [parseMembers] at h
  | fuel + 1, depth, t, rest, members, h => by
    unfold parseMembers at h
    split at h
    · cases h
    · split at h
      · cases h
      · next v after hv =>
        have hv := parseValue_spec fuel depth _ _ _ hv
        split at h
        · cases h
        · split_ifs at h
          · cases h
            simpa [MembersWellFormed, membersDepth] using hv
          · simp only [Option.map_eq_some_iff, Prod.mk.injEq] at h
            obtain ⟨⟨members', rest'⟩, hm, rfl, -⟩ := h
            have hm := parseMembers_spec fuel depth _ _ _ hm
            exact ⟨⟨hv.1, hm.1⟩, Nat.max_le.mpr ⟨hv.2, hm.2⟩⟩

end

mutual

/-- More fuel and more depth read the same value. -/
theorem parseValue_mono : ∀ {fuel fuel' depth depth' : Nat} {t rest : Text} {v : Json},
    fuel ≤ fuel' → depth ≤ depth' → parseValue fuel depth t = some (v, rest) →
    parseValue fuel' depth' t = some (v, rest)
  | 0, _, _, _, _, _, _, _, _, h => by simp [parseValue] at h
  | _ + 1, _, _, _, [], _, _, _, _, h => by simp [parseValue] at h
  | fuel + 1, 0, _, _, _ :: _, _, _, hf, _, _ => absurd hf (by omega)
  | fuel + 1, fuel' + 1, depth, depth', c :: t, rest, v, hf, hd, h => by
    have hf' : fuel ≤ fuel' := by omega
    unfold parseValue at h ⊢
    split_ifs at h ⊢
    · simp only [Option.map_eq_some_iff] at h ⊢
      obtain ⟨p, hp, heq⟩ := h
      exact ⟨p, parseObject_mono hf' hd hp, heq⟩
    · simp only [Option.map_eq_some_iff] at h ⊢
      obtain ⟨p, hp, heq⟩ := h
      exact ⟨p, parseArray_mono hf' hd hp, heq⟩
    all_goals exact h

theorem parseArray_mono : ∀ {fuel fuel' depth depth' : Nat} {t rest : Text} {items : List Json},
    fuel ≤ fuel' → depth ≤ depth' → parseArray fuel depth t = some (items, rest) →
    parseArray fuel' depth' t = some (items, rest)
  | 0, _, _, _, _, _, _, _, _, h => by simp [parseArray] at h
  | _ + 1, _, 0, _, _, _, _, _, _, h => by simp [parseArray] at h
  | _ + 1, _, _ + 1, _, [], _, _, _, _, h => by simp [parseArray] at h
  | _ + 1, 0, _ + 1, _, _ :: _, _, _, hf, _, _ => absurd hf (by omega)
  | _ + 1, _ + 1, _ + 1, 0, _ :: _, _, _, _, hd, _ => absurd hd (by omega)
  | fuel + 1, fuel' + 1, depth + 1, depth' + 1, c :: t, rest, items, hf, hd, h => by
    unfold parseArray at h ⊢
    split_ifs at h ⊢
    · exact h
    · exact parseItems_mono (by omega) (by omega) h

theorem parseItems_mono : ∀ {fuel fuel' depth depth' : Nat} {t rest : Text} {items : List Json},
    fuel ≤ fuel' → depth ≤ depth' → parseItems fuel depth t = some (items, rest) →
    parseItems fuel' depth' t = some (items, rest)
  | 0, _, _, _, _, _, _, _, _, h => by simp [parseItems] at h
  | _ + 1, 0, _, _, _, _, _, hf, _, _ => absurd hf (by omega)
  | fuel + 1, fuel' + 1, depth, depth', t, rest, items, hf, hd, h => by
    have hf' : fuel ≤ fuel' := by omega
    unfold parseItems at h ⊢
    cases hv : parseValue fuel depth t with
    | none => simp [hv] at h
    | some p =>
      obtain ⟨v, after⟩ := p
      rw [parseValue_mono hf' hd hv]
      simp only [hv] at h ⊢
      cases hs : skipSpace after with
      | nil => simp [hs] at h
      | cons c t' =>
        simp only [hs] at h ⊢
        split_ifs at h ⊢
        · exact h
        · simp only [Option.map_eq_some_iff] at h ⊢
          obtain ⟨p, hp, heq⟩ := h
          exact ⟨p, parseItems_mono hf' hd hp, heq⟩

theorem parseObject_mono : ∀ {fuel fuel' depth depth' : Nat} {t rest : Text}
    {members : RawMembers}, fuel ≤ fuel' → depth ≤ depth' →
    parseObject fuel depth t = some (members, rest) →
    parseObject fuel' depth' t = some (members, rest)
  | 0, _, _, _, _, _, _, _, _, h => by simp [parseObject] at h
  | _ + 1, _, 0, _, _, _, _, _, _, h => by simp [parseObject] at h
  | _ + 1, _, _ + 1, _, [], _, _, _, _, h => by simp [parseObject] at h
  | _ + 1, 0, _ + 1, _, _ :: _, _, _, hf, _, _ => absurd hf (by omega)
  | _ + 1, _ + 1, _ + 1, 0, _ :: _, _, _, _, hd, _ => absurd hd (by omega)
  | fuel + 1, fuel' + 1, depth + 1, depth' + 1, c :: t, rest, members, hf, hd, h => by
    unfold parseObject at h ⊢
    split_ifs at h ⊢
    · exact h
    · exact parseMembers_mono (by omega) (by omega) h

theorem parseMembers_mono : ∀ {fuel fuel' depth depth' : Nat} {t rest : Text}
    {members : RawMembers}, fuel ≤ fuel' → depth ≤ depth' →
    parseMembers fuel depth t = some (members, rest) →
    parseMembers fuel' depth' t = some (members, rest)
  | 0, _, _, _, _, _, _, _, _, h => by simp [parseMembers] at h
  | _ + 1, 0, _, _, _, _, _, hf, _, _ => absurd hf (by omega)
  | fuel + 1, fuel' + 1, depth, depth', t, rest, members, hf, hd, h => by
    have hf' : fuel ≤ fuel' := by omega
    unfold parseMembers at h ⊢
    cases hn : parseName t with
    | none => simp [hn] at h
    | some q =>
      obtain ⟨k, r⟩ := q
      simp only [hn] at h ⊢
      cases hv : parseValue fuel depth (skipSpace r) with
      | none => simp [hv] at h
      | some p =>
        obtain ⟨v, after⟩ := p
        rw [parseValue_mono hf' hd hv]
        simp only [hv] at h ⊢
        cases hs : skipSpace after with
        | nil => simp [hs] at h
        | cons c t' =>
          simp only [hs] at h ⊢
          split_ifs at h ⊢
          · exact h
          · simp only [Option.map_eq_some_iff] at h ⊢
            obtain ⟨p, hp, heq⟩ := h
            exact ⟨p, parseMembers_mono hf' hd hp, heq⟩

end

/-- If the compact text of an object is read at all, it is read as the object is. -/
theorem parseRecord_render_eq_some {members : List (Text × Json)} (hne : members ≠ [])
    (h : MembersWellFormed IsNumber members) {raw : RawMembers}
    (hread : parseRecord (render (.obj members)) = some raw) :
    raw = rawMembers members ∧ membersDepth members + 1 ≤ maxDepth := by
  obtain ⟨⟨k, v⟩, members, rfl⟩ := List.exists_cons_of_ne_nil hne
  have hfull := parseObject_render ((k, v) :: members)
    (2 * (render (.obj ((k, v) :: members))).length) (membersDepth ((k, v) :: members) + 1) [] hne h
    (by simp only [render, renderMembers, List.length_cons, List.length_append]; omega) (le_refl _)
  simp only [renderMembers, quote, List.drop_succ_cons, List.drop_zero, List.cons_append,
    List.append_nil] at hfull
  simp only [render, quote, List.cons_append] at hread hfull
  unfold parseRecord at hread
  rw [skipSpace_cons rfl] at hread
  simp only at hread
  rw [skipSpace_cons rfl] at hread
  split at hread
  · next raw' rest hraw =>
    split_ifs at hread
    cases hread
    have hspec := (parseObject_spec _ _ _ _ _ hraw).2
    have h1 := parseObject_mono (le_refl _) (le_max_left maxDepth
      (membersDepth ((k, v) :: members) + 1)) hraw
    have h2 := parseObject_mono (le_refl _) (le_max_right maxDepth
      (membersDepth ((k, v) :: members) + 1)) hfull
    rw [h1] at h2
    have hraw' : raw = rawMembers ((k, v) :: members) := congrArg Prod.fst (Option.some.inj h2)
    refine ⟨hraw', ?_⟩
    rwa [hraw', map_rawMembers] at hspec
  · cases hread

/-- What is read is well formed and nests no deeper than texts are read to. -/
theorem parse_spec {t : Text} {v : Json} (h : parse t = some v) :
    WellFormed IsNumber v ∧ v.depth ≤ maxDepth := by
  unfold parse at h
  split at h
  · next w rest hw =>
    split_ifs at h
    cases h
    exact parseValue_spec _ _ _ _ _ hw
  · cases h

/-- Two values with the same compact text are the same. -/
theorem render_injective {v w : Json} (hv : WellFormed IsNumber v) (hw : WellFormed IsNumber w)
    (h : render v = render w) : v = w := by
  have hreadv := parseValue_render v (2 * (render v).length) (max v.depth w.depth) [] hv (le_refl _)
    (le_max_left _ _) stops_nil
  have hreadw := parseValue_render w (2 * (render w).length) (max v.depth w.depth) [] hw (le_refl _)
    (le_max_right _ _) stops_nil
  rw [h, hreadw] at hreadv
  exact (congrArg Prod.fst (Option.some.inj hreadv)).symm

/-! ### Compaction -/

theorem forall_mem_spanDigits (t : Text) : ∀ c ∈ (spanDigits t).1, c.isDigit = true := by
  induction t with
  | nil => simp [spanDigits]
  | cons c t ih =>
    by_cases hc : c.isDigit
    · simpa [spanDigits, hc] using ih
    · simp [spanDigits, hc]

theorem forall_mem_digits1 {t ds rest : Text} (h : digits1 t = some (ds, rest)) :
    ∀ c ∈ ds, isNumberChar c = true := by
  obtain ⟨-, hspan⟩ := digits1_eq_some.mp h
  have hall := forall_mem_spanDigits t
  rw [hspan] at hall
  intro c hc
  simp [isNumberChar, hall c hc]

theorem forall_mem_signPart (plus : Bool) (t : Text) :
    ∀ c ∈ (signPart plus t).1, isNumberChar c = true := by
  unfold signPart
  split
  · simp [isNumberChar]
  · cases plus <;> simp [isNumberChar]
  · simp

/-- A number literal consists of the characters of numbers. -/
theorem forall_mem_isNumber {literal : Text} (h : IsNumber literal) :
    ∀ c ∈ literal, isNumberChar c = true := by
  unfold IsNumber readNumber at h
  dsimp only at h
  split at h
  · cases h
  · next int hint =>
    split at h
    · cases h
    · next frac hfrac =>
      split at h
      · cases h
      · next exp hexp =>
        have hliteral := congrArg Prod.fst (Option.some.inj h)
        dsimp only at hliteral
        rw [← hliteral]
        have h1 : ∀ c ∈ int.1, isNumberChar c = true := by
          unfold intPart at hint
          split at hint
          · cases hint
            simp [isNumberChar]
          · exact forall_mem_digits1 hint
        have h2 : ∀ c ∈ frac.1, isNumberChar c = true := by
          unfold fracPart at hfrac
          split at hfrac
          · simp only [Option.map_eq_some_iff] at hfrac
            obtain ⟨p, hp, rfl⟩ := hfrac
            simpa [isNumberChar] using forall_mem_digits1 hp
          · cases hfrac
            simp
        have h3 : ∀ c ∈ exp.1, isNumberChar c = true := by
          unfold expPart at hexp
          split at hexp
          · cases hexp
            simp
          · split_ifs at hexp with he
            · simp only [Option.map_eq_some_iff] at hexp
              obtain ⟨p, hp, rfl⟩ := hexp
              intro c hc
              simp only [List.cons_append, List.mem_cons, List.mem_append] at hc
              rcases hc with rfl | hc | hc
              · rcases he with rfl | rfl <;> rfl
              · exact forall_mem_signPart true _ c hc
              · exact forall_mem_digits1 hp c hc
            · cases hexp
              simp
        intro c hc
        simp only [List.mem_append] at hc
        rcases hc with ((hc | hc) | hc) | hc
        · exact forall_mem_signPart false _ c hc
        · exact h1 c hc
        · exact h2 c hc
        · exact h3 c hc

/-- A character that compaction keeps outside strings. -/
def KeptOutside (c : Char) : Prop :=
  isSpace c = false ∧ c ≠ '"' ∧ compactChar c = [c]

theorem keptOutside_of_isNumberChar {c : Char} (h : isNumberChar c = true) : KeptOutside c := by
  have hascii : c.toNat < 128 := by
    simp only [isNumberChar, Bool.or_eq_true, beq_iff_eq] at h
    rcases h with ((((h | rfl) | rfl) | rfl) | rfl) | rfl
    · simp only [Char.isDigit, Bool.and_eq_true, decide_eq_true_eq, UInt32.le_iff_toNat_le] at h
      have := h.2
      simp only [Char.toNat]
      change c.val.toNat ≤ 57 at this
      omega
    all_goals decide
  have hne : ∀ d : Char, isNumberChar d = false → c ≠ d := by
    rintro d hd rfl
    simp [h] at hd
  refine ⟨?_, hne '"' rfl, ?_⟩
  · simp [isSpace, hne ' ' rfl, hne '\t' rfl, hne '\n' rfl, hne '\r' rfl]
  · unfold compactChar
    rw [if_neg]
    rintro (rfl | rfl | rfl | h' | h')
    · exact hne '<' rfl rfl
    · exact hne '>' rfl rfl
    · exact hne '&' rfl rfl
    · omega
    · omega

theorem compactFrom_outside_append {w : Text} (h : ∀ c ∈ w, KeptOutside c) (r : Text) :
    compactFrom .outside (w ++ r) = w ++ compactFrom .outside r := by
  induction w with
  | nil => rfl
  | cons c w ih =>
    obtain ⟨hs, hq, hc⟩ := h c (by simp)
    rw [List.cons_append, compactFrom]
    simp only [hs, hc, hq, CompactState.next, if_false, Bool.false_eq_true, and_false,
      List.cons_append, List.nil_append, ih fun d hd => h d (List.mem_cons_of_mem _ hd)]

theorem compactChar_hexDigit : ∀ n < 16, compactChar (hexDigit n) = [hexDigit n] ∧
    CompactState.inside.next (hexDigit n) = .inside := by decide

theorem compactFrom_unicodeEscape (n : Nat) (r : Text) :
    compactFrom .inside (unicodeEscape n ++ r) = unicodeEscape n ++ compactFrom .inside r := by
  have h1 := compactChar_hexDigit (n / 4096 % 16) (by omega)
  have h2 := compactChar_hexDigit (n / 256 % 16) (by omega)
  have h3 := compactChar_hexDigit (n / 16 % 16) (by omega)
  have h4 := compactChar_hexDigit (n % 16) (by omega)
  have hb : compactChar '\\' = ['\\'] ∧ compactChar 'u' = ['u'] := by decide
  simp [unicodeEscape, compactFrom, hb, h1, h2, h3, h4,
    show CompactState.inside.next '\\' = .escaped from rfl,
    show CompactState.escaped.next 'u' = .inside from rfl]

/-- Compaction keeps the text of a rune inside a string literal. -/
theorem compactFrom_quoteRune (c : Char) (r : Text) :
    compactFrom .inside (quoteRune c ++ r) = quoteRune c ++ compactFrom .inside r := by
  unfold quoteRune
  split_ifs with h1 h2 h3 h4 h5 h6 h7
  · have hb : compactChar '\\' = ['\\'] := by decide
    have hc : compactChar c = [c] := by rcases h1 with rfl | rfl <;> decide
    simp [compactFrom, hb, hc, CompactState.next]
  · simp [compactFrom, CompactState.next, compactChar]
  · simp [compactFrom, CompactState.next, compactChar]
  · simp [compactFrom, CompactState.next, compactChar]
  · simp [compactFrom, CompactState.next, compactChar]
  · simp [compactFrom, CompactState.next, compactChar]
  · exact compactFrom_unicodeEscape _ _
  · have hc : compactChar c = [c] := by
      unfold compactChar
      rw [if_neg]
      tauto
    have hn : c ≠ '"' ∧ c ≠ '\\' := by tauto
    simp [compactFrom, hc, hn, CompactState.next]

theorem compactFrom_quote (s r : Text) :
    compactFrom .outside (quote s ++ r) = quote s ++ compactFrom .outside r := by
  have hbody : ∀ s r : Text, compactFrom .inside (s.flatMap quoteRune ++ r) =
      s.flatMap quoteRune ++ compactFrom .inside r := by
    intro s r
    induction s with
    | nil => rfl
    | cons c s ih =>
      rw [List.flatMap_cons, List.append_assoc, compactFrom_quoteRune, ih, List.append_assoc]
  have hq : compactChar '"' = ['"'] := by decide
  simp only [quote, List.cons_append, List.append_assoc, List.nil_append]
  rw [compactFrom, if_neg (by decide), hq, show CompactState.outside.next '"' = .inside from rfl,
    hbody, compactFrom, if_neg (by decide), hq, show CompactState.inside.next '"' = .outside from rfl]
  rfl

theorem compactFrom_cons {c : Char} (h : KeptOutside c) (r : Text) :
    compactFrom .outside (c :: r) = c :: compactFrom .outside r :=
  compactFrom_outside_append (w := [c]) (by simpa using h) r

theorem keptOutside_punctuation : ∀ c ∈ ['[', ']', '{', '}', ',', ':'], KeptOutside c := by
  simp [KeptOutside, compactChar, isSpace]

theorem keptOutside_words : ∀ w ∈ [['n', 'u', 'l', 'l'], ['t', 'r', 'u', 'e'],
    ['f', 'a', 'l', 's', 'e'], ['[', ']'], ['{', '}']], ∀ c ∈ w, KeptOutside c := by
  simp [KeptOutside, compactChar, isSpace]

mutual

/-- Compaction keeps the compact text of a value. -/
theorem compactFrom_render : ∀ (v : Json) (r : Text), WellFormed IsNumber v →
    compactFrom .outside (render v ++ r) = render v ++ compactFrom .outside r
  | .null, r, _ => compactFrom_outside_append (keptOutside_words ['n', 'u', 'l', 'l'] (by decide)) r
  | .bool true, r, _ => compactFrom_outside_append (keptOutside_words ['t', 'r', 'u', 'e'] (by decide)) r
  | .bool false, r, _ => compactFrom_outside_append (keptOutside_words ['f', 'a', 'l', 's', 'e'] (by decide)) r
  | .num literal, r, h => compactFrom_outside_append
      (fun c hc => keptOutside_of_isNumberChar (forall_mem_isNumber h c hc)) r
  | .str s, r, _ => compactFrom_quote s r
  | .arr [], r, _ => compactFrom_outside_append (keptOutside_words ['[', ']'] (by decide)) r
  | .arr (v :: items), r, h => by
    simp only [render, List.cons_append, List.append_assoc]
    rw [compactFrom_cons (keptOutside_punctuation '[' (by decide)), compactFrom_render v _ h.1,
      compactFrom_renderItems items r h.2]
  | .obj [], r, _ => compactFrom_outside_append (keptOutside_words ['{', '}'] (by decide)) r
  | .obj ((k, v) :: members), r, h => by
    simp only [render, List.cons_append, List.append_assoc]
    rw [compactFrom_cons (keptOutside_punctuation '{' (by decide)), compactFrom_quote,
      compactFrom_cons (keptOutside_punctuation ':' (by decide)), compactFrom_render v _ h.1,
      compactFrom_renderMembers members r h.2]

theorem compactFrom_renderItems : ∀ (items : List Json) (r : Text), ItemsWellFormed IsNumber items →
    compactFrom .outside (renderItems items ++ r) = renderItems items ++ compactFrom .outside r
  | [], r, _ => compactFrom_cons (keptOutside_punctuation ']' (by decide)) r
  | v :: items, r, h => by
    simp only [renderItems, List.cons_append, List.append_assoc]
    rw [compactFrom_cons (keptOutside_punctuation ',' (by decide)), compactFrom_render v _ h.1,
      compactFrom_renderItems items r h.2]

theorem compactFrom_renderMembers : ∀ (members : List (Text × Json)) (r : Text),
    MembersWellFormed IsNumber members →
    compactFrom .outside (renderMembers members ++ r) =
      renderMembers members ++ compactFrom .outside r
  | [], r, _ => compactFrom_cons (keptOutside_punctuation '}' (by decide)) r
  | (k, v) :: members, r, h => by
    simp only [renderMembers, List.cons_append, List.append_assoc]
    rw [compactFrom_cons (keptOutside_punctuation ',' (by decide)), compactFrom_quote,
      compactFrom_cons (keptOutside_punctuation ':' (by decide)), compactFrom_render v _ h.1,
      compactFrom_renderMembers members r h.2]

end

/-- The compact text of a value is its own compact form. -/
theorem compact_render {v : Json} (h : WellFormed IsNumber v) (hdepth : v.depth ≤ maxDepth) :
    compact (render v) = some (render v) := by
  have hrender := compactFrom_render v [] h
  rw [List.append_nil] at hrender
  simp [compact, parse_render h hdepth, hrender, compactFrom]

/-! ### Objects as maps -/

/-- The members of an object in the order of their names, each name once. -/
def Sorted (members : List (Text × Json)) : Prop := members.Pairwise fun m n => m.1 < n.1

theorem insertMember_subset (k : Text) (v : Json) (members : List (Text × Json)) :
    ∀ m ∈ insertMember k v members, m = (k, v) ∨ m ∈ members := by
  induction members with
  | nil => simp [insertMember]
  | cons m members ih =>
    intro n hn
    unfold insertMember at hn
    split_ifs at hn
    · simpa using hn
    · simp only [List.mem_cons] at hn ⊢
      tauto
    · simp only [List.mem_cons] at hn ⊢
      rcases hn with hn | hn
      · exact Or.inr (Or.inl hn)
      · rcases ih n hn with hn | hn <;> tauto

theorem sorted_insertMember (k : Text) (v : Json) {members : List (Text × Json)}
    (h : Sorted members) : Sorted (insertMember k v members) := by
  induction members with
  | nil => simp [insertMember, Sorted]
  | cons m members ih =>
    obtain ⟨k', v'⟩ := m
    obtain ⟨hm, hrest⟩ := List.pairwise_cons.mp h
    unfold insertMember
    split_ifs with hlt heq
    · refine List.pairwise_cons.mpr ⟨fun n hn => ?_, h⟩
      rcases List.mem_cons.mp hn with rfl | hn
      · exact hlt
      · exact lt_trans hlt (hm n hn)
    · subst heq
      exact List.pairwise_cons.mpr ⟨hm, hrest⟩
    · refine List.pairwise_cons.mpr ⟨fun n hn => ?_, ih hrest⟩
      rcases insertMember_subset k v members n hn with rfl | hn
      · exact lt_of_le_of_ne (not_lt.mp hlt) (Ne.symm heq)
      · exact hm n hn

theorem insertMember_of_forall_lt {k : Text} (v : Json) {members : List (Text × Json)}
    (h : ∀ m ∈ members, m.1 < k) : insertMember k v members = members ++ [(k, v)] := by
  induction members with
  | nil => rfl
  | cons m members ih =>
    obtain ⟨k', v'⟩ := m
    have hlt : k' < k := h (k', v') (by simp)
    rw [insertMember, if_neg (lt_asymm hlt), if_neg (ne_of_gt hlt),
      ih fun n hn => h n (List.mem_cons_of_mem _ hn), List.cons_append]

/-- Inserting members one by one into a sorted list keeps it sorted and adds nothing else. -/
theorem foldl_insertMember_spec (members sorted : List (Text × Json)) (h : Sorted sorted) :
    Sorted (members.foldl (fun acc m => insertMember m.1 m.2 acc) sorted) ∧
      ∀ m ∈ members.foldl (fun acc m => insertMember m.1 m.2 acc) sorted,
        m ∈ members ∨ m ∈ sorted := by
  induction members generalizing sorted with
  | nil => exact ⟨h, fun m hm => Or.inr hm⟩
  | cons n members ih =>
    obtain ⟨h1, h2⟩ := ih (insertMember n.1 n.2 sorted) (sorted_insertMember _ _ h)
    refine ⟨h1, fun m hm => ?_⟩
    rcases h2 m hm with hm | hm
    · exact Or.inl (List.mem_cons_of_mem _ hm)
    · rcases insertMember_subset _ _ _ m hm with rfl | hm
      · exact Or.inl (by simp)
      · exact Or.inr hm

theorem sorted_sortMembers (members : List (Text × Json)) : Sorted (sortMembers members) :=
  (foldl_insertMember_spec members [] List.Pairwise.nil).1

theorem mem_of_mem_sortMembers {members : List (Text × Json)} {m : Text × Json}
    (h : m ∈ sortMembers members) : m ∈ members := by
  simpa using (foldl_insertMember_spec members [] List.Pairwise.nil).2 m h

theorem foldl_insertMember_of_sorted (members sorted : List (Text × Json))
    (h : Sorted (sorted ++ members)) :
    members.foldl (fun acc m => insertMember m.1 m.2 acc) sorted = sorted ++ members := by
  induction members generalizing sorted with
  | nil => simp
  | cons m members ih =>
    have hlt : ∀ n ∈ sorted, n.1 < m.1 := fun n hn =>
      (List.pairwise_append.mp h).2.2 n hn m (by simp)
    rw [List.foldl_cons, insertMember_of_forall_lt m.2 hlt, ih _ (by simpa using h)]
    simp

/-- Sorting sorted members changes nothing. -/
theorem sortMembers_of_sorted {members : List (Text × Json)} (h : Sorted members) :
    sortMembers members = members :=
  foldl_insertMember_of_sorted members [] h

theorem canonicalMembers_eq_map (members : List (Text × Json)) :
    canonicalMembers members = members.map fun m => (m.1, canonical m.2) := by
  induction members with
  | nil => rfl
  | cons m members ih =>
    obtain ⟨k, v⟩ := m
    simp [canonicalMembers, ih]

theorem membersWellFormed_iff {p : Text → Prop} {members : List (Text × Json)} :
    MembersWellFormed p members ↔ ∀ m ∈ members, WellFormed p m.2 := by
  induction members with
  | nil => simp [MembersWellFormed]
  | cons m members ih =>
    obtain ⟨k, v⟩ := m
    simp [MembersWellFormed, ih]

theorem membersDepth_le_iff {n : Nat} {members : List (Text × Json)} :
    membersDepth members ≤ n ↔ ∀ m ∈ members, depth m.2 ≤ n := by
  induction members with
  | nil => simp [membersDepth]
  | cons m members ih =>
    obtain ⟨k, v⟩ := m
    simp [membersDepth, ih]

mutual

theorem canonical_canonical : ∀ v : Json, canonical (canonical v) = canonical v
  | .null => rfl
  | .bool _ => rfl
  | .num _ => rfl
  | .str _ => rfl
  | .arr items => by
    simp only [canonical, canonicalItems_canonicalItems items]
  | .obj members => by
    have hmem := canonicalMembers_isCanonical members
    have hfix : canonicalMembers (sortMembers (canonicalMembers members)) =
        sortMembers (canonicalMembers members) := by
      rw [canonicalMembers_eq_map (sortMembers _)]
      refine (List.map_congr_left fun m hm => ?_).trans (List.map_id _)
      rw [hmem m (mem_of_mem_sortMembers hm)]
      rfl
    simp only [canonical, hfix, sortMembers_of_sorted (sorted_sortMembers _)]

theorem canonicalItems_canonicalItems : ∀ items : List Json,
    canonicalItems (canonicalItems items) = canonicalItems items
  | [] => rfl
  | v :: items => by
    simp only [canonicalItems, canonical_canonical v, canonicalItems_canonicalItems items]

theorem canonicalMembers_isCanonical : ∀ members : List (Text × Json),
    ∀ m ∈ canonicalMembers members, canonical m.2 = m.2
  | [] => by simp [canonicalMembers]
  | (k, v) :: members => by
    intro m hm
    simp only [canonicalMembers, List.mem_cons] at hm
    rcases hm with rfl | hm
    · exact canonical_canonical v
    · exact canonicalMembers_isCanonical members m hm

end

mutual

theorem canonical_spec {p : Text → Prop} : ∀ v : Json, WellFormed p v →
    WellFormed p (canonical v) ∧ (canonical v).depth ≤ v.depth
  | .null, h => ⟨h, le_refl _⟩
  | .bool _, h => ⟨h, le_refl _⟩
  | .num _, h => ⟨h, le_refl _⟩
  | .str _, h => ⟨h, le_refl _⟩
  | .arr items, h => by
    have := canonicalItems_spec items h
    exact ⟨this.1, Nat.succ_le_succ this.2⟩
  | .obj members, h => by
    have hm := canonicalMembers_spec members h
    refine ⟨membersWellFormed_iff.mpr fun m hmem => ?_, Nat.succ_le_succ ?_⟩
    · exact membersWellFormed_iff.mp hm.1 m (mem_of_mem_sortMembers hmem)
    · refine membersDepth_le_iff.mpr fun m hmem => ?_
      exact membersDepth_le_iff.mp hm.2 m (mem_of_mem_sortMembers hmem)

theorem canonicalItems_spec {p : Text → Prop} : ∀ items : List Json, ItemsWellFormed p items →
    ItemsWellFormed p (canonicalItems items) ∧ itemsDepth (canonicalItems items) ≤ itemsDepth items
  | [], h => ⟨h, le_refl _⟩
  | v :: items, h => by
    have hv := canonical_spec v h.1
    have hi := canonicalItems_spec items h.2
    exact ⟨⟨hv.1, hi.1⟩, max_le_max hv.2 hi.2⟩

theorem canonicalMembers_spec {p : Text → Prop} : ∀ members : List (Text × Json),
    MembersWellFormed p members →
    MembersWellFormed p (canonicalMembers members) ∧
      membersDepth (canonicalMembers members) ≤ membersDepth members
  | [], h => ⟨h, le_refl _⟩
  | (_, v) :: members, h => by
    have hv := canonical_spec v h.1
    have hm := canonicalMembers_spec members h.2
    exact ⟨⟨hv.1, hm.1⟩, max_le_max hv.2 hm.2⟩

end

end Json
