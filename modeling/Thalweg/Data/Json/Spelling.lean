import Thalweg.Data.Json.Record

/-!
# The texts that spell a value

Reading a JSON text takes a part of it and leaves the rest. The part that is taken spells the value:
it reads as the value in front of any other rest, and so does its compact form. Texts of one value
may thus be cut out of a text, compacted and put into another one.

## Main results

* `Json.Spells`: the text is read as the value wherever nesting to the depth is read.
* `Json.parseRecord_spells`: the raw texts of the members of an object spell their values.
* `Json.parseRecord_renderRecord`: a record that is written from texts that spell values reads back.
-/

namespace Json

/-! ### String literals -/

/-- The text starts with the escape of a second surrogate. -/
def startsLow (t : Text) : Bool :=
  match escapedUnit t with
  | some m => decide (0xDC00 ≤ m ∧ m < 0xE000)
  | none => false

theorem startsLow_of_ne {c : Char} (h : c ≠ '\\') (t : Text) : startsLow (c :: t) = false := by
  have : escapedUnit (c :: t) = none := by
    unfold escapedUnit
    split
    · next heq => exact absurd (List.cons.inj heq).1 h
    · rfl
  rw [startsLow, this]

theorem startsLow_of_ne_u {e : Char} (h : e ≠ 'u') (t : Text) :
    startsLow ('\\' :: e :: t) = false := by
  have : escapedUnit ('\\' :: e :: t) = none := by
    unfold escapedUnit
    split
    · next heq => exact absurd (List.cons.inj (List.cons.inj heq).2).1 h
    · rfl
  rw [startsLow, this]

/-- An ASCII character other than the markup characters is kept by compaction. -/
theorem compactChar_of_ascii {c : Char} (h : c.toNat < 128) (hc : c ≠ '<' ∧ c ≠ '>' ∧ c ≠ '&') :
    compactChar c = [c] := by
  rw [compactChar, if_neg]
  rintro (h' | h' | h' | h' | h')
  · exact hc.1 h'
  · exact hc.2.1 h'
  · exact hc.2.2 h'
  · omega
  · omega

/-- A hexadecimal digit is kept by compaction. -/
theorem compactFrom_hexDigit {c : Char} {n : Nat} (h : hexValue c = some n) (r : Text) :
    compactFrom .inside (c :: r) = c :: compactFrom .inside r := by
  have hrange : (48 ≤ c.toNat ∧ c.toNat ≤ 57) ∨ (97 ≤ c.toNat ∧ c.toNat ≤ 102) ∨
      (65 ≤ c.toNat ∧ c.toNat ≤ 70) := by
    unfold hexValue at h
    split_ifs at h with h1 h2 h3
    · exact Or.inl ⟨h1.1, h1.2⟩
    · exact Or.inr (Or.inl ⟨h2.1, h2.2⟩)
    · exact Or.inr (Or.inr ⟨h3.1, h3.2⟩)
  have hne : ∀ d : Char, d.toNat < 48 ∨ (57 < d.toNat ∧ d.toNat < 65) ∨
      (70 < d.toNat ∧ d.toNat < 97) ∨ 102 < d.toNat → c ≠ d := by
    rintro d hd rfl
    omega
  have hkeep : compactChar c = [c] := compactChar_of_ascii (by omega)
    ⟨hne _ (by decide), hne _ (by decide), hne _ (by decide)⟩
  have hnext : CompactState.inside.next c = .inside := by
    rw [CompactState.next, if_neg (hne _ (by decide)), if_neg (hne _ (by decide))]
  simp [compactFrom, hkeep, hnext]

theorem hex4_eq_some {t : Text} {n : Nat} (h : hex4 t = some n) :
    ∃ a b c d, t = a :: b :: c :: d :: t.drop 4 ∧ (∀ r, hex4 (a :: b :: c :: d :: r) = some n) ∧
      ∀ r, compactFrom .inside (a :: b :: c :: d :: r) =
        a :: b :: c :: d :: compactFrom .inside r := by
  rcases t with _ | ⟨a, _ | ⟨b, _ | ⟨c, _ | ⟨d, t⟩⟩⟩⟩
  · cases h
  · cases h
  · cases h
  · cases h
  refine ⟨a, b, c, d, rfl, fun r => h, fun r => ?_⟩
  simp only [hex4, Option.bind_eq_bind, Option.bind_eq_some_iff] at h
  obtain ⟨_, ha, _, hb, _, hc, _, hd, -⟩ := h
  rw [compactFrom_hexDigit ha, compactFrom_hexDigit hb, compactFrom_hexDigit hc,
    compactFrom_hexDigit hd]

/-- An escape inside a string literal is kept by compaction. -/
theorem compactFrom_escape {e : Char} (h : compactChar e = [e]) (r : Text) :
    compactFrom .inside ('\\' :: e :: r) = '\\' :: e :: compactFrom .inside r := by
  have hslash : compactChar '\\' = ['\\'] := by decide
  simp [compactFrom, hslash, h, CompactState.next]

/-- The characters spell one rune of a string literal, when a text follows that starts with the
escape of a second surrogate or does not, as `low` says. -/
structure SpellsRune (rune : Char) (low : Bool) (c : Char) (chunk : Text) : Prop where
  ne : c ≠ '"'
  read : ∀ x, startsLow x = low → readRune c (chunk ++ x) = some (rune, chunk.length)
  starts : ∀ x x', startsLow (c :: chunk ++ x) = startsLow (c :: chunk ++ x')

theorem spellsRune_self {c : Char} (hquote : c ≠ '"') (hslash : c ≠ '\\')
    (hcontrol : ¬ c.toNat < 0x20)
    (low : Bool) : SpellsRune c low c [] where
  ne := hquote
  read x _ := by simp [readRune, hcontrol, hslash]
  starts x x' := by rw [List.cons_append, List.cons_append, startsLow_of_ne hslash,
    startsLow_of_ne hslash]

theorem startsLow_unicodeEscape {n : Nat} (h : n < 0xDC00) (x : Text) :
    startsLow (unicodeEscape n ++ x) = false := by
  have hread : escapedUnit (unicodeEscape n ++ x) = some n := hex4_unicodeEscape (by omega) x
  rw [startsLow, hread]
  simp only [decide_eq_false_iff_not]
  omega

theorem spellsRune_unicodeEscape {c : Char} (h : c.toNat < 0xD800) (low : Bool) :
    SpellsRune c low '\\' ('u' :: (unicodeEscape c.toNat).drop 2) where
  ne := by decide
  read x _ := readRune_unicodeEscape (by omega) x
  starts x x' := by
    have hstart : ∀ y, startsLow ('\\' :: 'u' :: (unicodeEscape c.toNat).drop 2 ++ y) = false :=
      startsLow_unicodeEscape (by omega)
    rw [hstart, hstart]

/-- The characters that compaction escapes. -/
theorem compactChar_cases (c : Char) : compactChar c = [c] ∨
    compactChar c = unicodeEscape c.toNat ∧ c ≠ '"' ∧ c ≠ '\\' ∧ c.toNat < 0xD800 := by
  unfold compactChar
  split_ifs with h
  · refine Or.inr ⟨rfl, ?_⟩
    rcases h with rfl | rfl | rfl | h | h
    · decide
    · decide
    · decide
    · refine ⟨?_, ?_, by omega⟩ <;> (rintro rfl; revert h; decide)
    · refine ⟨?_, ?_, by omega⟩ <;> (rintro rfl; revert h; decide)
  · exact Or.inl rfl

/-- The text after a high surrogate is looked at for a second one. -/
theorem readUnit_congr {n : Nat} {t t' : Text} (h : startsLow t = false)
    (h' : startsLow t' = false) :
    readUnit n t = readUnit n t' := by
  have hnone : ∀ y, startsLow y = false → 0xD800 ≤ n ∧ n < 0xDC00 →
      readUnit n y = (Text.replacement, 0) := by
    intro y hy hhigh
    rw [readUnit, if_pos hhigh]
    unfold startsLow at hy
    split
    · next m hm =>
      rw [hm, decide_eq_false_iff_not] at hy
      rw [if_neg hy]
    · rfl
  by_cases hhigh : 0xD800 ≤ n ∧ n < 0xDC00
  · rw [hnone t h hhigh, hnone t' h' hhigh]
  · rw [readUnit, readUnit, if_neg hhigh, if_neg hhigh]

theorem escapedUnit_eq_some {t : Text} {m : Nat} (h : escapedUnit t = some m) :
    ∃ u, t = '\\' :: 'u' :: u ∧ hex4 u = some m := by
  unfold escapedUnit at h
  split at h
  · exact ⟨_, rfl, h⟩
  · cases h

theorem startsLow_of_not_low {t : Text}
    (h : ∀ m, escapedUnit t = some m → ¬ (0xDC00 ≤ m ∧ m < 0xE000)) :
    startsLow t = false := by
  unfold startsLow
  split
  · next m hm => exact decide_eq_false (h m hm)
  · rfl

/-- A code unit takes nothing of the text after it unless that starts with a second surrogate. -/
theorem readUnit_of_not_low {n : Nat} {t : Text} (h : startsLow t = false) :
    (readUnit n t).2 = 0 := by
  have hnil : readUnit n [] = (Text.replacement, 0) ∨ readUnit n [] = (Char.ofNat n, 0) := by
    unfold readUnit
    split_ifs
    · exact Or.inl rfl
    · exact Or.inl rfl
    · exact Or.inr rfl
  rw [readUnit_congr h (show startsLow [] = false from rfl)]
  rcases hnil with hnil | hnil <;> rw [hnil]

/-- What a code unit takes of the text after it. -/
theorem readUnit_cases {n : Nat} {t : Text} {c : Char} {skip : Nat} (h : readUnit n t = (c, skip)) :
    (skip = 0 ∧ ∀ x, startsLow x = startsLow t → readUnit n x = (c, 0)) ∨
    ∃ a b d e, t = '\\' :: 'u' :: a :: b :: d :: e :: t.drop 6 ∧ skip = 6 ∧
      (∀ x, readUnit n ('\\' :: 'u' :: a :: b :: d :: e :: x) = (c, 6)) ∧
      ∀ r, compactFrom .inside (a :: b :: d :: e :: r) =
        a :: b :: d :: e :: compactFrom .inside r := by
  by_cases hlow : startsLow t = false
  · obtain rfl : 0 = skip := by rw [← readUnit_of_not_low hlow, h]
    exact Or.inl ⟨rfl, fun x hx => by rw [readUnit_congr (hx.trans hlow) hlow, h]⟩
  by_cases hhigh : 0xD800 ≤ n ∧ n < 0xDC00
  · obtain ⟨m, hm, hrange⟩ : ∃ m, escapedUnit t = some m ∧ (0xDC00 ≤ m ∧ m < 0xE000) := by
      by_contra hne
      exact hlow (startsLow_of_not_low fun m hm hr => hne ⟨m, hm, hr⟩)
    obtain ⟨u, rfl, hu⟩ := escapedUnit_eq_some hm
    obtain ⟨a, b, d, e, heq, hread, hcompact⟩ := hex4_eq_some hu
    have hunit : ∀ x, readUnit n ('\\' :: 'u' :: a :: b :: d :: e :: x) =
        (Char.ofNat (0x10000 + (n - 0xD800) * 0x400 + (m - 0xDC00)), 6) := by
      intro x
      have hm' : escapedUnit ('\\' :: 'u' :: a :: b :: d :: e :: x) = some m := hread x
      rw [readUnit, if_pos hhigh, hm']
      exact if_pos hrange
    have hself := hunit (u.drop 4)
    rw [← heq, h] at hself
    refine Or.inr ⟨a, b, d, e, ?_, (Prod.mk.inj hself).2, fun x => ?_, hcompact⟩
    · simp only [List.drop_succ_cons]
      rw [← heq]
    · rw [hunit x, (Prod.mk.inj hself).1]
  · have hsame : ∀ x, readUnit n x = readUnit n t := by
      intro x
      rw [readUnit, readUnit, if_neg hhigh, if_neg hhigh]
    have hzero : skip = 0 := by
      rw [readUnit, if_neg hhigh] at h
      split_ifs at h
      · exact (Prod.mk.inj h).2.symm
      · exact (Prod.mk.inj h).2.symm
    subst hzero
    exact Or.inl ⟨rfl, fun x _ => (hsame x).trans h⟩

/-- The escape of a code unit is read as a rune together with the second surrogate it needs. -/
theorem spellsRune_escapedUnit {t : Text} {n : Nat} {rune : Char} {skip : Nat} (hquote : '\\' ≠ '"')
    (hn : hex4 t = some n) (hunit : readUnit n (t.drop 4) = (rune, skip)) :
    ∃ chunk rest c' chunk', 'u' :: t = chunk ++ rest ∧ chunk.length = 5 + skip ∧
      SpellsRune rune (startsLow rest) '\\' chunk ∧ SpellsRune rune (startsLow rest) c' chunk' ∧
      (∀ x, compactFrom .inside ('\\' :: chunk ++ x) = c' :: chunk' ++ compactFrom .inside x) ∧
      ∀ x, startsLow ('\\' :: chunk ++ x) = startsLow (c' :: chunk' ++ x) := by
  obtain ⟨a, b, d, e, heq, hread, hcompact⟩ := hex4_eq_some hn
  have hu : compactChar 'u' = ['u'] := by decide
  have hstarts : ∀ y y', startsLow ('\\' :: 'u' :: a :: b :: d :: e :: y) =
      startsLow ('\\' :: 'u' :: a :: b :: d :: e :: y') := fun y y' => rfl
  have hrune : ∀ y, readRune '\\' ('u' :: a :: b :: d :: e :: y) =
      some ((readUnit n y).1, 5 + (readUnit n y).2) := by
    intro y
    simp [readRune, hread y]
  rcases readUnit_cases hunit with ⟨rfl, hsame⟩ | ⟨a', b', d', e', hrest, rfl, hsame, hcompact'⟩
  · have hself : SpellsRune rune (startsLow (t.drop 4)) '\\' ['u', a, b, d, e] :=
      ⟨hquote, fun x hx => (hrune x).trans (by rw [hsame x hx]; rfl), fun x x' => hstarts x x'⟩
    refine ⟨['u', a, b, d, e], t.drop 4, '\\', ['u', a, b, d, e], ?_, rfl, hself, hself,
      fun x => ?_,
      fun x => rfl⟩
    · exact congrArg ('u' :: ·) heq
    · exact (compactFrom_escape hu _).trans (congrArg ('\\' :: 'u' :: ·) (hcompact x))
  · have hself : SpellsRune rune (startsLow ((t.drop 4).drop 6)) '\\'
        ['u', a, b, d, e, '\\', 'u', a', b', d', e'] := by
      refine ⟨hquote, fun x _ => (hrune _).trans ?_, fun x x' => hstarts _ _⟩
      have hx := hsame x
      simp only [List.append_eq, List.cons_append, List.nil_append, hx]
      rfl
    have hchunk : 'u' :: t =
        ['u', a, b, d, e, '\\', 'u', a', b', d', e'] ++ (t.drop 4).drop 6 := by
      conv_lhs => rw [heq, hrest]
      rfl
    refine ⟨_, (t.drop 4).drop 6, '\\', _, hchunk, rfl, hself, hself, fun x => ?_, fun x => rfl⟩
    have hsecond : compactFrom .inside ('\\' :: 'u' :: a' :: b' :: d' :: e' :: x) =
        '\\' :: 'u' :: a' :: b' :: d' :: e' :: compactFrom .inside x :=
      (compactFrom_escape hu _).trans (congrArg ('\\' :: 'u' :: ·) (hcompact' x))
    refine (compactFrom_escape hu _).trans (congrArg ('\\' :: 'u' :: ·) ?_)
    simp only [List.append_eq, List.cons_append, List.nil_append, hcompact, hsecond]

/-- What is read as one rune of a string literal, and its compact form. -/
theorem readRune_eq_some {c rune : Char} {t : Text} {skip : Nat} (hquote : c ≠ '"')
    (h : readRune c t = some (rune, skip)) :
    ∃ chunk rest c' chunk', t = chunk ++ rest ∧ chunk.length = skip ∧
      SpellsRune rune (startsLow rest) c chunk ∧ SpellsRune rune (startsLow rest) c' chunk' ∧
      (∀ x, compactFrom .inside (c :: chunk ++ x) = c' :: chunk' ++ compactFrom .inside x) ∧
      ∀ x, startsLow (c :: chunk ++ x) = startsLow (c' :: chunk' ++ x) := by
  unfold readRune at h
  split_ifs at h with hcontrol hslash
  · obtain ⟨rfl, rfl⟩ := Prod.mk.inj (Option.some.inj h)
    have hself := spellsRune_self hquote hslash hcontrol (startsLow t)
    have hnext : CompactState.inside.next c = .inside := by
      rw [CompactState.next, if_neg hquote, if_neg hslash]
    rcases compactChar_cases c with hkeep | ⟨hescape, -, -, hlt⟩
    · refine ⟨[], t, c, [], rfl, rfl, hself, hself, fun x => ?_, fun x => rfl⟩
      simp [compactFrom, hkeep, hnext]
    · refine ⟨[], t, _, _, rfl, rfl, hself, spellsRune_unicodeEscape hlt _, fun x => ?_,
        fun x => ?_⟩
      · simp only [List.cons_append, compactFrom, reduceCtorEq, false_and,
          if_false, hescape, hnext]
        rfl
      · rw [List.cons_append, startsLow_of_ne hslash]
        exact (startsLow_unicodeEscape (by omega) x).symm
  obtain rfl : c = '\\' := not_not.mp hslash
  rcases t with _ | ⟨e, t⟩
  · cases h
  have hsimple : e ≠ 'u' → compactChar e = [e] →
      (∀ x, readRune '\\' (e :: x) = some (rune, 1)) → skip = 1 →
      ∃ chunk rest c' chunk', e :: t = chunk ++ rest ∧ chunk.length = skip ∧
      SpellsRune rune (startsLow rest) '\\' chunk ∧ SpellsRune rune (startsLow rest) c' chunk' ∧
      (∀ x, compactFrom .inside ('\\' :: chunk ++ x) = c' :: chunk' ++ compactFrom .inside x) ∧
      ∀ x, startsLow ('\\' :: chunk ++ x) = startsLow (c' :: chunk' ++ x) := by
    intro hne hkeep hread hskip
    have hself : SpellsRune rune (startsLow t) '\\' [e] :=
      ⟨hquote, fun x _ => hread x, fun x x' => by
      rw [List.cons_append, List.cons_append, List.cons_append, List.cons_append,
        startsLow_of_ne_u hne, startsLow_of_ne_u hne]⟩
    exact ⟨[e], t, '\\', [e], rfl, hskip.symm, hself, hself, fun x => compactFrom_escape hkeep x,
      fun x => rfl⟩
  simp only at h
  split_ifs at h with h1 h2 h3 h4 h5 h6 h7
  · obtain ⟨rfl, rfl⟩ := Prod.mk.inj (Option.some.inj h)
    refine hsimple ?_ ?_ (fun x => ?_) rfl
    · rintro rfl
      revert h1
      decide
    · rcases h1 with rfl | rfl | rfl <;> decide
    · simp [readRune, h1]
  · obtain ⟨rfl, rfl⟩ := Prod.mk.inj (Option.some.inj h)
    subst h2
    exact hsimple (by decide) (by decide) (fun x => rfl) rfl
  · obtain ⟨rfl, rfl⟩ := Prod.mk.inj (Option.some.inj h)
    subst h3
    exact hsimple (by decide) (by decide) (fun x => rfl) rfl
  · obtain ⟨rfl, rfl⟩ := Prod.mk.inj (Option.some.inj h)
    subst h4
    exact hsimple (by decide) (by decide) (fun x => rfl) rfl
  · obtain ⟨rfl, rfl⟩ := Prod.mk.inj (Option.some.inj h)
    subst h5
    exact hsimple (by decide) (by decide) (fun x => rfl) rfl
  · obtain ⟨rfl, rfl⟩ := Prod.mk.inj (Option.some.inj h)
    subst h6
    exact hsimple (by decide) (by decide) (fun x => rfl) rfl
  subst h7
  obtain ⟨n, hn, heq⟩ := Option.map_eq_some_iff.mp h
  obtain ⟨rfl, rfl⟩ := Prod.mk.inj heq
  exact spellsRune_escapedUnit hquote hn rfl

/-- Reading a rune of a string literal from its characters. -/
theorem SpellsRune.readString {rune c : Char} {low : Bool} {chunk x : Text}
    (h : SpellsRune rune low c chunk) (hx : startsLow x = low) :
    readString 0 (c :: chunk ++ x) = (readString 0 x).map fun p => (rune :: p.1, p.2) := by
  have hstep : Json.readString 0 (c :: (chunk ++ x)) =
      (Json.readString chunk.length (chunk ++ x)).map fun p => (rune :: p.1, p.2) := by
    rw [Json.readString, if_neg h.ne, h.read x hx]
  rw [List.cons_append, hstep, readString_skip]

/-- The characters, with their closing quote, spell the rest of a string literal. -/
structure SpellsString (s w : Text) : Prop where
  read : ∀ r, readString 0 (w ++ r) = some (s, r)
  starts : ∀ r r', startsLow (w ++ r) = startsLow (w ++ r')
  size : s.length < w.length

theorem spellsString_nil : SpellsString [] ['"'] where
  read r := rfl
  starts r r' := rfl
  size := by decide

theorem SpellsString.cons {rune c : Char} {low : Bool} {chunk s w : Text}
    (h : SpellsRune rune low c chunk)
    (hw : SpellsString s w) (hlow : ∀ r, startsLow (w ++ r) = low) :
    SpellsString (rune :: s) (c :: chunk ++ w) where
  read r := by
    rw [List.append_assoc, h.readString (hlow r), hw.read r]
    rfl
  starts r r' := by
    rw [List.append_assoc, List.append_assoc]
    exact h.starts _ _
  size := by
    have := hw.size
    simp only [List.length_cons, List.length_append]
    omega

/-- A string literal that is read, its characters and their compact form. -/
theorem readString_spelling : ∀ (n : Nat) {t s rest : Text}, t.length ≤ n →
    readString 0 t = some (s, rest) →
    ∃ w w', t = w ++ rest ∧ SpellsString s w ∧ SpellsString s w' ∧
      (∀ r, startsLow (w ++ r) = startsLow t) ∧ (∀ r, startsLow (w' ++ r) = startsLow t) ∧
      ∀ r, compactFrom .inside (w ++ r) = w' ++ compactFrom .outside r
  | 0, t, s, rest, hn, h => by
    obtain rfl := List.eq_nil_of_length_eq_zero (Nat.le_zero.mp hn)
    cases h
  | n + 1, [], s, rest, hn, h => by cases h
  | n + 1, c :: t, s, rest, hn, h => by
    by_cases hquote : c = '"'
    · subst hquote
      obtain ⟨rfl, rfl⟩ := Prod.mk.inj (Option.some.inj (show some ([], t) = some (s, rest) from h))
      refine ⟨['"'], ['"'], rfl, spellsString_nil, spellsString_nil, fun r => rfl, fun r => rfl,
        fun r => ?_⟩
      have hkeep : compactChar '"' = ['"'] := by decide
      simp [compactFrom, hkeep, CompactState.next]
    rw [readString, if_neg hquote] at h
    split at h
    · cases h
    next rune skip hrune =>
    obtain ⟨p, hp, heq⟩ := Option.map_eq_some_iff.mp h
    obtain ⟨s', rest'⟩ := p
    obtain ⟨rfl, rfl⟩ := Prod.mk.inj heq
    obtain ⟨chunk, u, c', chunk', rfl, rfl, hself, hcompact, hkeep, hstarts⟩ :=
      readRune_eq_some hquote hrune
    rw [readString_skip] at hp
    have hlen : u.length ≤ n := by
      simp only [List.length_cons, List.length_append] at hn
      omega
    obtain ⟨w, w', rfl, hw, hw', hlow, hlow', htext⟩ := readString_spelling n hlen hp
    refine ⟨c :: chunk ++ w, c' :: chunk' ++ w', by simp, hw.cons hself hlow,
      hw'.cons hcompact hlow',
      fun r => ?_, fun r => ?_, fun r => ?_⟩
    · rw [List.append_assoc]
      exact hself.starts _ _
    · rw [List.append_assoc, ← hstarts]
      exact hself.starts _ _
    · rw [List.append_assoc, hkeep, htext, List.append_assoc]


/-! ### The text before the rest -/

theorem spanDigits_append (t : Text) : (spanDigits t).1 ++ (spanDigits t).2 = t := by
  induction t with
  | nil => rfl
  | cons c t ih =>
    by_cases hc : c.isDigit = true
    · simpa [spanDigits, hc] using ih
    · simp [spanDigits, hc]

theorem digits1_append {t ds rest : Text} (h : digits1 t = some (ds, rest)) : ds ++ rest = t := by
  have hspan := (digits1_eq_some.mp h).2
  rw [← spanDigits_append t, hspan]

theorem intPart_append {t int rest : Text} (h : intPart t = some (int, rest)) :
    int ++ rest = t := by
  unfold intPart at h
  split at h
  · obtain ⟨rfl, rfl⟩ := Prod.mk.inj (Option.some.inj h)
    rfl
  · exact digits1_append h

theorem fracPart_append {t frac rest : Text} (h : fracPart t = some (frac, rest)) :
    frac ++ rest = t := by
  unfold fracPart at h
  split at h
  · obtain ⟨⟨ds, rest'⟩, hds, heq⟩ := Option.map_eq_some_iff.mp h
    obtain ⟨rfl, rfl⟩ := Prod.mk.inj heq
    exact congrArg ('.' :: ·) (digits1_append hds)
  · obtain ⟨rfl, rfl⟩ := Prod.mk.inj (Option.some.inj h)
    rfl

theorem signPart_append (plus : Bool) (t : Text) :
    (signPart plus t).1 ++ (signPart plus t).2 = t := by
  unfold signPart
  split
  · rfl
  · cases plus <;> rfl
  · rfl

theorem expPart_append {t exp rest : Text} (h : expPart t = some (exp, rest)) :
    exp ++ rest = t := by
  unfold expPart at h
  split at h
  · obtain ⟨rfl, rfl⟩ := Prod.mk.inj (Option.some.inj h)
    rfl
  · next c t =>
    split_ifs at h
    · obtain ⟨⟨ds, rest'⟩, hds, heq⟩ := Option.map_eq_some_iff.mp h
      obtain ⟨rfl, rfl⟩ := Prod.mk.inj heq
      have htext : (signPart true t).1 ++ (ds ++ rest') = t := by
        rw [digits1_append hds, signPart_append]
      simp [htext]
    · obtain ⟨rfl, rfl⟩ := Prod.mk.inj (Option.some.inj h)
      rfl

/-- A number literal that is read stands before the rest. -/
theorem readNumber_append_rest {t literal rest : Text} (h : readNumber t = some (literal, rest)) :
    literal ++ rest = t := by
  unfold readNumber at h
  dsimp only at h
  split at h
  · cases h
  next int hint =>
  split at h
  · cases h
  next frac hfrac =>
  split at h
  · cases h
  next exp hexp =>
  obtain ⟨rfl, rfl⟩ := Prod.mk.inj (Option.some.inj h)
  rw [List.append_assoc, expPart_append hexp, List.append_assoc, fracPart_append hfrac,
    List.append_assoc, intPart_append hint, signPart_append]

theorem expect_append_rest {w t rest : Text} (h : expect w t = some rest) : w ++ rest = t := by
  induction w generalizing t with
  | nil => exact (Option.some.inj h).symm
  | cons c w ih =>
    cases t with
    | nil => cases h
    | cons d t =>
      rw [expect] at h
      split_ifs at h with hcd
      rw [hcd, List.cons_append, ih h]

/-! ### Space -/

/-- The text consists of space characters. -/
def IsSpace (sp : Text) : Prop := ∀ c ∈ sp, isSpace c = true

theorem isSpace_nil : IsSpace [] := List.forall_mem_nil _

theorem exists_skipSpace (t : Text) : ∃ sp, IsSpace sp ∧ t = sp ++ skipSpace t := by
  induction t with
  | nil => exact ⟨[], isSpace_nil, rfl⟩
  | cons c t ih =>
    by_cases hc : isSpace c = true
    · obtain ⟨sp, hsp, heq⟩ := ih
      refine ⟨c :: sp, List.forall_mem_cons.mpr ⟨hc, hsp⟩, ?_⟩
      rw [skipSpace, if_pos hc, List.cons_append, ← heq]
    · exact ⟨[], isSpace_nil, by rw [skipSpace, if_neg hc, List.nil_append]⟩

theorem IsSpace.skipSpace_append {sp : Text} (h : IsSpace sp) (t : Text) :
    skipSpace (sp ++ t) = skipSpace t := by
  induction sp with
  | nil => rfl
  | cons c sp ih =>
    obtain ⟨hc, hsp⟩ := List.forall_mem_cons.mp h
    rw [List.cons_append, skipSpace, if_pos hc, ih hsp]

theorem IsSpace.stops_append {sp : Text} (h : IsSpace sp) {c : Char} (hc : isNumberChar c = false)
    (r : Text) :
    Stops (sp ++ c :: r) := by
  cases sp with
  | nil => exact stops_cons hc r
  | cons d sp =>
    have hd := (List.forall_mem_cons.mp h).1
    refine stops_cons ?_ (sp ++ c :: r)
    simp only [isSpace, Bool.or_eq_true, beq_iff_eq] at hd
    rcases hd with ((rfl | rfl) | rfl) | rfl <;> decide

/-- The second text is the compact form of the first, outside strings and whatever follows. -/
def Compacts (w w' : Text) : Prop :=
  ∀ r, compactFrom .outside (w ++ r) = w' ++ compactFrom .outside r

theorem Compacts.append {w w' u u' : Text} (hw : Compacts w w') (hu : Compacts u u') :
    Compacts (w ++ u) (w' ++ u') := fun r => by
  rw [List.append_assoc, hw, hu, List.append_assoc]

theorem compacts_self {w : Text} (h : ∀ c ∈ w, KeptOutside c) : Compacts w w :=
  fun r => compactFrom_outside_append h r

theorem compacts_punctuation {c : Char} (h : c ∈ ['[', ']', '{', '}', ',', ':']) :
    Compacts [c] [c] :=
  compacts_self fun d hd => keptOutside_punctuation d (by rwa [List.mem_singleton.mp hd])

theorem IsSpace.compacts {sp : Text} (h : IsSpace sp) : Compacts sp [] := fun r => by
  induction sp with
  | nil => rfl
  | cons c sp ih =>
    obtain ⟨hc, hsp⟩ := List.forall_mem_cons.mp h
    rw [List.cons_append, compactFrom, if_pos ⟨rfl, hc⟩]
    exact ih hsp

/-- A string literal and its compact form. -/
theorem SpellsString.compacts {w w' : Text}
    (h : ∀ r, compactFrom .inside (w ++ r) = w' ++ compactFrom .outside r) :
    Compacts ('"' :: w) ('"' :: w') := fun r => by
  have hkeep : compactChar '"' = ['"'] := by decide
  have hspace : isSpace '"' = false := rfl
  simp only [List.cons_append, compactFrom, hspace, Bool.false_eq_true, and_false, if_false, hkeep,
    CompactState.next, if_true, List.nil_append, h]

/-! ### Values -/

/-- The text spells the value: it is read as the value wherever nesting to the depth is read. -/
structure Spells (depth : Nat) (v : Json) (w : Text) : Prop where
  head : ∃ c u, w = c :: u ∧ isSpace c = false ∧ c ≠ ']'
  read : ∀ {fuel d : Nat} {r : Text}, 2 * w.length ≤ fuel → depth ≤ d → Stops r →
    parseValue fuel d (w ++ r) = some (v, r)
  size : ∀ s, v = .str s → s.length ≤ w.length

/-- The text spells the items of an array from the first one to the closing bracket. -/
structure SpellsItems (depth : Nat) (items : List Json) (w : Text) : Prop where
  head : ∃ c u, w = c :: u ∧ isSpace c = false ∧ c ≠ ']'
  read : ∀ {fuel d : Nat} {r : Text}, 2 * w.length ≤ fuel + 1 → depth ≤ d →
    parseItems fuel d (w ++ r) = some (items, r)

/-- The text spells the name of a member with the colon. -/
structure SpellsName (k n : Text) : Prop where
  head : ∃ u, n = '"' :: u
  read : ∀ r, parseName (n ++ r) = some (k, r)

/-- The text spells the members of an object from the first one to the closing brace. -/
structure SpellsMembers (depth : Nat) (members : RawMembers) (w : Text) : Prop where
  head : ∃ u, w = '"' :: u
  read : ∀ {fuel d : Nat} {r : Text}, 2 * w.length ≤ fuel + 1 → depth ≤ d →
    parseMembers fuel d (w ++ r) = some (members, r)
  raw : ∀ m ∈ members, Spells depth m.2.2 m.2.1 ∧ m.2.1.length ≤ w.length

theorem Spells.skipSpace_append {depth : Nat} {v : Json} {w sp : Text} (h : Spells depth v w)
    (hsp : IsSpace sp) (r : Text) : skipSpace (sp ++ (w ++ r)) = w ++ r := by
  obtain ⟨c, u, rfl, hc, -⟩ := h.head
  rw [hsp.skipSpace_append, List.cons_append, skipSpace_cons hc]

theorem Spells.one_le_length {depth : Nat} {v : Json} {w : Text} (h : Spells depth v w) :
    1 ≤ w.length := by
  obtain ⟨c, u, rfl, -⟩ := h.head
  simp

/-- The last item of an array. -/
theorem Spells.lastItem {depth : Nat} {v : Json} {w sp : Text} (h : Spells depth v w)
    (hsp : IsSpace sp) :
    SpellsItems depth [v] (w ++ (sp ++ [']'])) where
  head := by
    obtain ⟨c, u, rfl, hc⟩ := h.head
    exact ⟨c, u ++ (sp ++ [']']), rfl, hc⟩
  read := fun {fuel d r} hfuel hd => by
    have hlen := h.one_le_length
    simp only [List.length_append, List.length_cons, List.length_nil] at hfuel
    obtain ⟨fuel, rfl⟩ : ∃ n, fuel = n + 1 := ⟨fuel - 1, by omega⟩
    have htext : w ++ (sp ++ [']']) ++ r = w ++ (sp ++ ']' :: r) := by simp
    have hread := h.read (show 2 * w.length ≤ fuel by omega) hd (hsp.stops_append (c := ']') rfl r)
    rw [htext, parseItems, hread]
    simp only [hsp.skipSpace_append, skipSpace_cons (show isSpace ']' = false from rfl), if_true]

/-- An item of an array before the others. -/
theorem SpellsItems.cons {depth : Nat} {v : Json} {items : List Json} {w sp sp' u : Text}
    (hu : SpellsItems depth items u) (h : Spells depth v w) (hsp : IsSpace sp)
      (hsp' : IsSpace sp') :
    SpellsItems depth (v :: items) (w ++ (sp ++ ([','] ++ (sp' ++ u)))) where
  head := by
    obtain ⟨c, u', rfl, hc⟩ := h.head
    exact ⟨c, _, rfl, hc⟩
  read := fun {fuel d r} hfuel hd => by
    have hlen := h.one_le_length
    simp only [List.length_append, List.length_cons, List.length_nil] at hfuel
    obtain ⟨fuel, rfl⟩ : ∃ n, fuel = n + 1 := ⟨fuel - 1, by omega⟩
    have htext : w ++ (sp ++ ([','] ++ (sp' ++ u))) ++ r =
      w ++ (sp ++ ',' :: (sp' ++ (u ++ r))) := by
      simp
    have hread := h.read (show 2 * w.length ≤ fuel by omega) hd
      (hsp.stops_append (c := ',') rfl (sp' ++ (u ++ r)))
    have hnext : skipSpace (sp' ++ (u ++ r)) = u ++ r := by
      obtain ⟨c, u', rfl, hc, -⟩ := hu.head
      rw [hsp'.skipSpace_append, List.cons_append, skipSpace_cons hc]
    have hrest := hu.read (r := r) (show 2 * u.length ≤ fuel + 1 by omega) hd
    rw [htext, parseItems, hread]
    simp only [hsp.skipSpace_append, skipSpace_cons (show isSpace ',' = false from rfl), hnext,
      hrest]
    rfl

theorem SpellsMembers.skipSpace_append {depth : Nat} {members : RawMembers} {w sp : Text}
    (h : SpellsMembers depth members w) (hsp : IsSpace sp) (r : Text) :
    skipSpace (sp ++ (w ++ r)) = w ++ r := by
  obtain ⟨u, rfl⟩ := h.head
  rw [hsp.skipSpace_append, List.cons_append, skipSpace_cons (show isSpace '"' = false from rfl)]

/-- The last member of an object. -/
theorem Spells.lastMember {depth : Nat} {k n : Text} {v : Json} {w sp sp' : Text}
    (hn : SpellsName k n)
    (h : Spells depth v w) (hsp : IsSpace sp) (hsp' : IsSpace sp') :
    SpellsMembers depth [(k, w, v)] (n ++ (sp ++ (w ++ (sp' ++ ['}'])))) where
  head := by
    obtain ⟨u, rfl⟩ := hn.head
    exact ⟨_, rfl⟩
  read := fun {fuel d r} hfuel hd => by
    have hlen := h.one_le_length
    simp only [List.length_append, List.length_cons, List.length_nil] at hfuel
    obtain ⟨fuel, rfl⟩ : ∃ n, fuel = n + 1 := ⟨fuel - 1, by omega⟩
    have htext : n ++ (sp ++ (w ++ (sp' ++ ['}']))) ++ r =
      n ++ (sp ++ (w ++ (sp' ++ '}' :: r))) := by
      simp
    have hread := h.read (show 2 * w.length ≤ fuel by omega) hd (hsp'.stops_append (c := '}') rfl r)
    rw [htext, parseMembers, hn.read]
    simp only [h.skipSpace_append hsp, hread, hsp'.skipSpace_append,
      skipSpace_cons (show isSpace '}' = false from rfl), if_true, before_append]
  raw := by
    intro m hm
    obtain rfl := List.mem_singleton.mp hm
    refine ⟨h, ?_⟩
    simp only [List.length_append]
    omega

/-- A member of an object before the others. -/
theorem SpellsMembers.cons {depth : Nat} {k n : Text} {v : Json} {members : RawMembers}
    {w sp sp' sp'' u : Text} (hu : SpellsMembers depth members u) (hn : SpellsName k n)
    (h : Spells depth v w) (hsp : IsSpace sp) (hsp' : IsSpace sp') (hsp'' : IsSpace sp'') :
    SpellsMembers depth ((k, w, v) :: members)
      (n ++ (sp ++ (w ++ (sp' ++ ([','] ++ (sp'' ++ u)))))) where
  head := by
    obtain ⟨u', rfl⟩ := hn.head
    exact ⟨_, rfl⟩
  read := fun {fuel d r} hfuel hd => by
    have hlen := h.one_le_length
    simp only [List.length_append, List.length_cons, List.length_nil] at hfuel
    obtain ⟨fuel, rfl⟩ : ∃ n, fuel = n + 1 := ⟨fuel - 1, by omega⟩
    have htext : n ++ (sp ++ (w ++ (sp' ++ ([','] ++ (sp'' ++ u))))) ++ r =
        n ++ (sp ++ (w ++ (sp' ++ ',' :: (sp'' ++ (u ++ r))))) := by
      simp
    have hread := h.read (show 2 * w.length ≤ fuel by omega) hd
      (hsp'.stops_append (c := ',') rfl (sp'' ++ (u ++ r)))
    have hrest := hu.read (r := r) (show 2 * u.length ≤ fuel + 1 by omega) hd
    rw [htext, parseMembers, hn.read]
    simp only [h.skipSpace_append hsp, hread, hsp'.skipSpace_append,
      skipSpace_cons (show isSpace ',' = false from rfl), hu.skipSpace_append hsp'', hrest,
      before_append]
    rfl
  raw := by
    intro m hm
    rcases List.mem_cons.mp hm with rfl | hm
    · refine ⟨h, ?_⟩
      simp only [List.length_append]
      omega
    · obtain ⟨hspell, hle⟩ := hu.raw m hm
      refine ⟨hspell, ?_⟩
      simp only [List.length_append]
      omega


/-! ### What is read is spelled -/

/-- The name of a member that is read, and its compact form. -/
theorem parseName_spelling {t k rest : Text} (h : parseName t = some (k, rest)) :
    ∃ n n', t = n ++ rest ∧ SpellsName k n ∧ SpellsName k n' ∧ Compacts n n' := by
  unfold parseName at h
  split at h
  · cases h
  next c t =>
  split_ifs at h with hc
  subst hc
  split at h
  · cases h
  next k' after hs =>
  obtain ⟨w, w', rfl, hw, hw', -, -, htext⟩ := readString_spelling _ le_rfl hs
  obtain ⟨sp, hsp, hafter⟩ := exists_skipSpace after
  split at h
  · cases h
  next c rest' hnext =>
  split_ifs at h with hc
  subst hc
  obtain ⟨rfl, rfl⟩ := Prod.mk.inj (Option.some.inj h)
  have hname : ∀ {u sp : Text}, SpellsString k' u → IsSpace sp →
      SpellsName k' (('"' :: u) ++ (sp ++ [':'])) := fun {u sp} hu hsp =>
    { head := ⟨_, rfl⟩
      read := fun r => by
        have htext : ('"' :: u) ++ (sp ++ [':']) ++ r = '"' :: (u ++ (sp ++ ':' :: r)) := by simp
        rw [htext, parseName, if_pos rfl, hu.read]
        simp only [hsp.skipSpace_append, skipSpace_cons (show isSpace ':' = false from rfl),
          if_true] }
  refine ⟨_, _, ?_, hname hw hsp, hname hw' isSpace_nil,
    (SpellsString.compacts htext).append (hsp.compacts.append (compacts_punctuation (by decide)))⟩
  rw [hafter, hnext]
  simp

theorem spells_string {s w : Text} (depth : Nat) (h : SpellsString s w) :
    Spells depth (.str s) ('"' :: w) where
  head := ⟨'"', w, rfl, rfl, by decide⟩
  read := fun {fuel d r} hfuel _ _ => by
    obtain ⟨fuel, rfl⟩ : ∃ n, fuel = n + 1 := ⟨fuel - 1, by simp at hfuel; omega⟩
    rw [List.cons_append, parseValue]
    simp [h.read]
  size := fun s' hs' => by
    obtain rfl := Json.str.inj hs'
    have := h.size
    rw [List.length_cons]
    omega

theorem spells_number {literal : Text} (depth : Nat) (h : IsNumber literal) :
    Spells depth (.num literal) literal where
  head := by
    obtain ⟨c, u, rfl, hc⟩ := head_isNumber h
    refine ⟨c, u, rfl, ?_⟩
    have hnum : isNumberChar c = true := by
      rcases hc with hc | rfl
      · simp [isNumberChar, hc]
      · rfl
    refine ⟨(keptOutside_of_isNumberChar hnum).1, ?_⟩
    rintro rfl
    revert hnum
    decide
  read := fun {fuel d r} hfuel _ hr => by
    obtain ⟨c, u, rfl, hc⟩ := head_isNumber h
    obtain ⟨fuel, rfl⟩ : ∃ n, fuel = n + 1 := ⟨fuel - 1, by simp at hfuel; omega⟩
    have hne : ∀ e ∈ ['{', '[', '"', 'n', 't', 'f'], c ≠ e := by
      rintro e he rfl
      rcases hc with hc | rfl
      · revert hc
        simp only [List.mem_cons, List.not_mem_nil, or_false] at he
        rcases he with rfl | rfl | rfl | rfl | rfl | rfl <;> decide
      · revert he
        decide
    rw [List.cons_append, parseValue, if_neg (hne _ (by simp)), if_neg (hne _ (by simp)),
      if_neg (hne _ (by simp)), if_neg (hne _ (by simp)), if_neg (hne _ (by simp)),
      if_neg (hne _ (by simp)), ← List.cons_append, readNumber_append h hr]
    rfl
  size := fun s hs => by cases hs

/-- One of the words `null`, `true` and `false`. -/
theorem spells_word {v : Json} (depth : Nat) (hv : v = .null ∨ v = .bool true ∨ v = .bool false) :
    Spells depth v (render v) where
  head := head_render v (by rcases hv with rfl | rfl | rfl <;> trivial)
  read := fun {fuel d r} hfuel hd hr => by
    refine parseValue_render v fuel d r ?_ hfuel ?_ hr
    · rcases hv with rfl | rfl | rfl <;> trivial
    · rcases hv with rfl | rfl | rfl <;> exact Nat.zero_le _
  size := fun s hs => by
    rcases hv with rfl | rfl | rfl <;> cases hs


/-- The text spells the items of an array after its opening bracket. -/
structure SpellsArray (depth : Nat) (items : List Json) (w : Text) : Prop where
  head : ∃ c u, w = c :: u ∧ isSpace c = false
  read : ∀ {fuel d : Nat} {r : Text}, 2 * w.length ≤ fuel → depth ≤ d →
    parseArray fuel d (w ++ r) = some (items, r)

/-- The text spells the members of an object after its opening brace. -/
structure SpellsObject (depth : Nat) (members : RawMembers) (w : Text) : Prop where
  head : ∃ c u, w = c :: u ∧ isSpace c = false
  read : ∀ {fuel d : Nat} {r : Text}, 2 * w.length ≤ fuel → depth ≤ d →
    parseObject fuel d (w ++ r) = some (members, r)
  raw : ∀ m ∈ members, Spells (depth - 1) m.2.2 m.2.1 ∧ m.2.1.length ≤ w.length

theorem spellsArray_nil (depth : Nat) : SpellsArray (depth + 1) [] [']'] where
  head := ⟨']', [], rfl, rfl⟩
  read := fun {fuel d r} hfuel hd => by
    obtain ⟨fuel, rfl⟩ : ∃ n, fuel = n + 1 := ⟨fuel - 1, by simp at hfuel; omega⟩
    obtain ⟨d, rfl⟩ : ∃ n, d = n + 1 := ⟨d - 1, by omega⟩
    simp [parseArray]

theorem SpellsItems.array {depth : Nat} {items : List Json} {w : Text}
    (h : SpellsItems depth items w) :
    SpellsArray (depth + 1) items w where
  head := by
    obtain ⟨c, u, rfl, hc, -⟩ := h.head
    exact ⟨c, u, rfl, hc⟩
  read := fun {fuel d r} hfuel hd => by
    obtain ⟨c, u, rfl, -, hc⟩ := h.head
    obtain ⟨fuel, rfl⟩ : ∃ n, fuel = n + 1 := ⟨fuel - 1, by simp at hfuel; omega⟩
    obtain ⟨d, rfl⟩ : ∃ n, d = n + 1 := ⟨d - 1, by omega⟩
    rw [List.cons_append, parseArray, if_neg hc]
    exact h.read hfuel (by omega)

theorem SpellsArray.spells {depth : Nat} {items : List Json} {w sp : Text}
    (h : SpellsArray depth items w) (hsp : IsSpace sp) :
    Spells depth (.arr items) (['['] ++ (sp ++ w)) where
  head := ⟨'[', sp ++ w, rfl, rfl, by decide⟩
  read := fun {fuel d r} hfuel hd _ => by
    simp only [List.length_append, List.length_cons, List.length_nil] at hfuel
    obtain ⟨fuel, rfl⟩ : ∃ n, fuel = n + 1 := ⟨fuel - 1, by omega⟩
    have hread := h.read (r := r) (show 2 * w.length ≤ fuel by omega) hd
    obtain ⟨c, u, rfl, hc⟩ := h.head
    rw [List.append_assoc, List.cons_append, List.nil_append, parseValue, if_neg (by decide),
      if_pos rfl,
      List.append_assoc, hsp.skipSpace_append, List.cons_append, skipSpace_cons hc,
        ← List.cons_append, hread]
    rfl
  size := fun s hs => by cases hs

theorem spellsObject_nil (depth : Nat) : SpellsObject (depth + 1) [] ['}'] where
  head := ⟨'}', [], rfl, rfl⟩
  read := fun {fuel d r} hfuel hd => by
    obtain ⟨fuel, rfl⟩ : ∃ n, fuel = n + 1 := ⟨fuel - 1, by simp at hfuel; omega⟩
    obtain ⟨d, rfl⟩ : ∃ n, d = n + 1 := ⟨d - 1, by omega⟩
    simp [parseObject]
  raw := List.forall_mem_nil _

theorem SpellsMembers.object {depth : Nat} {members : RawMembers} {w : Text}
    (h : SpellsMembers depth members w) : SpellsObject (depth + 1) members w where
  head := by
    obtain ⟨u, rfl⟩ := h.head
    exact ⟨'"', u, rfl, rfl⟩
  read := fun {fuel d r} hfuel hd => by
    obtain ⟨u, rfl⟩ := h.head
    obtain ⟨fuel, rfl⟩ : ∃ n, fuel = n + 1 := ⟨fuel - 1, by simp at hfuel; omega⟩
    obtain ⟨d, rfl⟩ : ∃ n, d = n + 1 := ⟨d - 1, by omega⟩
    rw [List.cons_append, parseObject, if_neg (by decide)]
    exact h.read hfuel (by omega)
  raw := h.raw

theorem SpellsObject.spells {depth : Nat} {members : RawMembers} {w sp : Text}
    (h : SpellsObject depth members w) (hsp : IsSpace sp) :
    Spells depth (.obj (members.map fun m => (m.1, m.2.2))) (['{'] ++ (sp ++ w)) where
  head := ⟨'{', sp ++ w, rfl, rfl, by decide⟩
  read := fun {fuel d r} hfuel hd _ => by
    simp only [List.length_append, List.length_cons, List.length_nil] at hfuel
    obtain ⟨fuel, rfl⟩ : ∃ n, fuel = n + 1 := ⟨fuel - 1, by omega⟩
    have hread := h.read (r := r) (show 2 * w.length ≤ fuel by omega) hd
    obtain ⟨c, u, rfl, hc⟩ := h.head
    rw [List.append_assoc, List.cons_append, List.nil_append, parseValue, if_pos rfl,
      List.append_assoc, hsp.skipSpace_append, List.cons_append, skipSpace_cons hc,
        ← List.cons_append, hread]
    rfl
  size := fun s hs => by cases hs

mutual

/-- A value that is read, its text and the compact form of it. -/
theorem parseValue_spelling : ∀ (fuel depth : Nat) {t rest : Text} {v : Json},
    parseValue fuel depth t = some (v, rest) →
    ∃ w w', t = w ++ rest ∧ Spells depth v w ∧ Spells depth v w' ∧ Compacts w w'
  | 0, _, _, _, _, h => by simp [parseValue] at h
  | _ + 1, _, [], _, _, h => by simp [parseValue] at h
  | fuel + 1, depth, c :: t, rest, v, h => by
    have hword : ∀ u : Json, (u = .null ∨ u = .bool true ∨ u = .bool false) → c :: t =
      render u ++ rest →
        v = u → ∃ w w', c :: t = w ++ rest ∧ Spells depth v w ∧ Spells depth v w' ∧
          Compacts w w' := by
      rintro u hu htext rfl
      refine ⟨_, _, htext, spells_word depth hu, spells_word depth hu,
        fun r => compactFrom_render v r ?_⟩
      rcases hu with rfl | rfl | rfl <;> trivial
    unfold parseValue at h
    split_ifs at h with h1 h2 h3 h4 h5 h6
    · obtain ⟨⟨members, rest'⟩, hm, heq⟩ := Option.map_eq_some_iff.mp h
      obtain ⟨rfl, rfl⟩ := Prod.mk.inj heq
      obtain ⟨members', w, w', htext, hw, hw', hsame, hcompact⟩ :=
        parseObject_spelling fuel depth hm
      obtain ⟨sp, hsp, hskip⟩ := exists_skipSpace t
      refine ⟨_, _, ?_, hw.spells hsp, ?_,
        (compacts_punctuation (by decide)).append (hsp.compacts.append hcompact)⟩
      · rw [h1, hskip, htext]
        simp
      · rw [hsame]
        exact hw'.spells isSpace_nil
    · obtain ⟨⟨items, rest'⟩, hi, heq⟩ := Option.map_eq_some_iff.mp h
      obtain ⟨rfl, rfl⟩ := Prod.mk.inj heq
      obtain ⟨w, w', htext, hw, hw', hcompact⟩ := parseArray_spelling fuel depth hi
      obtain ⟨sp, hsp, hskip⟩ := exists_skipSpace t
      refine ⟨_, _, ?_, hw.spells hsp, hw'.spells isSpace_nil,
        (compacts_punctuation (by decide)).append (hsp.compacts.append hcompact)⟩
      rw [h2, hskip, htext]
      simp
    · obtain ⟨⟨s, rest'⟩, hs, heq⟩ := Option.map_eq_some_iff.mp h
      obtain ⟨rfl, rfl⟩ := Prod.mk.inj heq
      obtain ⟨w, w', rfl, hw, hw', -, -, hcompact⟩ := readString_spelling _ le_rfl hs
      exact ⟨'"' :: w, '"' :: w', by rw [h3]; rfl, spells_string depth hw, spells_string depth hw',
        SpellsString.compacts hcompact⟩
    · obtain ⟨rest', hr, heq⟩ := Option.map_eq_some_iff.mp h
      obtain ⟨rfl, rfl⟩ := Prod.mk.inj heq
      exact hword .null (Or.inl rfl) (by rw [h4, ← expect_append_rest hr]; rfl) rfl
    · obtain ⟨rest', hr, heq⟩ := Option.map_eq_some_iff.mp h
      obtain ⟨rfl, rfl⟩ := Prod.mk.inj heq
      exact hword (.bool true) (Or.inr (Or.inl rfl)) (by rw [h5, ← expect_append_rest hr]; rfl) rfl
    · obtain ⟨rest', hr, heq⟩ := Option.map_eq_some_iff.mp h
      obtain ⟨rfl, rfl⟩ := Prod.mk.inj heq
      exact hword (.bool false) (Or.inr (Or.inr rfl)) (by rw [h6, ← expect_append_rest hr]; rfl) rfl
    · obtain ⟨⟨literal, rest'⟩, hn, heq⟩ := Option.map_eq_some_iff.mp h
      obtain ⟨rfl, rfl⟩ := Prod.mk.inj heq
      have hnum := isNumber_of_readNumber hn
      exact ⟨literal, literal, (readNumber_append_rest hn).symm, spells_number depth hnum,
        spells_number depth hnum,
        compacts_self fun d hd => keptOutside_of_isNumberChar (forall_mem_isNumber hnum d hd)⟩

theorem parseArray_spelling : ∀ (fuel depth : Nat) {t rest : Text} {items : List Json},
    parseArray fuel depth t = some (items, rest) →
    ∃ w w', t = w ++ rest ∧ SpellsArray depth items w ∧ SpellsArray depth items w' ∧ Compacts w w'
  | 0, _, _, _, _, h => by simp [parseArray] at h
  | _ + 1, 0, _, _, _, h => by simp [parseArray] at h
  | _ + 1, _ + 1, [], _, _, h => by simp [parseArray] at h
  | fuel + 1, depth + 1, c :: t, rest, items, h => by
    unfold parseArray at h
    split_ifs at h with hc
    · obtain ⟨rfl, rfl⟩ := Prod.mk.inj (Option.some.inj h)
      exact ⟨[']'], [']'], by rw [hc]; rfl, spellsArray_nil depth, spellsArray_nil depth,
        compacts_punctuation (by decide)⟩
    · obtain ⟨w, w', htext, hw, hw', hcompact⟩ := parseItems_spelling fuel depth h
      exact ⟨w, w', htext, hw.array, hw'.array, hcompact⟩

theorem parseItems_spelling : ∀ (fuel depth : Nat) {t rest : Text} {items : List Json},
    parseItems fuel depth t = some (items, rest) →
    ∃ w w', t = w ++ rest ∧ SpellsItems depth items w ∧ SpellsItems depth items w' ∧ Compacts w w'
  | 0, _, _, _, _, h => by simp [parseItems] at h
  | fuel + 1, depth, t, rest, items, h => by
    unfold parseItems at h
    split at h
    · cases h
    next v after hv =>
    obtain ⟨w, w', rfl, hw, hw', hcompact⟩ := parseValue_spelling fuel depth hv
    obtain ⟨sp, hsp, hskip⟩ := exists_skipSpace after
    split at h
    · cases h
    next c next hnext =>
    split_ifs at h with h1 h2
    · obtain ⟨rfl, rfl⟩ := Prod.mk.inj (Option.some.inj h)
      refine ⟨_, _, ?_, hw.lastItem hsp, hw'.lastItem isSpace_nil,
        hcompact.append (hsp.compacts.append (compacts_punctuation (by decide)))⟩
      rw [hskip, hnext, h1]
      simp
    · obtain ⟨⟨items', rest'⟩, hi, heq⟩ := Option.map_eq_some_iff.mp h
      obtain ⟨rfl, rfl⟩ := Prod.mk.inj heq
      obtain ⟨u, u', htext, hu, hu', hcompact'⟩ := parseItems_spelling fuel depth hi
      obtain ⟨sp', hsp', hskip'⟩ := exists_skipSpace next
      refine ⟨_, _, ?_, hu.cons hw hsp hsp', hu'.cons hw' isSpace_nil isSpace_nil,
        hcompact.append (hsp.compacts.append ((compacts_punctuation (by decide)).append
          (hsp'.compacts.append hcompact')))⟩
      rw [hskip, hnext, h2, hskip', htext]
      simp

theorem parseObject_spelling : ∀ (fuel depth : Nat) {t rest : Text} {members : RawMembers},
    parseObject fuel depth t = some (members, rest) →
    ∃ members' w w', t = w ++ rest ∧ SpellsObject depth members w ∧ SpellsObject depth members' w' ∧
      (members.map fun m => (m.1, m.2.2)) = (members'.map fun m => (m.1, m.2.2)) ∧ Compacts w w'
  | 0, _, _, _, _, h => by simp [parseObject] at h
  | _ + 1, 0, _, _, _, h => by simp [parseObject] at h
  | _ + 1, _ + 1, [], _, _, h => by simp [parseObject] at h
  | fuel + 1, depth + 1, c :: t, rest, members, h => by
    unfold parseObject at h
    split_ifs at h with hc
    · obtain ⟨rfl, rfl⟩ := Prod.mk.inj (Option.some.inj h)
      exact ⟨[], ['}'], ['}'], by rw [hc]; rfl, spellsObject_nil depth, spellsObject_nil depth, rfl,
        compacts_punctuation (by decide)⟩
    · obtain ⟨members', w, w', htext, hw, hw', hsame, hcompact⟩ :=
        parseMembers_spelling fuel depth h
      exact ⟨members', w, w', htext, hw.object, hw'.object, hsame, hcompact⟩

theorem parseMembers_spelling : ∀ (fuel depth : Nat) {t rest : Text} {members : RawMembers},
    parseMembers fuel depth t = some (members, rest) →
    ∃ members' w w', t = w ++ rest ∧ SpellsMembers depth members w ∧
      SpellsMembers depth members' w' ∧
      (members.map fun m => (m.1, m.2.2)) = (members'.map fun m => (m.1, m.2.2)) ∧ Compacts w w'
  | 0, _, _, _, _, h => by simp [parseMembers] at h
  | fuel + 1, depth, t, rest, members, h => by
    unfold parseMembers at h
    split at h
    · cases h
    next k start hk =>
    obtain ⟨n, n', rfl, hn, hn', hname⟩ := parseName_spelling hk
    obtain ⟨sp, hsp, hskip⟩ := exists_skipSpace start
    split at h
    · cases h
    next v after hv =>
    obtain ⟨w, w', hw_text, hw, hw', hcompact⟩ := parseValue_spelling fuel depth hv
    obtain ⟨sp', hsp', hskip'⟩ := exists_skipSpace after
    rw [hw_text, before_append] at h
    split at h
    · cases h
    next c next hnext =>
    split_ifs at h with h1 h2
    · obtain ⟨rfl, rfl⟩ := Prod.mk.inj (Option.some.inj h)
      refine ⟨_, _, _, ?_, Spells.lastMember hn hw hsp hsp',
        Spells.lastMember hn' hw' isSpace_nil isSpace_nil, rfl,
        hname.append (hsp.compacts.append (hcompact.append (hsp'.compacts.append
          (compacts_punctuation (by decide)))))⟩
      rw [hskip, hw_text, hskip', hnext, h1]
      simp
    · obtain ⟨⟨members', rest'⟩, hm, heq⟩ := Option.map_eq_some_iff.mp h
      obtain ⟨rfl, rfl⟩ := Prod.mk.inj heq
      obtain ⟨members'', u, u', htext, hu, hu', hsame, hcompact'⟩ :=
        parseMembers_spelling fuel depth hm
      obtain ⟨sp'', hsp'', hskip''⟩ := exists_skipSpace next
      refine ⟨_, _, _, ?_, hu.cons hn hw hsp hsp' hsp'',
        hu'.cons hn' hw' isSpace_nil isSpace_nil isSpace_nil, ?_,
        hname.append (hsp.compacts.append (hcompact.append (hsp'.compacts.append
          ((compacts_punctuation (by decide)).append (hsp''.compacts.append hcompact')))))⟩
      · rw [hskip, hw_text, hskip', hnext, h2, hskip'', htext]
        simp
      · rw [List.map_cons, List.map_cons, hsame]

end


/-! ### Texts of whole values -/

/-- The raw texts of the members of an object that is read spell their values. -/
theorem parseRecord_spells {t : Text} {members : RawMembers} (h : parseRecord t = some members) :
    ∀ m ∈ members, Spells (maxDepth - 1) m.2.2 m.2.1 ∧ m.2.1.length ≤ t.length := by
  obtain ⟨sp, -, hskip⟩ := exists_skipSpace t
  unfold parseRecord at h
  split at h
  · next inner hinner =>
    obtain ⟨sp', -, hskip'⟩ := exists_skipSpace inner
    split at h
    · next members' rest hread =>
      split_ifs at h
      obtain rfl := Option.some.inj h
      obtain ⟨-, w, -, htext, hw, -⟩ := parseObject_spelling _ _ hread
      intro m hm
      obtain ⟨hspell, hle⟩ := hw.raw m hm
      refine ⟨hspell, hle.trans ?_⟩
      rw [hskip, hinner, hskip', htext]
      simp only [List.length_append, List.length_cons]
      omega
    · cases h
  · cases h

/-- A text that spells a value within the depth that is read is read as it. -/
theorem Spells.parse {depth : Nat} {v : Json} {w : Text} (h : Spells depth v w)
    (hdepth : depth ≤ maxDepth) :
    parse w = some v := by
  have hread := h.read (r := []) (show 2 * w.length ≤ 2 * w.length + 1 by omega) hdepth stops_nil
  have hspace := h.skipSpace_append isSpace_nil []
  simp only [List.nil_append, List.append_nil] at hread hspace
  simp [Json.parse, parseFirst, hspace, hread, skipSpace]

/-- What is read is spelled by the text without the space around it. -/
theorem parse_spells {t : Text} {v : Json} (h : parse t = some v) :
    Spells maxDepth v (compactFrom .outside t) := by
  unfold parse at h
  split at h
  · next v' rest hfirst =>
    split_ifs at h with hrest
    obtain rfl := Option.some.inj h
    obtain ⟨sp, hsp, hskip⟩ := exists_skipSpace t
    obtain ⟨sp', hsp', hskip'⟩ := exists_skipSpace rest
    obtain ⟨w, w', htext, -, hw', hcompact⟩ := parseValue_spelling _ _ hfirst
    have hwhole := hsp.compacts.append (hcompact.append hsp'.compacts) []
    rw [hskip, htext, hskip', hrest, List.append_nil]
    simp only [List.append_nil, List.nil_append] at hwhole
    rw [hwhole, compactFrom, List.append_nil]
    exact hw'
  · cases h

theorem spellsName_quote (k : Text) : SpellsName k (quote k ++ [':']) where
  head := ⟨_, rfl⟩
  read r := by
    rw [List.append_assoc]
    exact parseName_quote k r

theorem spellsMembers_renderFields {depth : Nat} : ∀ {members : RawMembers}, members ≠ [] →
    (∀ m ∈ members, Spells depth m.2.2 m.2.1) →
    SpellsMembers depth members ((renderFields (members.map fun m => (m.1, m.2.1))).drop 1)
  | [], hne, _ => absurd rfl hne
  | [(k, w, v)], _, h => by
    have hlast := Spells.lastMember (spellsName_quote k) (h (k, w, v) (by simp)) isSpace_nil
      isSpace_nil
    simpa [renderFields] using hlast
  | (k, w, v) :: m :: members, _, h => by
    have hrest := @spellsMembers_renderFields depth (m :: members) (by simp)
      fun m' hm' => h m' (List.mem_cons_of_mem _ hm')
    have hcons := hrest.cons (spellsName_quote k) (h (k, w, v) (by simp)) isSpace_nil isSpace_nil
      isSpace_nil
    simpa [renderFields] using hcons

/-- **Round trip of records.** A record that is written from texts that spell values is read as its
fields. -/
theorem parseRecord_renderRecord {members : RawMembers} (hne : members ≠ [])
    (h : ∀ m ∈ members, Spells (maxDepth - 1) m.2.2 m.2.1) :
    parseRecord (renderRecord (members.map fun m => (m.1, m.2.1))) = some members := by
  have hmembers := (spellsMembers_renderFields hne h).object
  obtain ⟨m, members, rfl⟩ := List.exists_cons_of_ne_nil hne
  set w := (renderFields ((m :: members).map fun m => (m.1, m.2.1))).drop 1 with hw
  have htext : renderRecord ((m :: members).map fun m => (m.1, m.2.1)) = '{' :: w := by
    simp [hw, renderRecord, renderFields]
  obtain ⟨u, hu⟩ := (spellsMembers_renderFields hne h).head
  have hspace : skipSpace w = w := by
    rw [hw, hu, skipSpace_cons (show isSpace '"' = false from rfl)]
  have hread := @SpellsObject.read _ _ _ hmembers (2 * ('{' :: w).length) maxDepth []
    (by simp only [List.length_cons]; omega) le_rfl
  rw [List.append_nil] at hread
  unfold parseRecord
  rw [htext, skipSpace_cons rfl]
  simp only [hspace, hread, skipSpace, if_true]

/-- A property that the fields keep, when they are set from raw texts that spell values and are
parts of the text of the record, holds of what is read. -/
theorem decodeRecord_induction {σ : Type*} {strict : Bool} {fields : List (Text × Setter σ)}
    {default s : σ} {P : σ → Prop} {t : Text} (hdefault : P default)
    (hset : ∀ f ∈ fields, ∀ s raw v s', P s → Spells (maxDepth - 1) v raw → raw.length ≤ t.length →
      f.2 s raw v = some s' → P s')
    (h : decodeRecord strict fields default t = some s) : P s := by
  unfold decodeRecord at h
  split at h
  · next members hmembers =>
    exact foldlM_setMember_induction
      (p := fun raw v => Spells (maxDepth - 1) v raw ∧ raw.length ≤ t.length)
      (fun f hf s raw v s' hs hraw => hset f hf s raw v s' hs hraw.1 hraw.2)
      (parseRecord_spells hmembers) hdefault h
  · split at h
    · obtain rfl := Option.some.inj h
      exact hdefault
    · cases h

/-- The literal of a string spells it. -/
theorem spells_quote (depth : Nat) (s : Text) : Spells depth (.str s) (quote s) := by
  obtain ⟨w, -, htext, hw, -⟩ := readString_spelling _ le_rfl (readString_quote s [])
  rw [List.append_nil] at htext
  have hquote : quote s = '"' :: w := by rw [quote, List.cons_append, htext]
  rw [hquote]
  exact spells_string depth hw

end Json
