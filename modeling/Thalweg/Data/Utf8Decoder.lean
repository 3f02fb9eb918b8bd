import Thalweg.Data.Text

/-!
# Decoding UTF-8 with replacement

A decoder for UTF-8 that takes one byte after the other. A sequence that is broken off, by a byte
that cannot continue it or by the end, is read as one U+FFFD, and so is every byte that cannot start
a sequence.

The encoding of a text is read as the text, whatever follows it (`decode_toBytes_append`). A
sequence that is cut in two, so that its halves are decoded apart, is read as two or more U+FFFD
(`decode_head`, `decode_tails_append`). What comes of a text whose encoding is decoded in pieces is
a `Garbled` text (`garbled_of_flatten`).
-/

/-- The state of the decoder: the number of bytes that the sequence still needs, the bounds of the
next one and the code point so far. -/
structure Utf8Decoder where
  needed : Nat
  lower : Nat
  upper : Nat
  point : Nat

namespace Utf8Decoder

open Text (replacement encodeRune toBytes isTail)

/-- The decoder between two sequences. -/
def start : Utf8Decoder := ⟨0, 0x80, 0xBF, 0⟩

/-- The first byte of a sequence. -/
def first (b : UInt8) : Utf8Decoder × Text :=
  let n := b.toNat
  if n < 0x80 then (start, [Char.ofNat n])
  else if n < 0xC2 then (start, [replacement])
  else if n < 0xE0 then (⟨1, 0x80, 0xBF, n - 0xC0⟩, [])
  else if n < 0xF0 then
    (⟨2, if n = 0xE0 then 0xA0 else 0x80, if n = 0xED then 0x9F else 0xBF, n - 0xE0⟩, [])
  else if n < 0xF5 then
    (⟨3, if n = 0xF0 then 0x90 else 0x80, if n = 0xF4 then 0x8F else 0xBF, n - 0xF0⟩, [])
  else (start, [replacement])

/-- The next byte. -/
def next (d : Utf8Decoder) (b : UInt8) : Utf8Decoder × Text :=
  let n := b.toNat
  if d.needed = 0 then first b
  else if d.lower ≤ n ∧ n ≤ d.upper then
    let point := d.point * 64 + (n - 0x80)
    if d.needed = 1 then (start, [Char.ofNat point])
    else (⟨d.needed - 1, 0x80, 0xBF, point⟩, [])
  else ((first b).1, replacement :: (first b).2)

/-- What is read at the end. -/
def finish (d : Utf8Decoder) : Text := if d.needed = 0 then [] else [replacement]

/-- The text of the bytes that are left of a stream. -/
def decodeFrom (d : Utf8Decoder) : List UInt8 → Text
  | [] => d.finish
  | b :: bytes => (d.next b).2 ++ decodeFrom (d.next b).1 bytes

/-- The text of a byte sequence. -/
def decode (bytes : List UInt8) : Text := decodeFrom start bytes

@[simp] theorem decode_nil : decode [] = [] := rfl

theorem decodeFrom_cons {d d' : Utf8Decoder} {b : UInt8} {t : Text} (h : d.next b = (d', t))
    (bytes : List UInt8) : decodeFrom d (b :: bytes) = t ++ decodeFrom d' bytes := by
  rw [decodeFrom, h]

/-! ### The encoding of a rune -/

theorem next_start (b : UInt8) : start.next b = first b := rfl

/-- A byte that continues a sequence. -/
theorem next_continue {needed lower upper point n : Nat} {b : UInt8} (hb : b.toNat = 0x80 + n)
    (hlower : lower ≤ 0x80 + n) (hupper : 0x80 + n ≤ upper) :
    next ⟨needed + 2, lower, upper, point⟩ b = (⟨needed + 1, 0x80, 0xBF, point * 64 + n⟩, []) := by
  simp [next, hb, hlower, hupper]

/-- A byte that ends a sequence. -/
theorem next_last {lower upper point n : Nat} {b : UInt8} (hb : b.toNat = 0x80 + n)
    (hlower : lower ≤ 0x80 + n) (hupper : 0x80 + n ≤ upper) :
    next ⟨1, lower, upper, point⟩ b = (start, [Char.ofNat (point * 64 + n)]) := by
  simp [next, hb, hlower, hupper]

/-- The states of the decoder inside a sequence of bytes: it reads nothing before the last one. -/
inductive Reads (c : Char) : Utf8Decoder → List UInt8 → Prop
  | last {d : Utf8Decoder} {b : UInt8} (h : d.next b = (start, [c])) : Reads c d [b]
  | more {d : Utf8Decoder} (d' : Utf8Decoder) {b : UInt8} {bytes : List UInt8}
      (h : d.next b = (d', [])) (hneeded : d'.needed ≠ 0) (hbytes : Reads c d' bytes) : Reads c d (b :: bytes)

theorem Reads.decodeFrom_append {c : Char} {d : Utf8Decoder} {bytes : List UInt8}
    (h : Reads c d bytes) (rest : List UInt8) :
    decodeFrom d (bytes ++ rest) = c :: decodeFrom start rest := by
  induction h with
  | last h => exact decodeFrom_cons h rest
  | more _ h _ _ ih =>
    rw [List.cons_append, decodeFrom_cons h, ih]
    rfl

/-- A sequence that breaks off is read as one U+FFFD. -/
theorem Reads.decodeFrom_head {c : Char} {d : Utf8Decoder} {head tail : List UInt8}
    (h : Reads c d (head ++ tail)) (hhead : head ≠ []) (htail : tail ≠ []) :
    decodeFrom d head = [replacement] := by
  induction head generalizing d with
  | nil => exact absurd rfl hhead
  | cons b head ih =>
    rw [List.cons_append] at h
    generalize hbytes : head ++ tail = bytes at h
    cases h with
    | last h =>
      obtain ⟨-, rfl⟩ := List.append_eq_nil_iff.mp hbytes
      exact absurd rfl htail
    | more _ h hneeded hrest =>
      rw [decodeFrom_cons h, List.nil_append]
      cases head with
      | nil => exact if_neg hneeded
      | cons b' head => exact ih (hbytes ▸ hrest) (List.cons_ne_nil _ _)

theorem reads_encodeRune (c : Char) : Reads c start (encodeRune c) := by
  have hc := Text.toNat_range c
  have hbyte : ∀ n < 256, (UInt8.ofNat n).toNat = n := fun n hn => by
    rw [UInt8.toNat_ofNat', Nat.mod_eq_of_lt hn]
  unfold encodeRune
  dsimp only
  split_ifs with h1 h2 h3
  · refine .last ?_
    rw [next_start]
    simp [first, hbyte c.toNat (by omega), h1]
  · have hpoint : c.toNat / 64 * 64 + c.toNat % 64 = c.toNat := by omega
    refine .more ⟨1, 0x80, 0xBF, c.toNat / 64⟩ ?_ (by simp) (.last ?_)
    · rw [next_start]
      simp only [first, hbyte (0xC0 + c.toNat / 64) (by omega)]
      rw [if_neg (by omega), if_neg (by omega), if_pos (by omega), Nat.add_sub_cancel_left]
    · rw [next_last (hbyte _ (by omega)) (by omega) (by omega), hpoint, Char.ofNat_toNat]
  · have hpoint : (c.toNat / 4096 * 64 + c.toNat / 64 % 64) * 64 + c.toNat % 64 = c.toNat := by
      omega
    refine .more ⟨2, if 0xE0 + c.toNat / 4096 = 0xE0 then 0xA0 else 0x80,
      if 0xE0 + c.toNat / 4096 = 0xED then 0x9F else 0xBF, c.toNat / 4096⟩ ?_ (by simp)
      (.more ⟨1, 0x80, 0xBF, c.toNat / 4096 * 64 + c.toNat / 64 % 64⟩ ?_ (by simp)
        (.last ?_))
    · rw [next_start]
      simp only [first, hbyte (0xE0 + c.toNat / 4096) (by omega)]
      rw [if_neg (by omega), if_neg (by omega), if_neg (by omega), if_pos (by omega),
        Nat.add_sub_cancel_left]
    · refine next_continue (hbyte _ (by omega)) ?_ ?_
      · split_ifs <;> omega
      · split_ifs <;> omega
    · rw [next_last (hbyte _ (by omega)) (by omega) (by omega), hpoint, Char.ofNat_toNat]
  · have hpoint : ((c.toNat / 262144 * 64 + c.toNat / 4096 % 64) * 64 + c.toNat / 64 % 64) * 64 +
        c.toNat % 64 = c.toNat := by omega
    refine .more ⟨3, if 0xF0 + c.toNat / 262144 = 0xF0 then 0x90 else 0x80,
      if 0xF0 + c.toNat / 262144 = 0xF4 then 0x8F else 0xBF, c.toNat / 262144⟩ ?_ (by simp)
      (.more ⟨2, 0x80, 0xBF, c.toNat / 262144 * 64 + c.toNat / 4096 % 64⟩ ?_ (by simp)
        (.more ⟨1, 0x80, 0xBF,
          (c.toNat / 262144 * 64 + c.toNat / 4096 % 64) * 64 + c.toNat / 64 % 64⟩ ?_ (by simp)
          (.last ?_)))
    · rw [next_start]
      simp only [first, hbyte (0xF0 + c.toNat / 262144) (by omega)]
      rw [if_neg (by omega), if_neg (by omega), if_neg (by omega), if_neg (by omega),
        if_pos (by omega), Nat.add_sub_cancel_left]
    · refine next_continue (hbyte _ (by omega)) ?_ ?_
      · split_ifs <;> omega
      · split_ifs <;> omega
    · exact next_continue (hbyte _ (by omega)) (by omega) (by omega)
    · rw [next_last (hbyte _ (by omega)) (by omega) (by omega), hpoint, Char.ofNat_toNat]

/-! ### Texts in pieces -/

/-- The encoding of a text is read as the text, whatever follows it. -/
theorem decode_toBytes_append (t : Text) (rest : List UInt8) :
    decode (toBytes t ++ rest) = t ++ decode rest := by
  induction t with
  | nil => rfl
  | cons c t ih =>
    rw [Text.toBytes_cons, List.append_assoc, decode,
      (reads_encodeRune c).decodeFrom_append (toBytes t ++ rest), ← decode, ih]
    rfl

theorem decode_toBytes (t : Text) : decode (toBytes t) = t := by
  simpa using decode_toBytes_append t []

/-- The first half of the encoding of a rune is read as U+FFFD. -/
theorem decode_head {c : Char} {head tail : List UInt8} (h : head ++ tail = encodeRune c)
    (hhead : head ≠ []) (htail : tail ≠ []) : decode head = [replacement] := by
  have hreads := reads_encodeRune c
  rw [← h] at hreads
  exact hreads.decodeFrom_head hhead htail

/-- Bytes that only continue a sequence are read as one U+FFFD each. -/
theorem decode_tails_append {tails : List UInt8} (h : ∀ b ∈ tails, isTail b = true)
    (rest : List UInt8) :
    decode (tails ++ rest) = List.replicate tails.length replacement ++ decode rest := by
  induction tails with
  | nil => rfl
  | cons b tails ih =>
    obtain ⟨hb, h⟩ := List.forall_mem_cons.mp h
    simp only [isTail, Bool.and_eq_true, decide_eq_true_eq] at hb
    have hfirst : start.next b = (start, [replacement]) := by
      rw [next_start, first, if_neg (by omega), if_pos (by omega)]
    rw [List.cons_append, decode, decodeFrom_cons hfirst, ← decode, ih h]
    rfl

/-- The bytes of a rune after the first one continue it. -/
theorem isTail_of_append {c : Char} {head tail : List UInt8} (h : head ++ tail = encodeRune c)
    (hhead : head ≠ []) : ∀ b ∈ tail, isTail b = true := by
  have htails : ∀ b ∈ (encodeRune c).tail, isTail b = true := by
    have hc := Text.toNat_range c
    unfold encodeRune
    dsimp only
    split_ifs <;> simp only [List.tail_cons, List.forall_mem_cons, isTail, Bool.and_eq_true,
      decide_eq_true_eq, UInt8.toNat_ofNat'] <;> simp <;> omega
  intro b hb
  refine htails b ?_
  obtain ⟨a, head, rfl⟩ := List.exists_cons_of_ne_nil hhead
  rw [← h]
  exact List.mem_append_right head hb

/-- The same text, but for runes outside of ASCII that have become two or more U+FFFD. -/
inductive Garbled : Text → Text → Prop
  | nil : Garbled [] []
  | keep (c : Char) {t u : Text} (h : Garbled t u) : Garbled (c :: t) (c :: u)
  | cut {c : Char} {k : Nat} {t u : Text} (hc : 0x80 ≤ c.toNat) (hk : 2 ≤ k) (h : Garbled t u) :
    Garbled (c :: t) (List.replicate k replacement ++ u)

theorem Garbled.refl (t : Text) : Garbled t t := by
  induction t with
  | nil => exact .nil
  | cons c t ih => exact .keep c ih

theorem Garbled.append {s t u v : Text} (h : Garbled s u) (h' : Garbled t v) :
    Garbled (s ++ t) (u ++ v) := by
  induction h with
  | nil => exact h'
  | keep c _ ih => exact .keep c ih
  | cut hc hk _ ih =>
    rw [List.append_assoc]
    exact .cut hc hk ih

theorem Garbled.length_le {t u : Text} (h : Garbled t u) : t.length ≤ u.length := by
  induction h with
  | nil => exact le_rfl
  | keep c _ ih => exact Nat.succ_le_succ ih
  | cut _ hk _ ih =>
    rw [List.length_cons, List.length_append, List.length_replicate]
    omega

/-- Two texts, one after the other, become garbled texts, one after the other. -/
theorem Garbled.exists_append {s t w : Text} (h : Garbled (s ++ t) w) :
    ∃ u v, w = u ++ v ∧ Garbled s u ∧ Garbled t v := by
  induction s generalizing w with
  | nil => exact ⟨[], w, rfl, .nil, h⟩
  | cons c s ih =>
    rw [List.cons_append] at h
    cases h with
    | keep _ h =>
      obtain ⟨u, v, rfl, hu, hv⟩ := ih h
      exact ⟨c :: u, v, rfl, .keep c hu, hv⟩
    | cut hc hk h =>
      obtain ⟨u, v, rfl, hu, hv⟩ := ih h
      exact ⟨_, v, (List.append_assoc ..).symm, .cut hc hk hu, hv⟩

/-- No rune of ASCII comes of garbling. -/
theorem Garbled.mem_iff {t u : Text} (h : Garbled t u) {c : Char} (hc : c.toNat < 0x80) :
    c ∈ u ↔ c ∈ t := by
  have hne : c ≠ replacement := by
    rintro rfl
    exact absurd hc (by decide)
  induction h with
  | nil => exact Iff.rfl
  | keep d _ ih => simp only [List.mem_cons, ih]
  | @cut d k t u hd hk _ ih =>
    have hd' : c ≠ d := fun heq => absurd hd (heq ▸ hc).not_ge
    simp [ih, hne, hd']

theorem length_toBytes_append (s t : Text) :
    (toBytes (s ++ t)).length = (toBytes s).length + (toBytes t).length := by
  rw [Text.toBytes_append, List.length_append]

/-- A cut through the encoding of a text comes between two runes or inside of one. -/
theorem exists_of_toBytes_eq_append {t : Text} {x y : List UInt8} (h : toBytes t = x ++ y) :
    (∃ s s', t = s ++ s' ∧ x = toBytes s ∧ y = toBytes s') ∨
      ∃ s c s' head tail, t = s ++ c :: s' ∧ head ++ tail = encodeRune c ∧ head ≠ [] ∧ tail ≠ [] ∧
        x = toBytes s ++ head ∧ y = tail ++ toBytes s' := by
  induction t generalizing x with
  | nil =>
    obtain ⟨rfl, rfl⟩ := List.append_eq_nil_iff.mp h.symm
    exact Or.inl ⟨[], [], rfl, rfl, rfl⟩
  | cons c t ih =>
    rcases List.append_eq_append_iff.mp (Text.toBytes_cons c t ▸ h) with
      ⟨x', rfl, hx'⟩ | ⟨tail, hc, rfl⟩
    · rcases ih hx' with ⟨s, s', rfl, rfl, rfl⟩ |
        ⟨s, d, s', head, tail, rfl, hd, hne, hne', rfl, rfl⟩
      · exact Or.inl ⟨c :: s, s', rfl, rfl, rfl⟩
      · exact Or.inr ⟨c :: s, d, s', head, tail, rfl, hd, hne, hne', by simp, rfl⟩
    · by_cases hx : x = []
      · subst hx
        exact Or.inl ⟨[], c :: t, rfl, rfl, by rw [Text.toBytes_cons, hc]; rfl⟩
      · by_cases htail : tail = []
        · subst htail
          exact Or.inl ⟨[c], t, rfl, by rw [← List.append_nil x, ← hc]; simp, rfl⟩
        · exact Or.inr ⟨[], c, t, x, tail, rfl, hc.symm, hx, htail, rfl, rfl⟩

/-- A rune whose encoding can be cut is not of ASCII. -/
theorem le_toNat_of_append {c : Char} {head tail : List UInt8} (h : head ++ tail = encodeRune c)
    (hhead : head ≠ []) (htail : tail ≠ []) : 0x80 ≤ c.toNat := by
  by_contra hlt
  have hlen := congrArg List.length h
  have hhead := List.length_pos_iff.mpr hhead
  have htail := List.length_pos_iff.mpr htail
  simp only [encodeRune, if_pos (Nat.not_le.mp hlt), List.length_append, List.length_cons,
    List.length_nil] at hlen
  omega

/-- Pieces that hold the rest of a rune, a text and the beginning of another rune. -/
theorem garbled_of_flatten {pieces : List (List UInt8)} {rest first : List UInt8} {t : Text}
    (hrest : ∀ b ∈ rest, isTail b = true)
    (hfirst : first = [] ∨ ∃ c tail, tail ≠ [] ∧ first ++ tail = encodeRune c)
    (h : pieces.flatten = rest ++ (toBytes t ++ first)) :
    ∃ u k, pieces.flatMap decode =
        List.replicate rest.length replacement ++ (u ++ List.replicate k replacement) ∧
      Garbled t u ∧ (k = 0 ↔ first = []) := by
  induction pieces generalizing rest t first with
  | nil =>
    obtain ⟨rfl, hinner⟩ := List.append_eq_nil_iff.mp h.symm
    obtain ⟨ht, rfl⟩ := List.append_eq_nil_iff.mp hinner
    obtain rfl : t = [] := Text.toBytes_injective ht
    exact ⟨[], 0, rfl, .nil, by simp⟩
  | cons piece pieces ih =>
    rw [List.flatMap_cons]
    rcases List.append_eq_append_iff.mp h with ⟨rest', rfl, hpieces⟩ | ⟨inner, rfl, hpieces⟩
    · -- the piece ends before the rest of the first rune does
      obtain ⟨hpiece, hrest'⟩ := List.forall_mem_append.mp hrest
      obtain ⟨u, k, heq, hu, hk⟩ := ih hrest' hfirst hpieces
      refine ⟨u, k, ?_, hu, hk⟩
      have hdecode := decode_tails_append hpiece []
      rw [List.append_nil, decode_nil, List.append_nil] at hdecode
      rw [hdecode, heq, List.length_append, List.replicate_add, List.append_assoc]
    · rw [decode_tails_append hrest]
      rcases List.append_eq_append_iff.mp hpieces with ⟨late, rfl, hlate⟩ | ⟨last, ht, hlast⟩
      · -- it reaches into the last rune
        rw [decode_toBytes_append]
        by_cases hne : late = []
        · subst hne
          obtain ⟨u, k, heq, hu, hk⟩ :=
            ih (t := []) (List.forall_mem_nil _) hfirst (by simpa using hlate.symm)
          obtain rfl : u = [] := by cases hu; rfl
          exact ⟨t, k, by simp [heq], .refl t, hk⟩
        · obtain ⟨c, tail, htail, hc⟩ := hfirst.resolve_left (by simp [hlate, hne])
          rw [hlate, List.append_assoc] at hc
          have htails : ∀ b ∈ pieces.flatten, isTail b = true := fun b hb =>
            isTail_of_append hc hne b (List.mem_append_left _ hb)
          obtain ⟨u, k, heq, hu, hk⟩ := ih htails (Or.inl rfl)
            (show pieces.flatten = pieces.flatten ++ (toBytes [] ++ []) by simp)
          obtain rfl : u = [] := by cases hu; rfl
          obtain rfl := hk.mpr rfl
          refine ⟨t, pieces.flatten.length + 1, ?_, .refl t, by simp [hlate, hne]⟩
          rw [decode_head hc hne (by simp [htail]), heq]
          simp [List.replicate_succ]
      · rcases exists_of_toBytes_eq_append ht with ⟨s, s', rfl, rfl, rfl⟩ |
          ⟨s, c, s', head, tail, rfl, hc, hhead, htail, rfl, rfl⟩
        · obtain ⟨u, k, heq, hu, hk⟩ := ih (List.forall_mem_nil _) hfirst (by simpa using hlast)
          refine ⟨s ++ u, k, ?_, (Garbled.refl s).append hu, hk⟩
          rw [decode_toBytes, heq]
          simp
        · obtain ⟨u, k, heq, hu, hk⟩ := ih (isTail_of_append hc hhead) hfirst (by simpa using hlast)
          refine ⟨s ++ (List.replicate (tail.length + 1) replacement ++ u), k, ?_,
            (Garbled.refl s).append (.cut (le_toNat_of_append hc hhead htail) ?_ hu), hk⟩
          · rw [decode_toBytes_append, decode_head hc hhead htail, heq]
            simp [List.replicate_succ]
          · have := List.length_pos_iff.mpr htail
            omega

/-- No cut through the pieces comes inside of one of the first `n` bytes' runes. -/
def CutsBetween (n : Nat) (pieces : List (List UInt8)) : Prop :=
  ∀ before after, pieces = before ++ after → before.flatten.length < n →
    ∃ s, before.flatten = toBytes s

/-- A text whose runes are not cut is read as it is, and what follows it is read by itself. -/
theorem CutsBetween.exists_flatMap_decode {pieces : List (List UInt8)} {t t' : Text}
    (h : pieces.flatten = toBytes (t ++ t')) (hcuts : CutsBetween (toBytes t).length pieces) :
    ∃ rest : List (List UInt8), pieces.flatMap decode = t ++ rest.flatMap decode ∧
      rest.flatten = toBytes t' := by
  induction pieces generalizing t with
  | nil =>
    have ht : t ++ t' = [] := Text.toBytes_injective h.symm
    obtain ⟨rfl, rfl⟩ := List.append_eq_nil_iff.mp ht
    exact ⟨[], rfl, rfl⟩
  | cons piece pieces ih =>
    rw [List.flatMap_cons]
    by_cases hlt : piece.length < (toBytes t).length
    · obtain ⟨s, hs⟩ := hcuts [piece] pieces rfl (by simpa using hlt)
      obtain rfl : piece = toBytes s := by simpa using hs
      have hsplit : toBytes t ++ toBytes t' = toBytes s ++ pieces.flatten := by
        rw [← Text.toBytes_append, ← h, List.flatten_cons]
      obtain ⟨t₁, rfl⟩ : ∃ t₁, t = s ++ t₁ := by
        rcases List.append_eq_append_iff.mp hsplit with ⟨y, hy, -⟩ | ⟨y, hy, -⟩
        · rw [hy, List.length_append] at hlt
          omega
        · have hbytes := congrArg Utf8Decoder.decode hy
          rw [decode_toBytes, decode_toBytes_append] at hbytes
          exact ⟨decode y, hbytes⟩
      have hpieces : pieces.flatten = toBytes (t₁ ++ t') := by
        rw [Text.toBytes_append, List.append_assoc] at hsplit
        rw [← List.append_cancel_left hsplit, Text.toBytes_append]
      obtain ⟨rest, heq, hrest⟩ := ih hpieces fun before after hpieces' hbefore => by
        obtain ⟨s', hs'⟩ := hcuts (toBytes s :: before) after (by rw [hpieces', List.cons_append])
          (by rw [List.flatten_cons, List.length_append, length_toBytes_append]; omega)
        refine ⟨decode before.flatten, ?_⟩
        have hdecode := congrArg Utf8Decoder.decode hs'
        rw [List.flatten_cons, decode_toBytes_append, decode_toBytes] at hdecode
        rw [List.flatten_cons, ← hdecode, Text.toBytes_append] at hs'
        exact List.append_cancel_left hs'
      exact ⟨rest, by rw [decode_toBytes, heq, List.append_assoc], hrest⟩
    · have hsplit : toBytes t ++ toBytes t' = piece ++ pieces.flatten := by
        rw [← Text.toBytes_append, ← h, List.flatten_cons]
      rcases List.append_eq_append_iff.mp hsplit with ⟨y, rfl, hy⟩ | ⟨y, hy, hrest⟩
      · refine ⟨y :: pieces, ?_, hy.symm⟩
        rw [decode_toBytes_append, List.flatMap_cons, List.append_assoc]
      · obtain rfl : y = [] := by
          rw [hy, List.length_append] at hlt
          exact List.length_eq_zero_iff.mp (by omega)
        rw [List.append_nil] at hy
        exact ⟨pieces, by rw [← hy, decode_toBytes], hrest⟩

/-- A text of which a rune is cut is read as a longer one. -/
theorem exists_flatMap_decode_of_not_cutsBetween {pieces : List (List UInt8)} {t t' : Text}
    (h : pieces.flatten = toBytes (t ++ t')) (hcuts : ¬ CutsBetween (toBytes t).length pieces) :
    ∃ u u', pieces.flatMap decode = u ++ u' ∧ Garbled t u ∧ t.length < u.length := by
  simp only [CutsBetween, not_forall] at hcuts
  obtain ⟨before, after, rfl, hlt, hwhole⟩ := hcuts
  rw [List.flatten_append] at h
  rcases exists_of_toBytes_eq_append h.symm with ⟨s, s', -, hs, -⟩ |
    ⟨s, c, s', head, tail, heq, hc, hhead, htail, hbefore, hafter⟩
  · exact absurd ⟨s, hs⟩ hwhole
  obtain ⟨t₁, rfl, rfl⟩ : ∃ t₁, t = s ++ c :: t₁ ∧ s' = t₁ ++ t' := by
    rcases List.append_eq_append_iff.mp heq with ⟨x, rfl, -⟩ | ⟨x, rfl, hx⟩
    · rw [hbefore, List.length_append, length_toBytes_append] at hlt
      omega
    · cases x with
      | nil =>
        rw [hbefore, List.append_nil, List.length_append] at hlt
        omega
      | cons d t₁ =>
        obtain ⟨rfl, rfl⟩ := List.cons.inj hx
        exact ⟨t₁, rfl, rfl⟩
  obtain ⟨u, k, hu, hgarbled, hk⟩ := garbled_of_flatten (List.forall_mem_nil _)
    (Or.inr ⟨c, tail, htail, hc⟩) (hbefore.trans (List.nil_append _).symm)
  obtain ⟨v, l, hv, hgarbled', hl⟩ := garbled_of_flatten (isTail_of_append hc hhead) (Or.inl rfl)
    (show after.flatten = tail ++ (toBytes (t₁ ++ t') ++ []) by rw [hafter, List.append_nil])
  obtain rfl := hl.mpr rfl
  obtain ⟨v₁, v₂, rfl, hv₁, -⟩ := hgarbled'.exists_append
  have hpos : k ≠ 0 := fun h0 => hhead (hk.mp h0)
  have htailPos := List.length_pos_iff.mpr htail
  refine ⟨u ++ (List.replicate (k + tail.length) replacement ++ v₁), v₂, ?_,
    hgarbled.append (.cut (le_toNat_of_append hc hhead htail) (by omega) hv₁), ?_⟩
  · rw [List.flatMap_append, hu, hv, ← List.replicate_append_replicate]
    simp only [List.length_nil, List.replicate_zero, List.nil_append, List.append_nil,
      List.append_assoc]
  · have := hgarbled.length_le
    have := hv₁.length_le
    simp only [List.length_append, List.length_cons, List.length_replicate]
    omega

end Utf8Decoder
