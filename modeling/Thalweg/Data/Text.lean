import Mathlib.Algebra.Group.Int.Defs
import Mathlib.Algebra.Group.Nat.Defs
import Mathlib.Data.Char
import Mathlib.Data.List.Basic
import Mathlib.Data.List.Lex
import Mathlib.Tactic.SplitIfs

/-!
# Texts: UTF-8, separated fields and decimal numbers

A text is the list of its runes. This file provides the encodings of texts that the rest of the
development rests on and the facts that make them readable again.

* `Text.toBytes` is the UTF-8 encoding and `Text.ofBytes` the decoding that reads every invalid byte
  as one U+FFFD; the second undoes the first (`Text.ofBytes_toBytes`).
* `Text.append_cons_inj_left` and `Text.append_cons_inj_right` split a text at a separator that one
  of the two fields does not contain.
* `Text.decimal` and `Text.padDecimal` write numbers, `Text.parseDecimal` reads them
  (`Text.parseDecimal_decimal`, `Text.parseDecimal_padDecimal`); padded numbers stand in the order
  of their values (`Text.padDecimal_lt_padDecimal`).
-/

/-- A text: the list of its runes. -/
abbrev Text := List Char

instance : LawfulBEq Text := inferInstance

namespace Text

/-! ### UTF-8 -/

/-- The replacement rune U+FFFD. -/
def replacement : Char := '\uFFFD'

/-- The UTF-8 encoding of one rune. -/
def encodeRune (c : Char) : List UInt8 :=
  let n := c.toNat
  if n < 0x80 then [UInt8.ofNat n]
  else if n < 0x800 then [UInt8.ofNat (0xC0 + n / 64), UInt8.ofNat (0x80 + n % 64)]
  else if n < 0x10000 then
    [UInt8.ofNat (0xE0 + n / 4096), UInt8.ofNat (0x80 + n / 64 % 64), UInt8.ofNat (0x80 + n % 64)]
  else
    [UInt8.ofNat (0xF0 + n / 262144), UInt8.ofNat (0x80 + n / 4096 % 64),
      UInt8.ofNat (0x80 + n / 64 % 64), UInt8.ofNat (0x80 + n % 64)]

/-- A continuation byte. -/
def isTail (b : UInt8) : Bool := 0x80 ≤ b.toNat && b.toNat < 0xC0

/-- The rune of a two-byte sequence, if it is one. -/
def decode2 (a b : UInt8) : Option Char :=
  let n := (a.toNat - 0xC0) * 64 + (b.toNat - 0x80)
  if 0xC0 ≤ a.toNat && a.toNat < 0xE0 && isTail b && 0x80 ≤ n then some (Char.ofNat n) else none

/-- The rune of a three-byte sequence, if it is one. -/
def decode3 (a b c : UInt8) : Option Char :=
  let n := (a.toNat - 0xE0) * 4096 + (b.toNat - 0x80) * 64 + (c.toNat - 0x80)
  if 0xE0 ≤ a.toNat && a.toNat < 0xF0 && isTail b && isTail c && 0x800 ≤ n &&
      !(0xD800 ≤ n && n < 0xE000) then some (Char.ofNat n) else none

/-- The rune of a four-byte sequence, if it is one. -/
def decode4 (a b c d : UInt8) : Option Char :=
  let n := (a.toNat - 0xF0) * 262144 + (b.toNat - 0x80) * 4096 + (c.toNat - 0x80) * 64 +
    (d.toNat - 0x80)
  if 0xF0 ≤ a.toNat && a.toNat < 0xF8 && isTail b && isTail c && isTail d && 0x10000 ≤ n &&
      n < 0x110000 then some (Char.ofNat n) else none

/-- The first rune of a nonempty byte sequence and the number of bytes it takes; an invalid
sequence yields U+FFFD and takes one byte. -/
def decodeRune : List UInt8 → Char × Nat
  | [] => (replacement, 0)
  | a :: rest =>
    if a.toNat < 0x80 then (Char.ofNat a.toNat, 1) else
    match rest with
    | [] => (replacement, 1)
    | b :: rest =>
      match decode2 a b with
      | some r => (r, 2)
      | none =>
        match rest with
        | [] => (replacement, 1)
        | c :: rest =>
          match decode3 a b c with
          | some r => (r, 3)
          | none =>
            match rest with
            | [] => (replacement, 1)
            | d :: _ =>
              match decode4 a b c d with
              | some r => (r, 4)
              | none => (replacement, 1)

/-- Decode the bytes after the first `skip`. -/
def decodeAfter : Nat → List UInt8 → Text
  | _, [] => []
  | skip + 1, _ :: rest => decodeAfter skip rest
  | 0, a :: rest => (decodeRune (a :: rest)).1 :: decodeAfter ((decodeRune (a :: rest)).2 - 1) rest

/-- The UTF-8 encoding of a text. -/
def toBytes (t : Text) : List UInt8 := t.flatMap encodeRune

/-- The text of a byte sequence, each invalid byte read as U+FFFD. -/
def ofBytes (bytes : List UInt8) : Text := decodeAfter 0 bytes

@[simp] theorem toBytes_nil : toBytes [] = [] := rfl

@[simp] theorem toBytes_cons (c : Char) (t : Text) :
    toBytes (c :: t) = encodeRune c ++ toBytes t := rfl

theorem toBytes_append (s t : Text) : toBytes (s ++ t) = toBytes s ++ toBytes t :=
  List.flatMap_append

theorem decodeAfter_append (skipped rest : List UInt8) :
    decodeAfter skipped.length (skipped ++ rest) = decodeAfter 0 rest := by
  induction skipped with
  | nil => rfl
  | cons a skipped ih => simpa [decodeAfter] using ih

/-- The code points of runes: below the surrogates or above them. -/
theorem toNat_range (c : Char) : c.toNat < 0xD800 ∨ (0xE000 ≤ c.toNat ∧ c.toNat < 0x110000) := by
  have h := c.valid
  simp only [UInt32.isValidChar, Nat.isValidChar] at h
  simp only [Char.toNat]
  omega

theorem encodeRune_ne_nil (c : Char) : encodeRune c ≠ [] := by
  unfold encodeRune
  dsimp only
  split_ifs <;> simp

/-- Reading the encoding of a rune gives the rune and its length. -/
theorem decodeRune_encodeRune (c : Char) (rest : List UInt8) :
    decodeRune (encodeRune c ++ rest) = (c, (encodeRune c).length) := by
  have hc := toNat_range c
  unfold encodeRune
  dsimp only
  split_ifs with h1 h2 h3
  · have h : (UInt8.ofNat c.toNat).toNat = c.toNat := by
      rw [UInt8.toNat_ofNat']; omega
    simp [decodeRune, h, h1]
  · have ha : (UInt8.ofNat (0xC0 + c.toNat / 64)).toNat = 0xC0 + c.toNat / 64 := by
      rw [UInt8.toNat_ofNat']; omega
    have hb : (UInt8.ofNat (0x80 + c.toNat % 64)).toNat = 0x80 + c.toNat % 64 := by
      rw [UInt8.toNat_ofNat']; omega
    have hd : decode2 (UInt8.ofNat (0xC0 + c.toNat / 64)) (UInt8.ofNat (0x80 + c.toNat % 64)) =
        some c := by
      have hn : c.toNat / 64 * 64 + c.toNat % 64 = c.toNat := by omega
      simp only [decode2, isTail, ha, hb, Nat.add_sub_cancel_left, hn, Char.ofNat_toNat]
      rw [if_pos]
      simp only [Bool.and_eq_true, decide_eq_true_eq]
      omega
    simp only [List.cons_append, List.nil_append, decodeRune, ha, hd, List.length_cons,
      List.length_nil]
    rw [if_neg (by omega)]
  · have ha : (UInt8.ofNat (0xE0 + c.toNat / 4096)).toNat = 0xE0 + c.toNat / 4096 := by
      rw [UInt8.toNat_ofNat']; omega
    have hb : (UInt8.ofNat (0x80 + c.toNat / 64 % 64)).toNat = 0x80 + c.toNat / 64 % 64 := by
      rw [UInt8.toNat_ofNat']; omega
    have hc' : (UInt8.ofNat (0x80 + c.toNat % 64)).toNat = 0x80 + c.toNat % 64 := by
      rw [UInt8.toNat_ofNat']; omega
    have h2' : decode2 (UInt8.ofNat (0xE0 + c.toNat / 4096))
        (UInt8.ofNat (0x80 + c.toNat / 64 % 64)) = none := by
      simp only [decode2, ha]
      rw [if_neg]
      simp only [Bool.and_eq_true, decide_eq_true_eq]
      omega
    have hd : decode3 (UInt8.ofNat (0xE0 + c.toNat / 4096)) (UInt8.ofNat (0x80 + c.toNat / 64 % 64))
        (UInt8.ofNat (0x80 + c.toNat % 64)) = some c := by
      have hn : c.toNat / 4096 * 4096 + c.toNat / 64 % 64 * 64 + c.toNat % 64 = c.toNat := by omega
      simp only [decode3, isTail, ha, hb, hc', Nat.add_sub_cancel_left, hn, Char.ofNat_toNat]
      rw [if_pos]
      simp only [Bool.and_eq_true, decide_eq_true_eq, Bool.not_eq_true', Bool.and_eq_false_iff,
        decide_eq_false_iff_not]
      omega
    simp only [List.cons_append, List.nil_append, decodeRune, ha, h2', hd, List.length_cons,
      List.length_nil]
    rw [if_neg (by omega)]
  · have ha : (UInt8.ofNat (0xF0 + c.toNat / 262144)).toNat = 0xF0 + c.toNat / 262144 := by
      rw [UInt8.toNat_ofNat']; omega
    have hb : (UInt8.ofNat (0x80 + c.toNat / 4096 % 64)).toNat = 0x80 + c.toNat / 4096 % 64 := by
      rw [UInt8.toNat_ofNat']; omega
    have hc' : (UInt8.ofNat (0x80 + c.toNat / 64 % 64)).toNat = 0x80 + c.toNat / 64 % 64 := by
      rw [UInt8.toNat_ofNat']; omega
    have hd' : (UInt8.ofNat (0x80 + c.toNat % 64)).toNat = 0x80 + c.toNat % 64 := by
      rw [UInt8.toNat_ofNat']; omega
    have h2' : decode2 (UInt8.ofNat (0xF0 + c.toNat / 262144))
        (UInt8.ofNat (0x80 + c.toNat / 4096 % 64)) = none := by
      simp only [decode2, ha]
      rw [if_neg]
      simp only [Bool.and_eq_true, decide_eq_true_eq]
      omega
    have h3' : decode3 (UInt8.ofNat (0xF0 + c.toNat / 262144))
        (UInt8.ofNat (0x80 + c.toNat / 4096 % 64)) (UInt8.ofNat (0x80 + c.toNat / 64 % 64)) =
        none := by
      simp only [decode3, ha]
      rw [if_neg]
      simp only [Bool.and_eq_true, decide_eq_true_eq]
      omega
    have hd : decode4 (UInt8.ofNat (0xF0 + c.toNat / 262144))
        (UInt8.ofNat (0x80 + c.toNat / 4096 % 64)) (UInt8.ofNat (0x80 + c.toNat / 64 % 64))
        (UInt8.ofNat (0x80 + c.toNat % 64)) = some c := by
      have hn : c.toNat / 262144 * 262144 + c.toNat / 4096 % 64 * 4096 + c.toNat / 64 % 64 * 64 +
          c.toNat % 64 = c.toNat := by omega
      simp only [decode4, isTail, ha, hb, hc', hd', Nat.add_sub_cancel_left, hn, Char.ofNat_toNat]
      rw [if_pos]
      simp only [Bool.and_eq_true, decide_eq_true_eq]
      omega
    simp only [List.cons_append, List.nil_append, decodeRune, ha, h2', h3', hd, List.length_cons,
      List.length_nil]
    rw [if_neg (by omega)]

/-- **Round trip.** The bytes of a text read back as the text. -/
@[simp] theorem ofBytes_toBytes (t : Text) : ofBytes (toBytes t) = t := by
  induction t with
  | nil => rfl
  | cons c t ih =>
    obtain ⟨a, tail, htail⟩ := List.exists_cons_of_ne_nil (encodeRune_ne_nil c)
    have hrune := decodeRune_encodeRune c (toBytes t)
    rw [htail, List.cons_append] at hrune
    rw [toBytes_cons, htail, List.cons_append, ofBytes, decodeAfter, hrune]
    simp only [List.length_cons, Nat.add_sub_cancel, List.cons.injEq, true_and]
    exact (decodeAfter_append tail (toBytes t)).trans ih

theorem toBytes_injective : Function.Injective toBytes :=
  Function.LeftInverse.injective ofBytes_toBytes

/-! ### Sizes -/

theorem length_encodeRune (c : Char) : 1 ≤ (encodeRune c).length ∧ (encodeRune c).length ≤ 4 := by
  simp only [encodeRune]
  split_ifs <;> simp

theorem length_toBytes (t : Text) : t.length ≤ (toBytes t).length ∧ (toBytes t).length ≤ 4 * t.length := by
  induction t with
  | nil => simp
  | cons c t ih =>
    have := length_encodeRune c
    simp only [toBytes_cons, List.length_append, List.length_cons]
    omega

theorem length_decodeAfter (skip : Nat) (bytes : List UInt8) :
    (decodeAfter skip bytes).length ≤ bytes.length := by
  induction bytes generalizing skip with
  | nil => simp [decodeAfter]
  | cons b bytes ih =>
    cases skip with
    | zero => simpa [decodeAfter] using ih _
    | succ skip => exact (ih skip).trans (Nat.le_succ _)

/-- Every rune takes at least one byte. -/
theorem length_ofBytes (bytes : List UInt8) : (ofBytes bytes).length ≤ bytes.length :=
  length_decodeAfter 0 bytes

/-! ### Space -/

/-- The white space of Unicode. -/
def isSpace (c : Char) : Bool :=
  let n := c.toNat
  (9 ≤ n && n ≤ 13) || n == 0x20 || n == 0x85 || n == 0xA0 || n == 0x1680 ||
    (0x2000 ≤ n && n ≤ 0x200A) || n == 0x2028 || n == 0x2029 || n == 0x202F || n == 0x205F ||
    n == 0x3000

/-- The text without the white space at its ends. -/
def trimSpace (t : Text) : Text := ((t.dropWhile isSpace).reverse.dropWhile isSpace).reverse

theorem length_trimSpace (t : Text) : (trimSpace t).length ≤ t.length := by
  have hinner := (List.dropWhile_suffix isSpace (l := (t.dropWhile isSpace).reverse)).length_le
  have houter := (List.dropWhile_suffix isSpace (l := t)).length_le
  rw [List.length_reverse] at hinner
  rw [trimSpace, List.length_reverse]
  exact hinner.trans houter

/-- A text without white space at its ends stays as it is. -/
theorem trimSpace_eq_self {t : Text} (hfirst : ∀ c, t.head? = some c → isSpace c = false)
    (hlast : ∀ c, t.getLast? = some c → isSpace c = false) : trimSpace t = t := by
  have hdrop : ∀ u : Text, (∀ c, u.head? = some c → isSpace c = false) →
      u.dropWhile isSpace = u := by
    intro u hu
    cases u with
    | nil => rfl
    | cons c u => exact List.dropWhile_cons_of_neg (by simp [hu c rfl])
  rw [trimSpace, hdrop t hfirst, hdrop t.reverse, List.reverse_reverse]
  intro c hc
  exact hlast c (by rwa [List.head?_reverse] at hc)

/-! ### Fields and separators -/

/-- Two texts of a field, a separator and a rest agree in both parts when the separator is in
neither field. -/
theorem append_cons_inj_left {sep : Char} {a b s t : Text} (ha : sep ∉ a) (hb : sep ∉ b)
    (h : a ++ sep :: s = b ++ sep :: t) : a = b ∧ s = t := by
  induction a generalizing b with
  | nil =>
    cases b with
    | nil => simpa using h
    | cons c b =>
      simp only [List.nil_append, List.cons_append, List.cons.injEq] at h
      exact absurd (h.1 ▸ List.mem_cons_self) hb
  | cons c a ih =>
    cases b with
    | nil =>
      simp only [List.nil_append, List.cons_append, List.cons.injEq] at h
      exact absurd (h.1 ▸ List.mem_cons_self) ha
    | cons d b =>
      simp only [List.cons_append, List.cons.injEq] at h
      obtain ⟨rfl, h⟩ := h
      obtain ⟨rfl, rfl⟩ := ih (fun hm => ha (List.mem_cons_of_mem _ hm))
        (fun hm => hb (List.mem_cons_of_mem _ hm)) h
      exact ⟨rfl, rfl⟩

/-- Two texts of a rest, a separator and a field agree in both parts when the separator is in
neither field. -/
theorem append_cons_inj_right {sep : Char} {a b s t : Text} (hs : sep ∉ s) (ht : sep ∉ t)
    (h : a ++ sep :: s = b ++ sep :: t) : a = b ∧ s = t := by
  have hrev : s.reverse ++ sep :: a.reverse = t.reverse ++ sep :: b.reverse := by
    simpa using congrArg List.reverse h
  obtain ⟨h1, h2⟩ := append_cons_inj_left (by simpa using hs) (by simpa using ht) hrev
  exact ⟨List.reverse_injective h2, List.reverse_injective h1⟩

/-! ### Decimal numbers -/

/-- A number in decimal, without leading zeros. -/
def decimal (n : Nat) : Text := Nat.toDigits 10 n

/-- An integer in decimal, with a minus sign if it is negative. -/
def decimalInt (n : Int) : Text := if n < 0 then '-' :: decimal n.natAbs else decimal n.natAbs

/-- A number in decimal, padded with zeros to `width` digits. -/
def padDecimal (width n : Nat) : Text :=
  List.replicate (width - (decimal n).length) '0' ++ decimal n

/-- The number written by a nonempty text of decimal digits. -/
def parseDecimal (t : Text) : Option Nat :=
  if !t.isEmpty && t.all Char.isDigit then some (Nat.ofDigitChars 10 t 0) else none

theorem isDigit_of_mem_decimal {c : Char} {n : Nat} (hc : c ∈ decimal n) : c.isDigit = true :=
  Nat.isDigit_of_mem_toDigits (by decide) (by decide) hc

theorem isDigit_of_mem_padDecimal {c : Char} {width n : Nat} (hc : c ∈ padDecimal width n) :
    c.isDigit = true := by
  rcases List.mem_append.mp hc with hc | hc
  · rw [List.eq_of_mem_replicate hc]
    rfl
  · exact isDigit_of_mem_decimal hc

@[simp] theorem parseDecimal_decimal (n : Nat) : parseDecimal (decimal n) = some n := by
  have hall : (decimal n).all Char.isDigit = true :=
    List.all_eq_true.mpr fun _ hc => isDigit_of_mem_decimal hc
  rw [parseDecimal, hall]
  simp [decimal]

@[simp] theorem parseDecimal_padDecimal (width n : Nat) :
    parseDecimal (padDecimal width n) = some n := by
  have hall : (padDecimal width n).all Char.isDigit = true :=
    List.all_eq_true.mpr fun _ hc => isDigit_of_mem_padDecimal hc
  have hne : (padDecimal width n).isEmpty = false := by
    simp [padDecimal, decimal]
  rw [parseDecimal, hall, hne]
  simp [padDecimal, decimal, Nat.ofDigitChars_append]

theorem padDecimal_injective (width : Nat) : Function.Injective (padDecimal width) := by
  intro m n h
  have := congrArg parseDecimal h
  simpa using this

theorem decimal_injective : Function.Injective decimal := by
  intro m n h
  have := congrArg parseDecimal h
  simpa using this

/-- A number that fits the width takes exactly that many digits. -/
theorem length_padDecimal {width n : Nat} (hw : 0 < width) (h : n < 10 ^ width) :
    (padDecimal width n).length = width := by
  have := (Nat.length_toDigits_le_iff (b := 10) (by decide) hw).mpr h
  simp only [padDecimal, decimal, List.length_append, List.length_replicate]
  omega

theorem decimal_ne_nil (n : Nat) : decimal n ≠ [] := by
  simp [decimal]

/-- Only the number zero is written with a leading zero. -/
theorem head_decimal_ne_zero (n : Nat) (h : 0 < n) : (decimal n).head? ≠ some '0' := by
  induction n using Nat.strongRecOn with
  | ind n ih =>
    by_cases hn : n < 10
    · have hdigit : ∀ m < 10, 0 < m → m.digitChar ≠ '0' := by decide
      rw [decimal, Nat.toDigits_of_lt_base hn]
      simpa using hdigit n hn h
    · rw [decimal, Nat.toDigits_of_base_le (by decide) (by omega), List.head?_append_of_ne_nil]
      · exact ih (n / 10) (by omega) (by omega)
      · exact decimal_ne_nil (n / 10)

theorem notMem_padDecimal {c : Char} (hc : c.isDigit = false) (width n : Nat) :
    c ∉ padDecimal width n := fun h => by
  simp [isDigit_of_mem_padDecimal h] at hc

theorem ofDigitChars_lt_of_lt {u v : Text} (hlen : u.length = v.length)
    (hu : ∀ c ∈ u, c.isDigit = true) {a b : Nat} (hab : a < b) :
    Nat.ofDigitChars 10 u a < Nat.ofDigitChars 10 v b := by
  induction u generalizing v a b with
  | nil =>
    obtain rfl : v = [] := List.length_eq_zero_iff.mp hlen.symm
    simpa using hab
  | cons c u ih =>
    cases v with
    | nil => simp at hlen
    | cons d v =>
      obtain ⟨hc, hu⟩ := List.forall_mem_cons.mp hu
      rw [Nat.ofDigitChars_cons, Nat.ofDigitChars_cons]
      refine ih (by simpa using hlen) hu ?_
      have h9 : c.toNat ≤ 57 := by
        simp only [Char.isDigit, Bool.and_eq_true, decide_eq_true_eq] at hc
        exact hc.2
      have h0 : '0'.toNat = 48 := rfl
      omega

/-- Numbers of the same width stand in the order of their values. -/
theorem ofDigitChars_strictMono {u v : Text} (hlen : u.length = v.length)
    (hu : ∀ c ∈ u, c.isDigit = true) (hv : ∀ c ∈ v, c.isDigit = true) (h : u < v) (a : Nat) :
    Nat.ofDigitChars 10 u a < Nat.ofDigitChars 10 v a := by
  induction u generalizing v a with
  | nil =>
    obtain rfl : v = [] := List.length_eq_zero_iff.mp hlen.symm
    exact absurd h (lt_irrefl _)
  | cons c u ih =>
    cases v with
    | nil => simp at hlen
    | cons d v =>
      obtain ⟨hc, hu⟩ := List.forall_mem_cons.mp hu
      have hv' := (List.forall_mem_cons.mp hv).2
      rw [Nat.ofDigitChars_cons, Nat.ofDigitChars_cons]
      rcases List.cons_lt_cons_iff.mp h with hcd | ⟨rfl, huv⟩
      · have h0 : '0'.toNat ≤ c.toNat := by
          simp only [Char.isDigit, Bool.and_eq_true, decide_eq_true_eq] at hc
          exact hc.1
        have hlt : c.toNat < d.toNat := hcd
        exact ofDigitChars_lt_of_lt (by simpa using hlen) hu (by omega)
      · exact ih (by simpa using hlen) hu hv' huv _

theorem padDecimal_lt_padDecimal {width m n : Nat} (hw : 0 < width) (h : m < n)
    (hn : n < 10 ^ width) : padDecimal width m < padDecimal width n := by
  have hlen : (padDecimal width n).length = (padDecimal width m).length := by
    rw [length_padDecimal hw hn, length_padDecimal hw (h.trans hn)]
  have hvalue : ∀ k, Nat.ofDigitChars 10 (padDecimal width k) 0 = k := fun k => by
    simp [padDecimal, decimal, Nat.ofDigitChars_append]
  rcases lt_trichotomy (padDecimal width m) (padDecimal width n) with hlt | heq | hgt
  · exact hlt
  · exact absurd (padDecimal_injective width heq) h.ne
  · have := ofDigitChars_strictMono hlen (fun _ => isDigit_of_mem_padDecimal)
      (fun _ => isDigit_of_mem_padDecimal) hgt 0
    rw [hvalue, hvalue] at this
    omega

end Text
