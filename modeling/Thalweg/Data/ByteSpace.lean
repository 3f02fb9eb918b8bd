import Thalweg.Data.Text

/-!
# White space of byte sequences

The encodings of white space are taken off the ends of a byte sequence, which need not be an
encoding as a whole: `trimSpace` takes them off both ends.

The encoding of a text whose first and last characters are no white space stays as it is, also
before a newline (`trimSpace_toBytes_newline`).
-/

namespace ByteSpace

open Text (encodeRune toBytes)

/-- The newline. -/
def newline : UInt8 := 10

/-- The encoding of a text without newlines has none. -/
theorem notMem_toBytes {t : Text} (h : '\n' ∉ t) : newline ∉ toBytes t := by
  have hbyte : ∀ k < 256, newline = UInt8.ofNat k → k = 10 := by
    intro k hk hk'
    have hnat := congrArg UInt8.toNat hk'
    rw [UInt8.toNat_ofNat', Nat.mod_eq_of_lt hk] at hnat
    exact hnat.symm
  intro hmem
  obtain ⟨c, hc, hrune⟩ := List.mem_flatMap.mp hmem
  have hrange := Text.toNat_range c
  unfold encodeRune at hrune
  dsimp only at hrune
  split_ifs at hrune with h1 h2 h3
  · have hten := hbyte _ (by omega) (List.mem_singleton.mp hrune)
    obtain rfl : c = '\n' := Char.toNat_inj.mp hten
    exact h hc
  all_goals
    simp only [List.mem_cons, List.not_mem_nil, or_false] at hrune
  · rcases hrune with hrune | hrune <;> have := hbyte _ (by omega) hrune <;> omega
  · rcases hrune with hrune | hrune | hrune <;> have := hbyte _ (by omega) hrune <;> omega
  · rcases hrune with hrune | hrune | hrune | hrune <;> have := hbyte _ (by omega) hrune <;> omega

/-- The characters that are white space. -/
def spaces : List Char :=
  ['\t', '\n', '\x0b', '\x0c', '\r', ' ', '\u0085', '\u00a0', '\u1680', '\u2000', '\u2001',
    '\u2002', '\u2003', '\u2004', '\u2005', '\u2006', '\u2007', '\u2008', '\u2009', '\u200a',
    '\u2028', '\u2029', '\u202f', '\u205f', '\u3000']

theorem isSpace_of_mem_spaces : ∀ c ∈ spaces, Text.isSpace c = true :=
  List.all_eq_true.mp (show spaces.all Text.isSpace = true by decide)

/-- The byte sequence without the given words at its beginning, after the first `skip` bytes of
it. -/
def dropWords (words : List (List UInt8)) : Nat → List UInt8 → List UInt8
  | _, [] => []
  | skip + 1, _ :: bytes => dropWords words skip bytes
  | 0, b :: bytes =>
    match words.find? fun w => w.isPrefixOf (b :: bytes) with
    | some w => dropWords words (w.length - 1) bytes
    | none => b :: bytes

/-- The byte sequence without the white space at its ends. -/
def trimSpace (bytes : List UInt8) : List UInt8 :=
  let left := dropWords (spaces.map encodeRune) 0 bytes
  (dropWords (spaces.map fun c => (encodeRune c).reverse) 0 left.reverse).reverse

theorem dropWords_suffix (words : List (List UInt8)) (skip : Nat) (bytes : List UInt8) :
    dropWords words skip bytes <:+ bytes := by
  induction bytes generalizing skip with
  | nil => cases skip <;> exact List.suffix_refl _
  | cons b bytes ih =>
    cases skip with
    | succ skip => exact (ih skip).trans (List.suffix_cons b bytes)
    | zero =>
      rw [dropWords]
      split
      · exact (ih _).trans (List.suffix_cons b bytes)
      · exact List.suffix_refl _

theorem dropWords_of_not_prefix {words : List (List UInt8)} {bytes : List UInt8}
    (h : ∀ w ∈ words, ¬ w <+: bytes) : dropWords words 0 bytes = bytes := by
  cases bytes with
  | nil => rfl
  | cons b bytes =>
    have hnone : (words.find? fun w => w.isPrefixOf (b :: bytes)) = none := by
      simpa [List.find?_eq_none] using h
    rw [dropWords, hnone]

/-- A newline at the end is taken off first. -/
theorem dropWords_reverse_newline (bytes : List UInt8) :
    dropWords (spaces.map fun c => (encodeRune c).reverse) 0 (bytes ++ [newline]).reverse =
      dropWords (spaces.map fun c => (encodeRune c).reverse) 0 bytes.reverse := by
  have hfind : ((spaces.map fun c => (encodeRune c).reverse).find? fun w =>
      w.isPrefixOf (newline :: bytes.reverse)) = some [newline] := rfl
  rw [List.reverse_append, List.reverse_singleton, List.singleton_append, dropWords, hfind]
  rfl

theorem length_trimSpace_newline (bytes : List UInt8) :
    (trimSpace (bytes ++ [newline])).length ≤ bytes.length := by
  obtain ⟨before, hbefore⟩ := dropWords_suffix (spaces.map encodeRune) 0 (bytes ++ [newline])
  rw [trimSpace, List.length_reverse]
  rcases List.eq_nil_or_concat (dropWords (spaces.map encodeRune) 0 (bytes ++ [newline]))
    with hleft | ⟨left, b, hleft⟩
  · rw [hleft]
    exact Nat.zero_le _
  rw [List.concat_eq_append] at hleft
  rw [hleft, ← List.append_assoc] at hbefore
  obtain ⟨hbytes, hlast⟩ := List.append_inj' hbefore rfl
  obtain rfl := List.singleton_inj.mp hlast
  rw [hleft, dropWords_reverse_newline]
  calc (dropWords _ 0 left.reverse).length
      ≤ left.reverse.length := (dropWords_suffix _ 0 left.reverse).length_le
    _ = left.length := List.length_reverse
    _ ≤ bytes.length := by
      rw [← hbytes, List.length_append]
      exact Nat.le_add_left _ _

/-- The encoding of a text that begins with no white space. -/
theorem not_prefix_toBytes {c : Char} (hc : Text.isSpace c = false) (rest : List UInt8) :
    ∀ w ∈ spaces.map encodeRune, ¬ w <+: encodeRune c ++ rest := by
  rintro w hw ⟨x, hx⟩
  obtain ⟨s, hs, rfl⟩ := List.mem_map.mp hw
  have hsame := congrArg Text.decodeRune hx
  rw [Text.decodeRune_encodeRune, Text.decodeRune_encodeRune] at hsame
  obtain rfl := (Prod.mk.inj hsame).1
  rw [isSpace_of_mem_spaces s hs] at hc
  cases hc

/-- A byte sequence that ends with an ASCII character that is no white space. -/
theorem not_prefix_reverse {c : Char} (hascii : c.toNat < 128) (hc : Text.isSpace c = false)
    (rest : List UInt8) :
    ∀ w ∈ spaces.map fun c => (encodeRune c).reverse, ¬ w <+: (encodeRune c).reverse ++ rest := by
  have hbyte : ∀ d : Char, d.toNat < 128 → encodeRune d = [UInt8.ofNat d.toNat] := fun d hd =>
    if_pos hd
  have hlast : ∀ s ∈ spaces, s.toNat < 128 ∨
      ∃ b, (encodeRune s).reverse.head? = some b ∧ 128 ≤ b.toNat := fun s hs => by
    have hall : (spaces.all fun s => decide (s.toNat < 128) ||
        (encodeRune s).reverse.head?.any fun b => decide (128 ≤ b.toNat)) = true := by decide
    have hspace := List.all_eq_true.mp hall s hs
    rw [Bool.or_eq_true, decide_eq_true_eq, Option.any_eq_true] at hspace
    exact hspace.imp_right fun ⟨b, hb, hlarge⟩ => ⟨b, hb, of_decide_eq_true hlarge⟩
  rintro w hw ⟨x, hx⟩
  obtain ⟨s, hs, rfl⟩ := List.mem_map.mp hw
  rw [hbyte c hascii] at hx
  rcases hlast s hs with hs' | ⟨b, hb, hlarge⟩
  · rw [hbyte s hs'] at hx
    have hsame : encodeRune s = encodeRune c := by
      rw [hbyte s hs', hbyte c hascii]
      exact congrArg (fun b => [b]) (List.cons.inj hx).1
    have hdecode := congrArg Text.decodeRune hsame
    rw [← List.append_nil (encodeRune s), ← List.append_nil (encodeRune c),
      Text.decodeRune_encodeRune, Text.decodeRune_encodeRune] at hdecode
    obtain rfl := (Prod.mk.inj hdecode).1
    rw [isSpace_of_mem_spaces s hs] at hc
    cases hc
  · obtain ⟨u, hu⟩ := List.head?_eq_some_iff.mp hb
    rw [hu] at hx
    obtain rfl := (List.cons.inj hx).1
    rw [UInt8.toNat_ofNat', Nat.mod_eq_of_lt (by omega)] at hlarge
    omega

/-- **Trimming.** Only the newline is taken off the encoding of a text whose ends are no white
space, when it follows. -/
theorem trimSpace_toBytes_newline {t u : Text} {c d : Char} (hfirst : t = c :: u)
    (hc : Text.isSpace c = false) {v : Text} (hlast : t = v ++ [d]) (hascii : d.toNat < 128)
    (hd : Text.isSpace d = false) : trimSpace (toBytes t ++ [newline]) = toBytes t := by
  have hleft : dropWords (spaces.map encodeRune) 0 (toBytes t ++ [newline]) =
      toBytes t ++ [newline] := by
    refine dropWords_of_not_prefix ?_
    rw [hfirst, Text.toBytes_cons, List.append_assoc]
    exact not_prefix_toBytes hc _
  have hright : dropWords (spaces.map fun c => (encodeRune c).reverse) 0 (toBytes t).reverse =
      (toBytes t).reverse := by
    refine dropWords_of_not_prefix ?_
    have hbytes : (toBytes t).reverse = (encodeRune d).reverse ++ (toBytes v).reverse := by
      rw [hlast, Text.toBytes_append, List.reverse_append]
      simp [toBytes]
    rw [hbytes]
    exact not_prefix_reverse hascii hd _
  rw [trimSpace, hleft, dropWords_reverse_newline, hright, List.reverse_reverse]

end ByteSpace
