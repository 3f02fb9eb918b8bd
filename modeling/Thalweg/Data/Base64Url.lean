import Thalweg.Data.Text

/-!
# Unpadded base64url

`Base64Url.encode` writes bytes in the URL alphabet without padding and `Base64Url.decode` reads
them. As in the usual non-strict decoders, carriage returns and line feeds in the input are skipped
and the unused bits of the last digit are ignored. Decoding undoes encoding
(`Base64Url.decode_encode`), and an encoding has only characters of the alphabet
(`Base64Url.isAlphabet_of_mem_encode`).
-/

namespace Base64Url

/-- The character of a digit below 64. -/
def digitChar (d : Nat) : Char :=
  if d < 26 then Char.ofNat (65 + d)
  else if d < 52 then Char.ofNat (97 + (d - 26))
  else if d < 62 then Char.ofNat (48 + (d - 52))
  else if d = 62 then '-'
  else '_'

/-- The digit of a character of the alphabet. -/
def digitValue (c : Char) : Option Nat :=
  let n := c.toNat
  if 65 ≤ n ∧ n < 91 then some (n - 65)
  else if 97 ≤ n ∧ n < 123 then some (n - 71)
  else if 48 ≤ n ∧ n < 58 then some (n + 4)
  else if n = 45 then some 62
  else if n = 95 then some 63
  else none

/-- The characters of the alphabet. -/
def isAlphabet (c : Char) : Bool := (digitValue c).isSome

/-- The base64 digits of a byte sequence. -/
def toDigits : List UInt8 → List Nat
  | [] => []
  | [a] => [a.toNat / 4, a.toNat % 4 * 16]
  | [a, b] => [a.toNat / 4, a.toNat % 4 * 16 + b.toNat / 16, b.toNat % 16 * 4]
  | a :: b :: c :: rest =>
    (a.toNat / 4) :: (a.toNat % 4 * 16 + b.toNat / 16) :: (b.toNat % 16 * 4 + c.toNat / 64) ::
      (c.toNat % 64) :: toDigits rest

/-- The byte sequence of base64 digits; one digit alone is not a byte. -/
def ofDigits : List Nat → Option (List UInt8)
  | [] => some []
  | [_] => none
  | [a, b] => some [UInt8.ofNat (a * 4 + b / 16)]
  | [a, b, c] => some [UInt8.ofNat (a * 4 + b / 16), UInt8.ofNat (b % 16 * 16 + c / 4)]
  | a :: b :: c :: d :: rest =>
    (ofDigits rest).map fun bytes =>
      UInt8.ofNat (a * 4 + b / 16) :: UInt8.ofNat (b % 16 * 16 + c / 4) ::
        UInt8.ofNat (c % 4 * 64 + d) :: bytes

/-- The digits of a text over the alphabet, line breaks skipped. -/
def readDigits : Text → Option (List Nat)
  | [] => some []
  | c :: t =>
    if c = '\r' ∨ c = '\n' then readDigits t
    else
      match digitValue c, readDigits t with
      | some d, some ds => some (d :: ds)
      | _, _ => none

/-- The unpadded base64url text of a byte sequence. -/
def encode (bytes : List UInt8) : Text := (toDigits bytes).map digitChar

/-- The byte sequence of an unpadded base64url text. -/
def decode (t : Text) : Option (List UInt8) := (readDigits t).bind ofDigits

theorem toDigits_lt : ∀ (bytes : List UInt8), ∀ d ∈ toDigits bytes, d < 64
  | [], d, hd => by simp [toDigits] at hd
  | [a], d, hd => by
    have := a.toNat_lt
    simp only [toDigits, List.mem_cons, List.not_mem_nil, or_false] at hd
    omega
  | [a, b], d, hd => by
    have := a.toNat_lt
    have := b.toNat_lt
    simp only [toDigits, List.mem_cons, List.not_mem_nil, or_false] at hd
    omega
  | a :: b :: c :: rest, d, hd => by
    have := a.toNat_lt
    have := b.toNat_lt
    have := c.toNat_lt
    simp only [toDigits, List.mem_cons] at hd
    rcases hd with hd | hd | hd | hd | hd
    · omega
    · omega
    · omega
    · omega
    · exact toDigits_lt rest d hd

private theorem ofNat_eq {n : Nat} {a : UInt8} (h : n = a.toNat) : UInt8.ofNat n = a := by
  rw [h, UInt8.ofNat_toNat]

theorem ofDigits_toDigits : ∀ bytes : List UInt8, ofDigits (toDigits bytes) = some bytes
  | [] => rfl
  | [a] => by
    have := a.toNat_lt
    simp only [toDigits, ofDigits, Option.some.injEq, List.cons.injEq, and_true]
    exact ofNat_eq (by omega)
  | [a, b] => by
    have := a.toNat_lt
    have := b.toNat_lt
    simp only [toDigits, ofDigits, Option.some.injEq, List.cons.injEq, and_true]
    exact ⟨ofNat_eq (by omega), ofNat_eq (by omega)⟩
  | a :: b :: c :: rest => by
    have := a.toNat_lt
    have := b.toNat_lt
    have := c.toNat_lt
    simp only [toDigits, ofDigits, ofDigits_toDigits rest, Option.map_some, Option.some.injEq,
      List.cons.injEq, and_true]
    exact ⟨ofNat_eq (by omega), ofNat_eq (by omega), ofNat_eq (by omega)⟩

theorem digitValue_digitChar : ∀ d < 64, digitValue (digitChar d) = some d := by
  decide

theorem digitChar_ne_break : ∀ d < 64, ¬(digitChar d = '\r' ∨ digitChar d = '\n') := by
  decide

theorem readDigits_map_digitChar (ds : List Nat) (h : ∀ d ∈ ds, d < 64) :
    readDigits (ds.map digitChar) = some ds := by
  induction ds with
  | nil => rfl
  | cons d ds ih =>
    have hd : d < 64 := h d List.mem_cons_self
    have hds := ih fun e he => h e (List.mem_cons_of_mem _ he)
    rw [List.map_cons, readDigits, if_neg (digitChar_ne_break d hd), digitValue_digitChar d hd, hds]

/-- **Round trip.** An encoding decodes to the bytes it encodes. -/
@[simp] theorem decode_encode (bytes : List UInt8) : decode (encode bytes) = some bytes := by
  rw [decode, encode, readDigits_map_digitChar _ (toDigits_lt bytes)]
  exact ofDigits_toDigits bytes

theorem encode_injective : Function.Injective encode := fun a b h => by
  have := congrArg decode h
  simpa using this

theorem isAlphabet_of_mem_encode {c : Char} {bytes : List UInt8} (hc : c ∈ encode bytes) :
    isAlphabet c = true := by
  obtain ⟨d, hd, rfl⟩ := List.mem_map.mp hc
  rw [isAlphabet, digitValue_digitChar d (toDigits_lt bytes d hd)]
  rfl

theorem notMem_encode {c : Char} (hc : isAlphabet c = false) (bytes : List UInt8) :
    c ∉ encode bytes := fun h => by
  simp [isAlphabet_of_mem_encode h] at hc

@[simp] theorem colon_notMem_encode (bytes : List UInt8) : ':' ∉ encode bytes :=
  notMem_encode (by decide) bytes

@[simp] theorem encode_nil : encode [] = [] := rfl

end Base64Url
