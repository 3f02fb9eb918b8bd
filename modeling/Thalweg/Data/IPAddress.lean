import Thalweg.Data.Text

/-!
# IP addresses

IP addresses as bytes, how they are read from text, and the ranges that they may be in.

* `IP.parse`: dotted decimal and colon-separated hexadecimal addresses, both as 16 bytes.
* `IP.isLoopback`, `IP.isPrivate`, `IP.isLinkLocalUnicast` and `IP.isGlobalUnicast`.
-/

/-- The bytes of an address, 4 or 16 of them. -/
abbrev IP : Type := List UInt8

namespace IP

/-! ### Reading addresses -/

/-- An octet in decimal, without leading zeros. -/
def parseOctet (field : Text) : Option UInt8 :=
  if field = [] ∨ (field.head? = some '0' ∧ 1 < field.length) ∨ 3 < field.length then none
  else
    match Text.parseDecimal field with
    | some n => if n < 256 then some (UInt8.ofNat n) else none
    | none => none

/-- Four octets with dots between them. -/
def parseFields (t : Text) : Option (List UInt8) :=
  match t.splitOn '.' with
  | [a, b, c, d] => [a, b, c, d].mapM parseOctet
  | _ => none

/-- The value of a hexadecimal digit. -/
def hexDigit (c : Char) : Option Nat :=
  if c.isDigit then some (c.toNat - '0'.toNat)
  else if 'a' ≤ c ∧ c ≤ 'f' then some (c.toNat - 'a'.toNat + 10)
  else if 'A' ≤ c ∧ c ≤ 'F' then some (c.toNat - 'A'.toNat + 10)
  else none

/-- The value of a group of hexadecimal digits. -/
def hexValue (digits : Text) : Nat := digits.foldl (fun acc c => acc * 16 + (hexDigit c).getD 0) 0

/-- The bytes of the groups of an address, of which there is room for `room` more, and the place of
the ellipsis among them. -/
def parseGroups : Nat → Text → List UInt8 → Option Nat → Option (List UInt8 × Option Nat)
  | 0, t, bytes, ellipsis => if t = [] then some (bytes, ellipsis) else none
  | room + 1, t, bytes, ellipsis =>
    let digits := t.takeWhile fun c => (hexDigit c).isSome
    if digits = [] ∨ 4 < digits.length then none
    else
      let value := hexValue digits
      let next := bytes ++ [UInt8.ofNat (value / 256), UInt8.ofNat (value % 256)]
      match t.drop digits.length with
      | [] => some (next, ellipsis)
      | '.' :: _ =>
        -- the last two groups may be written as four octets
        if (ellipsis = none ∧ bytes.length ≠ 12) ∨ 16 < bytes.length + 4 then none
        else (parseFields t).map fun fields => (bytes ++ fields, ellipsis)
      | [':'] => none
      | ':' :: ':' :: rest =>
        if ellipsis.isSome then none
        else if rest = [] then some (next, some next.length)
        else parseGroups room rest next (some next.length)
      | ':' :: rest => parseGroups room rest next ellipsis
      | _ => none

/-- The 16 bytes of an address whose ellipsis stands for at least one group. -/
def expand : List UInt8 × Option Nat → Option IP
  | (bytes, none) => if bytes.length = 16 then some bytes else none
  | (bytes, some place) =>
    if bytes.length < 16 then
      some (bytes.take place ++ List.replicate (16 - bytes.length) 0 ++ bytes.drop place)
    else none

/-- Sixteen bytes with an ellipsis at the front perhaps. -/
def parse6 : Text → Option IP
  | ':' :: ':' :: rest =>
    if rest = [] then some (List.replicate 16 0)
    else (parseGroups 8 rest [] (some 0)).bind expand
  | t => (parseGroups 8 t [] none).bind expand

/-- What stands before the four bytes of an address in the longer form. -/
def v4InV6Prefix : List UInt8 := List.replicate 10 0 ++ [0xFF, 0xFF]

/-- An address in text, which has no zone; it is taken for dotted decimal if its first separator is
a dot. -/
def parse (t : Text) : Option IP :=
  match t.find? fun c => c == '.' || c == ':' || c == '%' with
  | some '.' => (parseFields t).map fun fields => v4InV6Prefix ++ fields
  | some ':' => if '%' ∈ t then none else parse6 t
  | _ => none

example : parse "192.168.68.57".toList = some (v4InV6Prefix ++ [192, 168, 68, 57]) := by
  decide +kernel

example : parse "fe80::1".toList = some (0xFE :: 0x80 :: List.replicate 13 0 ++ [1]) := by
  decide +kernel

/-! ### Ranges of addresses -/

/-- The four bytes of an address that has a short form. -/
def to4 (ip : IP) : Option (List UInt8) :=
  if ip.length = 4 then some ip
  else if ip.length = 16 ∧ ip.take 12 = v4InV6Prefix then some (ip.drop 12)
  else none

/-- Addresses are equal in whichever form. -/
def equal (ip x : IP) : Bool :=
  if ip.length = x.length then ip == x
  else if ip.length = 4 ∧ x.length = 16 then v4InV6Prefix ++ ip == x
  else if ip.length = 16 ∧ x.length = 4 then ip == v4InV6Prefix ++ x
  else false

/-- A byte of an address. -/
def byte (bytes : List UInt8) (i : Nat) : Nat := (bytes[i]?.getD 0).toNat

/-- `0.0.0.0` or `::`. -/
def isUnspecified (ip : IP) : Bool :=
  equal ip (v4InV6Prefix ++ [0, 0, 0, 0]) || equal ip (List.replicate 16 0)

/-- An address of the host itself. -/
def isLoopback (ip : IP) : Bool :=
  match ip.to4 with
  | some ip4 => byte ip4 0 == 127
  | none => equal ip (List.replicate 15 0 ++ [1])

/-- An address of a private network. -/
def isPrivate (ip : IP) : Bool :=
  match ip.to4 with
  | some ip4 =>
    byte ip4 0 == 10 || (byte ip4 0 == 172 && byte ip4 1 / 16 == 1) ||
      (byte ip4 0 == 192 && byte ip4 1 == 168)
  | none => ip.length == 16 && byte ip 0 / 2 == 0xFC / 2

/-- An address of a group. -/
def isMulticast (ip : IP) : Bool :=
  match ip.to4 with
  | some ip4 => byte ip4 0 / 16 == 0xE
  | none => ip.length == 16 && byte ip 0 == 0xFF

/-- An address that is valid on its link only. -/
def isLinkLocalUnicast (ip : IP) : Bool :=
  match ip.to4 with
  | some ip4 => byte ip4 0 == 169 && byte ip4 1 == 254
  | none => ip.length == 16 && byte ip 0 == 0xFE && byte ip 1 / 64 == 2

/-- An address of one host that is not bound to its link or itself. -/
def isGlobalUnicast (ip : IP) : Bool :=
  (ip.length == 4 || ip.length == 16) && !equal ip (v4InV6Prefix ++ [255, 255, 255, 255]) &&
    !ip.isUnspecified && !ip.isLoopback && !ip.isMulticast && !ip.isLinkLocalUnicast

end IP
