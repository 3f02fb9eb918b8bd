import Thalweg.Data.Float64
import Thalweg.Data.Json.Basic
import Thalweg.SdkPython.Models

/-!
# JSON values in Python

What `json.loads` makes of a JSON value: whole numbers are integers of any size, other numbers are
floats, and of the members of an object that share a name the last one counts.

* `PyValue.ofJson`: the Python value of a JSON value.
* `find?_ofJson_obj`: what the dictionary of an object holds under a key.
-/

namespace Thalweg.SdkPython

/-! ### Numbers -/

/-- The number of an integer literal. -/
def intOf : Text → Int
  | '-' :: digits => -(Nat.ofDigitChars 10 digits 0 : Nat)
  | digits => (Nat.ofDigitChars 10 digits 0 : Nat)

/-- The start of an exponent. -/
def isExponentMark (c : Char) : Bool := c == 'e' || c == 'E'

/-- The exponent of a literal. -/
def exponentOf (literal : Text) : Int :=
  match literal.dropWhile fun c => !isExponentMark c with
  | _ :: '+' :: digits => intOf digits
  | _ :: exponent => intOf exponent
  | [] => 0

/-- The number that a literal writes. -/
def numberOf (literal : Text) : ℚ :=
  let mantissa := literal.takeWhile fun c => !isExponentMark c
  let whole := mantissa.takeWhile fun c => c != '.'
  let fraction := (mantissa.dropWhile fun c => c != '.').drop 1
  intOf (whole ++ fraction) * 10 ^ (exponentOf literal - fraction.length)

/-- The nearest floating-point number: near zero their distance is `2 ^ (-1074)`, and numbers
from `2 ^ 1024` on are not finite. -/
def floatOf (literal : Text) : Option ℚ :=
  let number := numberOf literal
  let nearest :=
    if |number| < 1 / 2 ^ 1022 then (Float64.roundEven (number * 2 ^ 1074) : ℚ) / 2 ^ 1074
    else Float64.round number
  if |nearest| < 2 ^ 1024 then some nearest else none

/-- The value of a number: a float if the literal has a fraction or an exponent. -/
def PyValue.ofNumber (literal : Text) : PyValue :=
  if literal.any fun c => c == '.' || isExponentMark c then .float (floatOf literal)
  else .int (intOf literal)

/-! ### Values -/

/-- `data[key] = value` -/
def PyDict.setItem (key : Text) (value : PyValue) : PyDict → PyDict
  | [] => [(key, value)]
  | entry :: data =>
    if entry.1 = key then (key, value) :: data else entry :: setItem key value data

mutual

/-- The Python value that a JSON value is loaded as. -/
def PyValue.ofJson : Json → PyValue
  | .null => .none
  | .bool b => .bool b
  | .num literal => .ofNumber literal
  | .str s => .str s
  | .arr items => .list (ofItems items)
  | .obj members => .dict (ofMembers [] members)

/-- The values of items. -/
def ofItems : List Json → List PyValue
  | [] => []
  | v :: items => PyValue.ofJson v :: ofItems items

/-- A dictionary with the members of an object. -/
def ofMembers (data : PyDict) : List (Text × Json) → PyDict
  | [] => data
  | (k, v) :: members => ofMembers (data.setItem k (PyValue.ofJson v)) members

end

/-! ### Lookups -/

theorem PyDict.find?_setItem (data : PyDict) (key key' : Text) (value : PyValue) :
    (data.setItem key value).find? key' = if key = key' then some value else data.find? key' := by
  induction data with
  | nil =>
    by_cases h : key = key' <;> simp [setItem, find?, h]
  | cons entry data ih =>
    simp only [find?] at ih ⊢
    rw [setItem]
    split_ifs with hentry hkey hkey
    · simp [hkey]
    · simp [hkey, hentry ▸ hkey]
    · subst hkey
      simp [hentry, ih]
    · by_cases h : entry.1 = key' <;> simp [h, ih, hkey]

/-- The last member of a name. -/
def lastMember (key : Text) : List (Text × Json) → Option Json
  | [] => none
  | m :: members => (lastMember key members).or (if m.1 = key then some m.2 else none)

theorem find?_ofMembers (data : PyDict) (members : List (Text × Json)) (key : Text) :
    (ofMembers data members).find? key =
      ((lastMember key members).map PyValue.ofJson).or (data.find? key) := by
  induction members generalizing data with
  | nil => rfl
  | cons m members ih =>
    obtain ⟨k, v⟩ := m
    rw [ofMembers, ih, PyDict.find?_setItem, lastMember]
    by_cases hk : k = key
    · simp only [if_pos hk]
      cases lastMember key members <;> rfl
    · simp only [if_neg hk]
      cases lastMember key members <;> rfl

theorem find?_ofJson_obj (members : List (Text × Json)) (key : Text) :
    (ofMembers [] members).find? key = (lastMember key members).map PyValue.ofJson := by
  rw [find?_ofMembers]
  cases lastMember key members <;> rfl

/-! ### Decimals -/

theorem intOf_decimal (n : Nat) : intOf (Text.decimal n) = n := by
  have hvalue : Nat.ofDigitChars 10 (Text.decimal n) 0 = n :=
    Nat.ofDigitChars_toDigits (by decide) le_rfl
  unfold intOf
  split
  · next digits htext =>
    have hminus : ('-' : Char).isDigit = true :=
      Text.isDigit_of_mem_decimal (htext ▸ List.mem_cons_self)
    exact absurd hminus (by decide)
  · rw [hvalue]

theorem intOf_decimalInt (n : Int) : intOf (Text.decimalInt n) = n := by
  unfold Text.decimalInt
  have hvalue : Nat.ofDigitChars 10 (Text.decimal n.natAbs) 0 = n.natAbs :=
    Nat.ofDigitChars_toDigits (by decide) le_rfl
  split_ifs with h
  · rw [intOf, hvalue]
    omega
  · rw [intOf_decimal]
    omega

theorem isWhole_decimal {n : Nat} {c : Char} (hc : c ∈ Text.decimal n) :
    (c == '.' || isExponentMark c) = false := by
  have hdigit := Text.isDigit_of_mem_decimal hc
  rw [Bool.eq_false_iff]
  intro h
  simp only [isExponentMark, Bool.or_eq_true, beq_iff_eq] at h
  rcases h with rfl | rfl | rfl <;> exact absurd hdigit (by decide)

theorem ofNumber_decimalInt (n : Int) : PyValue.ofNumber (Text.decimalInt n) = .int n := by
  have hwhole : ((Text.decimalInt n).any fun c => c == '.' || isExponentMark c) = false := by
    rw [List.any_eq_false]
    intro c hc
    rw [Bool.not_eq_true]
    unfold Text.decimalInt at hc
    split_ifs at hc
    · rcases List.mem_cons.mp hc with rfl | hc
      · rfl
      · exact isWhole_decimal hc
    · exact isWhole_decimal hc
  rw [PyValue.ofNumber, hwhole, if_neg (by decide), intOf_decimalInt]

theorem ofNumber_decimal (n : Nat) : PyValue.ofNumber (Text.decimal n) = .int n := by
  have hnat : Text.decimalInt n = Text.decimal n := by simp [Text.decimalInt]
  rw [← hnat, ofNumber_decimalInt]

end Thalweg.SdkPython
