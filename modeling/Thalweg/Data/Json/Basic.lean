import Thalweg.Data.Text

/-!
# JSON values and their compact text

A JSON value keeps number literals as they are written and object members in order, with duplicates.
This file provides

* `Json.render`, the compact text of a value, with the characters `<`, `>`, `&`, U+2028 and U+2029
  and the control characters of strings escaped;
* `Json.canonical`, the value in which every object is a map: the last member of a name wins and
  members stand in the order of their names;
* `Json.depth`, the nesting depth of arrays and objects, and `Json.WellFormed`, which says that
  every number literal of the value satisfies a given predicate.

The parser and the round trip are in `Thalweg.Data.Json.Parse` and `Thalweg.Data.Json.RoundTrip`.
-/

/-- A JSON value; numbers are kept as their literals. -/
inductive Json where
  | null
  | bool (b : Bool)
  | num (literal : Text)
  | str (s : Text)
  | arr (items : List Json)
  | obj (members : List (Text × Json))

namespace Json

/-! ### Rendering -/

/-- The hexadecimal digit of a number below 16. -/
def hexDigit (n : Nat) : Char := if n < 10 then Char.ofNat (48 + n) else Char.ofNat (87 + n)

/-- The escape sequence of a code point below `2 ^ 16`. -/
def unicodeEscape (n : Nat) : Text :=
  ['\\', 'u', hexDigit (n / 4096 % 16), hexDigit (n / 256 % 16), hexDigit (n / 16 % 16),
    hexDigit (n % 16)]

/-- The text of one rune inside a string literal. -/
def quoteRune (c : Char) : Text :=
  if c = '"' ∨ c = '\\' then ['\\', c]
  else if c = '\x08' then ['\\', 'b']
  else if c = '\x0c' then ['\\', 'f']
  else if c = '\n' then ['\\', 'n']
  else if c = '\r' then ['\\', 'r']
  else if c = '\t' then ['\\', 't']
  else if c.toNat < 0x20 ∨ c = '<' ∨ c = '>' ∨ c = '&' ∨ c.toNat = 0x2028 ∨ c.toNat = 0x2029 then
    unicodeEscape c.toNat
  else [c]

/-- The string literal of a text. -/
def quote (s : Text) : Text := '"' :: s.flatMap quoteRune ++ ['"']

mutual

/-- The compact text of a value. -/
def render : Json → Text
  | .null => ['n', 'u', 'l', 'l']
  | .bool true => ['t', 'r', 'u', 'e']
  | .bool false => ['f', 'a', 'l', 's', 'e']
  | .num literal => literal
  | .str s => quote s
  | .arr [] => ['[', ']']
  | .arr (v :: items) => '[' :: render v ++ renderItems items
  | .obj [] => ['{', '}']
  | .obj ((k, v) :: members) => '{' :: quote k ++ ':' :: render v ++ renderMembers members

/-- The items after the first of an array, up to the closing bracket. -/
def renderItems : List Json → Text
  | [] => [']']
  | v :: items => ',' :: render v ++ renderItems items

/-- The members after the first of an object, up to the closing brace. -/
def renderMembers : List (Text × Json) → Text
  | [] => ['}']
  | (k, v) :: members => ',' :: quote k ++ ':' :: render v ++ renderMembers members

end

/-! ### Objects as maps -/

/-- Put a member into a list of members in the order of their names, over one of the same name. -/
def insertMember (k : Text) (v : Json) : List (Text × Json) → List (Text × Json)
  | [] => [(k, v)]
  | (k', v') :: members =>
    if k < k' then (k, v) :: (k', v') :: members
    else if k = k' then (k, v) :: members
    else (k', v') :: insertMember k v members

/-- The members of a list in the order of their names, the last one of each name. -/
def sortMembers (members : List (Text × Json)) : List (Text × Json) :=
  members.foldl (fun sorted m => insertMember m.1 m.2 sorted) []

mutual

/-- The value with every object read as a map. -/
def canonical : Json → Json
  | .null => .null
  | .bool b => .bool b
  | .num literal => .num literal
  | .str s => .str s
  | .arr items => .arr (canonicalItems items)
  | .obj members => .obj (sortMembers (canonicalMembers members))

/-- The items of an array, each with its objects read as maps. -/
def canonicalItems : List Json → List Json
  | [] => []
  | v :: items => canonical v :: canonicalItems items

/-- The members of an object, each value with its objects read as maps. -/
def canonicalMembers : List (Text × Json) → List (Text × Json)
  | [] => []
  | (k, v) :: members => (k, canonical v) :: canonicalMembers members

end

/-! ### Depth and well-formedness -/

mutual

/-- The nesting depth of arrays and objects. -/
def depth : Json → Nat
  | .arr items => itemsDepth items + 1
  | .obj members => membersDepth members + 1
  | _ => 0

/-- The greatest depth of a list of items. -/
def itemsDepth : List Json → Nat
  | [] => 0
  | v :: items => max (depth v) (itemsDepth items)

/-- The greatest depth of a list of members. -/
def membersDepth : List (Text × Json) → Nat
  | [] => 0
  | (_, v) :: members => max (depth v) (membersDepth members)

end

mutual

/-- Every number literal of the value satisfies `p`. -/
def WellFormed (p : Text → Prop) : Json → Prop
  | .num literal => p literal
  | .arr items => ItemsWellFormed p items
  | .obj members => MembersWellFormed p members
  | _ => True

/-- Every number literal of the items satisfies `p`. -/
def ItemsWellFormed (p : Text → Prop) : List Json → Prop
  | [] => True
  | v :: items => WellFormed p v ∧ ItemsWellFormed p items

/-- Every number literal of the members satisfies `p`. -/
def MembersWellFormed (p : Text → Prop) : List (Text × Json) → Prop
  | [] => True
  | (_, v) :: members => WellFormed p v ∧ MembersWellFormed p members

end

/-- A value is canonical when reading its objects as maps changes nothing. -/
def IsCanonical (v : Json) : Prop := canonical v = v

end Json
