import Thalweg.Data.Json.Basic

/-!
# Reading JSON texts

A recursive-descent reader of JSON texts. Number literals are kept as they are written, the members
of an object come with the raw text of their values, and arrays and objects may nest only to a given
depth. The reader recurses on a fuel that `Json.parse` takes from the length of the text; twice the
length is always enough (`Thalweg.Data.Json.RoundTrip`).

* `Json.parse` reads a text that holds exactly one value, with space around it.
* `Json.parseRecord` reads the members of a text that holds one object.
-/

namespace Json

/-- The members of an object as they are read: name, raw text of the value, value. -/
abbrev RawMembers := List (Text × Text × Json)

/-! ### Space, literals and numbers -/

/-- The space characters between tokens. -/
def isSpace (c : Char) : Bool := c == ' ' || c == '\t' || c == '\n' || c == '\r'

/-- The text after its leading space. -/
def skipSpace : Text → Text
  | [] => []
  | c :: t => if isSpace c then skipSpace t else c :: t

/-- The text after a given start. -/
def expect : Text → Text → Option Text
  | [], t => some t
  | _ :: _, [] => none
  | c :: w, d :: t => if c = d then expect w t else none

/-- The leading digits of a text and the rest. -/
def spanDigits : Text → Text × Text
  | [] => ([], [])
  | c :: t => if c.isDigit then ((c :: (spanDigits t).1), (spanDigits t).2) else ([], c :: t)

/-- At least one digit. -/
def digits1 (t : Text) : Option (Text × Text) :=
  match spanDigits t with
  | ([], _) => none
  | (ds, rest) => some (ds, rest)

/-- The integer part of a number: `0` or digits that do not start with `0`. -/
def intPart : Text → Option (Text × Text)
  | '0' :: t => some (['0'], t)
  | t => digits1 t

/-- The fraction of a number, if there is one. -/
def fracPart : Text → Option (Text × Text)
  | '.' :: t => (digits1 t).map fun p => ('.' :: p.1, p.2)
  | t => some ([], t)

/-- The sign of a number or of an exponent. -/
def signPart (plus : Bool) : Text → Text × Text
  | '-' :: t => (['-'], t)
  | '+' :: t => if plus then (['+'], t) else ([], '+' :: t)
  | t => ([], t)

/-- The exponent of a number, if there is one. -/
def expPart : Text → Option (Text × Text)
  | [] => some ([], [])
  | c :: t =>
    if c = 'e' ∨ c = 'E' then
      (digits1 (signPart true t).2).map fun p => (c :: (signPart true t).1 ++ p.1, p.2)
    else some ([], c :: t)

/-- A number literal at the start of a text, and the rest. -/
def readNumber (t : Text) : Option (Text × Text) :=
  let sign := signPart false t
  match intPart sign.2 with
  | none => none
  | some int =>
    match fracPart int.2 with
    | none => none
    | some frac =>
      match expPart frac.2 with
      | none => none
      | some exp => some (sign.1 ++ int.1 ++ frac.1 ++ exp.1, exp.2)

/-- A text that is one number literal. -/
def IsNumber (literal : Text) : Prop := readNumber literal = some (literal, [])

instance (literal : Text) : Decidable (IsNumber literal) := by
  unfold IsNumber
  infer_instance

/-! ### Strings -/

/-- The value of a hexadecimal digit. -/
def hexValue (c : Char) : Option Nat :=
  if '0' ≤ c ∧ c ≤ '9' then some (c.toNat - 48)
  else if 'a' ≤ c ∧ c ≤ 'f' then some (c.toNat - 87)
  else if 'A' ≤ c ∧ c ≤ 'F' then some (c.toNat - 55)
  else none

/-- Four hexadecimal digits at the start of a text. -/
def hex4 : Text → Option Nat
  | a :: b :: c :: d :: _ => do
    let a ← hexValue a
    let b ← hexValue b
    let c ← hexValue c
    let d ← hexValue d
    some (a * 4096 + b * 256 + c * 16 + d)
  | _ => none

/-- The code unit of an escape `\uXXXX` at the start of a text. -/
def escapedUnit : Text → Option Nat
  | '\\' :: 'u' :: t => hex4 t
  | _ => none

/-- The rune that starts with the code unit `n`, when `t` follows it, and the number of characters
of `t` that belong to it. Lone surrogates read as U+FFFD. -/
def readUnit (n : Nat) (t : Text) : Char × Nat :=
  if 0xD800 ≤ n ∧ n < 0xDC00 then
    match escapedUnit t with
    | some m =>
      if 0xDC00 ≤ m ∧ m < 0xE000 then
        (Char.ofNat (0x10000 + (n - 0xD800) * 0x400 + (m - 0xDC00)), 6)
      else (Text.replacement, 0)
    | none => (Text.replacement, 0)
  else if 0xDC00 ≤ n ∧ n < 0xE000 then (Text.replacement, 0)
  else (Char.ofNat n, 0)

/-- The rune of a string literal at `c`, when `t` follows, and the number of characters of `t` that
belong to it. -/
def readRune (c : Char) (t : Text) : Option (Char × Nat) :=
  if c.toNat < 0x20 then none
  else if c ≠ '\\' then some (c, 0)
  else
    match t with
    | [] => none
    | e :: t =>
      if e = '"' ∨ e = '\\' ∨ e = '/' then some (e, 1)
      else if e = 'b' then some ('\x08', 1)
      else if e = 'f' then some ('\x0c', 1)
      else if e = 'n' then some ('\n', 1)
      else if e = 'r' then some ('\r', 1)
      else if e = 't' then some ('\t', 1)
      else if e = 'u' then
        (hex4 t).map fun n => ((readUnit n (t.drop 4)).1, 5 + (readUnit n (t.drop 4)).2)
      else none

/-- The rest of a string literal after the first `skip` characters, and what follows the closing
quote. -/
def readString : Nat → Text → Option (Text × Text)
  | _, [] => none
  | skip + 1, _ :: t => readString skip t
  | 0, c :: t =>
    if c = '"' then some ([], t)
    else
      match readRune c t with
      | none => none
      | some (r, skip) => (readString skip t).map fun p => (r :: p.1, p.2)

/-! ### Values -/

/-- The name of a member, and what follows the colon. -/
def parseName : Text → Option (Text × Text)
  | [] => none
  | c :: t =>
    if c = '"' then
      match readString 0 t with
      | none => none
      | some (k, rest) =>
        match skipSpace rest with
        | [] => none
        | c :: rest => if c = ':' then some (k, rest) else none
    else none

/-- The part of `t` before its ending `rest`. -/
def before (t rest : Text) : Text := t.take (t.length - rest.length)

mutual

/-- A value at the start of a text, nesting at most `depth` arrays and objects, and the rest. -/
def parseValue : Nat → Nat → Text → Option (Json × Text)
  | 0, _, _ => none
  | _ + 1, _, [] => none
  | fuel + 1, depth, c :: t =>
    if c = '{' then
      (parseObject fuel depth (skipSpace t)).map fun p =>
        (.obj (p.1.map fun m => (m.1, m.2.2)), p.2)
    else if c = '[' then
      (parseArray fuel depth (skipSpace t)).map fun p => (.arr p.1, p.2)
    else if c = '"' then (readString 0 t).map fun p => (.str p.1, p.2)
    else if c = 'n' then (expect ['u', 'l', 'l'] t).map fun rest => (.null, rest)
    else if c = 't' then (expect ['r', 'u', 'e'] t).map fun rest => (.bool true, rest)
    else if c = 'f' then (expect ['a', 'l', 's', 'e'] t).map fun rest => (.bool false, rest)
    else (readNumber (c :: t)).map fun p => (.num p.1, p.2)

/-- The items of an array after its opening bracket, and the rest. -/
def parseArray : Nat → Nat → Text → Option (List Json × Text)
  | 0, _, _ => none
  | _ + 1, 0, _ => none
  | _ + 1, _ + 1, [] => none
  | fuel + 1, depth + 1, c :: t =>
    if c = ']' then some ([], t) else parseItems fuel depth (c :: t)

/-- One or more items of an array up to its closing bracket, and the rest. -/
def parseItems : Nat → Nat → Text → Option (List Json × Text)
  | 0, _, _ => none
  | fuel + 1, depth, t =>
    match parseValue fuel depth t with
    | none => none
    | some (v, rest) =>
      match skipSpace rest with
      | [] => none
      | c :: rest =>
        if c = ']' then some ([v], rest)
        else if c = ',' then
          (parseItems fuel depth (skipSpace rest)).map fun p => (v :: p.1, p.2)
        else none

/-- The members of an object after its opening brace, and the rest. -/
def parseObject : Nat → Nat → Text → Option (RawMembers × Text)
  | 0, _, _ => none
  | _ + 1, 0, _ => none
  | _ + 1, _ + 1, [] => none
  | fuel + 1, depth + 1, c :: t =>
    if c = '}' then some ([], t) else parseMembers fuel depth (c :: t)

/-- One or more members of an object up to its closing brace, and the rest. -/
def parseMembers : Nat → Nat → Text → Option (RawMembers × Text)
  | 0, _, _ => none
  | fuel + 1, depth, t =>
    match parseName t with
    | none => none
    | some (k, rest) =>
      match parseValue fuel depth (skipSpace rest) with
      | none => none
      | some (v, after) =>
        match skipSpace after with
        | [] => none
        | c :: t =>
          if c = '}' then some ([(k, before (skipSpace rest) after, v)], t)
          else if c = ',' then
            (parseMembers fuel depth (skipSpace t)).map fun p =>
              ((k, before (skipSpace rest) after, v) :: p.1, p.2)
          else none

end

/-- The greatest depth of nested arrays and objects that texts are read to. -/
def maxDepth : Nat := 10000

/-- The first value of a text, and the rest. -/
def parseFirst (t : Text) : Option (Json × Text) :=
  parseValue (2 * (skipSpace t).length + 1) maxDepth (skipSpace t)

/-- The value of a text that holds exactly one, with space around it. -/
def parse (t : Text) : Option Json :=
  match parseFirst t with
  | some (v, rest) => if skipSpace rest = [] then some v else none
  | none => none

/-- The text of one character of a JSON text that is compacted: the characters that `quoteRune`
escapes for their markup are escaped. -/
def compactChar (c : Char) : Text :=
  if c = '<' ∨ c = '>' ∨ c = '&' ∨ c.toNat = 0x2028 ∨ c.toNat = 0x2029 then unicodeEscape c.toNat
  else [c]

/-- The state of compaction: outside strings, inside one, and inside one after a backslash. -/
inductive CompactState where
  | outside
  | inside
  | escaped
  deriving DecidableEq

/-- The state after a character. -/
def CompactState.next : CompactState → Char → CompactState
  | .outside, c => if c = '"' then .inside else .outside
  | .inside, c => if c = '"' then .outside else if c = '\\' then .escaped else .inside
  | .escaped, _ => .inside

/-- A JSON text without the space outside its strings. -/
def compactFrom : CompactState → Text → Text
  | _, [] => []
  | s, c :: t =>
    if s = .outside ∧ isSpace c then compactFrom s t
    else compactChar c ++ compactFrom (s.next c) t

/-- The compact form of a text that holds exactly one value; its literals stay as written. -/
def compact (t : Text) : Option Text :=
  match parse t with
  | some _ => some (compactFrom .outside t)
  | none => none

/-- The members of a text that holds exactly one object, each with the raw text of its value. -/
def parseRecord (t : Text) : Option RawMembers :=
  match skipSpace t with
  | '{' :: inner =>
    match parseObject (2 * (skipSpace t).length) maxDepth (skipSpace inner) with
    | some (members, rest) => if skipSpace rest = [] then some members else none
    | none => none
  | _ => none

end Json
