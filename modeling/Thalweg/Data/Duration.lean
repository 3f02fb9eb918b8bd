import Mathlib.Tactic.IntervalCases
import Thalweg.Data.Float64
import Thalweg.Data.Text

/-!
# Durations

A duration is a 64-bit number of nanoseconds. Its text counts hours, minutes and seconds, or one
smaller unit, with a decimal fraction. Reading a text adds up its parts in unsigned 64-bit
arithmetic and the fractions in floating-point numbers; a text that was written is read as the
duration that it was written for.

## Main definitions

* `Duration.format`, `Duration.parse`.

## Main results

* `Duration.parse_format`.
-/

namespace Duration

/-- Nanoseconds of the units. -/
def microsecond : Nat := 1000

/-- The nanoseconds of a millisecond. -/
def millisecond : Nat := 1000 * microsecond

/-- The nanoseconds of a second. -/
def second : Nat := 1000 * millisecond

/-- The nanoseconds of a minute. -/
def minute : Nat := 60 * second

/-- The nanoseconds of an hour. -/
def hour : Nat := 60 * minute

/-! ### Writing -/

/-- Write the last `prec` digits of a number as a fraction in front of a text, without the zeros at
the end, and return the number without them; `print` says that a digit has been written. -/
def fmtFrac : Nat → Nat → Bool → Text → Text × Nat
  | 0, v, print, buf => (if print then '.' :: buf else buf, v)
  | prec + 1, v, print, buf =>
    let digit := v % 10
    let print := print || digit != 0
    fmtFrac prec (v / 10) print (if print then digit.digitChar :: buf else buf)

/-- A number in front of what is written already. -/
def fmtInt (v : Nat) (buf : Text) : Text := Text.decimal v ++ buf

/-- A duration below a second, in nanoseconds. -/
def formatSmall (u : Nat) : Text :=
  if u = 0 then "0s".toList
  else
    let (prec, unit) :=
      if u < microsecond then (0, "ns".toList)
      else if u < millisecond then (3, "\u00B5s".toList)
      else (6, "ms".toList)
    let (buf, v) := fmtFrac prec u false unit
    fmtInt v buf

/-- A duration from a second on, in nanoseconds. -/
def formatLarge (u : Nat) : Text :=
  let (buf, u) := fmtFrac 9 u false "s".toList
  let buf := fmtInt (u % 60) buf
  let u := u / 60
  if 0 < u then
    let buf := fmtInt (u % 60) ('m' :: buf)
    let u := u / 60
    if 0 < u then fmtInt u ('h' :: buf) else buf
  else buf

/-- `Duration.String`. -/
def format (d : Int64) : Text :=
  let u := d.toInt.natAbs
  let text := if u < second then formatSmall u else formatLarge u
  if d < 0 then '-' :: text else text

/-! ### Reading -/

/-- The value of a digit. -/
def digitValue (c : Char) : Nat := c.toNat - '0'.toNat

/-- The number at the start of a text and what follows it, unless it is above `2 ^ 63`. -/
def leadingInt : Nat → Text → Option (Nat × Text)
  | x, [] => some (x, [])
  | x, c :: s =>
    if c.isDigit then
      if 2 ^ 63 / 10 < x then none
      else if 2 ^ 63 < x * 10 + digitValue c then none
      else leadingInt (x * 10 + digitValue c) s
    else some (x, c :: s)

/-- The digits of a fraction, the power of ten below it and what follows; digits that do not fit
any more are passed over. -/
def leadingFraction : Nat → ℚ → Bool → Text → Nat × ℚ × Text
  | x, scale, _, [] => (x, scale, [])
  | x, scale, overflow, c :: s =>
    if c.isDigit then
      if overflow then leadingFraction x scale true s
      else if (2 ^ 63 - 1) / 10 < x then leadingFraction x scale true s
      else if 2 ^ 63 < x * 10 + digitValue c then leadingFraction x scale true s
      else leadingFraction (x * 10 + digitValue c) (Float64.mul scale 10) false s
    else (x, scale, c :: s)

/-- A unit with its nanoseconds. -/
def unitMap : List (Text × Nat) :=
  [("ns".toList, 1), ("us".toList, microsecond), ("\u00B5s".toList, microsecond),
    ("\u03BCs".toList, microsecond), ("ms".toList, millisecond), ("s".toList, second),
    ("m".toList, minute), ("h".toList, hour)]

/-- Whether a character belongs to a unit. -/
def inUnit (c : Char) : Bool := c ≠ '.' && !c.isDigit

/-- A number with a fraction and a unit at the start of a text, in nanoseconds, and what follows. -/
def parsePart (s : Text) : Option (Nat × Text) := do
  let (v, rest) ← leadingInt 0 s
  let pre := rest.length != s.length
  let (f, scale, post, rest) :=
    match rest with
    | '.' :: r =>
      let (f, scale, rest) := leadingFraction 0 1 false r
      (f, scale, rest.length != r.length, rest)
    | rest => (0, 1, false, rest)
  if !pre && !post then none
  else
    let unit ← unitMap.lookup (rest.takeWhile inUnit)
    if 2 ^ 63 / unit < v then none
    else
      let fraction := if 0 < f then ⌊Float64.mul f (Float64.div unit scale)⌋.toNat else 0
      if 2 ^ 63 < v * unit + fraction then none
      else some (v * unit + fraction, rest.dropWhile inUnit)

/-- The sum of the parts of a text after a sum `d`. -/
def parseParts : Nat → Nat → Text → Option Nat
  | _, d, [] => some d
  | 0, _, _ :: _ => none
  | fuel + 1, d, c :: s =>
    if c = '.' ∨ c.isDigit = true then do
      let (v, rest) ← parsePart (c :: s)
      -- two parts of `2 ^ 63` each add up to zero
      let d := (d + v) % 2 ^ 64
      if 2 ^ 63 < d then none else parseParts fuel d rest
    else none

/-- The duration of a text after its sign; every part takes at least one rune. -/
def parseUnsigned (neg : Bool) (s : Text) : Option Int64 :=
  if s = ['0'] then some 0
  else if s = [] then none
  else
    match parseParts s.length 0 s with
    | none => none
    | some d =>
      if neg then some (-Int64.ofNat d)
      else if 2 ^ 63 - 1 < d then none
      else some (Int64.ofNat d)

/-- `time.ParseDuration`. -/
def parse : Text → Option Int64
  | '-' :: s => parseUnsigned true s
  | '+' :: s => parseUnsigned false s
  | s => parseUnsigned false s


/-! ### Round trip -/

theorem le_ofDigitChars (ds : Text) (x : Nat) : x ≤ Nat.ofDigitChars 10 ds x := by
  rw [Nat.ofDigitChars_eq_ofDigitChars_zero]
  exact (Nat.le_mul_of_pos_left x (Nat.pow_pos (by decide))).trans (Nat.le_add_right _ _)

theorem ofDigitChars_lt {ds : Text} (h : ∀ c ∈ ds, c.isDigit = true) :
    Nat.ofDigitChars 10 ds 0 < 10 ^ ds.length := by
  induction ds with
  | nil => exact Nat.one_pos
  | cons c ds ih =>
    have hds := ih fun c' hc' => h c' (List.mem_cons_of_mem c hc')
    have hc : digitValue c ≤ 9 := by
      have := h c List.mem_cons_self
      simp only [Char.isDigit, Bool.and_eq_true, decide_eq_true_eq] at this
      have h9 : c.toNat ≤ 57 := this.2
      simp only [digitValue, show '0'.toNat = 48 from rfl]
      omega
    rw [Nat.ofDigitChars_cons, Nat.ofDigitChars_eq_ofDigitChars_zero, List.length_cons, pow_succ]
    have hmul : 10 ^ ds.length * digitValue c ≤ 10 ^ ds.length * 9 := Nat.mul_le_mul_left _ hc
    simp only [digitValue] at hmul
    simp only [mul_zero, zero_add]
    omega

/-- What follows a number or a fraction does not go on with a digit. -/
def NoDigit (s : Text) : Prop := ∀ c, s.head? = some c → c.isDigit = false

theorem leadingInt_append {ds s : Text} (hds : ∀ c ∈ ds, c.isDigit = true) (hs : NoDigit s)
    {x : Nat} (h : Nat.ofDigitChars 10 ds x ≤ 2 ^ 63) :
    leadingInt x (ds ++ s) = some (Nat.ofDigitChars 10 ds x, s) := by
  induction ds generalizing x with
  | nil =>
    cases s with
    | nil => rfl
    | cons c s => simp [leadingInt, hs c rfl]
  | cons c ds ih =>
    rw [Nat.ofDigitChars_cons] at h ⊢
    have hnext := (le_ofDigitChars ds (10 * x + digitValue c)).trans h
    have hcomm : 10 * x + (c.toNat - '0'.toNat) = x * 10 + digitValue c := by
      rw [digitValue, Nat.mul_comm]
    rw [hcomm] at h ⊢
    rw [List.cons_append, leadingInt, if_pos (hds c List.mem_cons_self), if_neg (by omega),
      if_neg (by omega)]
    exact ih (fun c' hc' => hds c' (List.mem_cons_of_mem c hc')) h

/-- Up to 15 digits of a fraction are read exactly. -/
theorem leadingFraction_append {ds s : Text} (hds : ∀ c ∈ ds, c.isDigit = true) (hs : NoDigit s)
    {x i : Nat} (hx : x < 10 ^ i) (hlength : i + ds.length ≤ 15) :
    leadingFraction x ((10 ^ i : Nat) : ℚ) false (ds ++ s) =
      (Nat.ofDigitChars 10 ds x, ((10 ^ (i + ds.length) : Nat) : ℚ), s) := by
  induction ds generalizing x i with
  | nil =>
    cases s with
    | nil => rfl
    | cons c s => simp [leadingFraction, hs c rfl]
  | cons c ds ih =>
    have hdigit : digitValue c ≤ 9 := by
      have := @ofDigitChars_lt [c] (by simpa using hds c List.mem_cons_self)
      simp only [Nat.ofDigitChars_cons, Nat.ofDigitChars_nil, List.length_singleton] at this
      simp only [digitValue]
      omega
    rw [List.length_cons] at hlength
    have hpow : 10 ^ i ≤ 10 ^ 14 := Nat.pow_le_pow_right (by decide) (by omega)
    have hscale : Float64.mul ((10 ^ i : Nat) : ℚ) 10 = ((10 ^ (i + 1) : Nat) : ℚ) := by
      rw [show (10 : ℚ) = ((10 : Nat) : ℚ) by norm_num, Float64.mul_natCast (by omega), pow_succ]
    have hcomm : 10 * x + (c.toNat - '0'.toNat) = x * 10 + digitValue c := by
      rw [digitValue, Nat.mul_comm]
    rw [List.cons_append, leadingFraction, if_pos (hds c List.mem_cons_self),
      if_neg Bool.false_ne_true, if_neg (by omega), if_neg (by omega), hscale,
      ih (fun c' hc' => hds c' (List.mem_cons_of_mem c hc')) (by rw [pow_succ]; omega) (by omega),
      Nat.ofDigitChars_cons, hcomm, List.length_cons, Nat.add_assoc, Nat.add_comm 1]

theorem digitChar_mod (v : Nat) : (v % 10).digitChar.isDigit = true ∧
    digitValue (v % 10).digitChar = v % 10 := by
  have h : v % 10 < 10 := Nat.mod_lt v (by decide)
  interval_cases v % 10 <;> exact ⟨rfl, rfl⟩

/-- A fraction as it is written: nothing, or a point with digits. -/
def fraction (ds : Text) : Text := if ds = [] then [] else '.' :: ds

/-- The digits that are written are those of the fraction, without the zeros at the end. -/
theorem fmtFrac_spec (prec v : Nat) (ds tail : Text) (hds : ∀ c ∈ ds, c.isDigit = true) :
    ∃ ds', fmtFrac prec v (!ds.isEmpty) (ds ++ tail) = (fraction ds' ++ tail, v / 10 ^ prec) ∧
      (∀ c ∈ ds', c.isDigit = true) ∧ ds'.length ≤ prec + ds.length ∧
      Nat.ofDigitChars 10 ds' 0 * 10 ^ (prec + ds.length - ds'.length) =
        v % 10 ^ prec * 10 ^ ds.length + Nat.ofDigitChars 10 ds 0 := by
  induction prec generalizing v ds with
  | zero =>
    refine ⟨ds, ?_, hds, by omega, by simp [Nat.mod_one]⟩
    cases ds <;> simp [fmtFrac, fraction]
  | succ prec ih =>
    obtain ⟨hdigit, hvalue⟩ := digitChar_mod v
    have hmod : v % 10 ^ (prec + 1) = v / 10 % 10 ^ prec * 10 + v % 10 := by
      rw [pow_succ', Nat.mod_mul]
      ring
    by_cases hprint : (!ds.isEmpty || v % 10 != 0) = true
    · obtain ⟨ds', hfmt, hall, hlength, hsum⟩ := ih (v / 10) ((v % 10).digitChar :: ds) (by
        intro c hc
        rcases List.mem_cons.mp hc with rfl | hc
        · exact hdigit
        · exact hds c hc)
      refine ⟨ds', ?_, hall, ?_, ?_⟩
      · rw [fmtFrac, hprint, if_pos rfl, pow_succ', ← Nat.div_div_eq_div_mul]
        exact hfmt
      · rw [List.length_cons] at hlength
        omega
      · rw [List.length_cons] at hsum
        rw [show prec + 1 + ds.length = prec + (ds.length + 1) by omega, hsum, hmod,
          Nat.ofDigitChars_cons, Nat.ofDigitChars_eq_ofDigitChars_zero]
        simp only [mul_zero, zero_add]
        rw [show (v % 10).digitChar.toNat - '0'.toNat = v % 10 from hvalue]
        ring
    · simp only [Bool.or_eq_true, Bool.not_eq_true', bne_iff_ne, ne_eq, not_or, not_not,
        List.isEmpty_eq_false_iff] at hprint
      obtain ⟨rfl, hzero⟩ := hprint
      obtain ⟨ds', hfmt, hall, hlength, hsum⟩ := ih (v / 10) [] nofun
      refine ⟨ds', ?_, hall, by omega, ?_⟩
      · rw [fmtFrac, hzero, pow_succ', ← Nat.div_div_eq_div_mul]
        exact hfmt
      · simp only [List.length_nil, Nat.add_zero, pow_zero, Nat.mul_one, Nat.ofDigitChars_nil] at *
        rw [Nat.succ_sub hlength, pow_succ, ← Nat.mul_assoc, hsum, hmod, hzero]
        rfl

theorem noDigit_unit {u : Text} (hne : u ≠ []) (hu : ∀ c ∈ u, inUnit c = true) (rest : Text) :
    NoDigit (u ++ rest) := by
  intro c hc
  rw [List.head?_append_of_ne_nil _ hne] at hc
  have := hu c (List.mem_of_mem_head? hc)
  simp only [inUnit, Bool.and_eq_true, Bool.not_eq_true'] at this
  exact this.2

theorem noDigit_fraction {s : Text} (hs : NoDigit s) (ds : Text) : NoDigit (fraction ds ++ s) := by
  cases ds with
  | nil => exact hs
  | cons d ds =>
    rintro c ⟨⟩
    rfl

/-- A part that is written is read as its nanoseconds. -/
theorem parsePart_append {v n : Nat} {ds u rest : Text} (hds : ∀ c ∈ ds, c.isDigit = true)
    (hlength : ds.length ≤ 15) (hne : u ≠ []) (hu : ∀ c ∈ u, inUnit c = true)
    (hrest : ∀ c, rest.head? = some c → inUnit c = false) (hunit : unitMap.lookup u = some n)
    (hn : n < 2 ^ 53) (hdvd : 10 ^ ds.length ∣ n) (hpos : 0 < n)
    (hle : v * n + Nat.ofDigitChars 10 ds 0 * (n / 10 ^ ds.length) ≤ 2 ^ 63) :
    parsePart (Text.decimal v ++ (fraction ds ++ (u ++ rest))) =
      some (v * n + Nat.ofDigitChars 10 ds 0 * (n / 10 ^ ds.length), rest) := by
  have hnodigit := noDigit_unit hne hu rest
  have hv : Nat.ofDigitChars 10 (Text.decimal v) 0 = v := Nat.ofDigitChars_ten_toDigits
  have hvn : v * n ≤ 2 ^ 63 := (Nat.le_add_right _ _).trans hle
  have hread := @leadingInt_append (Text.decimal v) _ (fun c hc => Text.isDigit_of_mem_decimal hc)
    (noDigit_fraction hnodigit ds) 0 (hv.trans_le ((Nat.le_mul_of_pos_right v hpos).trans hvn))
  have hlen : 0 < (Text.decimal v).length := List.length_pos_of_ne_nil (Text.decimal_ne_nil v)
  have hpre : ((fraction ds ++ (u ++ rest)).length !=
      (Text.decimal v ++ (fraction ds ++ (u ++ rest))).length) = true := by
    simp only [bne_iff_ne, List.length_append]
    omega
  have htake : (u ++ rest).takeWhile inUnit = u := by
    rw [List.takeWhile_append_of_pos hu]
    cases rest with
    | nil => exact List.append_nil u
    | cons c rest => rw [List.takeWhile_cons_of_neg (by simp [hrest c rfl]), List.append_nil]
  have hdrop : (u ++ rest).dropWhile inUnit = rest := by
    rw [List.dropWhile_append_of_pos hu]
    cases rest with
    | nil => rfl
    | cons c rest => exact List.dropWhile_cons_of_neg (by simp [hrest c rfl])
  have hfits : ¬2 ^ 63 / n < v := Nat.not_lt.mpr ((Nat.le_div_iff_mul_le hpos).mpr hvn)
  rw [parsePart, hread, hv]
  cases ds with
  | nil =>
    have hhead : ∀ r, u ++ rest ≠ '.' :: r := by
      intro r heq
      obtain ⟨c, u, rfl⟩ := List.exists_cons_of_ne_nil hne
      obtain ⟨rfl, -⟩ := List.cons.inj heq
      exact Bool.false_ne_true (hu '.' List.mem_cons_self)
    simp only [fraction, if_true, List.nil_append]
    simp [hunit, htake, hdrop]
    exact ⟨Text.decimal_ne_nil v, Nat.not_lt.mp hfits, hvn⟩
  | cons d ds =>
    have hfraction := leadingFraction_append hds hnodigit (x := 0) (i := 0) Nat.one_pos (by omega)
    simp only [pow_zero, Nat.cast_one, zero_add] at hfraction
    have hlt := ofDigitChars_lt hds
    have hsmall : Nat.ofDigitChars 10 (d :: ds) 0 * (n / 10 ^ (d :: ds).length) ≤ n := by
      rw [← Nat.mul_div_assoc _ hdvd, Nat.div_le_iff_le_mul_add_pred (by positivity)]
      nlinarith
    have hdiv : n / 10 ^ (d :: ds).length < 2 ^ 53 := (Nat.div_le_self _ _).trans_lt hn
    have hfloat : ⌊Float64.mul (Nat.ofDigitChars 10 (d :: ds) 0 : Nat)
        (Float64.div n ((10 ^ (d :: ds).length : Nat) : ℚ))⌋.toNat =
          Nat.ofDigitChars 10 (d :: ds) 0 * (n / 10 ^ (d :: ds).length) := by
      rw [Float64.div_natCast hdvd (by positivity) hdiv, Float64.mul_natCast (by omega)]
      exact congrArg Int.toNat (Int.floor_natCast _)
    simp only [fraction, if_neg (List.cons_ne_nil d ds), List.cons_append] at hpre ⊢
    rw [List.cons_append] at hfraction
    simp only [Option.bind_eq_bind, Option.bind_some, hfraction, hpre, Bool.not_true, Bool.false_and,
      Bool.false_eq_true, if_false, htake, hunit, hfits, hdrop]
    have hsum : (if 0 < Nat.ofDigitChars 10 (d :: ds) 0 then
        ⌊Float64.mul (Nat.ofDigitChars 10 (d :: ds) 0 : Nat)
          (Float64.div n ((10 ^ (d :: ds).length : Nat) : ℚ))⌋.toNat else 0) =
          Nat.ofDigitChars 10 (d :: ds) 0 * (n / 10 ^ (d :: ds).length) := by
      rw [hfloat, ite_eq_left_iff, Nat.not_lt, Nat.le_zero]
      intro hzero
      rw [hzero, Nat.zero_mul]
    rw [hsum, if_neg (Nat.not_lt.mpr hle)]

/-- The parts of a text add up to `total` after a sum `d`. -/
def Reads (d : Nat) (s : Text) (total : Nat) : Prop :=
  ∀ fuel, s.length ≤ fuel → parseParts fuel d s = some total

theorem reads_nil (d : Nat) : Reads d [] d := fun fuel _ => by cases fuel <;> rfl

theorem Reads.part {d v n total : Nat} {ds u rest : Text} (h : Reads
      (d + (v * n + Nat.ofDigitChars 10 ds 0 * (n / 10 ^ ds.length))) rest total)
    (hds : ∀ c ∈ ds, c.isDigit = true) (hlength : ds.length ≤ 15) (hne : u ≠ [])
    (hu : ∀ c ∈ u, inUnit c = true) (hrest : ∀ c, rest.head? = some c → inUnit c = false)
    (hunit : unitMap.lookup u = some n) (hn : n < 2 ^ 53) (hdvd : 10 ^ ds.length ∣ n) (hpos : 0 < n)
    (hle : d + (v * n + Nat.ofDigitChars 10 ds 0 * (n / 10 ^ ds.length)) ≤ 2 ^ 63) :
    Reads d (Text.decimal v ++ (fraction ds ++ (u ++ rest))) total := by
  intro fuel hfuel
  have hread := parsePart_append (v := v) hds hlength hne hu hrest hunit hn hdvd hpos
    ((Nat.le_add_left _ d).trans hle)
  obtain ⟨c, s, hcs⟩ := List.exists_cons_of_ne_nil (Text.decimal_ne_nil v)
  have hc : c.isDigit = true := Text.isDigit_of_mem_decimal (hcs ▸ List.mem_cons_self)
  simp only [List.length_append] at hfuel
  rw [hcs] at hread hfuel ⊢
  obtain ⟨fuel, rfl⟩ := Nat.exists_eq_add_one_of_ne_zero (n := fuel) (by
    rw [List.length_cons] at hfuel
    omega)
  rw [List.cons_append] at hread ⊢
  rw [parseParts, if_pos (Or.inr hc), hread]
  simp only [Option.bind_eq_bind, Option.bind_some]
  rw [Nat.mod_eq_of_lt (by omega), if_neg (by omega)]
  refine h fuel ?_
  rw [List.length_cons] at hfuel
  omega

/-- The last part of a duration, with a fraction of `prec` digits. -/
theorem exists_fmtFrac (prec : Nat) (unit : Text) (u : Nat) (hprec : prec ≤ 9) (hne : unit ≠ [])
    (hall : unit.all inUnit = true) (hunit : unitMap.lookup unit = some (10 ^ prec)) :
    ∃ ds, fmtFrac prec u false unit = (fraction ds ++ unit, u / 10 ^ prec) ∧
      ∀ v d, d + (v * 10 ^ prec + u % 10 ^ prec) ≤ 2 ^ 63 →
        Reads d (Text.decimal v ++ (fraction ds ++ unit)) (d + (v * 10 ^ prec + u % 10 ^ prec)) := by
  obtain ⟨ds, hfmt, hds, hlength, hsum⟩ := fmtFrac_spec prec u [] unit nofun
  simp only [List.length_nil, Nat.add_zero, pow_zero, Nat.mul_one, Nat.ofDigitChars_nil] at *
  have hvalue : Nat.ofDigitChars 10 ds 0 * (10 ^ prec / 10 ^ ds.length) = u % 10 ^ prec := by
    rw [Nat.pow_div hlength (by decide), hsum]
  refine ⟨ds, hfmt, fun v d hle => ?_⟩
  rw [← hvalue] at hle ⊢
  have hn : 10 ^ prec < 2 ^ 53 :=
    (Nat.pow_le_pow_right (by decide) hprec).trans_lt (by decide)
  have hpart := (reads_nil _).part hds (by omega) hne (List.all_eq_true.mp hall) nofun hunit hn
    (Nat.pow_dvd_pow 10 hlength) (by positivity) hle
  rwa [List.append_nil] at hpart

theorem head_decimal (n : Nat) (s : Text) :
    ∀ c, (Text.decimal n ++ s).head? = some c → c.isDigit = true := by
  intro c hc
  rw [List.head?_append_of_ne_nil _ (Text.decimal_ne_nil n)] at hc
  exact Text.isDigit_of_mem_decimal (List.mem_of_mem_head? hc)

/-- A part without a fraction in front of others. -/
theorem Reads.whole {d n total : Nat} {c : Char} {rest : Text} (v : Nat)
    (h : Reads (d + v * n) rest total) (hc : inUnit c = true)
    (hrest : ∀ c, rest.head? = some c → c.isDigit = true) (hunit : unitMap.lookup [c] = some n)
    (hn : n < 2 ^ 53) (hpos : 0 < n) (hle : d + v * n ≤ 2 ^ 63) :
    Reads d (Text.decimal v ++ c :: rest) total := by
  have hpart := @Reads.part d v n total [] [c] rest (by simpa using h) nofun (by decide)
    (List.cons_ne_nil c [])
    (by simpa using hc) (fun c hc => by simp [inUnit, hrest c hc]) hunit hn (one_dvd n) hpos
    (by simpa using hle)
  exact hpart

/-- A duration in one unit. -/
theorem reads_fmtInt_fmtFrac (prec : Nat) (unit : Text) {u : Nat} (h : u ≤ 2 ^ 63) (hprec : prec ≤ 9)
    (hne : unit ≠ []) (hall : unit.all inUnit = true)
    (hunit : unitMap.lookup unit = some (10 ^ prec)) :
    Reads 0 (fmtInt (fmtFrac prec u false unit).2 (fmtFrac prec u false unit).1) u := by
  obtain ⟨ds, hfmt, hreads⟩ := exists_fmtFrac prec unit u hprec hne hall hunit
  have hsum : 0 + (u / 10 ^ prec * 10 ^ prec + u % 10 ^ prec) = u := by
    rw [Nat.zero_add, Nat.div_add_mod']
  have hread := hreads (u / 10 ^ prec) 0 (hsum.trans_le h)
  rw [hsum] at hread
  rwa [hfmt]

theorem reads_formatSmall {u : Nat} (h : u < second) : Reads 0 (formatSmall u) u := by
  have hle : u ≤ 2 ^ 63 := h.le.trans (by decide)
  unfold formatSmall
  split_ifs with h0 hmicro hmilli
  · rw [h0]
    exact Reads.whole (n := second) 0 (reads_nil _) (by decide) nofun (by decide) (by decide)
      (by decide) (by decide)
  · exact reads_fmtInt_fmtFrac 0 _ hle (by decide) (by decide) (by decide) (by decide)
  · exact reads_fmtInt_fmtFrac 3 _ hle (by decide) (by decide) (by decide) (by decide)
  · exact reads_fmtInt_fmtFrac 6 _ hle (by decide) (by decide) (by decide) (by decide)

theorem reads_formatLarge {u : Nat} (h : u ≤ 2 ^ 63) : Reads 0 (formatLarge u) u := by
  obtain ⟨ds, hfmt, hreads⟩ := exists_fmtFrac 9 "s".toList u (by decide)
    (by decide) (by decide) (by decide)
  have hmod := Nat.div_add_mod u (10 ^ 9)
  have hseconds := Nat.div_add_mod (u / 10 ^ 9) 60
  have hminutes := Nat.div_add_mod (u / 10 ^ 9 / 60) 60
  have hminute : minute = 60 * 10 ^ 9 := by decide
  have hhour : hour = 3600 * 10 ^ 9 := by decide
  unfold formatLarge
  simp only [hfmt, fmtInt]
  have hlast : ∀ d, d + (u / 10 ^ 9 % 60 * 10 ^ 9 + u % 10 ^ 9) = u → Reads d
      (Text.decimal (u / 10 ^ 9 % 60) ++ (fraction ds ++ "s".toList)) u := by
    intro d hd
    have hread := hreads (u / 10 ^ 9 % 60) d (hd.trans_le h)
    rwa [hd] at hread
  have hhead := head_decimal (u / 10 ^ 9 % 60) (fraction ds ++ "s".toList)
  split_ifs with hm hh
  · refine Reads.whole (n := hour) _ (Reads.whole (n := minute) _ (hlast _ ?_) (by decide) hhead
      (by decide) (by decide) (by decide) ?_) (by decide) (head_decimal _ _) (by decide) (by decide)
      (by decide) ?_
    all_goals
      simp only [hminute, hhour]
      omega
  · refine Reads.whole (n := minute) _ (hlast _ ?_) (by decide) hhead (by decide) (by decide)
      (by decide) ?_
    all_goals
      simp only [hminute]
      omega
  · exact hlast 0 (by omega)

theorem parse_of_isDigit {c : Char} (hc : c.isDigit = true) (s : Text) :
    parse (c :: s) = parseUnsigned false (c :: s) := by
  unfold parse
  split
  · next heq =>
    rw [(List.cons.inj heq).1] at hc
    exact absurd hc (by decide)
  · next heq =>
    rw [(List.cons.inj heq).1] at hc
    exact absurd hc (by decide)
  · rfl

/-- A number without a unit is not read. -/
theorem Reads.ne_zero {s : Text} {u : Nat} (h : Reads 0 s u) : s ≠ ['0'] := by
  rintro rfl
  have hnone : parseParts 1 0 ['0'] = none := by decide
  rw [h 1 le_rfl] at hnone
  cases hnone

theorem parseUnsigned_of_reads {s : Text} {u : Nat} (h : Reads 0 s u) (hne : s ≠ []) :
    parseUnsigned true s = some (-Int64.ofNat u) ∧
      (u < 2 ^ 63 → parseUnsigned false s = some (Int64.ofNat u)) := by
  have hparts := h s.length le_rfl
  constructor
  · simp only [parseUnsigned, if_neg h.ne_zero, if_neg hne, hparts, if_true]
  · intro hu
    simp only [parseUnsigned, if_neg h.ne_zero, if_neg hne, hparts, Bool.false_eq_true, if_false]
    rw [if_neg (by omega)]

theorem exists_formatSmall (u : Nat) : ∃ v s, formatSmall u = Text.decimal v ++ s := by
  unfold formatSmall
  split_ifs
  · exact ⟨0, ['s'], by decide⟩
  all_goals exact ⟨_, _, rfl⟩

theorem exists_formatLarge (u : Nat) : ∃ v s, formatLarge u = Text.decimal v ++ s := by
  simp only [formatLarge, fmtInt]
  split_ifs
  all_goals exact ⟨_, _, rfl⟩

/-- **Round trip.** A duration is read back from its text. -/
theorem parse_format (d : Int64) : parse (format d) = some d := by
  have hle : d.toInt.natAbs ≤ 2 ^ 63 := by
    have := d.le_toInt
    have := d.toInt_lt
    omega
  obtain ⟨s, hs, hreads, v, r, hr⟩ : ∃ s, (if d.toInt.natAbs < second then
      formatSmall d.toInt.natAbs else formatLarge d.toInt.natAbs) = s ∧
        Reads 0 s d.toInt.natAbs ∧ ∃ v r, s = Text.decimal v ++ r := by
    split_ifs with hsmall
    · exact ⟨_, rfl, reads_formatSmall hsmall, exists_formatSmall _⟩
    · exact ⟨_, rfl, reads_formatLarge hle, exists_formatLarge _⟩
  obtain ⟨c, t, hct⟩ := List.exists_cons_of_ne_nil (Text.decimal_ne_nil v)
  have hc : c.isDigit = true := Text.isDigit_of_mem_decimal (hct ▸ List.mem_cons_self)
  rw [hct, List.cons_append] at hr
  have hparse := parseUnsigned_of_reads hreads (hr ▸ List.cons_ne_nil _ _)
  simp only [format, hs]
  have hsign : d < 0 ↔ d.toInt < 0 := Int64.lt_iff_toInt_lt
  split_ifs with hneg
  · rw [parse, hparse.1]
    refine congrArg some (Int64.toInt_inj.mp ?_)
    rw [Int64.toInt_neg_ofNat_of_le hle]
    have := hsign.mp hneg
    omega
  · have hpos : 0 ≤ d.toInt := not_lt.mp fun h => hneg (hsign.mpr h)
    have hlt : d.toInt.natAbs < 2 ^ 63 := by
      have := d.toInt_lt
      omega
    rw [hr, parse_of_isDigit hc, ← hr, hparse.2 hlt]
    refine congrArg some (Int64.toInt_inj.mp ?_)
    rw [Int64.toInt_ofNat_of_lt hlt]
    omega

end Duration
