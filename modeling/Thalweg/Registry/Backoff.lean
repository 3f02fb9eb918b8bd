import Thalweg.Registry.Loader

/-!
# Backoff

A worker waits longer after every failure: the delay starts at `initialBackoff` and is doubled as
long as it is below `maxBackoff`. The doubling is done in 64-bit arithmetic before the comparison,
so that it must not pass the largest duration on its way to `maxBackoff`.

## Main definitions

* `Retry.backoff`: the delay after a number of earlier failures.
* `Retry.InRange`: delays stay between the bounds, do not decrease and reach the greatest.
* `Retry.Reachable`: doubling reaches `maxBackoff` within 64 bits.

## Main results

* `inRange_iff_reachable`.
-/

namespace Thalweg.Registry.Files

namespace Retry

/-- One round of the loop. -/
def double (maxBackoff delay : Int64) : Int64 :=
  let delay := delay * 2
  if maxBackoff < delay then maxBackoff else delay

/-- The loop of `worker.backoff` for at most some rounds. -/
def backoffLoop (maxBackoff : Int64) : Nat → Int64 → Int64
  | 0, delay => delay
  | rounds + 1, delay =>
    if delay < maxBackoff then backoffLoop maxBackoff rounds (double maxBackoff delay) else delay

/-- The delay of `worker.backoff` after a number of earlier failures, which is the number of rounds
with the one failure more that is counted. -/
def backoff (retry : Retry) (failureCount : Nat) : Int64 :=
  backoffLoop retry.maxBackoff failureCount retry.initialBackoff

/-- What the delays are meant to do. -/
structure InRange (retry : Retry) : Prop where
  bounds : ∀ n, retry.initialBackoff ≤ retry.backoff n ∧ retry.backoff n ≤ retry.maxBackoff
  monotone : ∀ m n, m ≤ n → retry.backoff m ≤ retry.backoff n
  reaches : ∃ n, retry.backoff n = retry.maxBackoff

/-- Some doubling of `initialBackoff` is a duration and not below `maxBackoff`. -/
def Reachable (retry : Retry) : Prop :=
  ∃ m : Nat, retry.maxBackoff.toInt ≤ retry.initialBackoff.toInt * 2 ^ m ∧
    retry.initialBackoff.toInt * 2 ^ m < 2 ^ 63

/-! ### Rounds -/

theorem backoffLoop_succ (maxBackoff : Int64) (n : Nat) (delay : Int64) :
    backoffLoop maxBackoff (n + 1) delay =
      if backoffLoop maxBackoff n delay < maxBackoff then
        double maxBackoff (backoffLoop maxBackoff n delay)
      else backoffLoop maxBackoff n delay := by
  induction n generalizing delay with
  | zero => rfl
  | succ n ih =>
    rw [backoffLoop]
    by_cases hlt : delay < maxBackoff
    · rw [if_pos hlt, ih, show backoffLoop maxBackoff (n + 1) delay =
        backoffLoop maxBackoff n (double maxBackoff delay) from if_pos hlt]
    · rw [if_neg hlt, show backoffLoop maxBackoff (n + 1) delay = delay from if_neg hlt, if_neg hlt]

@[simp] theorem backoff_zero (retry : Retry) : retry.backoff 0 = retry.initialBackoff := rfl

theorem backoff_succ (retry : Retry) (n : Nat) : retry.backoff (n + 1) =
    if retry.backoff n < retry.maxBackoff then double retry.maxBackoff (retry.backoff n)
    else retry.backoff n :=
  backoffLoop_succ _ _ _

theorem toInt_mul_two {delay : Int64} (h : 0 ≤ delay.toInt) : (delay * 2).toInt =
    if delay.toInt * 2 < 2 ^ 63 then delay.toInt * 2 else delay.toInt * 2 - 2 ^ 64 := by
  have hlt := delay.toInt_lt
  rw [Int64.toInt_mul, show (2 : Int64).toInt = 2 from rfl, Int.bmod_def]
  split_ifs <;> omega

variable {retry : Retry}

/-- As long as the doublings stay below `maxBackoff` the delay is one of them. -/
theorem toInt_backoff (hpos : 0 < retry.initialBackoff.toInt) {n : Nat}
    (h : retry.initialBackoff.toInt * 2 ^ n < retry.maxBackoff.toInt) :
    (retry.backoff n).toInt = retry.initialBackoff.toInt * 2 ^ n := by
  induction n with
  | zero => simp
  | succ n ih =>
    have hmax := retry.maxBackoff.toInt_lt
    have hnonneg : 0 < retry.initialBackoff.toInt * 2 ^ n := Int.mul_pos hpos (by positivity)
    rw [pow_succ, ← mul_assoc] at h ⊢
    have hn := ih (by omega)
    have hdouble := @toInt_mul_two (retry.backoff n) (by omega)
    rw [hn, if_pos (by omega)] at hdouble
    rw [backoff_succ, if_pos (Int64.lt_iff_toInt_lt.mpr (by omega)), double]
    rw [if_neg fun hlt => ?_, hdouble]
    have := Int64.lt_iff_toInt_lt.mp hlt
    omega

/-- From the first doubling on that is not below `maxBackoff` the delay is `maxBackoff`. -/
theorem backoff_eq_max (hpos : 0 < retry.initialBackoff.toInt)
    (hle : retry.initialBackoff.toInt ≤ retry.maxBackoff.toInt) (hreachable : retry.Reachable)
    {n : Nat} (h : retry.maxBackoff.toInt ≤ retry.initialBackoff.toInt * 2 ^ n) :
    retry.backoff n = retry.maxBackoff := by
  obtain ⟨m, hm, hmlt⟩ := hreachable
  induction n with
  | zero =>
    rw [pow_zero, mul_one] at h
    exact Int64.toInt_inj.mp (le_antisymm hle h)
  | succ n ih =>
    rw [backoff_succ]
    by_cases hn : retry.maxBackoff.toInt ≤ retry.initialBackoff.toInt * 2 ^ n
    · rw [ih hn, if_neg (Int64.lt_irrefl)]
    · have hn := not_le.mp hn
      have hdelay := toInt_backoff hpos hn
      have hnonneg : 0 < retry.initialBackoff.toInt * 2 ^ n := Int.mul_pos hpos (by positivity)
      -- the doubling is not above the one that is a duration
      have hnm : n + 1 ≤ m := by
        by_contra hlt
        have hpow : (2 : Int) ^ m ≤ 2 ^ n := pow_le_pow_right₀ (by decide) (by omega)
        have := Int.mul_le_mul_of_nonneg_left hpow hpos.le
        omega
      have hfits : retry.initialBackoff.toInt * 2 ^ (n + 1) < 2 ^ 63 :=
        (Int.mul_le_mul_of_nonneg_left (pow_le_pow_right₀ (by decide) hnm) hpos.le).trans_lt hmlt
      rw [pow_succ, ← mul_assoc] at h hfits
      have hdouble := @toInt_mul_two (retry.backoff n) (by omega)
      rw [hdelay, if_pos hfits] at hdouble
      rw [if_pos (Int64.lt_iff_toInt_lt.mpr (by omega)), double]
      split_ifs with hlt
      · rfl
      · refine Int64.toInt_inj.mp ?_
        have := mt Int64.lt_iff_toInt_lt.mpr hlt
        omega

/-- A first doubling that is no duration makes the delay negative. -/
theorem toInt_backoff_neg (hpos : 0 < retry.initialBackoff.toInt) {n : Nat}
    (h : retry.initialBackoff.toInt * 2 ^ n < retry.maxBackoff.toInt)
    (hpast : 2 ^ 63 ≤ retry.initialBackoff.toInt * 2 ^ (n + 1)) :
    (retry.backoff (n + 1)).toInt < 0 := by
  have hmax := retry.maxBackoff.toInt_lt
  have hdelay := toInt_backoff hpos h
  rw [pow_succ (2 : Int) n, ← mul_assoc] at hpast
  have hdouble := @toInt_mul_two (retry.backoff n) (by omega)
  rw [hdelay, if_neg (by omega)] at hdouble
  rw [backoff_succ, if_pos (Int64.lt_iff_toInt_lt.mpr (by omega)), double, if_neg fun hlt => ?_]
  · omega
  · have := Int64.lt_iff_toInt_lt.mp hlt
    omega

theorem reachable_of_inRange (hpos : 0 < retry.initialBackoff.toInt) (h : retry.InRange) :
    retry.Reachable := by
  have hmax := retry.maxBackoff.toInt_lt
  have hexists : ∃ n : Nat, retry.maxBackoff.toInt ≤ retry.initialBackoff.toInt * 2 ^ n :=
    ⟨63, by omega⟩
  refine ⟨Nat.find hexists, Nat.find_spec hexists, ?_⟩
  by_contra hpast
  obtain ⟨n, hn⟩ : ∃ n, Nat.find hexists = n + 1 := by
    refine Nat.exists_eq_add_one_of_ne_zero fun hzero => hpast ?_
    rw [hzero, pow_zero, mul_one]
    exact retry.initialBackoff.toInt_lt
  have hbelow := not_le.mp (Nat.find_min hexists (m := n) (by omega))
  rw [hn, not_lt] at hpast
  have hneg := toInt_backoff_neg hpos hbelow hpast
  have hlow := Int64.le_iff_toInt_le.mp (h.bounds (n + 1)).1
  omega

theorem inRange_of_reachable (hpos : 0 < retry.initialBackoff.toInt)
    (hle : retry.initialBackoff.toInt ≤ retry.maxBackoff.toInt) (h : retry.Reachable) :
    retry.InRange := by
  -- a delay is the doubling or the greatest one, whichever is less
  have hdelay : ∀ n, (retry.backoff n).toInt =
      min (retry.initialBackoff.toInt * 2 ^ n) retry.maxBackoff.toInt := by
    intro n
    rcases lt_or_ge (retry.initialBackoff.toInt * 2 ^ n) retry.maxBackoff.toInt with hlt | hge
    · rw [toInt_backoff hpos hlt, min_eq_left hlt.le]
    · rw [backoff_eq_max hpos hle h hge, min_eq_right hge]
  have hmono : ∀ m n, m ≤ n → retry.backoff m ≤ retry.backoff n := by
    intro m n hmn
    have hpow : (2 : Int) ^ m ≤ 2 ^ n := pow_le_pow_right₀ (by decide) hmn
    have hdouble := Int.mul_le_mul_of_nonneg_left hpow hpos.le
    rw [Int64.le_iff_toInt_le, hdelay, hdelay]
    exact min_le_min_right _ hdouble
  refine ⟨fun n => ⟨hmono 0 n n.zero_le, ?_⟩, hmono, ?_⟩
  · rw [Int64.le_iff_toInt_le, hdelay]
    exact min_le_right _ _
  · obtain ⟨m, hm, -⟩ := h
    exact ⟨m, Int64.toInt_inj.mp (by rw [hdelay, min_eq_right hm])⟩

end Retry

/-- **Backoff.** The delays of an accepted definition are in their range exactly if doubling
`initialBackoff` reaches `maxBackoff` within the durations. -/
theorem inRange_iff_reachable {world : World} {d d' : Definition} {registryRoot : Text}
    (h : validateDefinition world d registryRoot = .ok d') :
    d'.spec.retry.InRange ↔ d'.spec.retry.Reachable := by
  obtain ⟨hsame, hpos, hle⟩ := backoff_of_validateDefinition h
  rw [hsame]
  have hpos' : 0 < d.spec.retry.initialBackoff.toInt := Int64.lt_iff_toInt_lt.mp hpos
  exact ⟨Retry.reachable_of_inRange hpos',
    Retry.inRange_of_reachable hpos' (Int64.le_iff_toInt_le.mp hle)⟩

/-- The Source with its defaults. -/
def clockSource : Definition :=
  applyDefaults { clockDefinition with sourceFile := "/r/sources/clock.yaml".toList }

theorem inRange_clockSource :
    ∃ d', validateDefinition clockWorld clockSource "/r".toList = .ok d' ∧ d'.spec.retry.InRange := by
  have hsome : (validateDefinition clockWorld clockSource "/r".toList).toOption.isSome = true := by
    decide +kernel
  obtain ⟨d', hd'⟩ := Option.isSome_iff_exists.mp hsome
  have hok := eq_ok_of_toOption hd'
  refine ⟨d', hok, (inRange_iff_reachable hok).mpr ⟨6, ?_⟩⟩
  rw [(backoff_of_validateDefinition hok).1]
  decide

/-- Backoff from `2 ^ 62` nanoseconds up to the largest duration. -/
def longBackoff : Retry := ⟨"always".toList, 4611686018427387904, 9223372036854775807⟩

theorem not_inRange_longBackoff : ∃ d', validateDefinition clockWorld
      { clockSource with spec := { clockSource.spec with retry := longBackoff } } "/r".toList =
        .ok d' ∧ ¬d'.spec.retry.InRange := by
  have hsome : (validateDefinition clockWorld { clockSource with
      spec := { clockSource.spec with retry := longBackoff } } "/r".toList).toOption.isSome =
        true := by
    decide +kernel
  obtain ⟨d', hd'⟩ := Option.isSome_iff_exists.mp hsome
  have hok := eq_ok_of_toOption hd'
  refine ⟨d', hok, fun h => ?_⟩
  have hlow := (h.bounds 1).1
  rw [(backoff_of_validateDefinition hok).1] at hlow
  exact absurd hlow (by decide)

end Thalweg.Registry.Files
