import Thalweg.Data.Json.Basic

/-!
# Hexadecimal text

Bytes are written as two hexadecimal digits each.

* `Hex.encode`, with `Hex.encode_injective`.
-/

namespace Hex

/-- Bytes as hexadecimal digits. -/
def encode (bytes : List UInt8) : Text :=
  bytes.flatMap fun b => [Json.hexDigit (b.toNat / 16), Json.hexDigit (b.toNat % 16)]

theorem hexDigit_inj {m n : Nat} (hm : m < 16) (hn : n < 16)
    (h : Json.hexDigit m = Json.hexDigit n) : m = n := by
  have hall : ∀ m n : Fin 16, Json.hexDigit m = Json.hexDigit n → m = n := by decide
  exact congrArg Fin.val (hall ⟨m, hm⟩ ⟨n, hn⟩ h)

theorem encode_injective : Function.Injective encode := by
  intro bytes bytes' h
  induction bytes generalizing bytes' with
  | nil =>
    cases bytes' with
    | nil => rfl
    | cons b' bytes' => simp [encode] at h
  | cons b bytes ih =>
    cases bytes' with
    | nil => simp [encode] at h
    | cons b' bytes' =>
      simp only [encode, List.flatMap_cons, List.cons_append, List.nil_append,
        List.cons.injEq] at h
      obtain ⟨hhigh, hlow, hrest⟩ := h
      have hb := b.toNat_lt
      have hb' := b'.toNat_lt
      have hdiv := hexDigit_inj (by omega) (by omega) hhigh
      have hmod := hexDigit_inj (by omega) (by omega) hlow
      have heq : b.toNat = b'.toNat := by omega
      rw [UInt8.toNat_inj.mp heq, ih hrest]

end Hex
