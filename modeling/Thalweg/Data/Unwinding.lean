import Mathlib.Data.Option.Basic
import Mathlib.Order.Defs.Unbundled

/-!
# Unwinding

A machine answers inputs one after the other, until an answer ends the session. What single answers
keep, whole sessions keep: a relation of two states under which they answer alike
(`Session.answersAlike`), and a property of what is written with a preorder of the states
(`Session.written`).
-/

namespace Session

variable {σ ι ο ε : Type*}

/-- What is written in answer to inputs, and the error that ends the session. -/
structure Turn (ο ε : Type*) where
  written : List ο
  error : Option ε

/-- Answer inputs until one ends the session. A machine need not return. -/
def session (step : σ → ι → Option (Turn ο ε × σ)) : σ → List ι → Option (Turn ο ε × σ)
  | s, [] => some (⟨[], none⟩, s)
  | s, i :: is =>
    match step s i with
    | none => none
    | some (⟨written, some e⟩, s) => some (⟨written, some e⟩, s)
    | some (⟨written, none⟩, s) =>
      match session step s is with
      | none => none
      | some (turn, s) => some (⟨written ++ turn.written, turn.error⟩, s)

/-- A turn after which the inputs end, with an error perhaps. -/
def Turn.ended (turn : Turn ο ε) (last : Option ε) : Turn ο ε := ⟨turn.written, turn.error.or last⟩

variable {step : σ → ι → Option (Turn ο ε × σ)}

/-! ### Two states -/

/-- The results are equal and leave related states, or there is none on both sides. -/
def Alike {α : Type*} (R : σ → σ → Prop) : Option (α × σ) → Option (α × σ) → Prop :=
  Option.Rel fun a b => a.1 = b.1 ∧ R a.2 b.2

theorem Alike.some {α : Type*} {R : σ → σ → Prop} (a : α) {s t : σ} (h : R s t) :
    Alike R (some (a, s)) (some (a, t)) :=
  Option.Rel.some ⟨rfl, h⟩

theorem Alike.map {α β : Type*} {R : σ → σ → Prop} {r r' : Option (α × σ)} (f : α → β)
    (h : Alike R r r') : Alike R (r.map (Prod.map f id)) (r'.map (Prod.map f id)) := by
  cases h with
  | none => exact Option.Rel.none
  | some h => exact Option.Rel.some ⟨congrArg f h.1, h.2⟩

/-- A result has one alike. -/
theorem Alike.exists_eq_some {α : Type*} {R : σ → σ → Prop} {r r' : Option (α × σ)}
    (h : Alike R r r') : r = none ∧ r' = none ∨
      ∃ a s t, r = Option.some (a, s) ∧ r' = Option.some (a, t) ∧ R s t := by
  cases h with
  | none => exact Or.inl ⟨rfl, rfl⟩
  | @some x y h =>
    obtain ⟨a, s⟩ := x
    obtain ⟨b, t⟩ := y
    obtain ⟨rfl, hst⟩ := h
    exact Or.inr ⟨a, s, t, rfl, rfl, hst⟩

/-- **Unwinding.** If related states answer every input alike, they answer sessions alike. -/
theorem answersAlike {R : σ → σ → Prop} (hstep : ∀ s t i, R s t → Alike R (step s i) (step t i)) :
    ∀ (inputs : List ι) {s t : σ}, R s t → Alike R (session step s inputs) (session step t inputs)
  | [], _, _, h => .some _ h
  | i :: inputs, s, t, h => by
    rcases (hstep s t i h).exists_eq_some with ⟨hs, ht⟩ | ⟨⟨written, error⟩, s', t', hs, ht, h'⟩
    · simp only [session, hs, ht]
      exact .none
    · cases error with
      | some e =>
        simp only [session, hs, ht]
        exact .some _ h'
      | none =>
        simp only [session, hs, ht]
        rcases (answersAlike hstep inputs h').exists_eq_some with ⟨hs, ht⟩ | ⟨turn, s, t, hs, ht, h⟩
        · simp only [hs, ht]
          exact .none
        · simp only [hs, ht]
          exact .some _ h

/-! ### One state -/

/-- If every answer from a state with the invariant `P` leads on in the preorder `K` to one with it,
and what it writes has a property there that the preorder keeps, so does every session. -/
theorem written {P : σ → Prop} {K : σ → σ → Prop} {Q : σ → ο → Prop} (hrefl : ∀ s, K s s)
    (htrans : ∀ s t u, K s t → K t u → K s u) (hkept : ∀ s t o, K s t → Q s o → Q t o)
    (hstep : ∀ s i turn s', P s → step s i = some (turn, s') →
      P s' ∧ K s s' ∧ ∀ o ∈ turn.written, Q s' o) :
    ∀ {inputs : List ι} {s s' : σ} {turn : Turn ο ε}, P s →
      session step s inputs = some (turn, s') → P s' ∧ K s s' ∧ ∀ o ∈ turn.written, Q s' o
  | [], s, s', turn, hs, h => by
    cases h
    exact ⟨hs, hrefl s, nofun⟩
  | i :: inputs, s, s', turn, hs, h => by
    rw [session] at h
    split at h
    · cases h
    · next hi =>
      cases h
      exact hstep s i _ _ hs hi
    · next first s₁ hi =>
      obtain ⟨hs₁, hfirst, hwritten⟩ := hstep s i _ _ hs hi
      split at h
      · cases h
      · next rest s₂ hrest =>
        cases h
        obtain ⟨hs', hlast, hwritten'⟩ := written hrefl htrans hkept hstep hs₁ hrest
        refine ⟨hs', htrans _ _ _ hfirst hlast, fun o ho => ?_⟩
        rcases List.mem_append.mp ho with ho | ho
        · exact hkept _ _ _ hlast (hwritten o ho)
        · exact hwritten' o ho

/-- An answer that ends the session ends it wherever it comes: nothing after it is read. -/
theorem session_append_cons {inputs : List ι} {s t u : σ} {i : ι} {written last : List ο} {e : ε}
    (h : session step s inputs = some (⟨written, none⟩, t))
    (hi : step t i = some (⟨last, some e⟩, u)) (rest : List ι) :
    session step s (inputs ++ i :: rest) = some (⟨written ++ last, some e⟩, u) := by
  induction inputs generalizing s written with
  | nil =>
    cases h
    simp only [List.nil_append, session, hi]
  | cons j inputs ih =>
    rw [session] at h
    rw [List.cons_append, session]
    split at h
    · cases h
    · cases h
    · next first s₁ hj =>
      split at h
      · cases h
      · next turn s₂ hrest =>
        obtain ⟨written', error'⟩ := turn
        cases h
        simp only [ih hrest, List.append_assoc]

end Session
