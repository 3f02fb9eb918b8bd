import Mathlib.Data.List.Basic
import Mathlib.Data.Nat.Basic
import Mathlib.Order.Basic

/-!
# Consumers of a log

A consumer reads an append-only log in batches. It keeps a cursor into the log and at most one batch
that is handed out and not acknowledged. What it wants of the log may change from one passage to the
next.

## Main definitions

* `LogConsumer.segment`: the entries of a log between two positions.
* `LogConsumer.Passage`: a stretch of the log that a consumer goes through, and what it wants of it.
* `LogConsumer.Step`, `LogConsumer.Run`: the log grows, the consumer skips or takes a stretch, or
  its batch is acknowledged.

## Main results

* `LogConsumer.Run.delivered`: the acknowledged entries followed by those that are handed out are
  what the passages wanted, and the passages cover the log from the first cursor on without gaps.
-/

namespace LogConsumer

variable {α : Type*}

/-! ### Segments -/

/-- The entries of a log after the first `a` of them, up to the `b`-th. -/
def segment (log : List α) (a b : ℕ) : List α := (log.take b).drop a

@[simp] theorem segment_self (log : List α) (a : ℕ) : segment log a a = [] :=
  List.drop_eq_nil_of_le (List.length_take_le a log)

theorem segment_append (log : List α) {a b c : ℕ} (hab : a ≤ b) (hbc : b ≤ c) :
    segment log a b ++ segment log b c = segment log a c := by
  simp only [segment, List.drop_take]
  have hdrop : log.drop b = (log.drop a).drop (b - a) := by
    rw [List.drop_drop, Nat.add_sub_cancel' hab]
  rw [hdrop, ← List.take_add]
  congr 1
  omega

theorem segment_succ {log : List α} {a b : ℕ} {x : α} (hab : a ≤ b) (hx : log[b]? = some x) :
    segment log a (b + 1) = segment log a b ++ [x] := by
  have hlen : b < log.length := (List.getElem?_eq_some_iff.mp hx).1
  rw [segment, List.take_add_one, hx, Option.toList_some, List.drop_append_of_le_length]
  · rfl
  · rw [List.length_take]
    omega

theorem segment_of_prefix {log log' : List α} (h : log <+: log') (a : ℕ) {b : ℕ}
    (hb : b ≤ log.length) : segment log' a b = segment log a b := by
  obtain ⟨rest, rfl⟩ := h
  rw [segment, segment, List.take_append_of_le_length hb]

/-! ### Passages -/

/-- The stretch of the log from a position to another one, and the entries that are wanted of it. -/
structure Passage (α : Type*) where
  after : ℕ
  through : ℕ
  wanted : α → Prop

open Classical in
/-- The entries of a log that the passage wants. -/
noncomputable def Passage.items (p : Passage α) (log : List α) : List α :=
  (segment log p.after p.through).filter fun x => decide (p.wanted x)

theorem Passage.items_of_prefix (p : Passage α) {log log' : List α} (h : log <+: log')
    (hp : p.through ≤ log.length) : p.items log' = p.items log := by
  rw [items, items, segment_of_prefix h _ hp]

theorem Passage.items_append {a b c : ℕ} (hab : a ≤ b) (hbc : b ≤ c) (wanted : α → Prop)
    (log : List α) : Passage.items ⟨a, c, wanted⟩ log =
      Passage.items ⟨a, b, wanted⟩ log ++ Passage.items ⟨b, c, wanted⟩ log := by
  simp only [items, ← segment_append log hab hbc, List.filter_append]

/-- A stretch of which nothing is wanted. -/
theorem Passage.items_of_forall_not {log : List α} {a b : ℕ} {wanted : α → Prop}
    (h : ∀ y ∈ segment log a b, ¬ wanted y) : Passage.items ⟨a, b, wanted⟩ log = [] := by
  simpa [items, List.filter_eq_nil_iff] using h

/-- A stretch of which only the last entry is wanted. -/
theorem Passage.items_succ {log : List α} {a b : ℕ} {wanted : α → Prop} {x : α} (hab : a ≤ b)
    (hx : log[b]? = some x) (h : ∀ y ∈ segment log a b, ¬ wanted y) (hwanted : wanted x) :
    Passage.items ⟨a, b + 1, wanted⟩ log = [x] := by
  have hlast : segment log b (b + 1) = [x] := by
    rw [segment_succ le_rfl hx, segment_self, List.nil_append]
  rw [items_append hab (Nat.le_succ b), items_of_forall_not h, List.nil_append, items, hlast]
  simp [hwanted]

theorem Passage.items_self (a : ℕ) (wanted : α → Prop) (log : List α) :
    Passage.items ⟨a, a, wanted⟩ log = [] := by
  simp [items]

theorem Passage.items_sublist (p : Passage α) (log : List α) :
    (p.items log).Sublist (segment log p.after p.through) :=
  List.filter_sublist

/-- Each passage begins where the one before it ended. -/
def Contiguous : ℕ → List (Passage α) → ℕ → Prop
  | a, [], b => a = b
  | a, p :: ps, b => p.after = a ∧ a ≤ p.through ∧ Contiguous p.through ps b

theorem Contiguous.le {a b : ℕ} {ps : List (Passage α)} (h : Contiguous a ps b) : a ≤ b := by
  induction ps generalizing a with
  | nil => exact Nat.le_of_eq h
  | cons p ps ih => exact h.2.1.trans (ih h.2.2)

theorem Contiguous.append {a b : ℕ} {ps : List (Passage α)} (h : Contiguous a ps b)
    {p : Passage α} (hafter : p.after = b) (hthrough : b ≤ p.through) :
    Contiguous a (ps ++ [p]) p.through := by
  induction ps generalizing a with
  | nil =>
    obtain rfl : a = b := h
    exact ⟨hafter, hthrough, rfl⟩
  | cons q ps ih => exact ⟨h.1, h.2.1, ih h.2.2⟩

theorem Contiguous.through_le {a b : ℕ} {ps : List (Passage α)} (h : Contiguous a ps b)
    {p : Passage α} (hp : p ∈ ps) : p.through ≤ b := by
  induction ps generalizing a with
  | nil => cases hp
  | cons q ps ih =>
    rcases List.mem_cons.mp hp with rfl | hp
    · exact Contiguous.le h.2.2
    · exact ih h.2.2 hp

/-- What contiguous passages want stands in the order of the log, and each entry of it once. -/
theorem Contiguous.sublist {a b : ℕ} {ps : List (Passage α)} (h : Contiguous a ps b)
    (log : List α) : (ps.flatMap (·.items log)).Sublist (segment log a b) := by
  induction ps generalizing a with
  | nil => exact List.nil_sublist _
  | cons p ps ih =>
    obtain ⟨rfl, hle, hrest⟩ := h
    rw [List.flatMap_cons, ← segment_append log hle (Contiguous.le hrest)]
    exact (p.items_sublist log).append (ih hrest)

/-! ### Runs -/

/-- A consumer of a log: its cursor, and the batch that waits for its acknowledgement with the
position behind it. -/
structure State (α : Type*) where
  log : List α
  cursor : ℕ
  pending : Option (ℕ × List α)

/-- How far the consumer has read. -/
def State.reached (σ : State α) : ℕ := (σ.pending.map Prod.fst).getD σ.cursor

/-- What is handed out and not acknowledged. -/
def State.unacknowledged (σ : State α) : List α := (σ.pending.map Prod.snd).getD []

/-- One step of a consumer and its log, with the passage that it makes and the entries that it sees
acknowledged. -/
inductive Step : State α → Passage α → List α → State α → Prop
  | append {log log' : List α} (cursor : ℕ) (pending : Option (ℕ × List α)) (wanted : α → Prop) :
      log <+: log' → Step ⟨log, cursor, pending⟩
        ⟨(State.mk log cursor pending).reached, (State.mk log cursor pending).reached, wanted⟩ []
        ⟨log', cursor, pending⟩
  | skip {log : List α} {p : Passage α} : p.after ≤ p.through → p.through ≤ log.length →
      p.items log = [] → Step ⟨log, p.after, none⟩ p [] ⟨log, p.through, none⟩
  | take {log : List α} {p : Passage α} : p.after ≤ p.through → p.through ≤ log.length →
      Step ⟨log, p.after, none⟩ p [] ⟨log, p.after, some (p.through, p.items log)⟩
  | acknowledge (log : List α) (cursor through : ℕ) (items : List α) (wanted : α → Prop) :
      Step ⟨log, cursor, some (through, items)⟩ ⟨through, through, wanted⟩ items
        ⟨log, through, none⟩

/-- A run of a consumer, with its passages and the entries acknowledged in it. -/
inductive Run (σ₀ : State α) : List (Passage α) → List α → State α → Prop
  | refl : Run σ₀ [] [] σ₀
  | step {σ σ' : State α} {ps : List (Passage α)} {acknowledged : List α} {p : Passage α}
      {items : List α} : Run σ₀ ps acknowledged σ → Step σ p items σ' →
      Run σ₀ (ps ++ [p]) (acknowledged ++ items) σ'

/-- The log only grows, the consumer goes on from where it is and does not pass the end of the
log. -/
theorem Step.goes_on {σ σ' : State α} {p : Passage α} {items : List α} (h : Step σ p items σ')
    (hreached : σ.reached ≤ σ.log.length) :
    σ.log <+: σ'.log ∧ p.after = σ.reached ∧ p.after ≤ p.through ∧ p.through = σ'.reached ∧
      σ'.reached ≤ σ.log.length := by
  cases h with
  | append cursor pending wanted hlog => exact ⟨hlog, rfl, le_rfl, rfl, hreached⟩
  | skip hle hlen => exact ⟨List.prefix_rfl, rfl, hle, rfl, hlen⟩
  | take hle hlen => exact ⟨List.prefix_rfl, rfl, hle, rfl, hlen⟩
  | acknowledge => exact ⟨List.prefix_rfl, rfl, le_rfl, rfl, hreached⟩

/-- What is acknowledged and handed out after a step is what was handed out before it and what the
passage wants. -/
theorem Step.balance {σ σ' : State α} {p : Passage α} {items : List α} (h : Step σ p items σ') :
    items ++ σ'.unacknowledged = σ.unacknowledged ++ p.items σ.log := by
  cases h with
  | append cursor pending wanted =>
    rw [Passage.items_self, List.append_nil]
    rfl
  | skip hle hlen hnil =>
    rw [hnil]
    rfl
  | take => rfl
  | acknowledge => rw [Passage.items_self]; rfl

/-- **Gap-free delivery.** The passages of a run follow each other from the first cursor to the
position that is reached, and the acknowledged entries with those that are handed out are what the
passages want. -/
theorem Run.delivered {log : List α} {cursor : ℕ} {σ : State α} {ps : List (Passage α)}
    {acknowledged : List α} (h : Run ⟨log, cursor, none⟩ ps acknowledged σ)
    (hcursor : cursor ≤ log.length) :
    Contiguous cursor ps σ.reached ∧ σ.reached ≤ σ.log.length ∧
      acknowledged ++ σ.unacknowledged = ps.flatMap (·.items σ.log) := by
  induction h with
  | refl => exact ⟨rfl, hcursor, rfl⟩
  | step hrun hstep ih =>
    next σ σ' ps acknowledged p items =>
    obtain ⟨hcontiguous, hreached, hdelivered⟩ := ih
    obtain ⟨hlog, hafter, hle, hthrough, hlen⟩ := hstep.goes_on hreached
    refine ⟨hthrough ▸ hcontiguous.append hafter (hafter ▸ hle), hlen.trans hlog.length_le, ?_⟩
    have hold : ps.flatMap (·.items σ'.log) = ps.flatMap (·.items σ.log) :=
      List.flatMap_congr fun q hq =>
        q.items_of_prefix hlog ((hcontiguous.through_le hq).trans hreached)
    have hnew : p.items σ'.log = p.items σ.log := p.items_of_prefix hlog (hthrough ▸ hlen)
    calc acknowledged ++ items ++ σ'.unacknowledged
        = acknowledged ++ σ.unacknowledged ++ p.items σ.log := by
          rw [List.append_assoc, hstep.balance, List.append_assoc]
      _ = (ps ++ [p]).flatMap (·.items σ'.log) := by
          rw [hdelivered, List.flatMap_append, hold, List.flatMap_singleton, hnew]

end LogConsumer
