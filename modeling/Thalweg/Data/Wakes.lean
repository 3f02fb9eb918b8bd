import Mathlib.Logic.Function.Basic

/-!
# Wake-ups

Two ways in which some parties wake others up without a message for each occasion.

* `Doorbell`: items are put down for a listener, and a bell that keeps one stroke is rung for it
  afterwards. The listener hears the stroke first and takes all items later.
  `Doorbell.Announced.of_move`: no item waits unannounced.
* `Gate`: a channel that a signal closes and replaces. Entries are posted to a log, and whoever
  posts one signals afterwards. A watcher takes the channel first and looks at the log later.
  `Watch.Noticed.of_move`: for no entry after its look it holds an open channel without a signal to
  come.
-/

/-! ### A bell for a list of items -/

/-- The items that are put down, whether the bell keeps a stroke, whether the listener has heard a
stroke and not yet taken the items, and who has put down an item and not yet rung. -/
structure Doorbell (ι κ : Type*) where
  items : List ι
  rung : Bool
  heard : Bool
  ringing : κ → Option ι

namespace Doorbell

variable {ι κ : Type*} [DecidableEq κ] {b b' : Doorbell ι κ}

/-- The bell is rung for every item, the listener is about to take it, or whoever put it down is
about to ring. -/
def Announced (b : Doorbell ι κ) : Prop :=
  ∀ n ∈ b.items, b.rung = true ∨ b.heard = true ∨ ∃ c, b.ringing c = some n

/-- One move of somebody who puts down an item and rings afterwards, or of the listener. -/
inductive Move (b : Doorbell ι κ) : Doorbell ι κ → Prop where
  | rest : Move b b
  | put {c : κ} {n : ι} {items : List ι} : b.ringing c = none →
      (∀ i ∈ items, i = n ∨ i ∈ b.items) →
      Move b { b with items, ringing := Function.update b.ringing c (some n) }
  | ring (c : κ) : Move b { b with rung := true, ringing := Function.update b.ringing c none }
  | hear : Move b { b with rung := false, heard := true }
  | take : Move b { b with items := [], heard := false }

theorem Announced.of_move (h : Announced b) (hmove : Move b b') : Announced b' := by
  cases hmove with
  | rest => exact h
  | @put c n items hc hitems =>
    intro i hi
    rcases hitems i hi with rfl | hi
    · exact Or.inr (Or.inr ⟨c, Function.update_self c _ b.ringing⟩)
    · refine (h i hi).imp_right (Or.imp_right ?_)
      rintro ⟨d, hd⟩
      refine ⟨d, (Function.update_of_ne ?_ _ _).trans hd⟩
      rintro rfl
      rw [hc] at hd
      cases hd
  | ring c => exact fun _ _ => Or.inl rfl
  | hear => exact fun _ _ => Or.inr (Or.inl rfl)
  | take => exact fun i hi => absurd hi List.not_mem_nil

end Doorbell

/-! ### A channel that is closed and replaced -/

/-- Channels are numbered in the order in which they are made. -/
structure Gate where
  current : Nat
  closed : List Nat
  deriving DecidableEq

namespace Gate

/-- Close the channel and make another one. -/
def signal (g : Gate) : Gate := ⟨g.current + 1, g.current :: g.closed⟩

/-- A channel that was handed out: it is the current one, or it is closed. -/
def Issued (g : Gate) (channel : Nat) : Prop := channel = g.current ∨ channel ∈ g.closed

theorem Issued.mem_closed_signal {g : Gate} {channel : Nat} (h : g.Issued channel) :
    channel ∈ g.signal.closed := by
  rcases h with rfl | h
  · exact List.mem_cons_self
  · exact List.mem_cons_of_mem g.current h

end Gate

/-- The log, the channel, and who has posted an entry and not yet signalled. -/
structure Watch (ε κ : Type*) where
  log : List ε
  gate : Gate
  unsignalled : κ → Option ε

namespace Watch

variable {ε κ : Type*} [DecidableEq κ] {b b' : Watch ε κ} {channel seen : Nat}

/-- For every entry after those that were seen, the channel is closed or a signal is to come. -/
def Noticed (b : Watch ε κ) (channel seen : Nat) : Prop :=
  ∀ e ∈ b.log.drop seen, channel ∈ b.gate.closed ∨ ∃ c, b.unsignalled c = some e

omit [DecidableEq κ] in
theorem noticed_of_length_le (h : b.log.length ≤ seen) : b.Noticed channel seen := by
  intro e he
  rw [List.drop_eq_nil_of_le h] at he
  cases he

/-- One move of somebody who posts an entry and signals afterwards. -/
inductive Move (b : Watch ε κ) : Watch ε κ → Prop where
  | rest : Move b b
  | post {c : κ} {e : ε} : b.unsignalled c = none →
      Move b { b with
        log := b.log ++ [e], unsignalled := Function.update b.unsignalled c (some e) }
  | signal (c : κ) : Move b { b with
      gate := b.gate.signal, unsignalled := Function.update b.unsignalled c none }

theorem issued_of_move (h : b.gate.Issued channel) (hmove : Move b b') :
    b'.gate.Issued channel := by
  cases hmove with
  | rest => exact h
  | post _ => exact h
  | signal c => exact Or.inr h.mem_closed_signal

theorem Noticed.of_move (h : b.Noticed channel seen) (hissued : b.gate.Issued channel)
    (hmove : Move b b') : b'.Noticed channel seen := by
  cases hmove with
  | rest => exact h
  | @post c e hc =>
    intro d hd
    rw [List.drop_append, List.mem_append] at hd
    rcases hd with hd | hd
    · refine (h d hd).imp_right ?_
      rintro ⟨c', hc'⟩
      refine ⟨c', (Function.update_of_ne ?_ _ _).trans hc'⟩
      rintro rfl
      rw [hc] at hc'
      cases hc'
    · obtain rfl := List.mem_singleton.mp (List.mem_of_mem_drop hd)
      exact Or.inr ⟨c, Function.update_self c _ b.unsignalled⟩
  | signal c => exact fun _ _ => Or.inl hissued.mem_closed_signal

end Watch
