import Mathlib.Data.List.Basic
import Mathlib.Tactic.SplitIfs

/-!
# Frames of a stream

A stream is cut into frames by separators. `frames p s` are the frames that a separator ends, and
`remainder p s` is what follows the last separator; `p` tells the separators.

The frames of a stream that arrives in two parts are those of the first part and those of its
remainder together with the second part (`frames_append`, `remainder_append`).
-/

namespace Framing

variable {α β : Type*} {p : α → Bool}

/-- The frames that separators end. -/
def frames (p : α → Bool) : List α → List (List α)
  | [] => []
  | a :: s =>
    if p a then [] :: frames p s
    else
      match frames p s with
      | [] => []
      | frame :: rest => (a :: frame) :: rest

/-- What follows the last separator. -/
def remainder (p : α → Bool) : List α → List α
  | [] => []
  | a :: s => if s.any p then remainder p s else if p a then s else a :: s

/-- Every element of the frame is no separator. -/
def IsFrame (p : α → Bool) (frame : List α) : Prop := ∀ a ∈ frame, p a = false

theorem isFrame_nil (p : α → Bool) : IsFrame p [] := List.forall_mem_nil _

theorem IsFrame.any_eq {frame : List α} (h : IsFrame p frame) : frame.any p = false := by
  simpa [IsFrame] using h

theorem frames_of_isFrame {frame : List α} (h : IsFrame p frame) : frames p frame = [] := by
  induction frame with
  | nil => rfl
  | cons a frame ih =>
    obtain ⟨ha, h⟩ := List.forall_mem_cons.mp h
    simp [frames, ha, ih h]

theorem remainder_of_isFrame {frame : List α} (h : IsFrame p frame) :
    remainder p frame = frame := by
  cases frame with
  | nil => rfl
  | cons a frame =>
    obtain ⟨ha, h⟩ := List.forall_mem_cons.mp h
    simp [remainder, IsFrame.any_eq h, ha]

theorem frames_append_cons {frame : List α} (h : IsFrame p frame) {sep : α} (hsep : p sep = true)
    (s : List α) : frames p (frame ++ sep :: s) = frame :: frames p s := by
  induction frame with
  | nil => simp [frames, hsep]
  | cons a frame ih =>
    obtain ⟨ha, h⟩ := List.forall_mem_cons.mp h
    simp [frames, ha, ih h]

theorem remainder_append_cons (s : List α) {sep : α} (hsep : p sep = true) (t : List α) :
    remainder p (s ++ sep :: t) = remainder p t := by
  induction s with
  | nil =>
    by_cases ht : t.any p = true
    · simp [remainder, ht]
    · have hframe : IsFrame p t := by simpa [IsFrame] using ht
      simp [remainder, ht, hsep, remainder_of_isFrame hframe]
  | cons a s ih => simp [remainder, hsep, ih]

/-- **Streams.** A stream is a frame, or it begins with a frame that a separator ends. -/
theorem isFrame_or_exists (p : α → Bool) (s : List α) :
    IsFrame p s ∨ ∃ frame sep t, s = frame ++ sep :: t ∧ IsFrame p frame ∧ p sep = true := by
  induction s with
  | nil => exact Or.inl (isFrame_nil p)
  | cons a s ih =>
    by_cases ha : p a = true
    · exact Or.inr ⟨[], a, s, rfl, isFrame_nil p, ha⟩
    · rw [Bool.not_eq_true] at ha
      rcases ih with h | ⟨frame, sep, t, rfl, h, hsep⟩
      · exact Or.inl (List.forall_mem_cons.mpr ⟨ha, h⟩)
      · exact Or.inr ⟨a :: frame, sep, t, rfl, List.forall_mem_cons.mpr ⟨ha, h⟩, hsep⟩

/-- Induction on the first frame of a stream. -/
theorem frames_induction {P : List α → Prop} (frame : ∀ s, IsFrame p s → P s)
    (append : ∀ s sep t, IsFrame p s → p sep = true → P t → P (s ++ sep :: t)) (s : List α) :
    P s := by
  induction hn : s.length using Nat.strongRecOn generalizing s with
  | _ n ih =>
    rcases isFrame_or_exists p s with h | ⟨first, sep, t, rfl, h, hsep⟩
    · exact frame s h
    · refine append first sep t h hsep (ih t.length ?_ t rfl)
      rw [← hn, List.length_append, List.length_cons]
      omega

theorem isFrame_remainder (p : α → Bool) (s : List α) : IsFrame p (remainder p s) := by
  induction s using frames_induction (p := p) with
  | frame s h => rwa [remainder_of_isFrame h]
  | append s sep t _ hsep ih => rwa [remainder_append_cons s hsep]

theorem mem_of_mem_frames {s frame : List α} (h : frame ∈ frames p s) {a : α} (ha : a ∈ frame) :
    a ∈ s := by
  induction s using frames_induction (p := p) with
  | frame s hs => simp [frames_of_isFrame hs] at h
  | append s sep t hs hsep ih =>
    rw [frames_append_cons hs hsep] at h
    rcases List.mem_cons.mp h with rfl | h
    · exact List.mem_append_left _ ha
    · exact List.mem_append_right _ (List.mem_cons_of_mem _ (ih h))

theorem mem_of_mem_remainder {s : List α} {a : α} (h : a ∈ remainder p s) : a ∈ s := by
  induction s using frames_induction (p := p) with
  | frame s hs => rwa [remainder_of_isFrame hs] at h
  | append s sep t hs hsep ih =>
    rw [remainder_append_cons s hsep] at h
    exact List.mem_append_right _ (List.mem_cons_of_mem _ (ih h))

/-- **Two parts.** The second part goes on with the remainder of the first one. -/
theorem frames_append (s t : List α) :
    frames p (s ++ t) = frames p s ++ frames p (remainder p s ++ t) := by
  induction s using frames_induction (p := p) with
  | frame s h => rw [frames_of_isFrame h, remainder_of_isFrame h, List.nil_append]
  | append s sep u h hsep ih =>
    rw [List.append_assoc, List.cons_append, frames_append_cons h hsep, frames_append_cons h hsep,
      remainder_append_cons s hsep, ih, List.cons_append]

theorem remainder_append (s t : List α) :
    remainder p (s ++ t) = remainder p (remainder p s ++ t) := by
  induction s using frames_induction (p := p) with
  | frame s h => rw [remainder_of_isFrame h]
  | append s sep u h hsep ih =>
    rw [List.append_assoc, List.cons_append, remainder_append_cons s hsep,
      remainder_append_cons s hsep, ih]

/-- Frames of a stream of the images. -/
theorem frames_map (f : α → β) (q : β → Bool) (s : List α) :
    frames q (s.map f) = (frames (fun a => q (f a)) s).map (List.map f) := by
  induction s with
  | nil => rfl
  | cons a s ih =>
    simp only [List.map_cons, frames, ih]
    split_ifs
    · rfl
    · cases frames (fun a => q (f a)) s <;> rfl

theorem remainder_map (f : α → β) (q : β → Bool) (s : List α) :
    remainder q (s.map f) = (remainder (fun a => q (f a)) s).map f := by
  induction s with
  | nil => rfl
  | cons a s ih =>
    simp only [List.map_cons, remainder, ih, List.any_map, Function.comp_def]
    split_ifs <;> rfl

end Framing
