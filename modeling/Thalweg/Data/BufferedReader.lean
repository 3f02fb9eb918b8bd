import Mathlib.Data.List.Basic
import Mathlib.Tactic.SplitIfs

/-!
# Buffered readers

A reader of a source with a buffer of a fixed size. The source hands over its elements piece by
piece, as much of a piece at a time as there is space for, and tells its end with the last piece or
after it. `readSlice` reads up to a delimiter, and gives what the buffer holds when the buffer is
full or the source has ended before.

What a slice is depends on the unread elements and on the size of the buffer only, however the
source is cut into pieces (`slice_readSlice`).
-/

/-- A source that hands over its elements in pieces. -/
structure Source (α : Type*) where
  pieces : List (List α)
  endsWithLast : Bool
  ne_nil : ∀ piece ∈ pieces, piece ≠ []

namespace Source

variable {α : Type*}

/-- What the source still hands over. -/
def rest (s : Source α) : List α := s.pieces.flatten

/-- A read into a space: what is handed over, whether the end is told with it, and the source
after it. -/
def read (s : Source α) (space : Nat) : List α × Bool × Source α :=
  match h : s.pieces with
  | [] => ([], true, s)
  | piece :: pieces =>
    if hspace : piece.length ≤ space then
      (piece, s.endsWithLast && pieces.isEmpty,
        ⟨pieces, s.endsWithLast, fun p hp => s.ne_nil p (by simp [h, hp])⟩)
    else
      (piece.take space, false,
        ⟨piece.drop space :: pieces, s.endsWithLast, fun p hp => by
          rcases List.mem_cons.mp hp with rfl | hp
          · exact fun hnil => hspace (List.drop_eq_nil_iff.mp hnil)
          · exact s.ne_nil p (by simp [h, hp])⟩)

/-- What a read hands over is the beginning of what the source still has. -/
theorem read_append_rest (s : Source α) (space : Nat) :
    (s.read space).1 ++ (s.read space).2.2.rest = s.rest := by
  unfold read
  split
  · next h => simp [rest, h]
  · next piece pieces h =>
    split_ifs
    · simp [rest, h]
    · simp [rest, h, ← List.append_assoc]

theorem length_read_le (s : Source α) (space : Nat) : (s.read space).1.length ≤ space := by
  unfold read
  split
  · exact Nat.zero_le _
  · split_ifs with hspace
    · exact hspace
    · exact List.length_take_le _ _

theorem rest_of_read_ended {s : Source α} {space : Nat} (h : (s.read space).2.1 = true) :
    (s.read space).2.2.rest = [] := by
  revert h
  unfold read
  split
  · next h => simp [rest, h]
  · split_ifs
    · simp +contextual [rest]
    · nofun

/-- A read hands over something or tells the end. -/
theorem read_progress (s : Source α) {space : Nat} (hspace : 0 < space) :
    (s.read space).1 ≠ [] ∨ (s.read space).2.1 = true := by
  unfold read
  split
  · exact Or.inr rfl
  · next piece pieces h =>
    have hne : piece ≠ [] := s.ne_nil piece (by simp [h])
    split_ifs
    · exact Or.inl hne
    · exact Or.inl (by simp [hne, Nat.pos_iff_ne_zero.mp hspace])

end Source

/-- Why a slice ends without the delimiter. -/
inductive ReadError where
  | bufferFull
  | ended
  deriving DecidableEq

/-- A reader with a buffer. `pending` tells that the end of the source has been met and not been
reported yet. -/
structure BufferedReader (α : Type*) where
  size : Nat
  buffer : List α
  source : Source α
  pending : Bool
  size_pos : 0 < size
  buffer_le : buffer.length ≤ size
  rest_of_pending : pending = true → source.rest = []

namespace BufferedReader

variable {α : Type*}

/-- The elements that are still to be read. -/
def unread (r : BufferedReader α) : List α := r.buffer ++ r.source.rest

/-- Read more of the source into the buffer. -/
def fill (r : BufferedReader α) : BufferedReader α :=
  { r with
    buffer := r.buffer ++ (r.source.read (r.size - r.buffer.length)).1
    source := (r.source.read (r.size - r.buffer.length)).2.2
    pending := (r.source.read (r.size - r.buffer.length)).2.1
    buffer_le := by
      have := r.buffer_le
      have := r.source.length_read_le (r.size - r.buffer.length)
      rw [List.length_append]
      omega
    rest_of_pending := Source.rest_of_read_ended }

/-- Take elements out of the buffer. -/
def discard (r : BufferedReader α) (n : Nat) : BufferedReader α :=
  { r with
    buffer := r.buffer.drop n
    buffer_le := by
      rw [List.length_drop]
      exact Nat.le_trans (Nat.sub_le _ _) r.buffer_le }

/-- Report the end of the source. -/
def report (r : BufferedReader α) : BufferedReader α :=
  { r with pending := false, rest_of_pending := nofun }

@[simp] theorem size_fill (r : BufferedReader α) : r.fill.size = r.size := rfl

@[simp] theorem unread_fill (r : BufferedReader α) : r.fill.unread = r.unread := by
  simp [unread, fill, Source.read_append_rest]

theorem unread_discard (r : BufferedReader α) {n : Nat} (h : n ≤ r.buffer.length) :
    (r.discard n).unread = r.unread.drop n := by
  simp [unread, discard, List.drop_append_of_le_length h]

@[simp] theorem unread_report (r : BufferedReader α) : r.report.unread = r.unread := rfl

/-- What the source still hands over, and the report of its end. -/
def remaining (r : BufferedReader α) : Nat :=
  r.source.rest.length + if r.pending then 0 else 1

theorem remaining_fill_lt {r : BufferedReader α} (hpending : r.pending = false)
    (hfull : r.buffer.length < r.size) : r.fill.remaining < r.remaining := by
  have hread := congrArg List.length
    (r.source.read_append_rest (r.size - r.buffer.length))
  rw [List.length_append] at hread
  have hsource : r.fill.source = (r.source.read (r.size - r.buffer.length)).2.2 := rfl
  rcases r.source.read_progress (Nat.sub_pos_of_lt hfull) with hne | hend
  · have := List.length_pos_iff.mpr hne
    simp only [remaining, hsource, hpending, Bool.false_eq_true, if_false]
    split_ifs <;> omega
  · have hend' : r.fill.pending = true := hend
    simp only [remaining, hsource, hpending, hend', if_true, Bool.false_eq_true, if_false]
    omega

variable [DecidableEq α]

/-- The elements up to the delimiter; the buffer, when it is full or the source has ended before
the delimiter is found. -/
def readSlice (delim : α) (r : BufferedReader α) :
    List α × Option ReadError × BufferedReader α :=
  if delim ∈ r.buffer then
    (r.buffer.take (r.buffer.idxOf delim + 1), none, r.discard (r.buffer.idxOf delim + 1))
  else if r.pending then
    (r.buffer, some .ended, (r.discard r.buffer.length).report)
  else if r.size ≤ r.buffer.length then
    (r.buffer, some .bufferFull, r.discard r.buffer.length)
  else readSlice delim r.fill
termination_by r.remaining
decreasing_by exact remaining_fill_lt (Bool.eq_false_iff.mpr ‹_›) (Nat.not_le.mp ‹_›)

/-- What is read of the unread elements with a buffer of the size, and the reader after it. -/
inductive Slice (delim : α) (size : Nat) (unread : List α) :
    List α × Option ReadError × BufferedReader α → Prop
  | line {w : List α} {r : BufferedReader α} (hw : delim ∉ w)
      (hunread : unread = w ++ delim :: r.unread) : Slice delim size unread (w ++ [delim], none, r)
  | full {w : List α} {r : BufferedReader α} (hw : delim ∉ w) (hlength : w.length = size)
      (hunread : unread = w ++ r.unread) : Slice delim size unread (w, some .bufferFull, r)
  | ended {w : List α} {r : BufferedReader α} (hw : delim ∉ w) (hunread : unread = w)
      (hrest : r.unread = []) : Slice delim size unread (w, some .ended, r)

/-- **Slices.** However the source is cut into pieces, a slice is the unread elements up to the
delimiter, a full buffer of them without the delimiter, or all of them when they have none. -/
theorem slice_readSlice (delim : α) (r : BufferedReader α) :
    Slice delim r.size r.unread (r.readSlice delim) := by
  fun_induction readSlice delim r with
  | case1 r hmem =>
    obtain ⟨w, u, hbuffer, hw⟩ := List.eq_append_cons_of_mem hmem
    have hindex : r.buffer.idxOf delim = w.length := by
      rw [hbuffer, List.idxOf_append_of_notMem hw, List.idxOf_cons_self, Nat.add_zero]
    have hunread : r.unread = w ++ delim :: (u ++ r.source.rest) := by simp [unread, hbuffer]
    have htake : r.buffer.take (w.length + 1) = w ++ [delim] := by
      simp [hbuffer, List.take_append, List.take_of_length_le]
    rw [hindex, htake]
    refine .line hw (hunread.trans ?_)
    rw [unread_discard, hunread]
    · simp [List.drop_append]
    · simp [hbuffer]
  | case2 r hmem hpending =>
    have hunread : r.unread = r.buffer := by simp [unread, r.rest_of_pending hpending]
    have hrest : (r.discard r.buffer.length).report.unread = [] := by
      rw [unread_report, r.unread_discard (Nat.le_refl _), hunread, List.drop_length]
    exact .ended hmem hunread hrest
  | case3 r hmem hpending hfull =>
    refine .full hmem (Nat.le_antisymm r.buffer_le hfull) ?_
    rw [r.unread_discard (Nat.le_refl _), unread, List.drop_left]
  | case4 r hmem hpending hfull ih => rwa [size_fill, unread_fill] at ih

end BufferedReader
