import Mathlib.Data.List.TakeWhile
import Thalweg.SdkPython.Moves

/-!
# The frames of a connection

The stream of a connection is cut into pieces by newlines. The reader processes the pieces that are
not blank, one after the other, up to the first one that is malformed or too long. What it processes
depends on the stream alone and not on the chunks in which the stream arrives.

## Main definitions

* `processable`: the nonblank pieces of a stream before the first one that is too long.
* `Whole`, `Broken`: all frames of the stream have been processed, or they have been processed up to
  one that is malformed or to a piece that is too long.

## Main results

* `Client.readsBuffer_readBuffer`: the reader processes the frames of its buffer in order.
* `Client.keepsAll_of_moves`: what the moves do to the readers of the connections.
* `Client.FramesInOrder.step`: the frames of all connections stay in order in every move.
* `Client.processed_of_run`: a connection processes the frames of its chunks taken together.
-/

namespace Thalweg.SdkPython

/-! ### Pieces of a stream -/

/-- The pieces of a stream that newlines end. -/
def pieces (stream : List UInt8) : List (List UInt8) := Framing.frames isNewline stream

/-- What follows the last newline. -/
def unfinished (stream : List UInt8) : List UInt8 := Framing.remainder isNewline stream

/-- The nonblank pieces before the first piece that is too long. -/
def processable (maximum : Nat) (stream : List UInt8) : List (List UInt8) :=
  ((pieces stream).takeWhile fun piece => decide (piece.length ≤ maximum)).filter
    fun piece => !isBlank piece

/-- No piece is too long, and neither is what follows the last newline. -/
structure Fits (maximum : Nat) (stream : List UInt8) : Prop where
  pieces : ∀ piece ∈ pieces stream, piece.length ≤ maximum
  rest : (unfinished stream).length ≤ maximum

/-- All frames of the stream have been processed. -/
structure Whole (maximum : Nat) (stream : List UInt8) (processed : List (List UInt8 × Bool)) :
    Prop where
  fits : Fits maximum stream
  processed : processed = (processable maximum stream).map fun frame => (frame, true)

/-- The frames have been processed up to the one that is too long or malformed. -/
inductive Broken (maximum : Nat) (stream : List UInt8) : List (List UInt8 × Bool) → Prop
  | tooLong (h : ¬ Fits maximum stream) :
      Broken maximum stream ((processable maximum stream).map fun frame => (frame, true))
  | malformed {earlier : List (List UInt8)} {last : List UInt8}
      (h : earlier ++ [last] <+: processable maximum stream) :
      Broken maximum stream (earlier.map (fun frame => (frame, true)) ++ [(last, false)])

variable {maximum : Nat} {s t : List UInt8} {p q : List (List UInt8 × Bool)}

theorem unfinished_append (s t : List UInt8) :
    unfinished (s ++ t) = unfinished (unfinished s ++ t) := Framing.remainder_append s t

theorem processable_append (h : Fits maximum s) :
    processable maximum (s ++ t) =
      processable maximum s ++ processable maximum (unfinished s ++ t) := by
  have hall : ∀ piece ∈ pieces s, decide (piece.length ≤ maximum) = true := fun piece hpiece =>
    decide_eq_true (h.pieces piece hpiece)
  simp only [processable, pieces, unfinished] at hall ⊢
  rw [Framing.frames_append, List.takeWhile_append_of_pos hall, List.filter_append,
    List.takeWhile_eq_self_iff.mpr hall]

theorem fits_append_iff (h : Fits maximum s) :
    Fits maximum (s ++ t) ↔ Fits maximum (unfinished s ++ t) := by
  have hpieces : pieces (s ++ t) = pieces s ++ pieces (unfinished s ++ t) :=
    Framing.frames_append s t
  have hrest := unfinished_append s t
  constructor
  · intro hall
    refine ⟨fun piece hpiece => hall.pieces piece ?_, hrest ▸ hall.rest⟩
    rw [hpieces]
    exact List.mem_append_right _ hpiece
  · intro hall
    refine ⟨fun piece hpiece => ?_, hrest ▸ hall.rest⟩
    rw [hpieces] at hpiece
    exact (List.mem_append.mp hpiece).elim (h.pieces piece) (hall.pieces piece)

/-- What has been processed of a longer stream. -/
theorem Whole.append (h : Whole maximum s p) (hq : Whole maximum (unfinished s ++ t) q) :
    Whole maximum (s ++ t) (p ++ q) := by
  refine ⟨(fits_append_iff h.fits).mpr hq.fits, ?_⟩
  rw [processable_append h.fits, List.map_append, ← h.processed, ← hq.processed]

theorem Whole.broken_append (h : Whole maximum s p)
    (hq : Broken maximum (unfinished s ++ t) q) : Broken maximum (s ++ t) (p ++ q) := by
  have happend := processable_append (t := t) h.fits
  cases hq with
  | tooLong hlong =>
    rw [h.processed, ← List.map_append, ← happend]
    exact .tooLong fun hall => hlong ((fits_append_iff h.fits).mp hall)
  | @malformed earlier last hbegins =>
    rw [h.processed, ← List.append_assoc, ← List.map_append]
    refine .malformed ?_
    rw [happend, List.append_assoc]
    exact (List.prefix_append_right_inj _).mpr hbegins

/-- The frames of a stream are processed in a longer stream as well. -/
theorem processable_prefix_append (maximum : Nat) (s t : List UInt8) :
    processable maximum s <+: processable maximum (s ++ t) := by
  unfold processable pieces
  rw [Framing.frames_append, List.takeWhile_append]
  refine List.IsPrefix.filter _ ?_
  split_ifs
  · refine List.IsPrefix.trans ?_ (List.prefix_append _ _)
    exact List.takeWhile_prefix _
  · exact List.prefix_rfl

/-! ### The buffer -/

theorem takeFrame_of_isFrame {buffer : List UInt8} (h : Framing.IsFrame isNewline buffer) :
    Client.takeFrame buffer = none := by
  have hdrop : buffer.dropWhile (fun b => !isNewline b) = [] := by
    rw [List.dropWhile_eq_nil_iff]
    intro b hb
    rw [h b hb]
    rfl
  rw [Client.takeFrame, hdrop]

theorem takeFrame_append {frame rest : List UInt8} {sep : UInt8}
    (h : Framing.IsFrame isNewline frame) (hsep : isNewline sep = true) :
    Client.takeFrame (frame ++ sep :: rest) = some (frame, rest) := by
  have hall : ∀ b ∈ frame, (!isNewline b) = true := fun b hb => by rw [h b hb]; rfl
  rw [Client.takeFrame, List.dropWhile_append_of_pos hall, List.takeWhile_append_of_pos hall]
  simp [hsep]

/-- A buffer without a newline. -/
theorem pieces_of_isFrame {buffer : List UInt8} (h : Framing.IsFrame isNewline buffer) :
    pieces buffer = [] ∧ unfinished buffer = buffer :=
  ⟨Framing.frames_of_isFrame h, Framing.remainder_of_isFrame h⟩

theorem whole_of_isFrame {buffer : List UInt8} (h : Framing.IsFrame isNewline buffer)
    (hlength : buffer.length ≤ maximum) : Whole maximum buffer [] := by
  obtain ⟨hpieces, hrest⟩ := pieces_of_isFrame h
  refine ⟨⟨?_, ?_⟩, ?_⟩
  · rw [hpieces]
    exact List.forall_mem_nil _
  · rwa [hrest]
  · rw [processable, hpieces]
    rfl

theorem broken_of_isFrame {buffer : List UInt8} (h : Framing.IsFrame isNewline buffer)
    (hlength : maximum < buffer.length) : Broken maximum buffer [] := by
  obtain ⟨hpieces, hrest⟩ := pieces_of_isFrame h
  have hlong : ¬ Fits maximum buffer := fun hfits => by
    have := hfits.rest
    rw [hrest] at this
    omega
  have hbroken := Broken.tooLong hlong
  rwa [processable, hpieces] at hbroken

theorem pieces_frame {frame : List UInt8} {sep : UInt8} (h : Framing.IsFrame isNewline frame)
    (hsep : isNewline sep = true) (rest : List UInt8) :
    pieces (frame ++ sep :: rest) = frame :: pieces rest ∧
      unfinished (frame ++ sep :: rest) = unfinished rest :=
  ⟨Framing.frames_append_cons h hsep rest, Framing.remainder_append_cons frame hsep rest⟩

theorem processable_frame {frame : List UInt8} {sep : UInt8} (h : Framing.IsFrame isNewline frame)
    (hsep : isNewline sep = true) (rest : List UInt8) :
    processable maximum (frame ++ sep :: rest) =
      if frame.length ≤ maximum then
        (if isBlank frame then [] else [frame]) ++ processable maximum rest
      else [] := by
  rw [processable, (pieces_frame h hsep rest).1, List.takeWhile_cons]
  by_cases hlength : frame.length ≤ maximum
  · rw [if_pos (decide_eq_true hlength), if_pos hlength, List.filter_cons]
    cases isBlank frame <;> rfl
  · simp [hlength]

/-- A frame that is not too long, and nothing after its newline. -/
theorem whole_frame {frame : List UInt8} {sep : UInt8} (h : Framing.IsFrame isNewline frame)
    (hsep : isNewline sep = true) (hlength : frame.length ≤ maximum) :
    Whole maximum (frame ++ [sep]) (if isBlank frame then [] else [(frame, true)]) := by
  obtain ⟨hpieces, hrest⟩ := pieces_frame h hsep []
  refine ⟨⟨?_, ?_⟩, ?_⟩
  · rw [hpieces]
    exact List.forall_mem_singleton.mpr hlength
  · rw [hrest]
    exact Nat.zero_le _
  · have hnil : processable maximum [] = [] := rfl
    rw [processable_frame h hsep, if_pos hlength, hnil, List.append_nil]
    cases isBlank frame <;> rfl

theorem broken_frame {frame : List UInt8} {sep : UInt8} (h : Framing.IsFrame isNewline frame)
    (hsep : isNewline sep = true) (hlength : maximum < frame.length) (rest : List UInt8) :
    Broken maximum (frame ++ sep :: rest) [] := by
  obtain ⟨hpieces, -⟩ := pieces_frame h hsep rest
  have hlong : ¬ Fits maximum (frame ++ sep :: rest) := fun hfits => by
    have := hfits.pieces frame (hpieces ▸ List.mem_cons_self)
    omega
  have hbroken := Broken.tooLong hlong
  rwa [processable_frame h hsep, if_neg (by omega)] at hbroken

theorem broken_malformed {frame : List UInt8} {sep : UInt8} (h : Framing.IsFrame isNewline frame)
    (hsep : isNewline sep = true) (hlength : frame.length ≤ maximum)
    (hblank : isBlank frame = false) (rest : List UInt8) :
    Broken maximum (frame ++ sep :: rest) [(frame, false)] := by
  refine @Broken.malformed _ _ [] frame ?_
  rw [processable_frame h hsep, if_pos hlength, hblank]
  exact ⟨_, rfl⟩

namespace Client

theorem connections_setFuture (c : Client) (k r : Nat) (outcome : Outcome) :
    (c.setFuture k r outcome).1.connections = c.connections := by
  unfold setFuture
  split_ifs <;> rfl

theorem connections_processFrame (env : Environment) (c : Client) (k : Nat)
    (frame : List UInt8) : (c.processFrame env k frame).1.connections = c.connections := by
  unfold processFrame
  split
  · rfl
  · exact (quiet_dispatchEvent env c _ _).connections
  · split
    · rfl
    · split_ifs
      · exact connections_setFuture _ _ _ _
      · split
        · rfl
        · exact connections_setFuture _ _ _ _

/-- What the reader does with a buffer: it notes the frames that it processes, and it ends unless
all of them could be processed. -/
def ReadsBuffer (env : Environment) (c : Client) (k : Nat) (buffer : List UInt8)
    (result : Client × Except SdkError (List UInt8)) : Prop :=
  ∃ processed,
    result.1.connections = c.connections.modify k (fun connection =>
      { connection with processed := connection.processed ++ processed }) ∧
    match result.2 with
    | .ok rest => Whole env.maxResponseBytes buffer processed ∧ rest = unfinished buffer
    | .error _ => Broken env.maxResponseBytes buffer processed

theorem readsBuffer_of_eq {env : Environment} {c c' : Client} {k : Nat} {buffer : List UInt8}
    {result : Except SdkError (List UInt8)} (hconnections : c'.connections = c.connections)
    (hresult : match result with
      | .ok rest => Whole env.maxResponseBytes buffer [] ∧ rest = unfinished buffer
      | .error _ => Broken env.maxResponseBytes buffer []) :
    ReadsBuffer env c k buffer (c', result) := by
  refine ⟨[], ?_, hresult⟩
  have hid : (fun connection : Connection =>
      { connection with processed := connection.processed ++ [] }) = id := by
    funext connection
    simp
  rw [hid, List.modify_id]
  exact hconnections

/-- The first frame of a buffer has been processed, and then the rest of it. -/
theorem ReadsBuffer.cons {env : Environment} {c c' : Client} {k : Nat} {frame rest : List UInt8}
    {sep : UInt8} {first : List (List UInt8 × Bool)}
    {result : Client × Except SdkError (List UInt8)}
    (hfirst : Whole env.maxResponseBytes (frame ++ [sep]) first)
    (hsplit : unfinished (frame ++ [sep]) = [])
    (hconnections : c'.connections = c.connections.modify k (fun connection =>
      { connection with processed := connection.processed ++ first }))
    (h : ReadsBuffer env c' k rest result) :
    ReadsBuffer env c k (frame ++ sep :: rest) result := by
  obtain ⟨processed, hprocessed, hresult⟩ := h
  have hbuffer : frame ++ sep :: rest = (frame ++ [sep]) ++ rest := by simp
  refine ⟨first ++ processed, ?_, ?_⟩
  · rw [hprocessed, hconnections, List.modify_modify_eq]
    simp only [Function.comp_def, List.append_assoc]
  · rw [hbuffer]
    cases hend : result.2 with
    | ok left =>
      simp only [hend] at hresult ⊢
      refine ⟨hfirst.append (by rw [hsplit]; exact hresult.1), ?_⟩
      rw [hresult.2, unfinished_append, hsplit]
      rfl
    | error error =>
      simp only [hend] at hresult ⊢
      exact hfirst.broken_append (by rw [hsplit]; exact hresult)

theorem readsBuffer_readBuffer (env : Environment) (k fuel : Nat) (c : Client)
    (buffer : List UInt8) (hfuel : buffer.length < fuel) :
    ReadsBuffer env c k buffer (readBuffer env k fuel c buffer) := by
  induction fuel generalizing c buffer with
  | zero => omega
  | succ fuel ih =>
    rcases Framing.isFrame_or_exists isNewline buffer with
      hframe | ⟨frame, sep, rest, rfl, hframe, hsep⟩
    · rw [readBuffer, takeFrame_of_isFrame hframe]
      dsimp only
      split_ifs with hlong
      · exact readsBuffer_of_eq rfl (broken_of_isFrame hframe hlong)
      · exact readsBuffer_of_eq rfl
          ⟨whole_of_isFrame hframe (Nat.not_lt.mp hlong), (pieces_of_isFrame hframe).2.symm⟩
    · rw [readBuffer, takeFrame_append hframe hsep]
      dsimp only
      have hrest : rest.length < fuel := by
        simp only [List.length_append, List.length_cons] at hfuel
        omega
      have hsplit : unfinished (frame ++ [sep]) = [] := (pieces_frame hframe hsep []).2
      by_cases hlong : env.maxResponseBytes < frame.length
      · rw [if_pos hlong]
        exact readsBuffer_of_eq rfl (broken_frame hframe hsep hlong rest)
      rw [if_neg hlong]
      have hfirst := whole_frame hframe hsep (Nat.not_lt.mp hlong)
      by_cases hblank : isBlank frame = true
      · rw [if_pos hblank] at hfirst ⊢
        refine ReadsBuffer.cons hfirst hsplit ?_ (ih c rest hrest)
        have hid : (fun connection : Connection =>
            { connection with processed := connection.processed ++ [] }) = id := by
          funext connection
          simp
        rw [hid, List.modify_id]
      · rw [if_neg hblank] at hfirst ⊢
        have hconnections := connections_processFrame env c k frame
        cases hprocess : c.processFrame env k frame with
        | mk c' failure =>
          rw [hprocess] at hconnections
          cases failure with
          | none =>
            refine ReadsBuffer.cons hfirst hsplit ?_ (ih (c'.note k frame true) rest hrest)
            rw [note, connections_modifyConnection, hconnections]
          | some error =>
            refine ⟨[(frame, false)], ?_, broken_malformed hframe hsep (Nat.not_lt.mp hlong)
              (by simpa using hblank) rest⟩
            rw [← hconnections]
            rfl

end Client

/-! ### The frames of all connections -/

/-- The frames of the stream have been processed in order, up to the first one that is malformed or
too long. -/
def Connection.InOrder (maximum : Nat) (connection : Connection) : Prop :=
  if connection.reader = .failed then Broken maximum connection.stream connection.processed
  else Whole maximum connection.stream connection.processed

/-- What has been processed are the first frames of the stream, whatever follows. -/
theorem Connection.InOrder.first {connection : Connection} (h : connection.InOrder maximum)
    (rest : List UInt8) :
    connection.processed.map Prod.fst <+: processable maximum (connection.stream ++ rest) := by
  have hframes : ∀ frames : List (List UInt8),
      (frames.map fun frame => (frame, true)).map Prod.fst = frames := fun frames => by
    rw [List.map_map, Function.comp_def, List.map_id']
  refine List.IsPrefix.trans ?_ (processable_prefix_append maximum connection.stream rest)
  unfold InOrder at h
  split_ifs at h
  · generalize connection.processed = processed at h
    cases h with
    | tooLong =>
      simp only [hframes]
      exact List.prefix_rfl
    | malformed hbegins =>
      rw [List.map_append, hframes]
      exact hbegins
  · rw [h.processed, hframes]

/-- The buffer of a reader is what follows the last newline that it has read. -/
structure Connection.Sound (maximum : Nat) (connection : Connection) : Prop where
  inOrder : connection.InOrder maximum
  buffer : connection.reader = .reading → connection.buffer = unfinished connection.stream

theorem Connection.sound_new (maximum : Nat) : Connection.new.Sound maximum := by
  refine ⟨?_, fun _ => rfl⟩
  rw [InOrder, if_neg (by decide)]
  exact whole_of_isFrame (Framing.isFrame_nil _) (Nat.zero_le _)

/-- The reader goes on as it was, or it ends without an error in what it has read. -/
structure Connection.Keeps (x y : Connection) : Prop where
  stream : y.stream = x.stream
  processed : y.processed = x.processed
  reader : y.reader = x.reader ∧ y.buffer = x.buffer ∨
    x.reader = .reading ∧ (y.reader = .ended ∨ y.reader = .cancelled)

theorem Connection.Keeps.refl (x : Connection) : x.Keeps x := ⟨rfl, rfl, Or.inl ⟨rfl, rfl⟩⟩

theorem Connection.Keeps.trans {x y z : Connection} (h : x.Keeps y) (h' : y.Keeps z) :
    x.Keeps z := by
  refine ⟨h'.stream.trans h.stream, h'.processed.trans h.processed, ?_⟩
  rcases h.reader with ⟨hreader, hbuffer⟩ | ⟨hreading, hended⟩
  · rcases h'.reader with ⟨hreader', hbuffer'⟩ | ⟨hreading', hended'⟩
    · exact Or.inl ⟨hreader'.trans hreader, hbuffer'.trans hbuffer⟩
    · exact Or.inr ⟨hreader.symm.trans hreading', hended'⟩
  · rcases h'.reader with ⟨hreader', -⟩ | ⟨hreading', -⟩
    · exact Or.inr ⟨hreading, hreader' ▸ hended⟩
    · rcases hended with hended | hended <;> simp [hreading'] at hended

theorem Connection.Sound.keeps {x y : Connection} (h : x.Sound maximum) (hkeeps : x.Keeps y) :
    y.Sound maximum := by
  obtain ⟨hinOrder, hbuffer⟩ := h
  rw [InOrder] at hinOrder
  rcases hkeeps.reader with ⟨hreader, hbuf⟩ | ⟨hreading, hended⟩
  · refine ⟨?_, fun hreading => ?_⟩
    · rwa [InOrder, hreader, hkeeps.stream, hkeeps.processed]
    · rw [hbuf, hkeeps.stream]
      exact hbuffer (hreader ▸ hreading)
  · rw [if_neg (by simp [hreading])] at hinOrder
    refine ⟨?_, fun hreading' => ?_⟩
    · rw [InOrder, if_neg (by rcases hended with hended | hended <;> simp [hended]), hkeeps.stream,
        hkeeps.processed]
      exact hinOrder
    · rcases hended with hended | hended <;> simp [hended] at hreading'

namespace Client

/-- The frames of every connection are processed in order. -/
def FramesInOrder (maximum : Nat) (c : Client) : Prop :=
  ∀ connection ∈ c.connections, connection.Sound maximum

/-- The readers of the connections go on as they were or end. -/
def KeepsAll (connections connections' : List Connection) : Prop :=
  List.Forall₂ Connection.Keeps connections connections'

theorem keepsAll_refl (connections : List Connection) : KeepsAll connections connections :=
  List.forall₂_same.mpr fun x _ => .refl x

theorem KeepsAll.trans {connections connections' connections'' : List Connection}
    (h : KeepsAll connections connections') (h' : KeepsAll connections' connections'') :
    KeepsAll connections connections'' := by
  refine List.forall₂_iff_get.mpr ⟨h.length_eq.trans h'.length_eq, fun i hi hi'' => ?_⟩
  have hi' := hi.trans_eq h.length_eq
  exact ((List.forall₂_iff_get.mp h).2 i hi hi').trans ((List.forall₂_iff_get.mp h').2 i hi' hi'')

theorem keepsAll_modify {f : Connection → Connection} : ∀ {connections : List Connection} {k : Nat},
    (∀ x, connections[k]? = some x → x.Keeps (f x)) → KeepsAll connections (connections.modify k f)
  | [], _, _ => by rw [List.modify_nil]; exact .nil
  | x :: connections, 0, h => .cons (h x rfl) (keepsAll_refl connections)
  | x :: connections, k + 1, h => .cons (.refl x) (keepsAll_modify h)

theorem keepsAll_abort (c : Client) (error : SdkError) (k : Nat) :
    KeepsAll c.connections (c.abortConnection error k).connections := by
  unfold abortConnection
  split_ifs
  · rw [(fails_failWaiters _ error).connections]
    exact keepsAll_modify fun x _ => ⟨rfl, rfl, Or.inl ⟨rfl, rfl⟩⟩
  · exact keepsAll_refl _

theorem forall_mem_modify {α : Type*} {P : α → Prop} {l : List α} (h : ∀ a ∈ l, P a) {k : Nat}
    {f : α → α} (hf : ∀ a, l[k]? = some a → P a → P (f a)) : ∀ a ∈ l.modify k f, P a := by
  intro a ha
  obtain ⟨j, hj⟩ := List.mem_iff_getElem?.mp ha
  by_cases hkj : k = j
  · subst hkj
    rw [List.getElem?_modify_eq] at hj
    obtain ⟨b, hb, rfl⟩ := Option.map_eq_some_iff.mp hj
    exact hf b hb (h b (List.mem_of_getElem? hb))
  · rw [List.getElem?_modify_ne _ _ hkj] at hj
    exact h a (List.mem_of_getElem? hj)

theorem KeepsAll.sound {connections connections' : List Connection}
    (hkeeps : KeepsAll connections connections') (h : ∀ x ∈ connections, x.Sound maximum) :
    ∀ y ∈ connections', y.Sound maximum := by
  intro y hy
  obtain ⟨i, hi, rfl⟩ := List.mem_iff_getElem.mp hy
  have hi' := hi.trans_eq hkeeps.length_eq.symm
  exact (h _ (List.getElem_mem hi')).keeps ((List.forall₂_iff_get.mp hkeeps).2 i hi' hi)

theorem connections_settle (c : Client) (r : Nat) (request : Request) (outcome : Outcome) :
    (c.settle r request outcome).connections = c.connections := by
  unfold settle
  dsimp only
  split
  · exact (quiet_register _ _ _ _).connections
  · rfl
  · rfl
  · rfl

theorem connections_failWrite (c : Client) (r : Nat) (request : Request) (error : SdkError) :
    (c.failWrite r request error).connections = c.connections := by
  unfold failWrite
  rw [connections_settle]
  split
  · rfl
  · split <;> rfl

theorem connections_giveUp (c : Client) (r : Nat) (request : Request) (error : SdkError) :
    (c.giveUp r request error).connections = c.connections := by
  unfold giveUp
  rw [connections_settle]
  cases request.id <;> rfl

/-- The reader reads a chunk: the stream goes on, and the connections go on or end. -/
theorem exists_of_read (env : Environment) (c : Client) {k : Nat} {connection : Connection}
    (hreading : connection.reader = .reading) (chunk : List UInt8) :
    ∃ f : Connection → Connection, (∀ x, (f x).stream = x.stream ++ chunk) ∧
      (connection.Sound env.maxResponseBytes → (f connection).Sound env.maxResponseBytes) ∧
      KeepsAll (c.connections.modify k f) (c.read env k connection chunk).connections := by
  obtain ⟨processed, hconnections, hresult⟩ := readsBuffer_readBuffer env k
    ((connection.buffer ++ chunk).length + 1)
    (c.modifyConnection k fun connection =>
      { connection with stream := connection.stream ++ chunk })
    (connection.buffer ++ chunk) (Nat.lt_succ_self _)
  rw [connections_modifyConnection, List.modify_modify_eq] at hconnections
  have hwhole (h : connection.Sound env.maxResponseBytes) :
      Whole env.maxResponseBytes connection.stream connection.processed := by
    have hinOrder := h.inOrder
    rwa [Connection.InOrder, if_neg (by simp [hreading])] at hinOrder
  unfold Client.read
  dsimp only
  split
  · next c' rest heq =>
    rw [heq] at hconnections hresult
    dsimp only at hconnections hresult
    obtain ⟨hprocessed, hrest⟩ := hresult
    rw [connections_modifyConnection, hconnections, List.modify_modify_eq]
    refine ⟨_, fun x => rfl, fun h => ⟨?_, fun _ => ?_⟩, keepsAll_refl _⟩
    · rw [Connection.InOrder, if_neg (by simp [hreading])]
      exact (hwhole h).append (by rw [← h.buffer hreading]; exact hprocessed)
    · show rest = unfinished (connection.stream ++ chunk)
      rw [hrest, h.buffer hreading, ← unfinished_append]
  · next c' error heq =>
    rw [heq] at hconnections hresult
    dsimp only at hconnections hresult
    have habort := keepsAll_abort (c'.modifyConnection k fun connection =>
      { connection with reader := .failed }) error k
    rw [connections_modifyConnection, hconnections, List.modify_modify_eq] at habort
    refine ⟨_, fun x => rfl, fun h => ⟨?_, fun hreading' => absurd hreading' (by simp)⟩, habort⟩
    simp only [Connection.InOrder, Function.comp_apply, if_true]
    exact (hwhole h).broken_append (by rw [← h.buffer hreading]; exact hresult)

theorem framesInOrder_new (maximum : Nat) : FramesInOrder maximum new := List.forall_mem_nil _

theorem keepsAll_endReader (c : Client) {k : Nat} {connection : Connection}
    (hk : c.connections[k]? = some connection) (hreading : connection.reader = .reading)
    (error : SdkError) : KeepsAll c.connections (c.endReader k error).connections := by
  have habort := keepsAll_abort (c.modifyConnection k fun connection =>
    { connection with reader := .ended }) error k
  refine KeepsAll.trans (keepsAll_modify fun x hx => ?_) habort
  obtain rfl := Option.some.inj (hk.symm.trans hx)
  exact ⟨rfl, rfl, Or.inr ⟨hreading, Or.inl rfl⟩⟩

theorem keepsAll_close (c : Client) : KeepsAll c.connections c.close.connections := by
  have hfailed : (failWaiters { c with closed := true } closedError).connections = c.connections :=
    (fails_failWaiters _ _).connections
  unfold Client.close
  dsimp only
  split
  · rw [hfailed]
    exact keepsAll_refl _
  · rw [connections_modifyConnection, hfailed]
    refine keepsAll_modify fun x _ => ⟨rfl, rfl, ?_⟩
    by_cases hreading : x.reader = .reading
    · exact Or.inr ⟨hreading, Or.inr (if_pos hreading)⟩
    · exact Or.inl ⟨if_neg hreading, rfl⟩

/-- All moves but the reading of a chunk leave the readers as they are or end them; one opens a
connection. -/
theorem keepsAll_of_moves {env : Environment} {c c' : Client} {a : ClientAction}
    (h : Moves env c a c') (hread : ∀ k chunk, a ≠ .read k chunk) :
    ∃ connections, KeepsAll c.connections connections ∧
      (c'.connections = connections ∨ c'.connections = connections ++ [.new]) := by
  have hsame : c'.connections = c.connections → ∃ connections,
      KeepsAll c.connections connections ∧
        (c'.connections = connections ∨ c'.connections = connections ++ [.new]) :=
    fun heq => ⟨_, keepsAll_refl _, Or.inl heq⟩
  have hkeeps : KeepsAll c.connections c'.connections → ∃ connections,
      KeepsAll c.connections connections ∧
        (c'.connections = connections ∨ c'.connections = connections ++ [.new]) :=
    fun hall => ⟨_, hall, Or.inl rfl⟩
  cases h with
  | read chunk hk hreading => exact absurd rfl (hread _ _)
  | endOfFile hk hreading => exact hkeeps (keepsAll_endReader c hk hreading _)
  | readFailed message hk hreading => exact hkeeps (keepsAll_endReader c hk hreading _)
  | lost hk => exact hkeeps (keepsAll_modify fun x _ => ⟨rfl, rfl, Or.inl ⟨rfl, rfl⟩⟩)
  | close => exact hkeeps (keepsAll_close c)
  | opened hr hphase => exact ⟨_, keepsAll_refl _, Or.inr rfl⟩
  | @write r request encoded hr hphase =>
    unfold Client.write
    split
    · next k _ =>
      split_ifs
      · exact ⟨c.connections.modify k fun connection =>
          { connection with written := connection.written ++ [encoded] },
          keepsAll_modify fun x _ => ⟨rfl, rfl, Or.inl ⟨rfl, rfl⟩⟩, Or.inl rfl⟩
      · exact ⟨_, keepsAll_refl _, Or.inl (connections_failWrite _ _ _ _)⟩
    · exact ⟨_, keepsAll_refl _, Or.inl (connections_failWrite _ _ _ _)⟩
  | drainFailed message hr hphase =>
    exact ⟨_, keepsAll_abort _ _ _, Or.inl (connections_failWrite _ _ _ _)⟩
  | request | subscribe | enter | anext | getNext | cancelNext | drained => exact hsame rfl
  | aclose hi hclosed =>
    refine hsame ?_
    unfold Client.aclose
    split <;> rfl
  | start hr hphase =>
    refine hsame ?_
    unfold Client.start
    split_ifs
    · exact connections_settle _ _ _ _
    · exact connections_settle _ _ _ _
    · rfl
    · rfl
  | lockConnect hr hphase hlock =>
    refine hsame ?_
    unfold Client.lockConnect
    split_ifs
    · exact connections_settle _ _ _ _
    · rfl
    · rfl
  | openFailed message hr hphase => exact hsame (connections_settle _ _ _ _)
  | send hr hphase =>
    refine hsame ?_
    unfold Client.send
    dsimp only
    split
    · exact connections_settle _ _ _ _
    · split_ifs
      · exact connections_settle _ _ _ _
      · rfl
  | resume hr hphase hfuture => exact hsame (connections_settle _ _ _ _)
  | timeout hr hphase => exact hsame (connections_giveUp _ _ _ _)
  | cancelEarly hr hphase => exact hsame (connections_settle _ _ _ _)
  | cancelOpening hr hphase => exact hsame (connections_settle _ _ _ _)
  | cancelWriting hr hphase => exact hsame (connections_failWrite _ _ _ _)
  | cancelDraining hr hphase => exact hsame (connections_failWrite _ _ _ _)
  | cancelAwaiting hr hphase => exact hsame (connections_giveUp _ _ _ _)

/-- The frames stay in order in every move. -/
theorem FramesInOrder.step {env : Environment} {c c' : Client}
    (h : FramesInOrder env.maxResponseBytes c) {a : ClientAction} (hs : c.step env a = some c') :
    FramesInOrder env.maxResponseBytes c' := by
  have hmoves := moves_of_step hs
  by_cases hread : ∃ k chunk, a = .read k chunk
  · obtain ⟨k, chunk, rfl⟩ := hread
    cases hmoves with
    | read _ hk hreading =>
      obtain ⟨f, -, hsound, hkeeps⟩ := exists_of_read env c hreading chunk
      refine hkeeps.sound (forall_mem_modify h fun x hx hx' => ?_)
      obtain rfl := Option.some.inj (hk.symm.trans hx)
      exact hsound hx'
  · have hother : ∀ k chunk, a ≠ .read k chunk := fun k chunk ha => hread ⟨k, chunk, ha⟩
    obtain ⟨connections, hkeeps, hc' | hc'⟩ := keepsAll_of_moves hmoves hother
    · rw [FramesInOrder, hc']
      exact hkeeps.sound h
    · rw [FramesInOrder, hc']
      exact List.forall_mem_append.mpr
        ⟨hkeeps.sound h, List.forall_mem_singleton.mpr (Connection.sound_new _)⟩

/-! ### The chunks of a connection -/

/-- The chunk that a move reads on a connection. -/
def chunkOf (k : Nat) : ClientAction → Option (List UInt8)
  | .read j chunk => if j = k then some chunk else none
  | _ => none

/-- What has been read on a connection; nothing before it is opened. -/
def streamOf (connections : List Connection) (k : Nat) : List UInt8 :=
  (connections[k]?.map Connection.stream).getD []

theorem KeepsAll.streamOf {connections connections' : List Connection}
    (h : KeepsAll connections connections') (k : Nat) :
    streamOf connections' k = streamOf connections k := by
  have hstreams : connections'.map Connection.stream = connections.map Connection.stream := by
    induction h with
    | nil => rfl
    | cons hx _ ih => rw [List.map_cons, List.map_cons, hx.stream, ih]
  rw [Client.streamOf, Client.streamOf, ← List.getElem?_map, hstreams, List.getElem?_map]

/-- A move reads its chunk on its connection, and nothing on the others. -/
theorem streamOf_step {env : Environment} {c c' : Client} {a : ClientAction}
    (hs : c.step env a = some c') (k : Nat) :
    streamOf c'.connections k = streamOf c.connections k ++ (chunkOf k a).getD [] := by
  have hmoves := moves_of_step hs
  by_cases hread : ∃ j chunk, a = .read j chunk
  · obtain ⟨j, chunk, rfl⟩ := hread
    cases hmoves with
    | read _ hj hreading =>
      obtain ⟨f, hf, -, hkeeps⟩ := exists_of_read env c hreading chunk
      rw [hkeeps.streamOf, chunkOf]
      split_ifs with hjk
      · rw [streamOf, streamOf, ← hjk, List.getElem?_modify_eq, hj]
        exact hf _
      · rw [streamOf, streamOf, List.getElem?_modify_ne _ _ hjk]
        exact (List.append_nil _).symm
  · have hother : ∀ j chunk, a ≠ .read j chunk := fun j chunk ha => hread ⟨j, chunk, ha⟩
    have hchunk : chunkOf k a = none := by
      cases a with
      | read j chunk => exact absurd rfl (hother j chunk)
      | _ => rfl
    rw [hchunk, Option.getD_none, List.append_nil]
    obtain ⟨connections, hkeeps, hc' | hc'⟩ := keepsAll_of_moves hmoves hother
    · rw [hc', hkeeps.streamOf]
    · rw [hc', ← hkeeps.streamOf, streamOf, streamOf]
      rcases lt_trichotomy k connections.length with hk | rfl | hk
      · rw [List.getElem?_append_left hk]
      · simp [Connection.new]
      · rw [List.getElem?_eq_none (by simp; omega), List.getElem?_eq_none hk.le]

/-- In a run, a connection reads its chunks one after the other. -/
theorem streamOf_run {env : Environment} {c c' : Client} {actions : List ClientAction}
    (hrun : Machine.run (step env) c actions = some c') (k : Nat) :
    streamOf c'.connections k =
      streamOf c.connections k ++ (actions.filterMap (chunkOf k)).flatten := by
  induction actions generalizing c with
  | nil => rw [Option.some.inj hrun, List.filterMap_nil, List.flatten_nil, List.append_nil]
  | cons a actions ih =>
    obtain ⟨c₁, hstep, hrest⟩ := Machine.run_cons_eq_some_iff.mp hrun
    rw [ih hrest, streamOf_step hstep, List.filterMap_cons, List.append_assoc]
    cases chunkOf k a <;> rfl

/-- **Chunks that the client receives.** In every run, a connection has processed the frames of its
chunks taken together, all of them or up to the one that has failed. -/
theorem processed_of_run {env : Environment} {c : Client} {actions : List ClientAction}
    (hrun : Machine.run (step env) new actions = some c) {k : Nat} {connection : Connection}
    (hk : c.connections[k]? = some connection) :
    (connection.reader ≠ .failed → Whole env.maxResponseBytes
      (actions.filterMap (chunkOf k)).flatten connection.processed) ∧
    (connection.reader = .failed → Broken env.maxResponseBytes
      (actions.filterMap (chunkOf k)).flatten connection.processed) := by
  have hframes : FramesInOrder env.maxResponseBytes c :=
    Machine.Reaches.invariant (fun c a c' h hstep => h.step hstep) (framesInOrder_new _)
      ⟨actions, hrun⟩
  have hstream : connection.stream = (actions.filterMap (chunkOf k)).flatten := by
    have hread := streamOf_run hrun k
    rw [streamOf, hk] at hread
    exact hread
  have hinOrder := (hframes connection (List.mem_of_getElem? hk)).inOrder
  rw [Connection.InOrder, hstream] at hinOrder
  split_ifs at hinOrder with hreader
  · exact ⟨fun h => absurd hreader h, fun _ => hinOrder⟩
  · exact ⟨fun _ => hinOrder, fun h => absurd h hreader⟩

end Client

end Thalweg.SdkPython
