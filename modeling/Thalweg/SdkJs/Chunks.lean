import Thalweg.SdkJs.Client

/-!
# Chunks and frames

The bytes of a connection arrive in chunks. Every chunk is decoded by itself, so that a rune whose
encoding is cut in two is read as two or more U+FFFD.

* `readAll` are the frames that the client reads from the chunks of a connection, up to the first
  one that ends it; the moves of the client read the same ones (`DaemonClient.tables_of_run`).
* `readAll_eq_iff`: they are those of the stream in one chunk exactly if no chunk ends inside of a
  rune of a frame that is read.
-/

namespace Thalweg.SdkJs

variable {E D : Type}

/-- The parts that are read, up to the first one that ends the connection, and whether it goes
on. -/
def readParts (decoder : Decoder E D) : List Text → List Text × Bool
  | [] => ([], true)
  | part :: rest =>
    match readPart decoder part with
    | .blank => readParts decoder rest
    | .failed _ => ([part], false)
    | .message _ => (part :: (readParts decoder rest).1, (readParts decoder rest).2)

/-- What a connection has read. -/
structure Reception where
  buffer : Text
  isOpen : Bool
  read : List Text

/-- A connection that is open receives a chunk. -/
def Reception.receive (decoder : Decoder E D) (r : Reception) (bytes : List UInt8) : Reception :=
  if r.isOpen then
    let buffer := r.buffer ++ Utf8Decoder.decode bytes
    let parts := readParts decoder (Framing.frames isNewline buffer)
    ⟨Framing.remainder isNewline buffer, parts.2, r.read ++ parts.1⟩
  else r

/-- The frames that are read from the chunks of a connection. -/
def readAll (decoder : Decoder E D) (chunks : List (List UInt8)) : List Text :=
  (chunks.foldl (Reception.receive decoder) ⟨[], true, []⟩).read

/-- The stream of newline-terminated frames. -/
def stream (frames : List Text) : Text := frames.flatMap (· ++ ['\n'])

/-! ### Reading -/

theorem readParts_append (decoder : Decoder E D) (parts parts' : List Text) :
    readParts decoder (parts ++ parts') =
      if (readParts decoder parts).2 then
        ((readParts decoder parts).1 ++ (readParts decoder parts').1,
          (readParts decoder parts').2)
      else ((readParts decoder parts).1, false) := by
  induction parts with
  | nil => simp [readParts]
  | cons part parts ih =>
    rw [List.cons_append, readParts, readParts, ih]
    cases readPart decoder part with
    | blank => rfl
    | failed error => rfl
    | message message =>
      dsimp only
      split_ifs <;> rfl

/-- A part that is not blank is read, and ends the connection or does not, whatever follows it. -/
theorem readParts_cons (decoder : Decoder E D) {part : Text} (h : isBlank part = false) :
    (∀ rest, readParts decoder (part :: rest) = ([part], false)) ∨
      ∀ rest, readParts decoder (part :: rest) =
        (part :: (readParts decoder rest).1, (readParts decoder rest).2) := by
  cases hread : readPart decoder part with
  | blank =>
    rw [readPart, h, if_neg Bool.false_ne_true] at hread
    split at hread
    · cases hread
    · split_ifs at hread
  | failed error => exact Or.inl fun rest => by rw [readParts, hread]
  | message message => exact Or.inr fun rest => by rw [readParts, hread]

/-- If no part is blank, the first ones are read, and all if the connection goes on. -/
theorem exists_readParts (decoder : Decoder E D) {parts : List Text}
    (h : ∀ part ∈ parts, isBlank part = false) :
    ∃ more, parts = (readParts decoder parts).1 ++ more ∧
      ((readParts decoder parts).2 = true → more = []) ∧
      readParts decoder (readParts decoder parts).1 = readParts decoder parts := by
  induction parts with
  | nil => exact ⟨[], rfl, fun _ => rfl, rfl⟩
  | cons part parts ih =>
    obtain ⟨hpart, h⟩ := List.forall_mem_cons.mp h
    obtain ⟨more, hmore, hall, hagain⟩ := ih h
    rcases readParts_cons decoder hpart with heq | heq
    · rw [heq]
      exact ⟨parts, rfl, fun hopen => absurd hopen Bool.false_ne_true, heq []⟩
    · rw [heq]
      refine ⟨more, by rw [List.cons_append, ← hmore], hall, ?_⟩
      rw [heq, hagain]

theorem foldl_receive_of_not_isOpen (decoder : Decoder E D) {r : Reception} (h : r.isOpen = false)
    (chunks : List (List UInt8)) : chunks.foldl (Reception.receive decoder) r = r := by
  induction chunks with
  | nil => rfl
  | cons chunk chunks ih =>
    have hchunk : r.receive decoder chunk = r := by simp [Reception.receive, h]
    rw [List.foldl_cons, hchunk, ih]

theorem foldl_receive_read (decoder : Decoder E D) (chunks : List (List UInt8)) {r : Reception}
    (hopen : r.isOpen = true) (hbuffer : Framing.IsFrame isNewline r.buffer) :
    (chunks.foldl (Reception.receive decoder) r).read = r.read ++
      (readParts decoder (Framing.frames isNewline
        (r.buffer ++ chunks.flatMap Utf8Decoder.decode))).1 := by
  induction chunks generalizing r with
  | nil => simp [Framing.frames_of_isFrame hbuffer, readParts]
  | cons chunk chunks ih =>
    rw [List.foldl_cons, List.flatMap_cons, ← List.append_assoc, Framing.frames_append,
      readParts_append]
    have hreceive : r.receive decoder chunk =
        ⟨Framing.remainder isNewline (r.buffer ++ Utf8Decoder.decode chunk),
          (readParts decoder (Framing.frames isNewline
            (r.buffer ++ Utf8Decoder.decode chunk))).2,
          r.read ++ (readParts decoder (Framing.frames isNewline
            (r.buffer ++ Utf8Decoder.decode chunk))).1⟩ := by
      rw [Reception.receive, if_pos hopen]
    rw [hreceive]
    split_ifs with hgoes
    · rw [ih hgoes (Framing.isFrame_remainder _ _), List.append_assoc]
    · rw [foldl_receive_of_not_isOpen decoder (by simpa using hgoes)]

/-- The client reads the frames of the text that the chunks are read as. -/
theorem readAll_eq (decoder : Decoder E D) (chunks : List (List UInt8)) :
    readAll decoder chunks =
      (readParts decoder (Framing.frames isNewline (chunks.flatMap Utf8Decoder.decode))).1 := by
  rw [readAll, foldl_receive_read decoder chunks rfl (Framing.isFrame_nil _)]
  rfl

/-! ### Streams -/

theorem stream_append (frames frames' : List Text) :
    stream (frames ++ frames') = stream frames ++ stream frames' :=
  List.flatMap_append

theorem frames_stream_append {frames : List Text}
    (h : ∀ frame ∈ frames, Framing.IsFrame isNewline frame) (t : Text) :
    Framing.frames isNewline (stream frames ++ t) = frames ++ Framing.frames isNewline t := by
  induction frames with
  | nil => rfl
  | cons frame frames ih =>
    obtain ⟨hframe, h⟩ := List.forall_mem_cons.mp h
    have hcons : stream (frame :: frames) ++ t = frame ++ '\n' :: (stream frames ++ t) := by
      simp [stream]
    rw [hcons, Framing.frames_append_cons hframe rfl, ih h, List.cons_append]

theorem isFrame_iff {t : Text} : Framing.IsFrame isNewline t ↔ '\n' ∉ t := by
  simp only [Framing.IsFrame, isNewline, beq_eq_false_iff_ne]
  exact ⟨fun h hmem => h _ hmem rfl, fun h c hc heq => h (heq ▸ hc)⟩

/-- A garbled stream is a stream of garbled frames. -/
theorem exists_of_garbled_stream {frames : List Text}
    (h : ∀ frame ∈ frames, Framing.IsFrame isNewline frame) {u : Text}
    (hu : Utf8Decoder.Garbled (stream frames) u) :
    ∃ frames', u = stream frames' ∧ List.Forall₂ Utf8Decoder.Garbled frames frames' ∧
      ∀ frame ∈ frames', Framing.IsFrame isNewline frame := by
  induction frames generalizing u with
  | nil =>
    cases hu
    exact ⟨[], rfl, .nil, List.forall_mem_nil _⟩
  | cons frame frames ih =>
    obtain ⟨hframe, h⟩ := List.forall_mem_cons.mp h
    have hcons : stream (frame :: frames) = frame ++ '\n' :: stream frames := by simp [stream]
    rw [hcons] at hu
    obtain ⟨frame', w, rfl, hframe', hw⟩ := hu.exists_append
    cases hw with
    | keep _ hw =>
      obtain ⟨frames', rfl, hframes', hno⟩ := ih h hw
      refine ⟨frame' :: frames', by simp [stream], .cons hframe' hframes',
        List.forall_mem_cons.mpr ⟨?_, hno⟩⟩
      rw [isFrame_iff] at hframe ⊢
      rwa [hframe'.mem_iff (by decide)]
    | cut hc => exact absurd hc (by decide)

/-- Garbling makes no frame blank. -/
theorem isBlank_of_garbled {t u : Text} (h : Utf8Decoder.Garbled t u) (ht : isBlank t = false) :
    isBlank u = false := by
  induction h with
  | nil => exact ht
  | keep c _ ih =>
    rw [isBlank, List.all_cons] at ht ⊢
    cases hc : isWhiteSpace c with
    | false => rfl
    | true =>
      rw [hc, Bool.true_and] at ht
      rw [Bool.true_and]
      exact ih ht
  | @cut c k t u _ hk _ _ =>
    obtain ⟨k, rfl⟩ : ∃ n, k = n + 1 := ⟨k - 1, by omega⟩
    have hspace : isWhiteSpace Text.replacement = false := by decide
    simp [isBlank, List.replicate_succ, hspace]

/-- **Chunks.** The client reads the same frames as from the stream in one chunk exactly if no chunk
ends inside of a rune of a frame that is read. -/
theorem readAll_eq_iff (decoder : Decoder E D) {frames : List Text}
    (hframes : ∀ frame ∈ frames, '\n' ∉ frame ∧ isBlank frame = false) {chunks : List (List UInt8)}
    (h : chunks.flatten = Text.toBytes (stream frames)) :
    readAll decoder chunks = readAll decoder [Text.toBytes (stream frames)] ↔
      Utf8Decoder.CutsBetween (Text.toBytes (stream (readParts decoder frames).1)).length
        chunks := by
  have hisFrame : ∀ frame ∈ frames, Framing.IsFrame isNewline frame :=
    fun frame hframe => isFrame_iff.mpr (hframes frame hframe).1
  obtain ⟨more, hmore, hall, hagain⟩ := exists_readParts decoder fun frame hframe =>
    (hframes frame hframe).2
  have hone : readAll decoder [Text.toBytes (stream frames)] = (readParts decoder frames).1 := by
    have hstream := frames_stream_append hisFrame []
    rw [List.append_nil] at hstream
    rw [readAll_eq, List.flatMap_singleton, Utf8Decoder.decode_toBytes, hstream]
    simp [Framing.frames]
  rw [hone, readAll_eq]
  rcases hread : readParts decoder frames with ⟨reached, isOpen⟩
  rw [hread] at hmore hall hagain
  dsimp only at hmore hall hagain ⊢
  have hreached : ∀ frame ∈ reached, frame ∈ frames := fun frame hframe => by
    rw [hmore]
    exact List.mem_append_left _ hframe
  rw [hmore, stream_append] at h
  constructor
  · intro heq
    by_contra hcuts
    obtain ⟨u, u', hdecode, hgarbled, hlt⟩ :=
      Utf8Decoder.exists_flatMap_decode_of_not_cutsBetween h hcuts
    obtain ⟨frames', rfl, hframes', hno⟩ :=
      exists_of_garbled_stream (fun frame hframe => hisFrame frame (hreached frame hframe)) hgarbled
    have hblank : ∀ frame ∈ frames', isBlank frame = false := by
      intro frame' hframe'
      obtain ⟨i, hi, rfl⟩ := List.mem_iff_getElem.mp hframe'
      have hi' : i < reached.length := by rwa [hframes'.length_eq]
      exact isBlank_of_garbled (hframes'.get hi' hi)
        (hframes _ (hreached _ (List.getElem_mem hi'))).2
    obtain ⟨more', hmore', hall', -⟩ := exists_readParts decoder hblank
    rw [hdecode, frames_stream_append hno, readParts_append] at heq
    have hlen := hframes'.length_eq
    have hsame : frames' = reached := by
      split_ifs at heq with hopen
      · rw [hall' hopen, List.append_nil] at hmore'
        have hbegins : frames' <+: reached := by
          dsimp only at heq
          rw [← heq, ← hmore']
          exact List.prefix_append _ _
        exact hbegins.eq_of_length hlen.symm
      · dsimp only at heq
        rw [heq] at hmore'
        rw [hmore', List.length_append] at hlen
        rw [hmore', List.length_eq_zero_iff.mp (show more'.length = 0 by omega), List.append_nil]
    rw [hsame] at hlt
    exact lt_irrefl _ hlt
  · intro hcuts
    obtain ⟨rest, hdecode, hrest⟩ := hcuts.exists_flatMap_decode h
    rw [hdecode, frames_stream_append fun frame hframe => hisFrame frame (hreached frame hframe),
      readParts_append, hagain]
    cases isOpen with
    | true =>
      rw [hall rfl] at hrest
      have hempty : rest.flatMap Utf8Decoder.decode = [] := by
        refine List.flatMap_eq_nil_iff.mpr fun chunk hchunk => ?_
        rw [List.flatten_eq_nil_iff.mp hrest chunk hchunk, Utf8Decoder.decode_nil]
      rw [hempty]
      simp [Framing.frames, readParts]
    | false => rfl

/-! ### The moves of the client -/

/-- The chunk that a move hands to the client. -/
def chunkOf : ClientAction → Option (List UInt8)
  | .emit _ (.data bytes) => some bytes
  | _ => none

/-- If the connection does not go on, the last part that is read ends it. -/
theorem exists_of_readParts_ended (decoder : Decoder E D) {parts : List Text}
    (h : (readParts decoder parts).2 = false) : ∃ earlier last error,
      (readParts decoder parts).1 = earlier ++ [last] ∧ readPart decoder last = .failed error := by
  induction parts with
  | nil => cases h
  | cons part parts ih =>
    rw [readParts] at h ⊢
    cases hread : readPart decoder part with
    | blank =>
      rw [hread] at h
      exact ih h
    | failed error => exact ⟨[], part, error, rfl, hread⟩
    | message message =>
      rw [hread] at h
      obtain ⟨earlier, last, error, hparts, hlast⟩ := ih h
      exact ⟨part :: earlier, last, error, by rw [hparts, List.cons_append], hlast⟩

namespace DaemonClient

/-- The text of the buffer and the parts of the job are those of a reception. -/
theorem receive_text (c : DaemonClient E D) (s : Nat) (bytes : List UInt8) :
    (c.receive s bytes).buffer.map Prod.snd =
        Framing.remainder isNewline (c.buffer.map Prod.snd ++ Utf8Decoder.decode bytes) ∧
      (c.receive s bytes).job =
        .parts s
          (Framing.frames isNewline (c.buffer.map Prod.snd ++ Utf8Decoder.decode bytes)) := by
  have htext : (c.buffer ++ (Utf8Decoder.decode bytes).map (Prod.mk s)).map Prod.snd =
      c.buffer.map Prod.snd ++ Utf8Decoder.decode bytes := by
    rw [List.map_append, List.map_map]
    exact congrArg _ (List.map_id _)
  rw [← htext, Framing.remainder_map, Framing.frames_map]
  exact ⟨rfl, rfl⟩

/-- The client without its buffer, its job and what has happened. -/
def tables (c : DaemonClient E D) : DaemonClient E D :=
  { c with job := .parts 0 [], buffer := [], history := [] }

/-- The client has processed some parts on a socket. -/
def processParts (decoder : Decoder E D) (s : Nat) (c : DaemonClient E D) (parts : List Text) :
    DaemonClient E D :=
  parts.foldl (fun c part => processPart decoder c s part) c

/-- A part that does not end the connection leaves the job as it is. -/
theorem processPart_of_message (decoder : Decoder E D) (c : DaemonClient E D) (s : Nat)
    {part : Text} {message : Message E D} (h : readPart decoder part = .message message)
    (job : Job E) :
    processPart decoder { c with job } s part = { processPart decoder c s part with job } := by
  unfold processPart
  rw [h]
  cases message with
  | event _ subscriptionId event =>
    dsimp only
    unfold push
    dsimp only
    split
    · rfl
    · split_ifs <;> rfl
  | response _ id success data error errorDetails =>
    dsimp only
    split
    · rfl
    · rfl
    · unfold respond settle
      dsimp only
      split <;> rfl

section Parts

variable (decoder : Decoder E D) (c : DaemonClient E D) (s : Nat) (part : Text)

theorem processPart_tables :
    (processPart decoder c.tables s part).tables = (processPart decoder c s part).tables := by
  unfold processPart
  split
  · rfl
  · rfl
  · unfold push tables
    dsimp only
    split
    · rfl
    · split_ifs <;> rfl
  · split
    · rfl
    · rfl
    · unfold respond settle tables
      dsimp only
      split <;> rfl

theorem processPart_keeps : (processPart decoder c s part).buffer = c.buffer ∧
    (processPart decoder c s part).socket = c.socket := by
  unfold processPart
  split
  · exact ⟨rfl, rfl⟩
  · exact ⟨rfl, rfl⟩
  · unfold push
    dsimp only
    split
    · exact ⟨rfl, rfl⟩
    · split_ifs <;> exact ⟨rfl, rfl⟩
  · split
    · exact ⟨rfl, rfl⟩
    · exact ⟨rfl, rfl⟩
    · unfold respond settle
      dsimp only
      split <;> exact ⟨rfl, rfl⟩

/-- The part that ends the connection destroys the client's socket. -/
theorem sockets_processPart_of_failed {error : ClientError} {t : Nat}
    (h : readPart decoder part = .failed error) (hsocket : c.socket = some t) :
    (processPart decoder c s part).sockets =
      c.sockets.modify t fun socket => { socket with destroyed := true } := by
  simp only [processPart, h, failConnection, hsocket]

end Parts

section Runs

variable {decoder : Decoder E D} {c₀ c c' : DaemonClient E D} {s : Nat} {r : Reception}

theorem processParts_append (parts parts' : List Text) :
    processParts decoder s c (parts ++ parts') =
      processParts decoder s (processParts decoder s c parts) parts' :=
  List.foldl_append

/-- Clients with the same tables have them after the same parts. -/
theorem processParts_tables (h : c.tables = c'.tables) (parts : List Text) :
    (processParts decoder s c parts).tables = (processParts decoder s c' parts).tables := by
  induction parts generalizing c c' with
  | nil => exact h
  | cons part parts ih =>
    refine ih ?_
    rw [← processPart_tables decoder c, h, processPart_tables]

theorem processParts_socket (parts : List Text) :
    (processParts decoder s c parts).socket = c.socket := by
  induction parts generalizing c with
  | nil => rfl
  | cons part parts ih => exact ih.trans (processPart_keeps decoder c s part).2

/-- A client that has received chunks on the socket `s`, apart from the parts that its job has
left. -/
structure Follows (decoder : Decoder E D) (c₀ : DaemonClient E D) (s : Nat) (r : Reception)
    (c : DaemonClient E D) : Prop where
  buffer : c.buffer.map Prod.snd = r.buffer
  parts : ∃ rest, (c.job.isIdle ∧ rest = [] ∨ c.job = .parts s rest) ∧
    (processParts decoder s c (readParts decoder rest).1).tables =
      (processParts decoder s c₀ r.read).tables
  ended : r.isOpen = false → ∃ earlier last error,
    r.read = earlier ++ [last] ∧ readPart decoder last = .failed error

/-- With an idle job, the tables are those after the parts that have been read. -/
theorem Follows.tables_of_isIdle (h : Follows decoder c₀ s r c) (hidle : c.job.isIdle) :
    c.tables = (processParts decoder s c₀ r.read).tables := by
  obtain ⟨rest, hjob, htables⟩ := h.parts
  have hrest : rest = [] := by
    rcases hjob with ⟨-, hrest⟩ | hjob
    · exact hrest
    · rw [hjob] at hidle
      exact List.isEmpty_iff.mp hidle
  rw [hrest] at htables
  exact htables

/-- A socket that goes on is one on which no part has ended the connection. -/
theorem Follows.isOpen (h : Follows decoder c₀ s r c) (hsocket : c₀.socket = some s)
    (hidle : c.job.isIdle) {socket : Socket} (hs : c.sockets[s]? = some socket)
    (hgoes : socket.destroyed = false) : r.isOpen = true := by
  by_contra hclosed
  obtain ⟨earlier, last, error, hread, hlast⟩ := h.ended (Bool.eq_false_iff.mpr hclosed)
  have hsockets := congrArg DaemonClient.sockets (h.tables_of_isIdle hidle)
  rw [hread, processParts_append] at hsockets
  have hfailed := sockets_processPart_of_failed decoder (processParts decoder s c₀ earlier) s last
    hlast ((processParts_socket earlier).trans hsocket)
  have hs' : ((processParts decoder s c₀ earlier).sockets.modify s
      fun socket => { socket with destroyed := true })[s]? = some socket := by
    rw [← hfailed]
    exact (congrArg (·[s]?) hsockets).symm.trans hs
  rw [List.getElem?_modify_eq] at hs'
  obtain ⟨socket', -, rfl⟩ := Option.map_eq_some_iff.mp hs'
  cases hgoes

/-- A chunk is received. -/
theorem Follows.receive (h : Follows decoder c₀ s r c) (hidle : c.job.isIdle)
    (hopen : r.isOpen = true) (bytes : List UInt8) :
    Follows decoder c₀ s (r.receive decoder bytes) (c.receive s bytes) := by
  obtain ⟨hbuffer, hjob⟩ := receive_text c s bytes
  rw [h.buffer] at hbuffer hjob
  have htables : (c.receive s bytes).tables = (processParts decoder s c₀ r.read).tables :=
    h.tables_of_isIdle hidle
  rw [Reception.receive, if_pos hopen]
  refine ⟨hbuffer, ⟨_, Or.inr hjob, ?_⟩, fun hended => ?_⟩
  · rw [processParts_append]
    exact processParts_tables htables _
  · obtain ⟨earlier, last, error, hparts, hlast⟩ := exists_of_readParts_ended decoder hended
    refine ⟨r.read ++ earlier, last, error, ?_, hlast⟩
    rw [List.append_assoc, ← hparts]

/-- A part of the job is processed. -/
theorem Follows.work (h : Follows decoder c₀ s r c) (hstep : c.work decoder = some c') :
    Follows decoder c₀ s r c' := by
  obtain ⟨rest, hjob, htables⟩ := h.parts
  rw [DaemonClient.work] at hstep
  rcases hjob with ⟨hidle, rfl⟩ | hjob
  · split at hstep
    · next hparts =>
      rw [hparts] at hidle
      cases hidle
    · next hparts =>
      rw [hparts] at hidle
      cases hidle
    · cases hstep
  · rw [hjob] at hstep
    cases rest with
    | nil => cases hstep
    | cons part rest =>
      obtain rfl := Option.some.inj hstep
      have hbuffer := (processPart_keeps decoder { c with job := .parts s rest } s part).1
      refine ⟨(congrArg _ hbuffer).trans h.buffer, ?_, h.ended⟩
      rw [readParts] at htables
      cases hread : readPart decoder part with
      | blank =>
        rw [hread] at htables
        refine ⟨rest, Or.inr (by simp only [processPart, hread]), ?_⟩
        rw [← htables]
        exact processParts_tables (by simp only [processPart, hread]; rfl) _
      | failed error =>
        rw [hread] at htables
        refine ⟨[], Or.inr (by simp only [processPart, hread]; rfl), ?_⟩
        rw [← htables]
        simp only [processPart, hread, processParts, readParts, List.foldl_cons, List.foldl_nil]
        rfl
      | message message =>
        rw [hread] at htables
        refine ⟨rest, Or.inr (by rw [processPart_of_message decoder c s hread]), ?_⟩
        rw [← htables, processPart_of_message decoder c s hread]
        have hsame : ({ processPart decoder c s part with job := .parts s rest } :
            DaemonClient E D).tables = (processPart decoder c s part).tables := rfl
        exact processParts_tables hsame (readParts decoder rest).1

/-- A move that hands a chunk to the client or works on its job. -/
theorem Follows.step (h : Follows decoder c₀ s r c) (hsocket : c₀.socket = some s)
    {a : ClientAction} (ha : a = .work ∨ ∃ bytes, a = .emit s (.data bytes))
    (hstep : step decoder c a = some c') :
    Follows decoder c₀ s ((chunkOf a).elim r (r.receive decoder)) c' := by
  rcases ha with rfl | ⟨bytes, rfl⟩
  · exact h.work hstep
  · rw [DaemonClient.step] at hstep
    split_ifs at hstep with hidle
    · obtain ⟨socket, hs, hemit⟩ := Option.bind_eq_some_iff.mp hstep
      rw [emit] at hemit
      split_ifs at hemit with hgoes
      · obtain rfl := Option.some.inj hemit
        simp only [Bool.and_eq_true, Bool.not_eq_true'] at hgoes
        exact h.receive hidle (h.isOpen hsocket hidle hs hgoes.1.2) bytes

/-- A run of such moves. -/
theorem Follows.run (h : Follows decoder c₀ s r c) (hsocket : c₀.socket = some s)
    {actions : List ClientAction}
    (hactions : ∀ a ∈ actions, a = .work ∨ ∃ bytes, a = .emit s (.data bytes))
    (hrun : Machine.run (DaemonClient.step decoder) c actions = some c') :
    Follows decoder c₀ s ((actions.filterMap chunkOf).foldl (Reception.receive decoder) r) c' := by
  induction actions generalizing r c with
  | nil => exact Option.some.inj hrun ▸ h
  | cons a actions ih =>
    obtain ⟨ha, hactions⟩ := List.forall_mem_cons.mp hactions
    obtain ⟨c₁, hstep, hrest⟩ := Machine.run_cons_eq_some_iff.mp hrun
    have hnext := ih (h.step hsocket ha hstep) hactions hrest
    rw [List.filterMap_cons]
    cases hchunk : chunkOf a with
    | none =>
      rw [hchunk] at hnext
      exact hnext
    | some bytes =>
      rw [hchunk] at hnext
      exact hnext

/-- **Chunks that the client receives.** After a run in which a client gets the chunks of a new
connection and works them off, its tables are those after the frames that `readAll` reads. -/
theorem tables_of_run {actions : List ClientAction} (hsocket : c₀.socket = some s)
    (hbuffer : c₀.buffer = []) (hjob : c₀.job.isIdle)
    (hactions : ∀ a ∈ actions, a = .work ∨ ∃ bytes, a = .emit s (.data bytes))
    (hrun : Machine.run (step decoder) c₀ actions = some c) (hidle : c.job.isIdle) :
    c.tables =
      (processParts decoder s c₀ (readAll decoder (actions.filterMap chunkOf))).tables := by
  have hstart : Follows decoder c₀ s ⟨[], true, []⟩ c₀ :=
    ⟨by rw [hbuffer]; rfl, ⟨[], Or.inl ⟨hjob, rfl⟩, rfl⟩, fun h => absurd h.symm Bool.false_ne_true⟩
  exact (hstart.run hsocket hactions hrun).tables_of_isIdle hidle

end Runs

end DaemonClient

/-! ### A chunk that ends inside of a rune -/

/-- The frame of a pushed event with that ID. -/
def pushFrame (id : Text) : Text :=
  "\x7b\"type\":\"event\",\"protocolVersion\":1,\"subscriptionId\":\"sub_1\",".toList ++
    "\"event\":\x7b\"id\":\"".toList ++ id ++ "\"\x7d\x7d".toList

/-- `JSON.parse` on the frames of pushed events with these IDs; of an event its ID is kept. -/
def pushDecoder (ids : List Text) : Decoder Text Unit where
  parse t := (ids.find? fun id => pushFrame id == t).map fun id =>
    .event (some 1) "sub_1".toList id
  subscriptionId _ := []

def accented : List UInt8 := Text.toBytes (stream [pushFrame ['é']])

theorem readAll_accented :
    readAll (pushDecoder [['é']]) [accented.take 20, accented.drop 20] =
        readAll (pushDecoder [['é']]) [accented] ∧
      Utf8Decoder.CutsBetween
        (Text.toBytes (stream (readParts (pushDecoder [['é']]) [pushFrame ['é']]).1)).length
        [accented.take 20, accented.drop 20] := by
  have hread : readAll (pushDecoder [['é']]) [accented.take 20, accented.drop 20] =
      readAll (pushDecoder [['é']]) [accented] := by decide +kernel
  have hframes : ∀ frame ∈ [pushFrame ['é']], '\n' ∉ frame ∧ isBlank frame = false := by
    decide +kernel
  have hflatten : [accented.take 20, accented.drop 20].flatten =
      Text.toBytes (stream [pushFrame ['é']]) := by simp [accented]
  exact ⟨hread, (readAll_eq_iff (pushDecoder [['é']]) hframes hflatten).mp hread⟩

/-- The `é` is cut in two: the client reads another event. -/
theorem readAll_cut_accented :
    [accented.take 77, accented.drop 77].flatten = accented ∧
      (readAll (pushDecoder [['é'], ['\uFFFD', '\uFFFD']]) [accented]).map
          (pushDecoder [['é'], ['\uFFFD', '\uFFFD']]).parse =
        [some (.event (some 1) "sub_1".toList ['é'])] ∧
      (readAll (pushDecoder [['é'], ['\uFFFD', '\uFFFD']])
          [accented.take 77, accented.drop 77]).map
          (pushDecoder [['é'], ['\uFFFD', '\uFFFD']]).parse =
        [some (.event (some 1) "sub_1".toList ['\uFFFD', '\uFFFD'])] := by
  decide +kernel

end Thalweg.SdkJs
