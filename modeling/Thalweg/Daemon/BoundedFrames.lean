import Thalweg.Data.BufferedReader
import Thalweg.Data.ByteSpace
import Thalweg.Data.Framing
import Thalweg.Data.Json.Marshal
import Thalweg.Daemon.Mesh

/-!
# Bounded frames

A value is written as a frame: its encoding, which has no newline, and a newline after it. A frame
is read by slices of a buffered reader until the newline. The writer and the reader have the same
limit for the bytes before the newline.

What is read depends on the bytes of the stream only: the lines up to the first one that is longer
than the limit, each without the white space at its ends (`readFrames_of_cut`).

## Main definitions

* `writeBoundedFrame`, `readBoundedFrame`.
* `writeFrames`, `readFrames`: the values of a list are written, and frames are read up to the first
  error, where every reader of frames stops.
-/

namespace Thalweg

open ByteSpace (newline trimSpace)

/-- The error at the end of a stream. -/
def endOfFile : Failure := .external "io"

/-- The error of a frame that is too long. -/
def frameExceeds (limit : Nat) : Failure :=
  .errorf "mesh frame exceeds %d bytes" [Text.decimal limit]

/-! ### Writing -/

/-- Write a value as a frame. A write gives the writer after it, the number of bytes that it has
taken and its error. -/
def writeBoundedFrame {σ : Type} (write : σ → List UInt8 → σ × Nat × Option Failure) (writer : σ)
    (value : Json.Marshalable) (limit : Nat) : σ × Option Failure :=
  match Json.marshal value with
  | none => (writer, some (.external "encoding/json"))
  | some text =>
    let encoded := Text.toBytes text
    if limit < encoded.length then (writer, some (frameExceeds limit))
    else
      match write writer (encoded ++ [newline]) with
      | (writer, written, none) =>
        (writer, if written ≠ (encoded ++ [newline]).length then some (.external "io") else none)
      | (writer, _, some err) => (writer, some err)

/-- Write values one after the other, up to the first error. -/
def writeFrames {σ : Type} (write : σ → List UInt8 → σ × Nat × Option Failure) (writer : σ)
    (limit : Nat) : List Json.Marshalable → σ × Option Failure
  | [] => (writer, none)
  | value :: values =>
    match writeBoundedFrame write writer value limit with
    | (writer, none) => writeFrames write writer limit values
    | (writer, some err) => (writer, some err)

/-- A stream that takes every byte that is written to it. -/
def writeStream (stream bytes : List UInt8) : List UInt8 × Nat × Option Failure :=
  (stream ++ bytes, bytes.length, none)

/-! ### Reading -/

/-- A reader of a source with a buffer of the size, and of 16 bytes at least. -/
def newReaderSize (source : Source UInt8) (size : Nat) : BufferedReader UInt8 where
  size := max size 16
  buffer := []
  source := source
  pending := false
  size_pos := by omega
  buffer_le := Nat.zero_le _
  rest_of_pending := fun h => absurd h Bool.false_ne_true

/-- A full buffer without the newline leaves fewer bytes unread. -/
theorem unread_lt_of_full {r r' : BufferedReader UInt8} {fragment : List UInt8}
    (h : r.readSlice newline = (fragment, some .bufferFull, r')) :
    r'.unread.length < r.unread.length := by
  have hslice := r.slice_readSlice newline
  rw [h] at hslice
  cases hslice with
  | full hw hlength hunread =>
    have := r.size_pos
    rw [hunread, List.length_append]
    omega

/-- Read a frame, the first bytes of which are given. -/
def readBoundedFrom (limit : Nat) (frame : List UInt8) (reader : BufferedReader UInt8) :
    Result (List UInt8) × BufferedReader UInt8 :=
  let slice := reader.readSlice newline
  if limit + 1 < frame.length + slice.1.length then (.error (frameExceeds limit), slice.2.2)
  else
    match _h : slice with
    | (fragment, none, reader) =>
      if limit < (trimSpace (frame ++ fragment)).length then (.error (frameExceeds limit), reader)
      else (.ok (trimSpace (frame ++ fragment)), reader)
    | (fragment, some .bufferFull, reader) => readBoundedFrom limit (frame ++ fragment) reader
    | (_, some .ended, reader) => (.error endOfFile, reader)
termination_by reader.unread.length
decreasing_by exact unread_lt_of_full _h

/-- The next line, without white space around it; one that is over the limit is an error. -/
def readBoundedFrame (reader : BufferedReader UInt8) (limit : Nat) :
    Result (List UInt8) × BufferedReader UInt8 :=
  readBoundedFrom limit [] reader

/-- What is read as a frame of the unread bytes, and the reader after it. -/
inductive FrameRead (limit : Nat) (unread : List UInt8) :
    Result (List UInt8) × BufferedReader UInt8 → Prop
  | frame {line : List UInt8} {r : BufferedReader UInt8} (hline : newline ∉ line)
      (hlength : line.length ≤ limit) (hunread : unread = line ++ newline :: r.unread) :
      FrameRead limit unread (.ok (trimSpace (line ++ [newline])), r)
  | exceeds {r : BufferedReader UInt8} {start rest : List UInt8} (hstart : newline ∉ start)
      (hlength : limit < start.length) (hrest : rest ≠ []) (hunread : unread = start ++ rest) :
      FrameRead limit unread (.error (frameExceeds limit), r)
  | ended {r : BufferedReader UInt8} (hunread : newline ∉ unread)
      (hlength : unread.length ≤ limit + 1) : FrameRead limit unread (.error endOfFile, r)

/-- More bytes than the limit and the newline have, without a newline. -/
theorem FrameRead.of_long {limit : Nat} {bytes start rest : List UInt8}
    (hstart : newline ∉ start) (hlength : limit + 1 < start.length)
    (hbytes : bytes = start ++ rest) (r : BufferedReader UInt8) :
    FrameRead limit bytes (.error (frameExceeds limit), r) := by
  have hsplit : bytes = start.take (limit + 1) ++ (start.drop (limit + 1) ++ rest) := by
    rw [hbytes, ← List.append_assoc, List.take_append_drop]
  refine .exceeds (fun hmem => hstart (List.mem_of_mem_take hmem)) ?_ ?_ hsplit
  · rw [List.length_take]
    omega
  · intro hnil
    have := List.drop_eq_nil_iff.mp (List.append_eq_nil_iff.mp hnil).1
    omega

/-- **Frames.** What is read as a frame depends on the unread bytes only. -/
theorem frameRead_readBoundedFrom (limit : Nat) (frame : List UInt8)
    (reader : BufferedReader UInt8) (hframe : newline ∉ frame)
    (hlength : frame.length ≤ limit + 1) :
    FrameRead limit (frame ++ reader.unread) (readBoundedFrom limit frame reader) := by
  induction hn : reader.unread.length using Nat.strongRecOn generalizing frame reader with
  | _ n ih =>
    have hslice := reader.slice_readSlice newline
    have happend : ∀ {w : List UInt8}, newline ∉ w → newline ∉ frame ++ w := fun hw hmem =>
      (List.mem_append.mp hmem).elim hframe hw
    unfold readBoundedFrom
    dsimp only
    split_ifs with hlong
    · generalize reader.readSlice newline = slice at hslice hlong
      cases hslice with
      | @line w r hw hunread =>
        rw [List.length_append, List.length_singleton] at hlong
        refine .exceeds (happend hw) ?_ (List.cons_ne_nil newline r.unread) ?_
        · rw [List.length_append]
          omega
        · rw [hunread, List.append_assoc]
      | full hw _ hunread =>
        rw [← List.length_append] at hlong
        exact .of_long (happend hw) hlong (by rw [hunread, List.append_assoc]) _
      | ended hw hunread _ =>
        rw [← List.length_append] at hlong
        exact .of_long (happend hw) hlong (by rw [hunread, List.append_nil (frame ++ _)]) _
    · split
      · next fragment reader' hread =>
        rw [hread] at hslice hlong
        cases hslice with
        | @line w _ hw hunread =>
          rw [List.length_append, List.length_singleton] at hlong
          have htrim := ByteSpace.length_trimSpace_newline (frame ++ w)
          rw [List.length_append] at htrim
          rw [← List.append_assoc, if_neg (by omega)]
          refine .frame (happend hw) ?_ ?_
          · rw [List.length_append]
            omega
          · rw [hunread, List.append_assoc]
      · next fragment reader' hread =>
        have hlt := unread_lt_of_full hread
        rw [hread] at hslice hlong
        cases hslice with
        | full hw _ hunread =>
          rw [hunread, ← List.append_assoc]
          refine ih _ (hn ▸ hlt) _ _ (happend hw) ?_ rfl
          rw [List.length_append]
          exact Nat.not_lt.mp hlong
      · next fragment reader' hread =>
        rw [hread] at hslice hlong
        cases hslice with
        | ended hw hunread _ =>
          rw [hunread]
          refine .ended (happend hw) ?_
          rw [List.length_append]
          exact Nat.not_lt.mp hlong

theorem frameRead_readBoundedFrame (reader : BufferedReader UInt8) (limit : Nat) :
    FrameRead limit reader.unread (readBoundedFrame reader limit) :=
  frameRead_readBoundedFrom limit [] reader List.not_mem_nil (Nat.zero_le _)

/-! ### Streams -/

/-- The lines, each with a newline after it. -/
def terminated (lines : List (List UInt8)) : List UInt8 := lines.flatMap (· ++ [newline])

/-- The frame of a line. -/
def frameOf (line : List UInt8) : List UInt8 := trimSpace (line ++ [newline])

theorem isFrame_line {line : List UInt8} (h : newline ∉ line) :
    Framing.IsFrame (· == newline) line := fun b hb => by
  rw [beq_eq_false_iff_ne]
  rintro rfl
  exact h hb

/-- The first line of a stream and what follows it. -/
theorem line_unique {line line' rest rest' : List UInt8} (hline : newline ∉ line)
    (hline' : newline ∉ line') (h : line ++ newline :: rest = line' ++ newline :: rest') :
    line = line' ∧ rest = rest' := by
  have hframes := congrArg (Framing.frames (· == newline)) h
  rw [Framing.frames_append_cons (isFrame_line hline) (beq_self_eq_true newline),
    Framing.frames_append_cons (isFrame_line hline') (beq_self_eq_true newline)] at hframes
  obtain ⟨rfl, -⟩ := List.cons.inj hframes
  exact ⟨rfl, (List.cons.inj (List.append_cancel_left h)).2⟩

/-- A line that a newline ends is read as a frame, or is too long. -/
theorem readBoundedFrame_line {reader : BufferedReader UInt8} {line rest : List UInt8}
    (hline : newline ∉ line) (hunread : reader.unread = line ++ newline :: rest) (limit : Nat) :
    (line.length ≤ limit ∧ ∃ reader',
      readBoundedFrame reader limit = (.ok (frameOf line), reader') ∧ reader'.unread = rest) ∨
    limit < line.length ∧
      ∃ reader', readBoundedFrame reader limit = (.error (frameExceeds limit), reader') := by
  have hread := frameRead_readBoundedFrame reader limit
  rw [hunread] at hread
  generalize readBoundedFrame reader limit = outcome at hread
  cases hread with
  | @frame line' r hline' hlength hsame =>
    obtain ⟨rfl, rfl⟩ := line_unique hline hline' hsame
    exact Or.inl ⟨hlength, r, rfl, rfl⟩
  | @exceeds r start rest' hstart hlength _ hsame =>
    refine Or.inr ⟨Nat.lt_of_not_le fun hfits => hstart ?_, r, rfl⟩
    -- The newline is among the first bytes, which are more than the line has.
    have hprefix : line ++ [newline] <+: start := by
      have hline' : line ++ [newline] <+: line ++ newline :: rest := ⟨rest, by simp⟩
      refine List.prefix_of_prefix_length_le hline' ⟨rest', hsame.symm⟩ ?_
      rw [List.length_append, List.length_singleton]
      omega
    exact hprefix.subset (by simp)
  | ended hmem _ => exact absurd (by simp) hmem

/-- A last line that no newline ends is no frame. -/
theorem readBoundedFrame_last {reader : BufferedReader UInt8} (h : newline ∉ reader.unread)
    (limit : Nat) : ∃ reader', readBoundedFrame reader limit =
      (.error (if reader.unread.length ≤ limit + 1 then endOfFile else frameExceeds limit),
        reader') := by
  have hread := frameRead_readBoundedFrame reader limit
  generalize readBoundedFrame reader limit = outcome at hread
  cases hread with
  | frame _ _ hunread => exact absurd (hunread ▸ by simp) h
  | @exceeds r start rest _ hlength hrest hunread =>
    refine ⟨r, ?_⟩
    have := List.length_pos_iff.mpr hrest
    rw [hunread, List.length_append, if_neg (by omega)]
  | @ended r _ hlength => exact ⟨r, by rw [if_pos hlength]⟩

theorem unread_lt_of_frame {reader reader' : BufferedReader UInt8} {limit : Nat}
    {frame : List UInt8} (h : readBoundedFrame reader limit = (.ok frame, reader')) :
    reader'.unread.length < reader.unread.length := by
  have hread := frameRead_readBoundedFrame reader limit
  rw [h] at hread
  cases hread with
  | frame _ _ hunread =>
    rw [hunread, List.length_append, List.length_cons]
    omega

/-- Read frames up to the first error. -/
def readFrames (reader : BufferedReader UInt8) (limit : Nat) : List (List UInt8) × Failure :=
  match _h : readBoundedFrame reader limit with
  | (.ok frame, reader) => (frame :: (readFrames reader limit).1, (readFrames reader limit).2)
  | (.error err, _) => ([], err)
termination_by reader.unread.length
decreasing_by all_goals exact unread_lt_of_frame _h

theorem readFrames_of_frame {reader reader' : BufferedReader UInt8} {limit : Nat}
    {frame : List UInt8} (h : readBoundedFrame reader limit = (.ok frame, reader')) :
    readFrames reader limit =
      (frame :: (readFrames reader' limit).1, (readFrames reader' limit).2) := by
  rw [readFrames]
  split
  · next heq =>
    rw [h] at heq
    obtain ⟨hframe, rfl⟩ := Prod.mk.inj heq
    rw [Except.ok.inj hframe]
  · next heq =>
    rw [h] at heq
    cases (Prod.mk.inj heq).1

theorem readFrames_of_error {reader reader' : BufferedReader UInt8} {limit : Nat} {err : Failure}
    (h : readBoundedFrame reader limit = (.error err, reader')) :
    readFrames reader limit = ([], err) := by
  rw [readFrames]
  split
  · next heq =>
    rw [h] at heq
    cases (Prod.mk.inj heq).1
  · next heq =>
    rw [h] at heq
    rw [Except.error.inj (Prod.mk.inj heq).1]

/-- The lines that fit the limit are read as frames, up to what follows them. -/
theorem readFrames_terminated {limit : Nat} {lines : List (List UInt8)}
    (h : ∀ line ∈ lines, newline ∉ line ∧ line.length ≤ limit) {reader : BufferedReader UInt8}
    {rest : List UInt8} (hunread : reader.unread = terminated lines ++ rest) :
    ∃ reader', reader'.unread = rest ∧ readFrames reader limit =
      (lines.map frameOf ++ (readFrames reader' limit).1, (readFrames reader' limit).2) := by
  induction lines generalizing reader with
  | nil => exact ⟨reader, hunread, rfl⟩
  | cons line lines ih =>
    obtain ⟨⟨hline, hfits⟩, h⟩ := List.forall_mem_cons.mp h
    have hfirst : reader.unread = line ++ newline :: (terminated lines ++ rest) := by
      rw [hunread]
      simp [terminated]
    rcases readBoundedFrame_line hline hfirst limit with ⟨-, next, hread, hnext⟩ | ⟨hlong, -⟩
    · obtain ⟨reader', hrest, hframes⟩ := ih h hnext
      refine ⟨reader', hrest, ?_⟩
      rw [readFrames_of_frame hread, hframes]
      rfl
    · exact absurd hfits (Nat.not_le.mpr hlong)

/-! ### Round trip -/

/-- The encoding of a value, when it fits the limit. -/
def Encodes (limit : Nat) (value : Json.Marshalable) (encoded : List UInt8) : Prop :=
  (∃ text, Json.marshal value = some text ∧ encoded = Text.toBytes text) ∧ encoded.length ≤ limit

/-- The encoding of a value is a line that is its own frame. -/
theorem Encodes.line {limit : Nat} {value : Json.Marshalable} {encoded : List UInt8}
    (h : Encodes limit value encoded) :
    (newline ∉ encoded ∧ encoded.length ≤ limit) ∧ frameOf encoded = encoded := by
  obtain ⟨⟨text, htext, rfl⟩, hfits⟩ := h
  have hline := Json.isLine_of_marshal value htext
  obtain ⟨c, u, hfirst, hc⟩ := hline.first
  obtain ⟨v, d, hlast, hd⟩ := hline.last
  exact ⟨⟨ByteSpace.notMem_toBytes hline.noBreak, hfits⟩,
    ByteSpace.trimSpace_toBytes_newline hfirst hc.2 hlast hd.1 hd.2⟩

theorem forall_line_of_forall₂ {limit : Nat} {values : List Json.Marshalable}
    {encodings : List (List UInt8)} (h : List.Forall₂ (Encodes limit) values encodings) :
    ∀ encoded ∈ encodings,
      (newline ∉ encoded ∧ encoded.length ≤ limit) ∧ frameOf encoded = encoded := by
  induction h with
  | nil => exact List.forall_mem_nil _
  | cons hvalue _ ih => exact List.forall_mem_cons.mpr ⟨hvalue.line, ih⟩

theorem Encodes.writeBoundedFrame_eq {limit : Nat} {value : Json.Marshalable}
    {encoded : List UInt8} (h : Encodes limit value encoded) (stream : List UInt8) :
    writeBoundedFrame writeStream stream value limit =
      (stream ++ (encoded ++ [newline]), none) := by
  obtain ⟨⟨text, htext, rfl⟩, hfits⟩ := h
  rw [writeBoundedFrame, htext]
  dsimp only
  rw [if_neg (Nat.not_lt.mpr hfits)]
  simp [writeStream]

theorem writeFrames_writeStream {limit : Nat} {values : List Json.Marshalable}
    {encodings : List (List UInt8)} (h : List.Forall₂ (Encodes limit) values encodings)
    (stream : List UInt8) :
    writeFrames writeStream stream limit values = (stream ++ terminated encodings, none) := by
  induction h generalizing stream with
  | nil => simp [writeFrames, terminated]
  | @cons value encoded values encodings hvalue _ ih =>
    rw [writeFrames, hvalue.writeBoundedFrame_eq]
    dsimp only
    rw [ih, List.append_assoc]
    rfl

/-- **Frames.** The values of a list whose encodings fit the limit are read back as their encodings
and then the end of the stream, for every size of the buffer and however the source is cut into
reads. A line longer than the limit is refused, and a last line without newline is no frame: the
frames that are read are those of the lines before. -/
theorem readFrames_of_cut (limit size : Nat) :
    (∀ values encodings, List.Forall₂ (Encodes limit) values encodings →
      ∃ stream, writeFrames writeStream [] limit values = (stream, none) ∧
        ∀ source : Source UInt8, source.rest = stream →
          readFrames (newReaderSize source size) limit = (encodings, endOfFile)) ∧
    ∀ lines, (∀ line ∈ lines, newline ∉ line ∧ line.length ≤ limit) →
      ∀ last, newline ∉ last → ∀ source : Source UInt8,
        (∀ rest, limit < last.length →
          source.rest = terminated lines ++ (last ++ newline :: rest) →
          readFrames (newReaderSize source size) limit =
            (lines.map frameOf, frameExceeds limit)) ∧
        (source.rest = terminated lines ++ last →
          readFrames (newReaderSize source size) limit =
            (lines.map frameOf,
              if last.length ≤ limit + 1 then endOfFile else frameExceeds limit)) := by
  have hunread : ∀ source : Source UInt8, (newReaderSize source size).unread = source.rest :=
    fun source => rfl
  have hlast : ∀ lines, (∀ line ∈ lines, newline ∉ line ∧ line.length ≤ limit) →
      ∀ last, newline ∉ last → ∀ source : Source UInt8, source.rest = terminated lines ++ last →
      readFrames (newReaderSize source size) limit = (lines.map frameOf,
        if last.length ≤ limit + 1 then endOfFile else frameExceeds limit) := by
    intro lines hlines last hlast source hsource
    obtain ⟨reader, hrest, hframes⟩ := readFrames_terminated hlines ((hunread source).trans hsource)
    obtain ⟨reader', hread⟩ := readBoundedFrame_last (hrest ▸ hlast) limit
    rw [hframes, readFrames_of_error hread, List.append_nil, hrest]
  refine ⟨fun values encodings hvalues => ⟨terminated encodings, ?_, fun source hsource => ?_⟩,
    fun lines hlines last hnew source => ⟨fun rest hlong hsource => ?_,
      hlast lines hlines last hnew source⟩⟩
  · exact writeFrames_writeStream hvalues []
  · have hall := forall_line_of_forall₂ hvalues
    have hread := hlast encodings (fun encoded h => (hall encoded h).1) [] List.not_mem_nil source
      (by rw [hsource, List.append_nil])
    rw [hread, List.map_congr_left fun encoded h => (hall encoded h).2, List.map_id']
    rfl
  · obtain ⟨reader, hrest, hframes⟩ := readFrames_terminated hlines ((hunread source).trans hsource)
    rcases readBoundedFrame_line hnew hrest limit with ⟨hfits, -⟩ | ⟨-, reader', hread⟩
    · exact absurd hfits (Nat.not_le.mpr hlong)
    · rw [hframes, readFrames_of_error hread, List.append_nil]

/-- The lines `true` and `false`, handed over in two reads. -/
def cutSource : Source UInt8 where
  pieces := [Text.toBytes ['t', 'r', 'u'], Text.toBytes ['e', '\n', 'f', 'a', 'l', 's', 'e', '\n']]
  endsWithLast := true
  ne_nil := by decide

theorem readFrames_of_cut_pair :
    (∃ stream, writeFrames writeStream [] 9
        [.obj [(['a'], .str ['b'])], .bool true] = (stream, none) ∧
      ∀ source : Source UInt8, source.rest = stream →
        readFrames (newReaderSize source 16) 9 =
          ([Text.toBytes ['{', '"', 'a', '"', ':', '"', 'b', '"', '}'],
            Text.toBytes ['t', 'r', 'u', 'e']], endOfFile)) ∧
    readFrames (newReaderSize cutSource 16) 4 =
      ([['t', 'r', 'u', 'e']].map fun line => frameOf (Text.toBytes line), frameExceeds 4) := by
  constructor
  · refine (readFrames_of_cut 9 16).1 _ _ (.cons ⟨⟨_, rfl, rfl⟩, by decide⟩
      (.cons ⟨⟨_, rfl, rfl⟩, by decide⟩ .nil))
  · exact ((readFrames_of_cut 4 16).2 [Text.toBytes ['t', 'r', 'u', 'e']] (by decide)
      (Text.toBytes ['f', 'a', 'l', 's', 'e']) (by decide) cutSource).1 [] (by decide) rfl

/-! ### Frames of the handshake -/

/-- What is written of a handshake message is its line and a newline. -/
theorem writeBoundedFrame_eq_writeMeshFrame {value : Json.Marshalable} {text : Text}
    (h : Json.marshal value = some text) (stream : List UInt8) :
    writeBoundedFrame writeStream stream value meshMaxFrameBytes =
      match writeMeshFrame text with
      | .ok line => (stream ++ (line ++ [newline]), none)
      | .error err => (stream, some err) := by
  rw [writeBoundedFrame, h, writeMeshFrame]
  dsimp only
  split_ifs <;> simp [writeStream, frameExceeds, errorf]

/-- A handshake message is read off the stream by its line. -/
theorem readMeshFrame_of_line {σ : Type} (fields : List (Text × Json.Setter σ)) (default : σ)
    {reader : BufferedReader UInt8} {line rest : List UInt8} (hline : newline ∉ line)
    (hframe : frameOf line = line) (hunread : reader.unread = line ++ newline :: rest) :
    (do let frame ← (readBoundedFrame reader meshMaxFrameBytes).1
        decodeStrictFrame fields default (Text.ofBytes frame)) =
      readMeshFrame fields default line := by
  rw [readMeshFrame]
  rcases readBoundedFrame_line hline hunread meshMaxFrameBytes with
    ⟨hfits, reader', hread, -⟩ | ⟨hlong, reader', hread⟩
  · rw [hread, if_neg (Nat.not_lt.mpr hfits), hframe]
    rfl
  · rw [hread, if_pos hlong]
    rfl

end Thalweg
