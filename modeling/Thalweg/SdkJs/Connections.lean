import Thalweg.SdkJs.Chunks

/-!
# Connections that follow each other

A client that is closed or loses its connection makes a new socket with its next request. The
earlier socket may still emit events, and its callbacks use the same buffer, the same table of
pending requests and the same field for the client's socket.

## Main definitions

* `DaemonClient.Separate`: no frame is made of the bytes of two sockets, and no event of a socket
  settles a request that was written to a later one or takes a later socket from the client.
* `DaemonClient.Undisturbed`: the condition on the events of sockets under which this is so.

## Main results

* `separate_iff`: the connections of a run do not interfere exactly if its moves meet the condition.
* `meets_undisturbed_of_fresh`: they do if a socket is made only when the earlier ones have closed,
  with nothing left in the buffer.
-/

namespace Thalweg.SdkJs

variable {E D : Type}

/-- The event of a socket leaves later sockets and their requests alone, and a frame is of one
socket. -/
def Happening.IsHarmless : Happening → Prop
  | .framed socket origins => ∀ origin ∈ origins, origin = socket
  | .settled socket written => written ≤ socket
  | .cleared socket current => current ≤ socket

instance : (happening : Happening) → Decidable happening.IsHarmless
  | .framed socket origins => inferInstanceAs (Decidable (∀ origin ∈ origins, origin = socket))
  | .settled socket written => inferInstanceAs (Decidable (written ≤ socket))
  | .cleared socket current => inferInstanceAs (Decidable (current ≤ socket))

namespace DaemonClient

/-- The connections have not interfered. -/
def Separate (c : DaemonClient E D) : Prop := ∀ happening ∈ c.history, happening.IsHarmless

instance (c : DaemonClient E D) : Decidable c.Separate :=
  inferInstanceAs (Decidable (∀ happening ∈ c.history, happening.IsHarmless))

/-- The client's socket is no later one, and no request that was written to a later one is
pending. -/
def NoneLater (c : DaemonClient E D) (s : Nat) : Prop :=
  (∀ t ∈ c.socket, t ≤ s) ∧ ∀ p ∈ c.pending, p.socket ≤ s

instance (c : DaemonClient E D) (s : Nat) : Decidable (c.NoneLater s) :=
  inferInstanceAs (Decidable (_ ∧ _))

/-- Where the end of a frame arrives on a socket, the buffer holds nothing of other sockets. Where a
socket closes or is sent what ends the connection, no later socket is in use. A response on a socket
is not to a request of a later one. -/
def Undisturbed (decoder : Decoder E D) (c : DaemonClient E D) : ClientAction → Prop
  | .emit s (.data bytes) => '\n' ∈ Utf8Decoder.decode bytes → ∀ x ∈ c.buffer, x.1 = s
  | .emit s .close => c.NoneLater s
  | .work =>
    match c.job with
    | .parts s (part :: _) =>
      match readPart decoder part with
      | .failed _ => c.NoneLater s
      | .message (.response _ (some id) _ _ _ _) =>
        id ≠ [] → ∀ p ∈ c.pending, p.id = id → p.socket ≤ s
      | _ => True
    | _ => True
  | _ => True

instance (decoder : Decoder E D) (c : DaemonClient E D) :
    (a : ClientAction) → Decidable (Undisturbed decoder c a)
  | .emit s (.data bytes) => inferInstanceAs
      (Decidable ('\n' ∈ Utf8Decoder.decode bytes → ∀ x ∈ c.buffer, x.1 = s))
  | .emit s .close => inferInstanceAs (Decidable (c.NoneLater s))
  | .work => by
    unfold Undisturbed
    dsimp only
    split
    · split <;> infer_instance
    · infer_instance
  | .emit _ .connect => isTrue trivial
  | .emit _ (.error _) => isTrue trivial
  | .emit _ .lost => isTrue trivial
  | .request .. => isTrue trivial
  | .subscribe _ => isTrue trivial
  | .unsubscribe .. => isTrue trivial
  | .close => isTrue trivial
  | .resume _ => isTrue trivial
  | .timeout _ => isTrue trivial

/-! ### What a move adds -/

/-- What a move adds to the history is harmless exactly if the condition holds. -/
structure Adds (c c' : DaemonClient E D) (condition : Prop) : Prop where
  history : ∃ new, c'.history = c.history ++ new ∧
    (condition ↔ ∀ happening ∈ new, happening.IsHarmless)
  buffer : Framing.IsFrame (fun x => isNewline x.2) c.buffer →
    Framing.IsFrame (fun x => isNewline x.2) c'.buffer

theorem adds_of_eq {c c' : DaemonClient E D} (hhistory : c'.history = c.history)
    (hbuffer : c'.buffer = c.buffer) : Adds c c' True where
  history := ⟨[], by rw [hhistory, List.append_nil], by simp⟩
  buffer h := hbuffer ▸ h

theorem loses_isHarmless_iff (c : DaemonClient E D) (s : Nat) :
    (∀ happening ∈ c.loses s, happening.IsHarmless) ↔ c.NoneLater s := by
  simp only [loses, List.forall_mem_append, List.forall_mem_map, Happening.IsHarmless, NoneLater,
    Option.mem_toList]
  exact and_comm

theorem adds_receive (c : DaemonClient E D)
    (hbuffer : Framing.IsFrame (fun x => isNewline x.2) c.buffer) (s : Nat) (bytes : List UInt8) :
    Adds c (c.receive s bytes) ('\n' ∈ Utf8Decoder.decode bytes → ∀ x ∈ c.buffer, x.1 = s) where
  history := by
    refine ⟨_, rfl, ?_⟩
    simp only [List.forall_mem_map, Happening.IsHarmless]
    have howner : ∀ x ∈ (Utf8Decoder.decode bytes).map (Prod.mk s), x.1 = s := by
      simp
    constructor
    · intro h part hpart x hx
      rcases List.mem_append.mp (Framing.mem_of_mem_frames hpart hx) with hx | hx
      · refine h ?_ x hx
        -- without a newline there would be no part
        by_contra hnewline
        have hframe : Framing.IsFrame (fun x => isNewline x.2)
            (c.buffer ++ (Utf8Decoder.decode bytes).map (Prod.mk s)) := by
          refine List.forall_mem_append.mpr ⟨hbuffer, List.forall_mem_map.mpr ?_⟩
          exact isFrame_iff.mpr hnewline
        rw [Framing.frames_of_isFrame hframe] at hpart
        cases hpart
      · exact howner x hx
    · intro h hnewline x hx
      rcases Framing.isFrame_or_exists isNewline (Utf8Decoder.decode bytes) with hframe |
        ⟨first, sep, rest, htext, hfirst, hsep⟩
      · exact absurd hnewline (isFrame_iff.mp hframe)
      · have hframes : Framing.frames (fun x => isNewline x.2)
            (c.buffer ++ (Utf8Decoder.decode bytes).map (Prod.mk s)) =
              (c.buffer ++ first.map (Prod.mk s)) ::
                Framing.frames (fun x => isNewline x.2) (rest.map (Prod.mk s)) := by
          rw [htext, List.map_append, List.map_cons, ← List.append_assoc]
          have hmapped : Framing.IsFrame (fun x : Nat × Char => isNewline x.2)
              (first.map (Prod.mk s)) := List.forall_mem_map.mpr hfirst
          exact @Framing.frames_append_cons _ (fun x : Nat × Char => isNewline x.2) _
            (List.forall_mem_append.mpr ⟨hbuffer, hmapped⟩) (s, sep) hsep _
        refine h (c.buffer ++ first.map (Prod.mk s)) ?_ x (List.mem_append_left _ hx)
        rw [hframes]
        exact List.mem_cons_self
  buffer _ := Framing.isFrame_remainder _ _

theorem history_settle (c : DaemonClient E D) (id : Text) (phase : PendingRequest → CallPhase D) :
    (c.settle id phase).history = c.history ∧ (c.settle id phase).buffer = c.buffer := by
  unfold settle
  split <;> exact ⟨rfl, rfl⟩

theorem adds_processPart (decoder : Decoder E D) (c : DaemonClient E D) {s : Nat} {part : Text}
    {rest : List Text} (hjob : c.job = .parts s (part :: rest)) :
    Adds c (processPart decoder { c with job := .parts s rest } s part)
      (c.Undisturbed decoder .work) := by
  unfold Undisturbed processPart
  rw [hjob]
  dsimp only
  cases readPart decoder part with
  | blank => exact adds_of_eq rfl rfl
  | failed error =>
    exact ⟨⟨c.loses s, rfl, (loses_isHarmless_iff c s).symm⟩, fun h => h⟩
  | message message =>
    cases message with
    | event _ subscriptionId event =>
      dsimp only
      unfold push
      dsimp only
      split
      · exact adds_of_eq rfl rfl
      · split_ifs <;> exact adds_of_eq rfl rfl
    | response _ id success data error errorDetails =>
      dsimp only
      match id with
      | none => exact adds_of_eq rfl rfl
      | some [] => exact ⟨⟨[], (List.append_nil _).symm, by simp⟩, fun h => h⟩
      | some (a :: id) =>
        refine ⟨⟨_, rfl, ?_⟩, fun h => ?_⟩
        · simp only [List.forall_mem_map, List.mem_filter, decide_eq_true_eq, and_imp,
            Happening.IsHarmless]
          exact ⟨fun h => h (List.cons_ne_nil _ _), fun h _ => h⟩
        · dsimp only
          rw [respond, (history_settle _ _ _).2]
          exact h

theorem adds_connect (c : DaemonClient E D) (method : Method) (action payload : Text) :
    Adds c (c.connect method action payload) True := by
  unfold connect
  split <;> exact adds_of_eq rfl rfl

theorem adds_step {decoder : Decoder E D} {c c' : DaemonClient E D} {a : ClientAction}
    (hbuffer : Framing.IsFrame (fun x => isNewline x.2) c.buffer)
    (hs : c.step decoder a = some c') : Adds c c' (c.Undisturbed decoder a) := by
  cases a with
  | request action payload =>
    cases hs
    exact adds_connect _ _ _ _
  | subscribe payload =>
    cases hs
    exact adds_connect _ _ _ _
  | unsubscribe id payload =>
    cases hs
    have h := adds_connect { c with
      subscriptions := Function.update c.subscriptions id none
      queuedSubscriptionEvents := Function.update c.queuedSubscriptionEvents id []
      unsubscribed := c.unsubscribed ++ [id] } .unsubscribe "siphon_unregister".toList payload
    exact ⟨h.history, h.buffer⟩
  | close =>
    cases hs
    unfold close
    split <;> exact adds_of_eq rfl rfl
  | work =>
    simp only [DaemonClient.step, work] at hs
    split at hs
    · next s part rest hjob =>
      cases hs
      exact adds_processPart decoder c hjob
    · next i event rest hjob =>
      cases hs
      unfold Undisturbed
      rw [hjob]
      exact adds_of_eq rfl rfl
    · cases hs
  | resume i =>
    simp only [DaemonClient.step, Option.ite_none_right_eq_some] at hs
    obtain ⟨-, hs⟩ := hs
    obtain ⟨call, -, hs⟩ := Option.bind_eq_some_iff.mp hs
    simp only [resume] at hs
    split at hs
    · split at hs
      · cases hs
      · cases hs
        unfold send
        dsimp only
        split <;> exact adds_of_eq rfl rfl
      · cases hs
        exact adds_of_eq rfl rfl
    · split_ifs at hs
      cases hs
      exact adds_of_eq rfl rfl
    · cases hs
  | timeout id =>
    simp only [DaemonClient.step, Option.ite_none_right_eq_some, Option.some.injEq] at hs
    obtain ⟨-, rfl⟩ := hs
    have hsettle := history_settle c id fun p => .rejected (.timedOut p.action)
    exact adds_of_eq hsettle.1 hsettle.2
  | emit s event =>
    simp only [DaemonClient.step, Option.ite_none_right_eq_some] at hs
    obtain ⟨-, hs⟩ := hs
    obtain ⟨socket, -, hs⟩ := Option.bind_eq_some_iff.mp hs
    cases event with
    | data bytes =>
      simp only [emit, Option.ite_none_right_eq_some, Option.some.injEq] at hs
      obtain ⟨-, rfl⟩ := hs
      exact adds_receive c hbuffer s bytes
    | close =>
      simp only [emit, Option.ite_none_left_eq_some, Option.some.injEq] at hs
      obtain ⟨-, rfl⟩ := hs
      exact ⟨⟨c.loses s, rfl, (loses_isHarmless_iff c s).symm⟩, fun h => h⟩
    | connect =>
      simp only [emit, Option.ite_none_left_eq_some, Option.some.injEq] at hs
      obtain ⟨-, rfl⟩ := hs
      exact adds_of_eq rfl rfl
    | error message =>
      simp only [emit, Option.ite_none_left_eq_some, Option.some.injEq] at hs
      obtain ⟨-, rfl⟩ := hs
      exact adds_of_eq rfl rfl
    | lost =>
      simp only [emit, Option.ite_none_left_eq_some, Option.some.injEq] at hs
      obtain ⟨-, rfl⟩ := hs
      exact adds_of_eq rfl rfl

/-- What a run adds to the history is harmless exactly if its moves meet the condition. -/
theorem exists_history_of_run {decoder : Decoder E D} {c c' : DaemonClient E D}
    {actions : List ClientAction} (hbuffer : Framing.IsFrame (fun x => isNewline x.2) c.buffer)
    (hrun : Machine.run (step decoder) c actions = some c') :
    ∃ new, c'.history = c.history ++ new ∧
      ((∀ happening ∈ new, happening.IsHarmless) ↔
        Machine.Meets (step decoder) (Undisturbed decoder) c actions) := by
  induction actions generalizing c with
  | nil =>
    obtain rfl := Option.some.inj hrun
    exact ⟨[], (List.append_nil _).symm, by simp [Machine.Meets]⟩
  | cons a actions ih =>
    obtain ⟨c₁, ha, hrest⟩ := Machine.run_cons_eq_some_iff.mp hrun
    obtain ⟨⟨first, hfirst, hcondition⟩, hkept⟩ := adds_step hbuffer ha
    obtain ⟨more, hmore, hmeets⟩ := ih (hkept hbuffer) hrest
    refine ⟨first ++ more, by rw [hmore, hfirst, List.append_assoc], ?_⟩
    rw [List.forall_mem_append, ← hcondition, hmeets, Machine.meets_cons_iff]
    refine and_congr_right fun _ => ⟨fun h c₂ hc₂ => ?_, fun h => h c₁ ha⟩
    rwa [← Option.some.inj (ha.symm.trans hc₂)]

/-- **Connections.** The connections of a run do not interfere exactly if its moves meet the
condition. -/
theorem separate_iff {decoder : Decoder E D} {actions : List ClientAction} {c : DaemonClient E D}
    (hrun : Machine.run (step decoder) new actions = some c) :
    c.Separate ↔ Machine.Meets (step decoder) (Undisturbed decoder) new actions := by
  obtain ⟨all, hall, hmeets⟩ := exists_history_of_run (Framing.isFrame_nil _) hrun
  rw [← hmeets, Separate, hall]
  rfl

/-! ### Connections that interfere -/

/-- The response to a request without data. -/
def responseFrame (id : Text) : Text :=
  "\x7b\"id\":\"".toList ++ id ++ "\",\"protocolVersion\":1,\"success\":true\x7d".toList

/-- `JSON.parse` on the responses to the first two requests, whole or cut off. -/
def responseDecoder : Decoder Text Unit where
  parse t := (["req_1".toList, "req_2".toList].find? fun id => responseFrame id == t).map fun id =>
    .response (some 1) (some id) true () none none
  subscriptionId _ := []

/-- A request on the socket `s`, which is made for it. -/
def requestOn (s : Nat) : List ClientAction :=
  [.request "status".toList "null".toList, .emit s .connect, .resume s]

/-- The first connection ends with its response, before the second one is made. -/
def orderlyRun : List ClientAction :=
  requestOn 0 ++ [.emit 0 (.data (Text.toBytes (stream [responseFrame "req_1".toList]))), .work,
    .emit 0 .close] ++ requestOn 1 ++
    [.emit 1 (.data (Text.toBytes (stream [responseFrame "req_2".toList]))), .work, .close]

theorem separate_orderlyRun :
    ∃ c, Machine.run (step responseDecoder) new orderlyRun = some c ∧ c.Separate := by
  have hsome : (Machine.run (step responseDecoder) new orderlyRun).isSome = true := by
    decide +kernel
  have hmeets : Machine.Meets (step responseDecoder) (Undisturbed responseDecoder) new
      orderlyRun := by decide +kernel
  obtain ⟨c, hc⟩ := Option.isSome_iff_exists.mp hsome
  exact ⟨c, hc, (separate_iff hc).mpr hmeets⟩

/-- The client is closed and makes a second connection before the first socket has closed. -/
def overtakenRun : List ClientAction :=
  requestOn 0 ++ [.close] ++ requestOn 1 ++ [.emit 0 .close]

/-- The first connection is lost in the middle of a response. -/
def truncatedRun : List ClientAction :=
  requestOn 0 ++ [.emit 0 (.data (Text.toBytes ((responseFrame "req_1".toList).take 20))),
    .emit 0 .close] ++ requestOn 1 ++
    [.emit 1 (.data (Text.toBytes (stream [responseFrame "req_2".toList])))]

/-- The late end of the first socket rejects the request on the second one and takes this one from
the client. The beginning of a response is joined with the response on the next connection. -/
theorem not_separate_overtakenRun :
    (∃ c, Machine.run (step responseDecoder) new overtakenRun = some c ∧
        .settled 0 1 ∈ c.history ∧ .cleared 0 1 ∈ c.history ∧ ¬ c.Separate) ∧
      ∃ c, Machine.run (step responseDecoder) new truncatedRun = some c ∧ ¬ c.Separate := by
  have hovertaken : (Machine.run (step responseDecoder) new overtakenRun).any (fun c =>
      decide (.settled 0 1 ∈ c.history ∧ .cleared 0 1 ∈ c.history ∧ ¬ c.Separate)) = true := by
    decide +kernel
  have htruncated : (Machine.run (step responseDecoder) new truncatedRun).any (fun c =>
      decide (¬ c.Separate)) = true := by decide +kernel
  obtain ⟨c, hc, h⟩ := Option.any_eq_true _ _ |>.mp hovertaken
  obtain ⟨c', hc', h'⟩ := Option.any_eq_true _ _ |>.mp htruncated
  exact ⟨⟨c, hc, of_decide_eq_true h⟩, c', hc', of_decide_eq_true h'⟩

/-! ### Sockets that close before the next one is made -/

/-- A socket is made only when all earlier ones have closed, and nothing is left in the buffer. -/
def Fresh (c : DaemonClient E D) : ClientAction → Prop
  | .request .. | .subscribe _ | .unsubscribe .. => c.openSocket = none → c.connecting = none →
      (∀ socket ∈ c.sockets, socket.closed = true) ∧ c.buffer = []
  | _ => True

/-- Only the last socket is in use. -/
structure Single (c : DaemonClient E D) : Prop where
  closed : ∀ (s : Nat) (socket : Socket), c.sockets[s]? = some socket → socket.closed = false →
    s + 1 = c.sockets.length
  socket : ∀ t ∈ c.socket, t < c.sockets.length
  pending : ∀ p ∈ c.pending, p.socket < c.sockets.length
  buffer : ∀ x ∈ c.buffer, x.1 + 1 = c.sockets.length
  job : ∀ s part rest, c.job = .parts s (part :: rest) →
    ∃ socket, c.sockets[s]? = some socket ∧ socket.closed = false

theorem single_new : Single (new : DaemonClient E D) := by
  constructor <;> simp [new]

/-- No socket has opened or closed. -/
structure SocketsAlike (sockets sockets' : List Socket) : Prop where
  length : sockets'.length = sockets.length
  closed : ∀ s : Nat, sockets'[s]?.map Socket.closed = sockets[s]?.map Socket.closed

theorem socketsAlike_refl (sockets : List Socket) : SocketsAlike sockets sockets :=
  ⟨rfl, fun _ => rfl⟩

theorem socketsAlike_modify (sockets : List Socket) (t : Nat) {f : Socket → Socket}
    (hf : ∀ socket, (f socket).closed = socket.closed) :
    SocketsAlike sockets (sockets.modify t f) := by
  refine ⟨List.length_modify .., fun s => ?_⟩
  by_cases hts : t = s
  · subst hts
    rw [List.getElem?_modify_eq]
    cases sockets[t]? with
    | none => rfl
    | some socket => exact congrArg some (hf socket)
  · rw [List.getElem?_modify_ne _ _ hts]

theorem SocketsAlike.exists_of_closed {sockets sockets' : List Socket}
    (h : SocketsAlike sockets sockets') {s : Nat} {b : Bool}
    (hs : ∃ socket, sockets[s]? = some socket ∧ socket.closed = b) :
    ∃ socket, sockets'[s]? = some socket ∧ socket.closed = b := by
  obtain ⟨socket, hsocket, hclosed⟩ := hs
  have hmap := h.closed s
  rw [hsocket, Option.map_some, Option.map_eq_some_iff] at hmap
  obtain ⟨socket', hsocket', hclosed'⟩ := hmap
  exact ⟨socket', hsocket', hclosed'.trans hclosed⟩

/-- A move that makes no socket, closes none and writes only to a socket that there is. -/
theorem Single.of_alike {c c' : DaemonClient E D} (h : c.Single)
    (hsockets : SocketsAlike c.sockets c'.sockets)
    (hsocket : ∀ t ∈ c'.socket, t < c.sockets.length)
    (hpending : ∀ p ∈ c'.pending, p.socket < c.sockets.length)
    (hbuffer : ∀ x ∈ c'.buffer, x.1 + 1 = c.sockets.length)
    (hjob : ∀ s part rest, c'.job = .parts s (part :: rest) →
      ∃ socket, c.sockets[s]? = some socket ∧ socket.closed = false) : c'.Single := by
  have hback : ∀ (s : Nat) (socket' : Socket), c'.sockets[s]? = some socket' →
      ∃ socket, c.sockets[s]? = some socket ∧ socket.closed = socket'.closed := by
    intro s socket' hsocket'
    have hmap := hsockets.closed s
    rw [hsocket', Option.map_some, eq_comm, Option.map_eq_some_iff] at hmap
    exact hmap
  refine ⟨fun s socket' hs hopen => ?_, ?_, ?_, ?_, fun s part rest hj =>
    hsockets.exists_of_closed (hjob s part rest hj)⟩
  · obtain ⟨socket, hold, hclosed⟩ := hback s socket' hs
    rw [hsockets.length]
    exact h.closed s socket hold (hclosed.trans hopen)
  · rwa [hsockets.length]
  · rwa [hsockets.length]
  · rwa [hsockets.length]

theorem Single.connect {c : DaemonClient E D} (h : c.Single) (method : Method)
    (action payload : Text)
    (hfresh : c.openSocket = none → c.connecting = none →
      (∀ socket ∈ c.sockets, socket.closed = true) ∧ c.buffer = []) :
    (c.connect method action payload).Single := by
  unfold DaemonClient.connect
  split
  · exact ⟨h.closed, h.socket, h.pending, h.buffer, h.job⟩
  · exact ⟨h.closed, h.socket, h.pending, h.buffer, h.job⟩
  · next hopen hconnecting =>
    obtain ⟨hclosed, hbuffer⟩ := hfresh hopen hconnecting
    have hlength : (c.sockets ++ [Socket.create]).length = c.sockets.length + 1 := by simp
    refine ⟨fun s socket hs hnot => ?_, fun t ht => ?_, fun p hp => ?_, fun x hx => ?_,
      fun s part rest hjob => ?_⟩
    · dsimp only at hs ⊢
      rw [hlength]
      rcases lt_or_ge s c.sockets.length with hlt | hge
      · rw [List.getElem?_append_left hlt] at hs
        rw [hclosed socket (List.mem_of_getElem? hs)] at hnot
        cases hnot
      · have := (List.getElem?_eq_some_iff.mp hs).1
        omega
    · obtain rfl := Option.some.inj ht
      dsimp only
      omega
    · have := h.pending p hp
      dsimp only
      omega
    · have hx : x ∈ c.buffer := hx
      rw [hbuffer] at hx
      cases hx
    · obtain ⟨socket, hs, hnot⟩ := h.job s part rest hjob
      rw [hclosed socket (List.mem_of_getElem? hs)] at hnot
      cases hnot

theorem Single.settle {c : DaemonClient E D} (h : c.Single) (id : Text)
    (phase : PendingRequest → CallPhase D) : (c.settle id phase).Single := by
  unfold DaemonClient.settle
  split
  · exact h
  · exact h.of_alike (socketsAlike_refl _) h.socket
      (fun p hp => h.pending p (List.mem_filter.mp hp).1) h.buffer h.job

theorem Single.processPart {c : DaemonClient E D} (h : c.Single) (decoder : Decoder E D) (s : Nat)
    (part : Text) : (processPart decoder c s part).Single := by
  unfold DaemonClient.processPart
  split
  · exact h
  · unfold failConnection
    refine h.of_alike ?_ h.socket (List.forall_mem_nil _) h.buffer fun _ _ _ hj => nomatch hj
    dsimp only
    split
    · exact socketsAlike_refl _
    · exact socketsAlike_modify _ _ fun _ => rfl
  · unfold push
    dsimp only
    split
    · exact ⟨h.closed, h.socket, h.pending, h.buffer, h.job⟩
    · split_ifs <;> exact ⟨h.closed, h.socket, h.pending, h.buffer, h.job⟩
  · split
    · exact h
    · exact h
    · have hsettle := h.settle
      exact ⟨(hsettle _ _).closed, (hsettle _ _).socket, (hsettle _ _).pending,
        (hsettle _ _).buffer, (hsettle _ _).job⟩

theorem Single.emit {c c' : DaemonClient E D} (h : c.Single) (hidle : c.job.isIdle = true)
    {s : Nat} {socket : Socket} (hsocket : c.sockets[s]? = some socket) {event : SocketEvent}
    (he : c.emit s socket event = some c') : c'.Single := by
  cases event with
  | connect =>
    simp only [DaemonClient.emit, Option.ite_none_left_eq_some, Option.some.injEq] at he
    obtain ⟨-, rfl⟩ := he
    exact h.of_alike (socketsAlike_modify _ _ fun _ => rfl) h.socket h.pending h.buffer h.job
  | error message =>
    simp only [DaemonClient.emit, Option.ite_none_left_eq_some, Option.some.injEq] at he
    obtain ⟨-, rfl⟩ := he
    exact h.of_alike (socketsAlike_modify _ _ fun _ => rfl) h.socket h.pending h.buffer h.job
  | lost =>
    simp only [DaemonClient.emit, Option.ite_none_left_eq_some, Option.some.injEq] at he
    obtain ⟨-, rfl⟩ := he
    exact h.of_alike (socketsAlike_modify _ _ fun _ => rfl) h.socket h.pending h.buffer h.job
  | data bytes =>
    simp only [DaemonClient.emit, Option.ite_none_right_eq_some, Option.some.injEq,
      Bool.and_eq_true, Bool.not_eq_true'] at he
    obtain ⟨⟨-, hopen⟩, rfl⟩ := he
    refine h.of_alike (socketsAlike_refl _) h.socket h.pending (fun x hx => ?_)
      fun t part rest hj => ?_
    · have hx := Framing.mem_of_mem_remainder hx
      rcases List.mem_append.mp hx with hx | hx
      · exact h.buffer x hx
      · obtain ⟨a, -, rfl⟩ := List.mem_map.mp hx
        exact h.closed s socket hsocket hopen
    · obtain ⟨rfl, -⟩ := Job.parts.inj hj
      exact ⟨socket, hsocket, hopen⟩
  | close =>
    simp only [DaemonClient.emit, Option.ite_none_left_eq_some, Option.some.injEq] at he
    obtain ⟨-, rfl⟩ := he
    unfold DaemonClient.closed
    have hlength : (c.sockets.modify s fun socket =>
        { socket with closed := true, destroyed := true }).length = c.sockets.length :=
      List.length_modify ..
    refine ⟨fun t socket' ht hnot => ?_, fun _ ht => (by cases ht), List.forall_mem_nil _,
      fun x hx => ?_, fun t part rest hj => ?_⟩
    · dsimp only at ht ⊢
      rw [hlength]
      by_cases hst : s = t
      · subst hst
        rw [List.getElem?_modify_eq, hsocket] at ht
        obtain rfl := Option.some.inj ht
        cases hnot
      · rw [List.getElem?_modify_ne _ _ hst] at ht
        exact h.closed t socket' ht hnot
    · exact (h.buffer x hx).trans hlength.symm
    · rw [show c.job = .parts t (part :: rest) from hj] at hidle
      cases hidle

theorem Single.step {decoder : Decoder E D} {c c' : DaemonClient E D} {a : ClientAction}
    (h : c.Single) (hfresh : c.Fresh a) (hs : c.step decoder a = some c') : c'.Single := by
  cases a with
  | request action payload =>
    cases hs
    exact h.connect _ _ _ hfresh
  | subscribe payload =>
    cases hs
    exact h.connect _ _ _ hfresh
  | unsubscribe id payload =>
    cases hs
    have hsame : Single { c with
        subscriptions := Function.update c.subscriptions id none
        queuedSubscriptionEvents := Function.update c.queuedSubscriptionEvents id []
        unsubscribed := c.unsubscribed ++ [id] } :=
      ⟨h.closed, h.socket, h.pending, h.buffer, h.job⟩
    exact hsame.connect _ _ _ hfresh
  | close =>
    cases hs
    unfold DaemonClient.close
    split
    · exact h
    · exact h.of_alike (socketsAlike_modify _ _ fun _ => rfl) (fun _ ht => by cases ht) h.pending
        h.buffer h.job
  | work =>
    simp only [DaemonClient.step, work] at hs
    split at hs
    · next s part rest hjob =>
      cases hs
      have hsame : Single { c with job := .parts s rest } := by
        refine ⟨h.closed, h.socket, h.pending, h.buffer, fun t part' rest' hj => ?_⟩
        obtain ⟨rfl, -⟩ := Job.parts.inj hj
        exact h.job s part rest hjob
      exact hsame.processPart decoder s part
    · cases hs
      exact ⟨h.closed, h.socket, h.pending, h.buffer, fun _ _ _ hj => by cases hj⟩
    · cases hs
  | resume i =>
    simp only [DaemonClient.step, Option.ite_none_right_eq_some] at hs
    obtain ⟨-, hs⟩ := hs
    obtain ⟨call, -, hs⟩ := Option.bind_eq_some_iff.mp hs
    simp only [resume] at hs
    split at hs
    · split at hs
      · cases hs
      · cases hs
        unfold send
        dsimp only
        split
        · next s hopen =>
          have hs : s < c.sockets.length := h.socket s (Option.filter_eq_some_iff.mp hopen).1
          refine h.of_alike (socketsAlike_modify _ _ fun _ => rfl) h.socket (fun p hp => ?_)
            h.buffer h.job
          rcases List.mem_append.mp hp with hp | hp
          · exact h.pending p hp
          · rw [List.mem_singleton.mp hp]
            exact hs
        · exact ⟨h.closed, h.socket, h.pending, h.buffer, h.job⟩
      · cases hs
        exact ⟨h.closed, h.socket, h.pending, h.buffer, h.job⟩
    · split_ifs at hs
      cases hs
      exact ⟨h.closed, h.socket, h.pending, h.buffer, fun _ _ _ hj => by cases hj⟩
    · cases hs
  | timeout id =>
    simp only [DaemonClient.step, Option.ite_none_right_eq_some, Option.some.injEq] at hs
    obtain ⟨-, rfl⟩ := hs
    exact h.settle id _
  | emit s event =>
    simp only [DaemonClient.step, Option.ite_none_right_eq_some] at hs
    obtain ⟨hidle, hs⟩ := hs
    obtain ⟨socket, hsocket, hs⟩ := Option.bind_eq_some_iff.mp hs
    exact h.emit hidle hsocket hs

/-- Where only the last socket is in use, its events disturb no other one. -/
theorem Single.undisturbed {c c' : DaemonClient E D} (h : c.Single) (decoder : Decoder E D)
    {a : ClientAction} (hs : c.step decoder a = some c') : c.Undisturbed decoder a := by
  have hlast : ∀ (s : Nat) socket, c.sockets[s]? = some socket → socket.closed = false →
      c.NoneLater s := by
    intro s socket hsocket hopen
    have hs := h.closed s socket hsocket hopen
    refine ⟨fun t ht => ?_, fun p hp => ?_⟩
    · have := h.socket t ht
      omega
    · have := h.pending p hp
      omega
  cases a with
  | work =>
    simp only [Undisturbed]
    split
    · next s part rest hjob =>
      obtain ⟨socket, hsocket, hopen⟩ := h.job s part rest hjob
      have hnone := hlast s socket hsocket hopen
      split
      · exact hnone
      · exact fun _ p hp _ => hnone.2 p hp
      · trivial
    · trivial
  | emit s event =>
    simp only [DaemonClient.step, Option.ite_none_right_eq_some] at hs
    obtain ⟨-, hs⟩ := hs
    obtain ⟨socket, hsocket, hs⟩ := Option.bind_eq_some_iff.mp hs
    cases event with
    | data bytes =>
      simp only [DaemonClient.emit, Option.ite_none_right_eq_some, Bool.and_eq_true,
        Bool.not_eq_true'] at hs
      intro _ x hx
      have hsame := h.closed s socket hsocket hs.1.2
      have := h.buffer x hx
      omega
    | close =>
      simp only [DaemonClient.emit, Option.ite_none_left_eq_some, Bool.not_eq_true] at hs
      exact hlast s socket hsocket hs.1
    | _ => trivial
  | _ => trivial

/-- If sockets are made only when the earlier ones have closed, with nothing left in the buffer,
their connections do not interfere. -/
theorem meets_undisturbed_of_fresh {decoder : Decoder E D} {actions : List ClientAction}
    {c : DaemonClient E D} (hmeets : Machine.Meets (step decoder) Fresh new actions)
    (hrun : Machine.run (step decoder) new actions = some c) :
    Machine.Meets (step decoder) (Undisturbed decoder) new actions :=
  hmeets.of_run (fun _ _ _ h hfresh hs => ⟨h.step hfresh hs, h.undisturbed decoder hs⟩) single_new
    hrun

end DaemonClient

end Thalweg.SdkJs
