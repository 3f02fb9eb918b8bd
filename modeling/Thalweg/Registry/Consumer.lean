import Thalweg.Data.Machine
import Thalweg.Registry.Output

/-!
# Consumers

The worker of a Sink or a Processor polls the siphon of its definition, runs the command on each
delivery and acknowledges the delivery afterwards. What the daemon answers, what the command does,
when the worker is cancelled and when the time of the command runs out is left open, and each of it
may happen between any two steps of the worker.

## Main definitions

* `Consumer`, `Consumer.step`: a consumer, with the history of what has happened.
* `Worked`: what happens while a command works on a delivery.
* `Warranted`: what comes before an acknowledgement and before the start of a command.

## Main results

* `Consumer.warranted_of_run`: the runs of a consumer.
-/

namespace Thalweg.Registry

open Machine

/-- What has happened to a consumer. -/
inductive ConsumerEvent where
  /-- A poll has returned. -/
  | polled (result : Result DurableSiphonDelivery)
  /-- The command has started with its input. -/
  | started (input : Text)
  /-- The command has written a line. -/
  | line (line : Text)
  /-- The daemon has stored what a line asks for. -/
  | ingested (request : IngestRequest)
  /-- The command has exited; a status other than 0 is an error. -/
  | exited (result : Result Unit)
  /-- The worker has called `AcknowledgeDurable`. -/
  | acknowledged (deliveryID : Text)
  /-- The context of the worker has ended. -/
  | cancelled
  /-- The time of the command has run out. -/
  | expired

/-- Where a consumer stands: in `runConsumer`, and from `preparing` to `exited` in `runDelivery`. -/
inductive Phase where
  | creating
  | looping
  | polling
  | polled (result : Result DurableSiphonDelivery)
  | preparing (delivery : DurableSiphonDelivery)
  /-- In `consumeProcessorOutput`, after `sequence` events. -/
  | reading (delivery : DurableSiphonDelivery) (sequence : Nat)
  | ingesting (delivery : DurableSiphonDelivery) (sequence : Nat) (request : IngestRequest)
  /-- The command is told to stop and waited for. -/
  | terminating (error : Failure)
  | waiting (delivery : DurableSiphonDelivery)
  | exited (delivery : DurableSiphonDelivery) (result : Result Unit)
  | failed (error : Failure)
  | backingOff
  | acknowledging (delivery : DurableSiphonDelivery)
  | acknowledged
  | ended

/-- The context of a command exists. -/
def Phase.hasCommand : Phase → Bool
  | .preparing _ | .reading .. | .ingesting .. | .terminating _ | .waiting _ | .exited .. => true
  | _ => false

/-- A worker with what it has done. -/
structure Consumer where
  definition : Definition
  phase : Phase
  cancelled : Bool
  expired : Bool
  history : List ConsumerEvent

/-- The results of calls, of the command and of waiting; `proceed` goes on without one. -/
inductive ConsumerAction where
  | cancel
  | expire
  | proceed
  | created (result : Result Unit)
  | polled (result : Result DurableSiphonDelivery)
  /-- The log and the pipes are made and the command starts, or one of it fails. -/
  | started (result : Result Unit)
  | line (line : Text)
  /-- The output has ended, or it cannot be read. -/
  | closed (result : Result Unit)
  | ingested (result : Result Unit)
  | exited (result : Result Unit)
  /-- The backoff has elapsed, or the context ends it. -/
  | awoken (elapsed : Bool)
  | acknowledged (result : Result Unit)

namespace Consumer

/-- A worker that begins. -/
def new (definition : Definition) : Consumer := ⟨definition, .creating, false, false, []⟩

/-- The worker in another phase. -/
def enter (c : Consumer) (phase : Phase) : Consumer := { c with phase }

/-- The worker with one more entry in its history. -/
def note (c : Consumer) (e : ConsumerEvent) : Consumer := { c with history := c.history ++ [e] }

/-- Back off, unless the definition is not tried again. -/
def retry (c : Consumer) : Consumer :=
  c.enter (if c.definition.spec.retry.policy = "never".toList then .ended else .backingOff)

/-- What a consumer does with its own knowledge. -/
def proceed (c : Consumer) : Option Consumer :=
  match c.phase with
  | .looping => some (c.enter (if c.cancelled then .ended else .polling))
  | .polled result =>
    if c.cancelled then some (c.enter .ended)
    else
      match result with
      | .error _ => some c.retry
      | .ok delivery =>
        if delivery.deliveryID = [] then some (c.enter .looping)
        else some { c.enter (.preparing delivery) with expired := false }
  | .exited delivery result =>
    if c.cancelled ∨ c.expired then some (c.enter (.failed (.external "context")))
    else
      match result with
      | .error e => some (c.enter (.failed (.wrap "registry command failed: %w" [] e)))
      | .ok () => some (c.enter (.acknowledging delivery))
  | .failed _ => some (if c.cancelled then c.enter .ended else c.retry)
  | .acknowledging delivery =>
    some ((c.enter .acknowledged).note (.acknowledged delivery.deliveryID))
  | _ => none

/-- The command starts with the input of the delivery. -/
def startCommand (c : Consumer) (delivery : DurableSiphonDelivery) : Consumer :=
  match deliveryInput c.definition delivery with
  | .error e => c.enter (.failed e)
  | .ok input =>
    (c.enter (if c.definition.kind = .processor then .reading delivery 0
      else .waiting delivery)).note (.started input)

/-- The consumer reads a line of output. -/
def readLine (c : Consumer) (delivery : DurableSiphonDelivery) (sequence : Nat) (line : Text) :
    Consumer :=
  (c.enter (match readOutput c.definition delivery.deliveryID sequence line with
    | .error e => .terminating e
    | .ok none => .reading delivery sequence
    | .ok (some request) => .ingesting delivery (sequence + 1) request)).note (.line line)

/-- A step of the worker, if it is in the phase for it. -/
def step (c : Consumer) : ConsumerAction → Option Consumer
  | .cancel => some { c.note .cancelled with cancelled := true }
  | .expire =>
    if c.phase.hasCommand ∧ 0 < c.definition.spec.timeout then
      some { c.note .expired with expired := true }
    else none
  | .proceed => c.proceed
  | .created result =>
    match c.phase, result with
    | .creating, .error _ => some (c.enter .ended)
    | .creating, .ok () => some (c.enter .looping)
    | _, _ => none
  | .polled result =>
    match c.phase with
    | .polling => some ((c.enter (.polled result)).note (.polled result))
    | _ => none
  | .started result =>
    match c.phase, result with
    | .preparing _, .error e => some (c.enter (.failed e))
    | .preparing delivery, .ok () => some (c.startCommand delivery)
    | _, _ => none
  | .line line =>
    match c.phase with
    | .reading delivery sequence => some (c.readLine delivery sequence line)
    | _ => none
  | .closed result =>
    match c.phase, result with
    | .reading _ _, .error e =>
      some (c.enter (.terminating (.wrap "read processor NDJSON: %w" [] e)))
    | .reading delivery _, .ok () => some (c.enter (.waiting delivery))
    | _, _ => none
  | .ingested result =>
    match c.phase, result with
    | .ingesting _ _ _, .error e =>
      some (c.enter (.terminating (.wrap "ingest processor output: %w" [] e)))
    | .ingesting delivery sequence request, .ok () =>
      some ((c.enter (.reading delivery sequence)).note (.ingested request))
    | _, _ => none
  | .exited result =>
    match c.phase with
    | .terminating e => some ((c.enter (.failed e)).note (.exited result))
    | .waiting delivery => some ((c.enter (.exited delivery result)).note (.exited result))
    | _ => none
  | .awoken elapsed =>
    match c.phase with
    | .backingOff =>
      if elapsed then some (c.enter .looping)
      else if c.cancelled then some (c.enter .ended) else none
    | _ => none
  | .acknowledged result =>
    match c.phase, result with
    | .acknowledged, .error _ => some (c.enter .backingOff)
    | .acknowledged, .ok () => some (c.enter .looping)
    | _, _ => none

end Consumer

/-! ### What comes before an acknowledgement -/

/-- Lines of output, `sequence` of which ask for an event. All of them are blank, or valid and on an
allowed stream, and what they ask for is ingested. -/
inductive Clean (definition : Definition) (delivery : DurableSiphonDelivery) :
    Nat → List ConsumerEvent → Prop
  | start : Clean definition delivery 0 []
  | blank {sequence : Nat} {output : List ConsumerEvent} {line : Text} :
      Clean definition delivery sequence output →
      readOutput definition delivery.deliveryID sequence line = .ok none →
      Clean definition delivery sequence (output ++ [.line line])
  | event {sequence : Nat} {output : List ConsumerEvent} {line : Text} {request : IngestRequest} :
      Clean definition delivery sequence output →
      readOutput definition delivery.deliveryID sequence line = .ok (some request) →
      Clean definition delivery (sequence + 1) (output ++ [.line line, .ingested request])

/-- The output of a command; that of a Sink goes to its log. -/
def Produces (definition : Definition) (delivery : DurableSiphonDelivery)
    (output : List ConsumerEvent) : Prop :=
  (definition.kind = .processor ∧ ∃ sequence, Clean definition delivery sequence output) ∨
    (definition.kind ≠ .processor ∧ output = [])

/-- The command gets the delivery, produces its output and exits with status 0; nothing else happens
meanwhile. -/
def Worked (definition : Definition) (delivery : DurableSiphonDelivery)
    (work : List ConsumerEvent) : Prop :=
  ∃ input output, deliveryInput definition delivery = .ok input ∧
    Produces definition delivery output ∧
    work = .started input :: output ++ [.exited (.ok ())]

/-- An acknowledgement follows the last poll and the work on its delivery. A command starts with the
delivery of the last poll, and no other has started since. -/
def Warranted (definition : Definition) (before : List ConsumerEvent) : ConsumerEvent → Prop
  | .acknowledged deliveryID => ∃ delivery work later,
      Follows before (.polled (.ok delivery)) (work ++ later) ∧
        delivery.deliveryID = deliveryID ∧ Worked definition delivery work ∧
        ∀ e ∈ later, e = .cancelled
  | .started input => ∃ delivery later, Follows before (.polled (.ok delivery)) later ∧
      deliveryInput definition delivery = .ok input ∧ ∀ e ∈ later, e = .cancelled ∨ e = .expired
  | _ => True

/-! ### Steps -/

namespace Consumer

variable {c c' : Consumer} {a : ConsumerAction} {delivery : DurableSiphonDelivery}

/-- The last poll has returned the delivery, and since then contexts have ended at most. -/
def Polled (c : Consumer) (delivery : DurableSiphonDelivery) (ended : Prop) : Prop :=
  ∃ later, Follows c.history (.polled (.ok delivery)) later ∧
    (∀ e ∈ later, e = .cancelled ∨ e = .expired) ∧ (later ≠ [] → ended)

/-- Unless a context has ended, the command got the delivery of the last poll, and these events have
followed its start. -/
def Begun (c : Consumer) (delivery : DurableSiphonDelivery) (events : List ConsumerEvent) : Prop :=
  c.cancelled = false → c.expired = false → ∃ input,
    deliveryInput c.definition delivery = .ok input ∧
      Follows c.history (.polled (.ok delivery)) (.started input :: events)

/-- What the history says about a phase of the consumer. -/
def Placed (c : Consumer) : Phase → Prop
  | .polled (.ok delivery) => c.Polled delivery (c.cancelled = true)
  | .preparing delivery => c.Polled delivery (c.cancelled = true ∨ c.expired = true)
  | .reading delivery sequence => c.definition.kind = .processor ∧
      ∃ output, Clean c.definition delivery sequence output ∧ c.Begun delivery output
  | .ingesting delivery sequence request => c.definition.kind = .processor ∧
      ∃ sequence' output line, sequence = sequence' + 1 ∧
        Clean c.definition delivery sequence' output ∧
        readOutput c.definition delivery.deliveryID sequence' line = .ok (some request) ∧
        c.Begun delivery (output ++ [.line line])
  | .waiting delivery =>
      ∃ output, Produces c.definition delivery output ∧ c.Begun delivery output
  | .exited delivery (.ok ()) => ∃ output, Produces c.definition delivery output ∧
      c.Begun delivery (output ++ [.exited (.ok ())])
  | .acknowledging delivery =>
      Warranted c.definition c.history (.acknowledged delivery.deliveryID)
  | _ => True

/-- What holds of a consumer at all times. -/
structure Faithful (c : Consumer) : Prop where
  warranted : Justified (Warranted c.definition) c.history
  placed : c.Placed c.phase

theorem faithful_new (definition : Definition) : (new definition).Faithful :=
  ⟨justified_nil _, trivial⟩

theorem Polled.started {ended : Prop} (h : c.Polled delivery ended) {input : Text}
    (hinput : deliveryInput c.definition delivery = .ok input) :
    Warranted c.definition c.history (.started input) := by
  obtain ⟨later, hfollows, hlater, -⟩ := h
  exact ⟨delivery, later, hfollows, hinput, hlater⟩

/-- A delivery that was polled before any context ended is what the command gets. -/
theorem Polled.begun (h : c.Polled delivery (c.cancelled = true ∨ c.expired = true))
    {input : Text} (hinput : deliveryInput c.definition delivery = .ok input) (phase : Phase) :
    ((c.enter phase).note (.started input)).Begun delivery [] := by
  intro hcancelled hexpired
  obtain ⟨later, hfollows, -, hended⟩ := h
  by_cases hlater : later = []
  · subst hlater
    exact ⟨input, hinput, hfollows.append [.started input]⟩
  · rcases hended hlater with htrue | htrue
    · exact absurd (htrue.symm.trans hcancelled) (by simp)
    · exact absurd (htrue.symm.trans hexpired) (by simp)

theorem Begun.note {events : List ConsumerEvent} (h : c.Begun delivery events)
    (phase : Phase) (e : ConsumerEvent) :
    ((c.enter phase).note e).Begun delivery (events ++ [e]) := by
  intro hcancelled hexpired
  obtain ⟨input, hinput, hfollows⟩ := h hcancelled hexpired
  exact ⟨input, hinput, hfollows.append [e]⟩

/-- A command that exits well before any context ends has worked on its delivery. -/
theorem Begun.acknowledged {output : List ConsumerEvent}
    (h : c.Begun delivery (output ++ [.exited (.ok ())]))
    (hproduces : Produces c.definition delivery output) (hcancelled : c.cancelled = false)
    (hexpired : c.expired = false) :
    Warranted c.definition c.history (.acknowledged delivery.deliveryID) := by
  obtain ⟨input, hinput, hfollows⟩ := h hcancelled hexpired
  refine ⟨delivery, .started input :: output ++ [.exited (.ok ())], [], ?_, rfl,
    ⟨input, output, hinput, hproduces, rfl⟩, by simp⟩
  rwa [List.append_nil]

theorem Faithful.enter (hs : c.Faithful) {phase : Phase} (hplaced : (c.enter phase).Placed phase) :
    (c.enter phase).Faithful :=
  ⟨hs.warranted, hplaced⟩

theorem Faithful.advance (hs : c.Faithful) {phase : Phase} {e : ConsumerEvent}
    (he : Warranted c.definition c.history e)
    (hplaced : ((c.enter phase).note e).Placed phase) : ((c.enter phase).note e).Faithful :=
  ⟨justified_append_singleton.mpr ⟨hs.warranted, he⟩, hplaced⟩

theorem Polled.interrupt {ended ended' : Prop} (h : c.Polled delivery ended) {e : ConsumerEvent}
    (he : e = .cancelled ∨ e = .expired) (hended : ended') (cancelled expired : Bool) :
    Polled { c.note e with cancelled, expired } delivery ended' := by
  obtain ⟨later, hfollows, hlater, -⟩ := h
  refine ⟨later ++ [e], hfollows.append [e], fun d hd => ?_, fun _ => hended⟩
  rcases List.mem_append.mp hd with hd | hd
  · exact hlater d hd
  · rwa [List.mem_singleton.mp hd]

/-- The end of a context leaves what the history says. -/
theorem Placed.interrupt {phase : Phase} (h : c.Placed phase) {e : ConsumerEvent}
    {cancelled expired : Bool} (he : (e = .cancelled ∧ cancelled = true) ∨
      (e = .expired ∧ expired = true ∧ phase.hasCommand = true)) :
    Placed { c.note e with cancelled, expired } phase := by
  have hinterrupt : e = .cancelled ∨ e = .expired := he.imp And.left And.left
  have hended : cancelled = true ∨ expired = true := he.imp And.right fun he => he.2.1
  have hbegun (delivery : DurableSiphonDelivery) (events : List ConsumerEvent) :
      Begun { c.note e with cancelled, expired } delivery events := by
    rintro rfl rfl
    simp at hended
  cases phase with
  | polled result =>
    rcases result with _ | delivery
    · trivial
    · rcases he with ⟨-, htrue⟩ | ⟨-, -, hcommand⟩
      · exact Polled.interrupt h hinterrupt htrue cancelled expired
      · cases hcommand
  | preparing delivery => exact Polled.interrupt h hinterrupt hended cancelled expired
  | reading delivery sequence =>
    obtain ⟨hkind, output, hclean, -⟩ := h
    exact ⟨hkind, output, hclean, hbegun delivery output⟩
  | ingesting delivery sequence request =>
    obtain ⟨hkind, sequence', output, line, hsequence, hclean, hread, -⟩ := h
    exact ⟨hkind, sequence', output, line, hsequence, hclean, hread, hbegun delivery _⟩
  | waiting delivery =>
    obtain ⟨output, hproduces, -⟩ := h
    exact ⟨output, hproduces, hbegun delivery output⟩
  | exited delivery result =>
    rcases result with _ | _
    · trivial
    · obtain ⟨output, hproduces, -⟩ := h
      exact ⟨output, hproduces, hbegun delivery _⟩
  | acknowledging delivery =>
    rcases he with ⟨rfl, -⟩ | ⟨-, -, hcommand⟩
    · obtain ⟨delivery', work, later, hfollows, hid, hworked, hlater⟩ := h
      refine ⟨delivery', work, later ++ [.cancelled], ?_, hid, hworked, ?_⟩
      · rw [← List.append_assoc]
        exact hfollows.append _
      · intro d hd
        rcases List.mem_append.mp hd with hd | hd
        · exact hlater d hd
        · exact List.mem_singleton.mp hd
    · cases hcommand
  | _ => trivial

theorem Faithful.retry (hs : c.Faithful) : c.retry.Faithful := by
  unfold Consumer.retry
  split
  · exact hs.enter trivial
  · exact hs.enter trivial

theorem Faithful.proceed (hs : c.Faithful) (h : c.proceed = some c') : c'.Faithful := by
  have hplaced := hs.placed
  unfold Consumer.proceed at h
  split at h
  · -- the loop
    cases h
    split
    · exact hs.enter trivial
    · exact hs.enter trivial
  · -- a poll has returned
    next result hphase =>
    rw [hphase] at hplaced
    split at h
    · cases h
      exact hs.enter trivial
    next hcancelled =>
    split at h
    · cases h
      exact hs.retry
    next delivery =>
    split at h
    · cases h
      exact hs.enter trivial
    · cases h
      obtain ⟨later, hfollows, hlater, hended⟩ := hplaced
      exact ⟨hs.warranted, later, hfollows, hlater, fun hne => absurd (hended hne) hcancelled⟩
  · -- the command has exited
    next delivery result hphase =>
    rw [hphase] at hplaced
    split at h
    · cases h
      exact hs.enter trivial
    next hended =>
    obtain ⟨hcancelled, hexpired⟩ := not_or.mp hended
    split at h
    · cases h
      exact hs.enter trivial
    · cases h
      obtain ⟨output, hproduces, hbegun⟩ := hplaced
      exact hs.enter (hbegun.acknowledged hproduces (Bool.eq_false_iff.mpr hcancelled)
        (Bool.eq_false_iff.mpr hexpired))
  · -- an attempt has failed
    cases h
    split
    · exact hs.enter trivial
    · exact hs.retry
  · next delivery hphase =>
    cases h
    rw [hphase] at hplaced
    exact hs.advance hplaced trivial
  · cases h

theorem Faithful.startCommand (hs : c.Faithful) (hphase : c.phase = .preparing delivery) :
    (c.startCommand delivery).Faithful := by
  have hplaced := hs.placed
  rw [hphase] at hplaced
  unfold Consumer.startCommand
  split
  · exact hs.enter trivial
  next input hinput =>
  split_ifs with hkind
  · exact hs.advance (Polled.started hplaced hinput)
      ⟨hkind, [], .start, Polled.begun hplaced hinput _⟩
  · exact hs.advance (Polled.started hplaced hinput)
      ⟨[], Or.inr ⟨hkind, rfl⟩, Polled.begun hplaced hinput _⟩

theorem Faithful.readLine (hs : c.Faithful) {sequence : Nat}
    (hphase : c.phase = .reading delivery sequence) (line : Text) :
    (c.readLine delivery sequence line).Faithful := by
  have hplaced := hs.placed
  rw [hphase] at hplaced
  obtain ⟨hkind, output, hclean, hbegun⟩ := hplaced
  unfold Consumer.readLine
  split
  · exact hs.advance trivial trivial
  · next hread => exact hs.advance trivial ⟨hkind, _, hclean.blank hread, hbegun.note _ _⟩
  · next request hread =>
    exact hs.advance trivial ⟨hkind, sequence, output, line, rfl, hclean, hread, hbegun.note _ _⟩

/-- Every step keeps what the history says. -/
theorem Faithful.step (hs : c.Faithful) (h : c.step a = some c') : c'.Faithful := by
  have hplaced := hs.placed
  cases a with
  | cancel =>
    cases h
    exact ⟨justified_append_singleton.mpr ⟨hs.warranted, trivial⟩,
      hplaced.interrupt (Or.inl ⟨rfl, rfl⟩)⟩
  | expire =>
    simp only [Consumer.step] at h
    split at h
    · next hcommand =>
      cases h
      exact ⟨justified_append_singleton.mpr ⟨hs.warranted, trivial⟩,
        hplaced.interrupt (Or.inr ⟨rfl, rfl, hcommand.1⟩)⟩
    · cases h
  | proceed => exact hs.proceed h
  | created result =>
    simp only [Consumer.step] at h
    split at h
    · cases h
      exact hs.enter trivial
    · cases h
      exact hs.enter trivial
    · cases h
  | polled result =>
    simp only [Consumer.step] at h
    split at h
    · cases h
      refine hs.advance trivial ?_
      rcases result with _ | delivery
      · trivial
      · exact ⟨[], ⟨c.history, rfl⟩, by simp⟩
    · cases h
  | started result =>
    simp only [Consumer.step] at h
    split at h
    · cases h
      exact hs.enter trivial
    · next delivery hphase =>
      cases h
      exact hs.startCommand hphase
    · cases h
  | line line =>
    simp only [Consumer.step] at h
    split at h
    · next hphase =>
      cases h
      exact hs.readLine hphase line
    · cases h
  | closed result =>
    simp only [Consumer.step] at h
    split at h
    · cases h
      exact hs.enter trivial
    · next delivery sequence hphase =>
      cases h
      rw [hphase] at hplaced
      obtain ⟨hkind, output, hclean, hbegun⟩ := hplaced
      exact hs.enter ⟨output, Or.inl ⟨hkind, _, hclean⟩, hbegun⟩
    · cases h
  | ingested result =>
    simp only [Consumer.step] at h
    split at h
    · cases h
      exact hs.enter trivial
    · next delivery sequence request hphase =>
      cases h
      rw [hphase] at hplaced
      obtain ⟨hkind, sequence', output, line, rfl, hclean, hread, hbegun⟩ := hplaced
      refine hs.advance trivial ⟨hkind, _, hclean.event hread, ?_⟩
      have hnoted := hbegun.note (.reading delivery (sequence' + 1)) (.ingested request)
      rwa [List.append_assoc] at hnoted
    · cases h
  | exited result =>
    simp only [Consumer.step] at h
    split at h
    · cases h
      exact hs.advance trivial trivial
    · next delivery hphase =>
      cases h
      rw [hphase] at hplaced
      obtain ⟨output, hproduces, hbegun⟩ := hplaced
      refine hs.advance trivial ?_
      rcases result with _ | ⟨⟨⟩⟩
      · trivial
      · exact ⟨output, hproduces, hbegun.note _ _⟩
    · cases h
  | awoken elapsed =>
    simp only [Consumer.step] at h
    split at h
    · split_ifs at h
      all_goals
        cases h
        exact hs.enter trivial
    · cases h
  | acknowledged result =>
    simp only [Consumer.step] at h
    split at h
    · cases h
      exact hs.enter trivial
    · cases h
      exact hs.enter trivial
    · cases h

theorem definition_startCommand (c : Consumer) (delivery : DurableSiphonDelivery) :
    (c.startCommand delivery).definition = c.definition := by
  unfold Consumer.startCommand
  split <;> rfl

theorem definition_of_proceed (h : c.proceed = some c') : c'.definition = c.definition := by
  unfold Consumer.proceed at h
  repeat' split at h
  all_goals cases h
  all_goals rfl

theorem definition_of_step (h : c.step a = some c') : c'.definition = c.definition := by
  cases a with
  | proceed => exact definition_of_proceed h
  | started result =>
    simp only [Consumer.step] at h
    split at h
    all_goals cases h
    · rfl
    · exact definition_startCommand c _
  | _ =>
    simp only [Consumer.step] at h
    repeat' split at h
    all_goals cases h
    all_goals rfl

/-! ### The requests of a command -/

/-! ### Runs -/

/-- Two commands do not start without a poll between them. -/
theorem polled_mem_of_started {definition : Definition} {history : List ConsumerEvent}
    (h : Justified (Warranted definition) history) {earlier between later : List ConsumerEvent}
    {input input' : Text}
    (hsplit : history = earlier ++ .started input :: between ++ .started input' :: later) :
    ∃ result, ConsumerEvent.polled result ∈ between := by
  obtain ⟨delivery, last, ⟨first, hfirst⟩, -, hlast⟩ := h _ _ _ hsplit
  rcases List.append_eq_append_iff.mp hfirst with ⟨middle, -, hmiddle⟩ | ⟨middle, -, hmiddle⟩
  · cases middle with
    | nil => cases hmiddle
    | cons e middle =>
      obtain ⟨rfl, rfl⟩ := List.cons.inj hmiddle
      exact ⟨_, List.mem_append_right middle List.mem_cons_self⟩
  · -- the start of the first command would follow the poll
    have hstarted : .started input ∈ (.polled (.ok delivery) :: last : List ConsumerEvent) := by
      rw [hmiddle]
      exact List.mem_append_right middle List.mem_cons_self
    rcases List.mem_cons.mp hstarted with heq | hmem
    · cases heq
    · rcases hlast _ hmem with heq | heq <;> cases heq

/-- **A consumer acknowledges only what was processed.** In every run, an acknowledgement follows
the last poll and the work of a command that got the delivery of that poll and exited with status 0
before any context ended, and whose output, for a Processor, was valid, allowed and ingested. Every
command gets the delivery of the last poll, and there is a poll between any two commands. -/
theorem warranted_of_run {definition : Definition} {actions : List ConsumerAction} {c : Consumer}
    (hrun : run step (new definition) actions = some c) :
    Justified (Warranted definition) c.history ∧
      ∀ earlier input between input' later,
        c.history = earlier ++ .started input :: between ++ .started input' :: later →
          ∃ result, ConsumerEvent.polled result ∈ between := by
  have hinvariant := Reaches.invariant (P := fun c => c.definition = definition ∧ c.Faithful)
    (fun s a s' hs h => ⟨(definition_of_step h).trans hs.1, hs.2.step h⟩)
    ⟨rfl, faithful_new definition⟩ ⟨actions, hrun⟩
  obtain ⟨rfl, hfaithful⟩ := hinvariant
  exact ⟨hfaithful.warranted, fun _ _ _ _ _ => polled_mem_of_started hfaithful.warranted⟩

/-- A Processor that writes to the stream `t`. -/
def tidy : Definition where
  kind := .processor
  metadata := ⟨['p'], []⟩
  spec :=
    { enabled := none
      network := ['h']
      events := ⟨[['s']], []⟩
      delivery := ⟨25, 0⟩
      output := ⟨[['t']]⟩
      retry := ⟨"on-failure".toList, 1, 2⟩
      timeout := 1 }
  digest := []

def oneEvent : DurableSiphonDelivery :=
  ⟨1, tidy.durableName, ['h'], ['d'], 0, 1, 1,
    [⟨['e'], ['h'], ['s'], [], [], [], 0, ['a'], ['1']⟩]⟩

/-- The time of the first command runs out; the second one writes an event and a blank line. -/
def tidyRun : List ConsumerAction :=
  [.created (.ok ()), .proceed, .polled (.ok oneEvent), .proceed, .started (.ok ()), .expire,
    .closed (.ok ()), .exited (.ok ()), .proceed, .proceed, .awoken true, .proceed,
    .polled (.ok oneEvent), .proceed, .started (.ok ()),
    .line "\x7b\"stream\":\"t\",\"payload\":1\x7d".toList, .ingested (.ok ()), .line [' '],
    .closed (.ok ()), .exited (.ok ()), .proceed, .proceed, .acknowledged (.ok ())]

theorem warranted_tidyRun : ∃ c, run step (new tidy) tidyRun = some c ∧
    (c.history.any fun | .acknowledged deliveryID => deliveryID = ['d'] | _ => false) = true ∧
    Justified (Warranted tidy) c.history := by
  have hrun : (run step (new tidy) tidyRun).any
      (fun c => c.history.any fun | .acknowledged id => id = ['d'] | _ => false) = true := by
    decide +kernel
  obtain ⟨c, hc, hacknowledged⟩ := (Option.any_eq_true _ _).mp hrun
  exact ⟨c, hc, hacknowledged, (warranted_of_run hc).1⟩

end Consumer

end Thalweg.Registry
