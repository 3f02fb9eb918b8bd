import Thalweg.Daemon.Keys
import Thalweg.Daemon.Query
import Thalweg.Daemon.Subscriptions

/-!
# Siphons of the JavaScript SDK

A siphon is built from the streams of a basin by calls that include and omit streams, and then asks
the daemon for their events, as a subscription or as one query. The daemon takes an empty list of
streams for all of them.

* `SiphonBuilder.call`, `SiphonBuilder.run`.
* `obtained`: the streams that the calls obtain from those of the basin.
* `SiphonBuilder.narrow_iff`: a siphon asks for no other streams if and only if it is left with one.
-/

namespace Thalweg.SdkJs

/-! ### Building a siphon -/

/-- How the events of a siphon are handed over. -/
inductive SiphonMode where
  | continuous
  | buffered
  deriving DecidableEq

/-- What is set of a siphon. -/
structure SiphonConfig where
  mode : SiphonMode
  interval : Option Text
  streams : List Text
  deriving DecidableEq

/-- A siphon of a network. -/
structure SiphonBuilder where
  network : Text
  config : SiphonConfig
  deriving DecidableEq

/-- What a call throws. -/
structure Thrown where
  message : Text
  deriving DecidableEq

/-- The siphon of a basin with its configured streams, if it has any. -/
def basinSiphon (network name : Text) (configured : Option (List Text)) :
    Except Thrown SiphonBuilder :=
  match configured with
  | none | some [] =>
    .error ⟨"Basin ".toList ++ name ++
      " has no runtime stream definition; refusing to broaden it to all streams.".toList⟩
  | some (stream :: streams) => .ok ⟨network, ⟨.continuous, none, stream :: streams⟩⟩

/-- `interval`: events are handed over in intervals. -/
def SiphonBuilder.interval (siphon : SiphonBuilder) (time : Text) : SiphonBuilder :=
  { siphon with config := { siphon.config with mode := .buffered, interval := some time } }

/-- `include`: the streams of the siphon. -/
def SiphonBuilder.include (siphon : SiphonBuilder) (streams : List Text) : SiphonBuilder :=
  { siphon with config := { siphon.config with streams } }

/-- `omit`: the streams without some; a siphon of all streams cannot leave out any. -/
def SiphonBuilder.omit (siphon : SiphonBuilder) (streams : List Text) :
    Except Thrown SiphonBuilder :=
  if siphon.config.streams = [] then
    .error ⟨"Cannot omit streams from an all-stream siphon at runtime; ".toList ++
      "call include() first.".toList⟩
  else
    .ok { siphon with
      config := { siphon.config with
        streams := siphon.config.streams.filter fun stream => decide (stream ∉ streams) } }

/-- A call that selects streams. -/
inductive SiphonCall where
  | «include» (streams : List Text)
  | «omit» (streams : List Text)
  deriving DecidableEq

/-- The streams that a call names. -/
def SiphonCall.streams : SiphonCall → List Text
  | .include streams | .omit streams => streams

namespace SiphonBuilder

/-- The siphon after a call. -/
def call (siphon : SiphonBuilder) : SiphonCall → Except Thrown SiphonBuilder
  | .include streams => .ok (siphon.include streams)
  | .omit streams => siphon.omit streams

/-- Calls in turn; none is made after one that throws. -/
def callAll (siphon : SiphonBuilder) : List SiphonCall → Except Thrown SiphonBuilder
  | [] => .ok siphon
  | c :: calls => do
    let siphon ← siphon.call c
    siphon.callAll calls

end SiphonBuilder

/-! ### Running a siphon -/

/-- A request of a siphon to the daemon. -/
inductive SiphonRequest where
  | siphonRegister (network : Text) (streams : List Text)
  | eventQuery (network : Text) (streams : List Text) (from' to' : Text)
  deriving DecidableEq

/-- What a siphon asks the daemon for. `range` gives the ends of the time range of an interval, and
none when it is no duration, which `runBuffered` throws for. -/
def SiphonBuilder.run (range : Option Text → Option (Text × Text)) (siphon : SiphonBuilder) :
    Option SiphonRequest :=
  match siphon.config.mode with
  | .continuous => some (.siphonRegister siphon.network siphon.config.streams)
  | .buffered =>
    (range siphon.config.interval).map fun ends =>
      .eventQuery siphon.network siphon.config.streams ends.1 ends.2

/-- The daemon hands out an event for a request: to the subscription that it registers, or in the
scans of the query. -/
def SiphonRequest.HandsOut (event : ThalwegEvent) : SiphonRequest → Prop
  | .siphonRegister network streams =>
    ∃ sub : Subscription, sub.network = network ∧ sub.streams = streams ∧ sub.Wants event
  | .eventQuery network streams _ _ =>
    ∃ pre ∈ queryPrefixes network streams, pre <+: eventKey event

/-- The network of a request. -/
def SiphonRequest.network : SiphonRequest → Text
  | .siphonRegister network _ | .eventQuery network _ _ _ => network

/-- The streams of a request. -/
def SiphonRequest.streams : SiphonRequest → List Text
  | .siphonRegister _ streams | .eventQuery _ streams _ _ => streams

/-- In both cases the daemon takes an empty list for all streams. -/
theorem SiphonRequest.handsOut_iff {event : ThalwegEvent} {request : SiphonRequest} :
    request.HandsOut event ↔ request.network = event.network ∧
      (request.streams = [] ∨ event.stream ∈ request.streams) := by
  cases request with
  | siphonRegister network streams =>
    constructor
    · rintro ⟨sub, rfl, rfl, hwants⟩
      exact hwants
    · intro h
      exact ⟨⟨[], network, streams, 0, [], false, .receiving, [], [], []⟩, rfl, rfl, h⟩
  | eventQuery network streams from' to' =>
    rw [SiphonRequest.HandsOut, SiphonRequest.network, SiphonRequest.streams, queryPrefixes]
    split_ifs with hstreams
    · simp [hstreams, eventNetworkPrefix_isPrefix_eventKey, eq_comm]
    · simp only [List.mem_map, exists_exists_and_eq_and, eventStreamPrefix_isPrefix_eventKey,
        hstreams, false_or]
      constructor
      · rintro ⟨stream, hmem, hnetwork, rfl⟩
        exact ⟨hnetwork.symm, hmem⟩
      · rintro ⟨hnetwork, hmem⟩
        exact ⟨_, hmem, hnetwork.symm, rfl⟩

/-! ### What the calls obtain -/

/-- The streams that calls obtain: those that are included last, or else the basin's, without those
that are omitted since. -/
def obtained (streams : List Text) : List SiphonCall → List Text
  | [] => streams
  | .include included :: calls => obtained included calls
  | .omit omitted :: calls =>
    obtained (streams.filter fun stream => decide (stream ∉ omitted)) calls

/-- The request of a siphon, in either mode, is only for streams that the calls obtain from those of
the basin. -/
def SiphonBuilder.Narrow (range : Option Text → Option (Text × Text)) (streams : List Text)
    (calls : List SiphonCall) (siphon : SiphonBuilder) : Prop :=
  ∀ time : Option Text, ∀ request event,
    (time.elim siphon siphon.interval).run range = some request → request.HandsOut event →
      event.stream ∈ obtained streams calls ∧ event.stream ∈ streams

/-- What is obtained from a basin by naming its streams are streams of it. -/
theorem obtained_subset {basin streams : List Text} {calls : List SiphonCall}
    (hcalls : ∀ c ∈ calls, c.streams ⊆ basin) (hstreams : streams ⊆ basin) :
    obtained streams calls ⊆ basin := by
  induction calls generalizing streams with
  | nil => exact hstreams
  | cons c calls ih =>
    have hrest : ∀ c ∈ calls, c.streams ⊆ basin := fun c hc => hcalls c (List.mem_cons_of_mem _ hc)
    cases c with
    | «include» included => exact ih hrest (hcalls _ List.mem_cons_self)
    | «omit» omitted => exact ih hrest (List.Subset.trans (List.filter_subset_self _) hstreams)

namespace SiphonBuilder

/-- Calls leave the streams that they obtain, and change nothing else. -/
theorem callAll_spec {siphon siphon' : SiphonBuilder} {calls : List SiphonCall}
    (h : siphon.callAll calls = .ok siphon') :
    siphon' = siphon.include (obtained siphon.config.streams calls) := by
  induction calls generalizing siphon with
  | nil =>
    cases h
    rfl
  | cons c calls ih =>
    cases c with
    | «include» included => exact ih h
    | «omit» omitted =>
      simp only [callAll, call, SiphonBuilder.omit, bind, Except.bind] at h
      split at h
      · cases h
      · next siphon₁ hcall =>
        split_ifs at hcall
        cases hcall
        exact ih h

theorem basinSiphon_spec {network name : Text} {streams : List Text} {siphon : SiphonBuilder}
    (h : basinSiphon network name (some streams) = .ok siphon) :
    siphon = ⟨network, ⟨.continuous, none, streams⟩⟩ := by
  cases streams with
  | nil => cases h
  | cons stream streams =>
    cases h
    rfl

/-- A siphon without streams subscribes to all of them. -/
theorem exists_handsOut_of_nil (range : Option Text → Option (Text × Text)) (siphon : SiphonBuilder)
    (hmode : siphon.config.mode = .continuous) (hstreams : siphon.config.streams = [])
    (stream : Text) :
    ∃ request event, siphon.run range = some request ∧ request.HandsOut event ∧
      event.stream = stream := by
  refine ⟨.siphonRegister siphon.network siphon.config.streams,
    { ThalwegEvent.zero with network := siphon.network, stream }, ?_, ?_, rfl⟩
  · simp only [run, hmode]
  · exact SiphonRequest.handsOut_iff.mpr ⟨rfl, Or.inl hstreams⟩

/-- A request of a siphon is for its network and its streams. -/
theorem streams_of_run {range : Option Text → Option (Text × Text)} {siphon : SiphonBuilder}
    {request : SiphonRequest} (h : siphon.run range = some request) :
    request.streams = siphon.config.streams := by
  unfold run at h
  split at h
  · cases h
    rfl
  · obtain ⟨ends, -, rfl⟩ := Option.map_eq_some_iff.mp h
    rfl

/-- **Narrowing.** After calls that name streams of the basin and do not throw, a siphon asks the
daemon in both modes for streams that the calls obtain from the basin, and no others, if and only if
they obtain one. -/
theorem narrow_iff {range : Option Text → Option (Text × Text)} {network name : Text}
    {streams : List Text} {calls : List SiphonCall} {siphon siphon' : SiphonBuilder}
    (hbasin : basinSiphon network name (some streams) = .ok siphon)
    (hcalls : ∀ c ∈ calls, c.streams ⊆ streams) (h : siphon.callAll calls = .ok siphon') :
    siphon'.Narrow range streams calls ↔ obtained streams calls ≠ [] := by
  obtain rfl := basinSiphon_spec hbasin
  obtain rfl := callAll_spec h
  constructor
  · intro hnarrow hnil
    -- the empty selection is sent as it is, and any stream stands for one that was not obtained
    obtain ⟨request, event, hrun, hevent, -⟩ :=
      exists_handsOut_of_nil range ⟨network, ⟨.continuous, none, obtained streams calls⟩⟩ rfl
        hnil []
    have hmem := (hnarrow none request event hrun hevent).1
    rw [hnil] at hmem
    exact absurd hmem List.not_mem_nil
  · intro hne time request event hrun hevent
    have hstreams : request.streams = obtained streams calls := by
      rw [streams_of_run hrun]
      cases time <;> rfl
    have hmem : event.stream ∈ obtained streams calls := by
      rw [SiphonRequest.handsOut_iff, hstreams] at hevent
      exact hevent.2.resolve_left hne
    exact ⟨hmem, obtained_subset hcalls (List.Subset.refl _) hmem⟩

/-- A basin with two streams, of which one is omitted. -/
theorem narrow_iff_omitted :
    SiphonBuilder.Narrow (fun _ => none) [['a'], ['b']] [.omit [['a']]]
      ⟨['n'], ⟨.continuous, none, [['b']]⟩⟩ ↔ obtained [['a'], ['b']] [.omit [['a']]] ≠ [] :=
  @narrow_iff (fun _ => none) ['n'] ['t'] _ _ _ _ rfl (by decide) rfl

/-- A basin whose only stream is omitted asks for all streams. -/
theorem not_narrow_omitted :
    basinSiphon ['n'] ['t'] (some [['a']]) = .ok ⟨['n'], ⟨.continuous, none, [['a']]⟩⟩ ∧
      callAll ⟨['n'], ⟨.continuous, none, [['a']]⟩⟩ [.omit [['a']]] =
        .ok ⟨['n'], ⟨.continuous, none, []⟩⟩ ∧
      ¬SiphonBuilder.Narrow (fun _ => none) [['a']] [.omit [['a']]]
        ⟨['n'], ⟨.continuous, none, []⟩⟩ := by
  refine ⟨rfl, rfl, fun hnarrow => ?_⟩
  obtain ⟨request, event, hrun, hevent, -⟩ :=
    exists_handsOut_of_nil (fun _ => none) ⟨['n'], ⟨.continuous, none, []⟩⟩ rfl rfl ['s']
  exact absurd (hnarrow none request event hrun hevent).1 List.not_mem_nil

end SiphonBuilder

end Thalweg.SdkJs
