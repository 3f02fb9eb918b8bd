import Thalweg.Daemon.Approval

/-!
# Failed decisions

A call of `decideEnrollment` takes the request from the table before it looks up the membership that
an approval hands over, and it does not put the request back when that fails. What is pending after
a call that failed is what was pending before it exactly if the call has found no request.

* `EnrollmentState.callDecide`: a call from its start to its end.
* `EnrollmentState.failed_keeps_pending_iff`.
* `EnrollmentState.Orderly.not_pending_of_found`: whatever happens afterwards, a request that was
  found is not pending again.
-/

namespace Thalweg

open Machine

/-- The argument of `enrollment_approve` and `enrollment_deny`. -/
def decisionArgsFields : List (Text × Json.Setter Text) :=
  [("requestId".toList, fun requestID _ v => Json.decodeText requestID v)]

/-- What a decision returns. -/
structure DecisionResult where
  requestID : Text
  accepted : Bool
  deriving DecidableEq

namespace EnrollmentState

/-! ### A call -/

/-- A call of `decideEnrollment` with no step of others in between; one that finds no room in the
channel of the handler does not return. -/
def callDecide (s : EnrollmentState) (call : Nat) (payload : Text) (approve : Bool) :
    Option (Result DecisionResult × EnrollmentState) :=
  match Json.decodeRecord false decisionArgsFields [] payload with
  | none => some (.error (.external "encoding/json"), s)
  | some requestID => do
    let taken ← s.step (.decide call requestID approve)
    match s.requests.get requestID with
    | none => some (errorf "enrollment request %q is not pending" [requestID], taken)
    | some (_, info) =>
      if approve then
        match taken.memberships.invite info.network.name with
        | .error e => (taken.step (.invite call)).map fun t => (.error e, t)
        | .ok _ => do
          let invited ← taken.step (.invite call)
          (invited.step (.send call)).map fun t => (.ok ⟨requestID, true⟩, t)
      else (taken.step (.send call)).map fun t => (.ok ⟨requestID, false⟩, t)

variable {s s' : EnrollmentState} {call : Nat} {payload : Text} {approve : Bool} {err : Failure}

/-- The call finds a pending request. -/
def FindsRequest (s : EnrollmentState) (payload : Text) : Prop :=
  ∃ requestID entry, Json.decodeRecord false decisionArgsFields [] payload = some requestID ∧
    s.requests.get requestID = some entry

theorem step_decide_eq_some {t : EnrollmentState} {requestID : Text}
    (h : s.step (.decide call requestID approve) = some t) :
    t = s.decideEnrollment call requestID approve := by
  simp only [step] at h
  split at h
  · exact (Option.some.inj h).symm
  · cases h

@[simp] theorem memberships_decideEnrollment (s : EnrollmentState) (call : Nat) (requestID : Text)
    (approve : Bool) : (s.decideEnrollment call requestID approve).memberships = s.memberships := by
  unfold decideEnrollment
  split
  · rfl
  · rfl

/-- A request that is looked up is taken from the table. -/
theorem requests_decideEnrollment (s : EnrollmentState) (call : Nat) (requestID : Text)
    (approve : Bool) (id : Text) : (s.decideEnrollment call requestID approve).requests.get id =
      if id = requestID then none else s.requests.get id := by
  unfold decideEnrollment
  split
  · next hget =>
    split_ifs with hid
    · rw [hid, hget]
    · rfl
  · exact OrderedStore.get_delete _ _ _

/-- An approval that is refused changes nothing but the call. -/
theorem step_invite_of_error {t : EnrollmentState} {stream : Nat} {info : EnrollmentRequestInfo}
    {e : Failure} (hcall : s.calls call = .approving stream info)
    (hinvite : s.memberships.invite info.network.name = .error e)
    (h : s.step (.invite call) = some t) : t = s.setCall call .idle := by
  simp only [step, hcall, hinvite] at h
  exact (Option.some.inj h).symm

theorem calls_decideEnrollment {requestID : Text} {stream : Nat} {info : EnrollmentRequestInfo}
    (hget : s.requests.get requestID = some (stream, info)) :
    (s.decideEnrollment call requestID true).calls call = .approving stream info := by
  simp [decideEnrollment, hget, record, setCall]

/-- The ways in which a call fails: it finds no request, or the membership of the request that it
has taken is refused. -/
theorem callDecide_error_cases (h : s.callDecide call payload approve = some (.error err, s')) :
    (¬ s.FindsRequest payload ∧ s' = s) ∨
      ∃ requestID stream info,
        Json.decodeRecord false decisionArgsFields [] payload = some requestID ∧
        s.requests.get requestID = some (stream, info) ∧
        s.memberships.invite info.network.name = .error err ∧
        s' = (s.decideEnrollment call requestID true).setCall call .idle := by
  unfold callDecide at h
  cases hdecode : Json.decodeRecord false decisionArgsFields [] payload with
  | none =>
    rw [hdecode] at h
    cases h
    refine Or.inl ⟨?_, rfl⟩
    rintro ⟨requestID, entry, hsome, -⟩
    rw [hdecode] at hsome
    cases hsome
  | some requestID =>
    simp only [hdecode] at h
    obtain ⟨taken, htaken, h⟩ := Option.bind_eq_some_iff.mp h
    obtain rfl := step_decide_eq_some htaken
    cases hget : s.requests.get requestID with
    | none =>
      simp only [hget, errorf] at h
      cases h
      refine Or.inl ⟨?_, by simp [decideEnrollment, hget]⟩
      rintro ⟨requestID', entry, hsome, hentry⟩
      rw [hdecode] at hsome
      rw [← Option.some.inj hsome, hget] at hentry
      cases hentry
    | some entry =>
      obtain ⟨stream, info⟩ := entry
      simp only [hget] at h
      cases approve with
      | false =>
        -- a denial that returns has succeeded
        rw [if_neg Bool.false_ne_true] at h
        obtain ⟨t, -, heq⟩ := Option.map_eq_some_iff.mp h
        cases heq
      | true =>
        rw [if_pos rfl] at h
        cases hinvite : (s.decideEnrollment call requestID true).memberships.invite
            info.network.name with
        | error e =>
          simp only [hinvite] at h
          obtain ⟨t, ht, heq⟩ := Option.map_eq_some_iff.mp h
          cases heq
          rw [memberships_decideEnrollment] at hinvite
          refine Or.inr ⟨requestID, stream, info, rfl, hget, hinvite, ?_⟩
          exact step_invite_of_error (calls_decideEnrollment hget)
            (by rwa [memberships_decideEnrollment]) ht
        | ok invited =>
          simp only [hinvite] at h
          obtain ⟨t, -, h⟩ := Option.bind_eq_some_iff.mp h
          obtain ⟨u, -, heq⟩ := Option.map_eq_some_iff.mp h
          cases heq

/-- **Failed decisions.** The pending requests and the memberships after a call that failed are
those before it exactly if the call has found no request. -/
theorem failed_keeps_pending_iff (h : s.callDecide call payload approve = some (.error err, s')) :
    s'.requests = s.requests ∧ s'.memberships = s.memberships ↔ ¬ s.FindsRequest payload := by
  rcases callDecide_error_cases h with
    ⟨hfinds, rfl⟩ | ⟨requestID, stream, info, hdecode, hget, -, rfl⟩
  · exact iff_of_true ⟨rfl, rfl⟩ hfinds
  · refine iff_of_false ?_ (not_not.mpr ⟨requestID, _, hdecode, hget⟩)
    rintro ⟨hrequests, -⟩
    have hgone : (s.decideEnrollment call requestID true).requests.get requestID = none := by
      rw [requests_decideEnrollment, if_pos rfl]
    rw [← hrequests] at hget
    change (s.decideEnrollment call requestID true).requests.get requestID = _ at hget
    rw [hgone] at hget
    cases hget

/-! ### Steps of others -/

/-- What has been found stays found. -/
theorem found_of_step {a : Action} {stream : Nat} (hfound : Found s.history stream)
    (h : s.step a = some s') : Found s'.history stream := by
  have happend : ∀ e, Found (s.history ++ [e]) stream := fun e =>
    found_append_iff.mpr (Or.inl hfound)
  cases step_effect h with
  | quiet => exact hfound
  | shutdown => exact hfound
  | list => exact happend _
  | found => exact happend _
  | refuse => exact hfound
  | invite => exact hfound
  | send => exact happend _
  | connect => exact hfound
  | receive => exact happend _
  | abandon => exact hfound
  | register => exact happend _
  | take => exact hfound
  | giveUp => exact hfound
  | remove => exact hfound
  | answer => exact happend _

/-- A request that a call has found is not pending again, whatever happens afterwards. -/
theorem Orderly.not_pending_of_found (h : Orderly s) {stream : Nat}
    (hfound : Found s.history stream) {actions : List Action}
    (hrun : run EnrollmentState.step s actions = some s') (requestID : Text)
    (info : EnrollmentRequestInfo) : s'.requests.get requestID ≠ some (stream, info) := by
  have hkept : Orderly s' ∧ Found s'.history stream :=
    Reaches.invariant (P := fun t => Orderly t ∧ Found t.history stream)
      (fun t a t' ht hstep => ⟨ht.1.step hstep, found_of_step ht.2 hstep⟩) ⟨h, hfound⟩
      ⟨actions, hrun⟩
  intro hget
  exact (hkept.1.pending requestID stream info hget).2.1 hkept.2

/-! ### Runs -/

/-- The network of a pending request is left. -/
def leftRun : List Action := requestRun ++ [.leave ['n']]

/-- The argument of a decision on the request. -/
def pendingPayload : Text :=
  Json.renderRecord [("requestId".toList, Json.quote (Base64Url.encode requestBytes))]

/-- The approval of the request fails, and the request is gone. -/
theorem leftRun_not_keeps_pending :
    ∃ s err s', run EnrollmentState.step (initial OrderedStore.empty) leftRun = some s ∧
      s.callDecide 0 pendingPayload true = some (.error err, s') ∧ s'.requests ≠ s.requests := by
  have hgone : (run EnrollmentState.step (initial OrderedStore.empty) leftRun).any
      (fun s : EnrollmentState => (s.requests.get (Base64Url.encode requestBytes)).isSome &&
        (s.callDecide 0 pendingPayload true).any fun t =>
          !t.1.isOk && (t.2.requests.get (Base64Url.encode requestBytes)).isNone) = true := by
    decide +kernel
  obtain ⟨s, hs, hgone⟩ := (Option.any_eq_true _ _).mp hgone
  obtain ⟨hpending, hgone⟩ := Bool.and_eq_true_iff.mp hgone
  obtain ⟨⟨r, s'⟩, ht, hgone⟩ := (Option.any_eq_true _ _).mp hgone
  obtain ⟨herror, hnone⟩ := Bool.and_eq_true_iff.mp hgone
  cases r with
  | ok result => cases herror
  | error err =>
    refine ⟨s, err, s', hs, ht, fun heq => ?_⟩
    rw [heq] at hnone
    rw [Option.isNone_iff_eq_none.mp hnone] at hpending
    cases hpending

/-- A denial under another ID leaves the request pending. -/
theorem requestRun_keeps_pending :
    ∃ s err s', run EnrollmentState.step (initial OrderedStore.empty) requestRun = some s ∧
      s.callDecide 0 ['{', '}'] false = some (.error err, s') ∧
      s'.requests = s.requests ∧ s'.memberships = s.memberships := by
  have hfails : (run EnrollmentState.step (initial OrderedStore.empty) requestRun).any
      (fun s : EnrollmentState => (s.requests.get []).isNone &&
        (s.callDecide 0 ['{', '}'] false).any fun t => !t.1.isOk) = true := by
    decide +kernel
  obtain ⟨s, hs, hfails⟩ := (Option.any_eq_true _ _).mp hfails
  obtain ⟨habsent, hfails⟩ := Bool.and_eq_true_iff.mp hfails
  obtain ⟨⟨r, s'⟩, ht, herror⟩ := (Option.any_eq_true _ _).mp hfails
  cases r with
  | ok result => cases herror
  | error err =>
    refine ⟨s, err, s', hs, ht, (failed_keeps_pending_iff ht).mpr ?_⟩
    rintro ⟨requestID, entry, hdecode, hget⟩
    obtain rfl : [] = requestID := Option.some.inj ((by decide +kernel :
      some [] = Json.decodeRecord false decisionArgsFields [] ['{', '}']).trans hdecode)
    rw [hget] at habsent
    cases habsent

end EnrollmentState

end Thalweg
