import Mathlib.Data.Finset.Insert
import Thalweg.SdkPython.Moves

/-!
# The tables of pushed events

Events that are pushed to a subscription ID before the handler of the subscription is there are
kept, as far as there is room. A handler that is registered receives them first, and from then on it
queues what is pushed.

## Main definitions

* `Tables`: what the tables hold, given what has been pushed to every ID on every connection.

## Main results

* `Tables.push`, `Tables.register`: the tables hold that when an event is pushed, and when a handler
  is registered.
-/

namespace Thalweg.SdkPython

/-- What a subscription makes of a pushed event. -/
def decodeEvent (event : PyDict) : Decoded Event :=
  eventFromData (.dict event) "subscription event".toList

/-- The event of an item. -/
def Item.event? : Item → Option Event
  | .event e => some e
  | .error _ => none
  | .finish => none

/-- The events that a subscription has yielded, and then those in its queue. -/
def Subscription.shown (subscription : Subscription) : List (Decoded Event) :=
  (subscription.yielded ++ subscription.queue.filterMap Item.event?).map .ok

namespace Client

/-! ### The tables -/

/-- What the tables of events hold, where `todo i` are events that the subscription `i` is still to
receive: an open subscription has a handler and shows what has been pushed to it; what has been
pushed to an ID without a subscription is kept, as far as there is room. -/
structure Tables (limit : Nat) (pushes : Nat → Text → List PyDict) (todo : Nat → List PyDict)
    (c : Client) : Prop where
  shown : ∀ (i : Nat) (s : Subscription) (id : Text), c.subscriptions[i]? = some s →
    s.subscriptionId = some id → ∃ k, s.connection = some k ∧
      s.shown <+: (pushes k id).map decodeEvent ∧
      (s.closed = false → c.writer = some k ∧ c.eventHandlers.lookup id = some i ∧
        s.shown ++ (todo i).map decodeEvent = (pushes k id).map decodeEvent)
  silent : ∀ s ∈ c.subscriptions, s.subscriptionId = none → s.shown = []
  distinct : ∀ (i j : Nat) (s s' : Subscription) (id : Text), c.subscriptions[i]? = some s →
    c.subscriptions[j]? = some s' → s.subscriptionId = some id → s'.subscriptionId = some id → i = j
  handled : ∀ id i, c.eventHandlers.lookup id = some i →
    ∃ s, c.subscriptions[i]? = some s ∧ s.subscriptionId = some id
  ignored : ∀ id ∈ c.ignoredSubscriptions, ∃ s ∈ c.subscriptions, s.subscriptionId = some id
  kept : ∀ id k, (∀ s ∈ c.subscriptions, s.subscriptionId ≠ some id) → c.writer = some k →
    (∀ j, j ≠ k → pushes j id = []) → c.orphanEvents id = (pushes k id).take limit ∧
      (id ∈ c.orphanOverflow ↔ limit < (pushes k id).length)

variable {limit : Nat} {pushed pushed' : Nat → Text → List PyDict} {todo todo' : Nat → List PyDict}
  {c c' : Client}

/-- The tables and the subscriptions are the same. -/
theorem Tables.of_eq (h : Tables limit pushed todo c) (hsubscriptions : c'.subscriptions =
      c.subscriptions) (hwriter : c'.writer = c.writer)
    (hhandlers : c'.eventHandlers = c.eventHandlers) (horphans : c'.orphanEvents = c.orphanEvents)
    (hoverflow : c'.orphanOverflow = c.orphanOverflow)
    (hignored : c'.ignoredSubscriptions = c.ignoredSubscriptions) :
    Tables limit pushed todo c' := by
  obtain ⟨hshown, hsilent, hdistinct, hhandled, hign, hkept⟩ := h
  rw [← hsubscriptions, ← hwriter, ← hhandlers] at hshown
  rw [← hsubscriptions] at hsilent hdistinct hhandled hign hkept
  rw [← hhandlers] at hhandled
  rw [← hignored] at hign
  rw [← hwriter, ← horphans, ← hoverflow] at hkept
  exact ⟨hshown, hsilent, hdistinct, hhandled, hign, hkept⟩

/-- A subscription goes on or ends: it shows what it has shown before and some of what it was to
receive. -/
structure Continues (s s' : Subscription)
    (rest rest' : List PyDict) : Prop where
  subscriptionId : s'.subscriptionId = s.subscriptionId
  connection : s'.connection = s.connection
  begins : s'.shown <+: s.shown ∨
    s.closed = false ∧ s.subscriptionId ≠ none ∧ s'.shown <+: s.shown ++ rest.map decodeEvent
  opened : s'.closed = false → s.closed = false ∧
    s'.shown ++ rest'.map decodeEvent = s.shown ++ rest.map decodeEvent

theorem continues_self (s : Subscription) (rest : List PyDict) : Continues s s rest rest :=
  ⟨rfl, rfl, Or.inl List.prefix_rfl, fun h => ⟨h, rfl⟩⟩

/-- Subscriptions go on or end. The tables stay, unless all subscriptions that have been registered
are closed. -/
theorem Tables.follow (h : Tables limit pushed todo c)
    (hcases : ∀ (i : Nat) s', c'.subscriptions[i]? = some s' →
      ∃ s, c.subscriptions[i]? = some s ∧ Continues s s' (todo i) (todo' i))
    (hmissing : ∀ i : Nat, c'.subscriptions[i]? = none → c.subscriptions[i]? = none)
    (hopen : (∀ s' ∈ c'.subscriptions, s'.subscriptionId ≠ none → s'.closed = true) ∨
      c'.writer = c.writer ∧ c'.eventHandlers = c.eventHandlers)
    (hhandlers : ∀ id i, c'.eventHandlers.lookup id = some i → c.eventHandlers.lookup id = some i)
    (hignored : c'.ignoredSubscriptions ⊆ c.ignoredSubscriptions)
    (hwriter : ∀ k, c'.writer = some k → c.writer = some k ∧ c'.orphanEvents = c.orphanEvents ∧
      c'.orphanOverflow = c.orphanOverflow) : Tables limit pushed todo' c' := by
  have hkept : ∀ (i : Nat) s, c.subscriptions[i]? = some s → ∃ s',
      c'.subscriptions[i]? = some s' ∧ s'.subscriptionId = s.subscriptionId := by
    intro i s hi
    cases hi' : c'.subscriptions[i]? with
    | none =>
      rw [hmissing i hi'] at hi
      cases hi
    | some s' =>
      obtain ⟨s₁, hs₁, hcontinues⟩ := hcases i s' hi'
      obtain rfl := Option.some.inj (hi.symm.trans hs₁)
      exact ⟨s', rfl, hcontinues.subscriptionId⟩
  have hregistered : ∀ id, (∃ s ∈ c.subscriptions, s.subscriptionId = some id) →
      ∃ s ∈ c'.subscriptions, s.subscriptionId = some id := by
    rintro id ⟨s, hs, hid⟩
    obtain ⟨i, hi⟩ := List.mem_iff_getElem?.mp hs
    obtain ⟨s', hs', hid'⟩ := hkept i s hi
    exact ⟨s', List.mem_of_getElem? hs', hid'.trans hid⟩
  refine ⟨fun i s' id hi hid => ?_, fun s' hs' hid => ?_, fun i j s s' id hi hj hid hid' => ?_,
    fun id i hi => ?_, fun id hid => hregistered id (h.ignored id (hignored hid)),
    fun id k hnone hk hpushed => ?_⟩
  · obtain ⟨s, hs, hcontinues⟩ := hcases i s' hi
    obtain ⟨k, hk, hbegins, hwas⟩ := h.shown i s id hs (hcontinues.subscriptionId.symm.trans hid)
    refine ⟨k, hcontinues.connection.trans hk, ?_, fun hclosed => ?_⟩
    · rcases hcontinues.begins with hless | ⟨hclosed, -, hmore⟩
      · exact hless.trans hbegins
      · rw [(hwas hclosed).2.2] at hmore
        exact hmore
    · obtain ⟨hclosed', heq⟩ := hcontinues.opened hclosed
      obtain ⟨hw, hhandler, hall⟩ := hwas hclosed'
      rcases hopen with hends | ⟨hw', hhandlers'⟩
      · rw [hends s' (List.mem_of_getElem? hi) (by simp [hid])] at hclosed
        cases hclosed
      · exact ⟨hw'.trans hw, hhandlers' ▸ hhandler, heq.trans hall⟩
  · obtain ⟨i, hi⟩ := List.mem_iff_getElem?.mp hs'
    obtain ⟨s, hs, hcontinues⟩ := hcases i s' hi
    have hnone := hcontinues.subscriptionId.symm.trans hid
    rcases hcontinues.begins with hless | ⟨-, hsome, -⟩
    · rw [h.silent s (List.mem_of_getElem? hs) hnone] at hless
      exact List.prefix_nil.mp hless
    · exact absurd hnone hsome
  · obtain ⟨s₁, hs₁, hcontinues⟩ := hcases i s hi
    obtain ⟨s₂, hs₂, hcontinues'⟩ := hcases j s' hj
    exact h.distinct i j s₁ s₂ id hs₁ hs₂ (hcontinues.subscriptionId.symm.trans hid)
      (hcontinues'.subscriptionId.symm.trans hid')
  · obtain ⟨s, hs, hid⟩ := h.handled id i (hhandlers id i hi)
    obtain ⟨s', hs', hid'⟩ := hkept i s hs
    exact ⟨s', hs', hid'.trans hid⟩
  · obtain ⟨hw, horphans, hoverflow⟩ := hwriter k hk
    rw [horphans, hoverflow]
    refine h.kept id k (fun s hs hid => ?_) hw hpushed
    obtain ⟨s', hs', hid'⟩ := hregistered id ⟨s, hs, hid⟩
    exact hnone s' hs' hid'

/-- One subscription goes on or ends. -/
theorem Tables.modify (h : Tables limit pushed todo c) {i : Nat} {f : Subscription → Subscription}
    (hf : ∀ s, c.subscriptions[i]? = some s → Continues s (f s) (todo i) (todo' i))
    (htodo : ∀ j, j ≠ i → todo' j = todo j) :
    Tables limit pushed todo' (c.modifySubscription i f) := by
  refine h.follow (fun j s' hj => ?_) (fun j hj => ?_) (Or.inr ⟨rfl, rfl⟩) (fun _ _ h => h)
    Finset.Subset.rfl fun _ h => ⟨h, rfl, rfl⟩
  swap
  · rw [List.getElem?_eq_none_iff] at hj ⊢
    rwa [modifySubscription, List.length_modify] at hj
  by_cases hij : i = j
  · subst hij
    rw [modifySubscription, List.getElem?_modify_eq] at hj
    obtain ⟨s, hs, rfl⟩ := Option.map_eq_some_iff.mp hj
    exact ⟨s, hs, hf s hs⟩
  · rw [modifySubscription, List.getElem?_modify_ne _ _ hij] at hj
    exact ⟨s', hj, htodo j (Ne.symm hij) ▸ continues_self s' (todo j)⟩

/-- Events that closed subscriptions were to receive are forgotten. -/
theorem Tables.forget (h : Tables limit pushed todo c)
    (htodo : ∀ (i : Nat) s, c.subscriptions[i]? = some s → s.closed = false → todo' i = todo i) :
    Tables limit pushed todo' c := by
  refine ⟨fun i s id hi hid => ?_, h.silent, h.distinct, h.handled, h.ignored, h.kept⟩
  obtain ⟨k, hk, hbegins, hopen⟩ := h.shown i s id hi hid
  refine ⟨k, hk, hbegins, fun hclosed => ?_⟩
  rw [htodo i s hi hclosed]
  exact hopen hclosed

/-- The handler of a closed subscription goes. -/
theorem Tables.unregister (h : Tables limit pushed todo c) {i : Nat} {s : Subscription} {id : Text}
    (hi : c.subscriptions[i]? = some s) (hid : s.subscriptionId = some id)
    (hclosed : s.closed = true) : Tables limit pushed todo (c.unregisterEventHandler id) := by
  refine ⟨fun j s' id' hj hid' => ?_, h.silent, h.distinct, fun id' j hj => ?_, fun id' hid' => ?_,
    fun id' k hnone hwriter hpushed => ?_⟩
  · obtain ⟨k, hk, hbegins, hopen⟩ := h.shown j s' id' hj hid'
    refine ⟨k, hk, hbegins, fun hclosed' => ?_⟩
    obtain ⟨hwriter, hhandler, hall⟩ := hopen hclosed'
    have hne : id' ≠ id := by
      rintro rfl
      obtain rfl := h.distinct i j s s' id' hi hj hid hid'
      obtain rfl := Option.some.inj (hi.symm.trans hj)
      rw [hclosed] at hclosed'
      cases hclosed'
    exact ⟨hwriter, (AList.lookup_erase_ne hne).trans hhandler, hall⟩
  · refine h.handled id' j ?_
    by_cases hne : id' = id
    · subst hne
      rw [show (c.unregisterEventHandler id').eventHandlers = c.eventHandlers.erase id' from rfl,
        AList.lookup_erase] at hj
      cases hj
    · exact (AList.lookup_erase_ne hne).symm.trans hj
  · rcases Finset.mem_insert.mp hid' with rfl | hid'
    · exact ⟨s, List.mem_of_getElem? hi, hid⟩
    · exact h.ignored id' hid'
  · have hne : id' ≠ id := by
      rintro rfl
      exact hnone s (List.mem_of_getElem? hi) hid
    obtain ⟨hkept, hoverflow⟩ := h.kept id' k hnone hwriter hpushed
    refine ⟨(Function.update_of_ne hne ..).trans hkept, ?_⟩
    rw [← hoverflow]
    exact Finset.mem_erase.trans (and_iff_right hne)

/-! ### Receiving events -/

/-- The last item takes the place of what is queued. -/
theorem shown_finish (s : Subscription) {item : Item} (hitem : item.event? = none) :
    (s.finish item).shown <+: s.shown := by
  have hfilter : [item].filterMap Item.event? = [] := by simp [hitem]
  rw [Subscription.shown, Subscription.shown, Subscription.finish, hfilter, List.append_nil,
    List.map_append]
  exact List.prefix_append _ _

theorem continues_finish (s : Subscription) {item : Item} (hitem : item.event? = none)
    (rest rest' : List PyDict) :
    Continues s ({ s with closed := true }.finish item) rest rest' :=
  ⟨rfl, rfl, Or.inl (shown_finish s hitem), nofun⟩

theorem continues_fail (s : Subscription) (error : SdkError) (rest : List PyDict) :
    Continues s (s.fail error) rest rest := by
  unfold Subscription.fail
  split_ifs
  · exact continues_self s rest
  · exact continues_finish s rfl rest rest

/-- A subscription that fails is closed. -/
theorem closed_fail (s : Subscription) (error : SdkError) : (s.fail error).closed = true := by
  unfold Subscription.fail
  split_ifs with h
  · exact h
  · rfl

theorem Tables.receiveError (h : Tables limit pushed todo c) (error : SdkError) (i : Nat) :
    Tables limit pushed todo (c.receiveError error i) :=
  h.modify (fun s _ => continues_fail s error _) fun _ _ => rfl

/-- A subscription whose queue is full gives up. -/
theorem Tables.overflow (h : Tables limit pushed todo c) {i : Nat} {s : Subscription}
    (hi : c.subscriptions[i]? = some s) : Tables limit pushed todo (c.overflow i s) := by
  have hclosed := h.modify (i := i) (fun s _ => continues_finish s
    (show Item.event? (.error queueFullError) = none from rfl) (todo i) (todo i)) fun _ _ => rfl
  unfold Client.overflow
  cases hid : s.subscriptionId with
  | none => exact hclosed
  | some id =>
    have hself := List.getElem?_modify_eq
      (fun s : Subscription => { s with closed := true }.finish (.error queueFullError)) i
      c.subscriptions
    rw [hi] at hself
    exact (hclosed.unregister hself hid rfl).of_eq rfl rfl rfl rfl rfl rfl

/-- A subscription receives the next of its events. -/
theorem Tables.receive (h : Tables limit pushed todo c) {i : Nat} {s : Subscription} {id : Text}
    {item : PyDict} {rest : List PyDict} (hi : c.subscriptions[i]? = some s)
    (hid : s.subscriptionId = some id) (htodo : todo i = item :: rest) :
    Tables limit pushed (Function.update todo i rest) (c.receive i item) := by
  have hother : ∀ j, j ≠ i → Function.update todo i rest j = todo j := fun j hj =>
    Function.update_of_ne hj ..
  -- once the subscription is closed, what it was to receive is forgotten
  have hforget : ∀ c' : Client, Tables limit pushed todo c' →
      (∀ s', c'.subscriptions[i]? = some s' → s'.closed = true) →
      Tables limit pushed (Function.update todo i rest) c' := by
    intro c' hc' hclosed
    refine hc'.forget fun j s' hj hopen => hother j ?_
    rintro rfl
    rw [hclosed s' hj] at hopen
    cases hopen
  have hmodified : ∀ {f : Subscription → Subscription} {s'}, (∀ s, (f s).closed = true) →
      (c.subscriptions.modify i f)[i]? = some s' → s'.closed = true := by
    intro f s' hf hs'
    rw [List.getElem?_modify_eq, hi] at hs'
    obtain rfl := Option.some.inj hs'
    exact hf s
  unfold Client.receive
  rw [hi]
  dsimp only
  by_cases hclosed : s.closed = true
  · rw [if_pos hclosed]
    refine hforget c h fun s' hs' => ?_
    obtain rfl := Option.some.inj (hi.symm.trans hs')
    exact hclosed
  rw [if_neg hclosed]
  cases hdecode : eventFromData (.dict item) "subscription event".toList with
  | error message =>
    exact hforget _ (h.receiveError _ i) fun s' hs' => hmodified (fun s => closed_fail s _) hs'
  | ok event =>
    dsimp only
    split_ifs with hroom
    · refine h.modify (fun s' hs' => ?_) hother
      obtain rfl := Option.some.inj (hi.symm.trans hs')
      have hshown : Subscription.shown { s with queue := s.queue ++ [.event event] } =
          s.shown ++ [decodeEvent item] := by
        rw [decodeEvent, hdecode]
        simp [Subscription.shown, Item.event?]
      have hall : s.shown ++ [decodeEvent item] ++ rest.map decodeEvent =
          s.shown ++ (todo i).map decodeEvent := by
        rw [htodo, List.map_cons, List.append_assoc, List.singleton_append]
      refine ⟨rfl, rfl, Or.inr ⟨by simpa using hclosed, by simp [hid], ?_⟩,
        fun hopen => ⟨hopen, ?_⟩⟩
      · rw [hshown, ← hall]
        exact List.prefix_append _ _
      · rw [hshown, Function.update_self, hall]
    · refine hforget _ (h.overflow hi) fun s' hs' => ?_
      unfold Client.overflow at hs'
      rw [hid] at hs'
      exact hmodified (fun _ => rfl) hs'

/-- More is pushed to an ID that a subscription has; if it is open, it is still to receive that. -/
theorem Tables.grow (h : Tables limit pushed todo c) {id : Text} {more : List PyDict}
    (hregistered : ∃ s ∈ c.subscriptions, s.subscriptionId = some id)
    (hsame : ∀ k id', id' ≠ id → pushed' k id' = pushed k id')
    (hbegins : ∀ k, pushed k id <+: pushed' k id)
    (hmore : ∀ (i : Nat) s k, c.subscriptions[i]? = some s → s.subscriptionId = some id →
      s.closed = false → s.connection = some k → todo' i = todo i ++ more ∧
        pushed' k id = pushed k id ++ more)
    (hother : ∀ (i : Nat) s, c.subscriptions[i]? = some s → s.subscriptionId ≠ some id →
      todo' i = todo i) : Tables limit pushed' todo' c := by
  refine ⟨fun i s id' hi hid => ?_, h.silent, h.distinct, h.handled, h.ignored,
    fun id' k hnone hwriter hpushed => ?_⟩
  · obtain ⟨k, hk, hshown, hopen⟩ := h.shown i s id' hi hid
    refine ⟨k, hk, ?_, fun hclosed => ?_⟩
    · by_cases hne : id' = id
      · subst hne
        exact hshown.trans ((hbegins k).map _)
      · rwa [hsame k id' hne]
    · obtain ⟨hwriter, hhandler, hall⟩ := hopen hclosed
      refine ⟨hwriter, hhandler, ?_⟩
      by_cases hne : id' = id
      · subst hne
        obtain ⟨htodo, hpushed⟩ := hmore i s k hi hid hclosed hk
        rw [htodo, hpushed, List.map_append, List.map_append, ← hall, List.append_assoc]
      · rw [hsame k id' hne, hother i s hi (by rw [hid]; simpa using hne), hall]
  · have hne : id' ≠ id := by
      rintro rfl
      obtain ⟨s, hs, hid⟩ := hregistered
      exact hnone s hs hid
    rw [hsame k id' hne]
    exact h.kept id' k hnone hwriter fun j hj => by rw [← hsame j id' hne, hpushed j hj]

/-- What is kept for an ID matters only as long as no subscription has the ID. -/
theorem Tables.of_registered (h : Tables limit pushed todo c) {id : Text}
    (hregistered : ∃ s ∈ c.subscriptions, s.subscriptionId = some id)
    {orphanEvents : Text → List PyDict} {orphanOverflow : Finset Text}
    (horphans : ∀ id', id' ≠ id → orphanEvents id' = c.orphanEvents id')
    (hoverflow : ∀ id', id' ≠ id → (id' ∈ orphanOverflow ↔ id' ∈ c.orphanOverflow)) :
    Tables limit pushed todo { c with orphanEvents, orphanOverflow } := by
  refine ⟨h.shown, h.silent, h.distinct, h.handled, h.ignored,
    fun id' k hnone hwriter hpushed => ?_⟩
  have hne : id' ≠ id := by
    rintro rfl
    obtain ⟨s, hs, hid⟩ := hregistered
    exact hnone s hs hid
  obtain ⟨hkept, hover⟩ := h.kept id' k hnone hwriter hpushed
  exact ⟨(horphans id' hne).trans hkept, (hoverflow id' hne).trans hover⟩

/-- One more event has been pushed. -/
def pushedThen (pushed : Nat → Text → List PyDict) (k : Nat) (id : Text) (event : PyDict) :
    Nat → Text → List PyDict := fun j id' =>
  if j = k ∧ id' = id then pushed k id ++ [event] else pushed j id'

theorem pushedThen_of_ne {k : Nat} {id : Text} {event : PyDict} {j : Nat} {id' : Text}
    (h : ¬ (j = k ∧ id' = id)) : pushedThen pushed k id event j id' = pushed j id' := if_neg h

theorem pushedThen_self (pushed : Nat → Text → List PyDict) (k : Nat) (id : Text)
    (event : PyDict) : pushedThen pushed k id event k id = pushed k id ++ [event] :=
  if_pos ⟨rfl, rfl⟩

theorem prefix_pushedThen (pushed : Nat → Text → List PyDict) (k : Nat) (id : Text)
    (event : PyDict) (j : Nat) (id' : Text) :
    pushed j id' <+: pushedThen pushed k id event j id' := by
  unfold pushedThen
  split_ifs with h
  · obtain ⟨rfl, rfl⟩ := h
    exact List.prefix_append _ _
  · exact List.prefix_rfl

/-- An event is pushed to an ID that no subscription has. -/
theorem Tables.keep {env : Environment} (h : Tables env.orphanEventLimit pushed todo c) (k : Nat)
    {id : Text} (event : PyDict) (hnone : ∀ s ∈ c.subscriptions, s.subscriptionId ≠ some id) :
    Tables env.orphanEventLimit (pushedThen pushed k id event) todo
      (c.dispatchEvent env id event) := by
  have hhandler : c.eventHandlers.lookup id = none := by
    cases hlookup : c.eventHandlers.lookup id with
    | none => rfl
    | some i =>
      obtain ⟨s, hs, hid⟩ := h.handled id i hlookup
      exact absurd hid (hnone s (List.mem_of_getElem? hs))
  have hignored : id ∉ c.ignoredSubscriptions := fun hmem => by
    obtain ⟨s, hs, hid⟩ := h.ignored id hmem
    exact hnone s hs hid
  have hshown : ∀ (i : Nat) (s : Subscription) (id' : Text), c.subscriptions[i]? = some s →
      s.subscriptionId = some id' → ∀ j, pushedThen pushed k id event j id' = pushed j id' := by
    rintro i s id' hi hid j
    refine pushedThen_of_ne fun hsame => ?_
    exact hnone s (List.mem_of_getElem? hi) (hsame.2 ▸ hid)
  -- nothing but what is kept changes
  have hrest : ∀ {orphanEvents : Text → List PyDict} {orphanOverflow : Finset Text},
      (∀ id', id' ≠ id → orphanEvents id' = c.orphanEvents id') →
      (∀ id', id' ≠ id → (id' ∈ orphanOverflow ↔ id' ∈ c.orphanOverflow)) →
      (∀ k', c.writer = some k' → (∀ j, j ≠ k' → pushedThen pushed k id event j id = []) →
        orphanEvents id = (pushedThen pushed k id event k' id).take env.orphanEventLimit ∧
        (id ∈ orphanOverflow ↔
          env.orphanEventLimit < (pushedThen pushed k id event k' id).length)) →
      Tables env.orphanEventLimit (pushedThen pushed k id event) todo
        { c with orphanEvents, orphanOverflow } := by
    intro orphanEvents orphanOverflow horphans hoverflow hself
    refine ⟨fun i s id' hi hid => ?_, h.silent, h.distinct, h.handled, h.ignored,
      fun id' k' hnone' hwriter hpushed => ?_⟩
    · obtain ⟨k', hk', hbegins⟩ := h.shown i s id' hi hid
      rw [← hshown i s id' hi hid] at hbegins
      exact ⟨k', hk', hbegins⟩
    · by_cases hne : id' = id
      · subst hne
        exact hself k' hwriter hpushed
      · have hsame : ∀ j, pushedThen pushed k id event j id' = pushed j id' := fun j =>
          pushedThen_of_ne fun heq => hne heq.2
        obtain ⟨hkept, hover⟩ := h.kept id' k' hnone' hwriter fun j hj => by
          rw [← hsame j, hpushed j hj]
        rw [hsame k']
        exact ⟨(horphans id' hne).trans hkept, (hoverflow id' hne).trans hover⟩
  -- if another connection pushes as well, nothing is known
  have hwas : ∀ k', c.writer = some k' → (∀ j, j ≠ k' → pushedThen pushed k id event j id = []) →
      k' = k ∧ c.orphanEvents id = (pushed k id).take env.orphanEventLimit ∧
        (id ∈ c.orphanOverflow ↔ env.orphanEventLimit < (pushed k id).length) := by
    intro k' hwriter hpushed
    obtain rfl : k' = k := by
      by_contra hne
      have hempty := hpushed k (Ne.symm hne)
      rw [pushedThen_self] at hempty
      simp at hempty
    refine ⟨rfl, h.kept id k' hnone hwriter fun j hj => ?_⟩
    have hempty := hpushed j hj
    rwa [pushedThen_of_ne fun heq => hj heq.1] at hempty
  unfold dispatchEvent
  rw [hhandler]
  dsimp only
  rw [if_neg hignored]
  split_ifs with hfull
  · refine hrest (fun _ _ => rfl) (fun id' hne => ?_) fun k' hwriter hpushed => ?_
    · exact Finset.mem_insert.trans (or_iff_right hne)
    · obtain ⟨rfl, hkept, -⟩ := hwas k' hwriter hpushed
      rw [hkept, List.length_take] at hfull
      rw [pushedThen_self, List.take_append_of_le_length (by omega)]
      refine ⟨hkept, ?_⟩
      simp only [Finset.mem_insert_self, true_iff, List.length_append, List.length_singleton]
      omega
  · refine hrest (fun id' hne => Function.update_of_ne hne ..) (fun _ _ => Iff.rfl)
      fun k' hwriter hpushed => ?_
    obtain ⟨rfl, hkept, hover⟩ := hwas k' hwriter hpushed
    rw [hkept, List.length_take] at hfull
    rw [Function.update_self, pushedThen_self, hkept, List.take_of_length_le (by omega),
      List.take_of_length_le (by rw [List.length_append, List.length_singleton]; omega)]
    refine ⟨rfl, ?_⟩
    rw [hover, List.length_append, List.length_singleton]
    omega

/-- Nothing is left to receive. -/
abbrev noneLeft : Nat → List PyDict := fun _ => []

/-- **Pushes.** An event is pushed to an ID on a connection. -/
theorem Tables.push {env : Environment} (h : Tables env.orphanEventLimit pushed noneLeft c)
    (k : Nat) {id : Text} (event : PyDict)
    (hplace : ∀ s ∈ c.subscriptions, s.subscriptionId = some id →
      s.closed = true ∨ s.connection = some k) :
    Tables env.orphanEventLimit (pushedThen pushed k id event) noneLeft
      (c.dispatchEvent env id event) := by
  by_cases hregistered : ∃ s ∈ c.subscriptions, s.subscriptionId = some id
  swap
  · exact h.keep k event fun s hs hid => hregistered ⟨s, hs, hid⟩
  have hsame : ∀ j id', id' ≠ id → pushedThen pushed k id event j id' = pushed j id' :=
    fun j id' hne => pushedThen_of_ne fun heq => hne heq.2
  cases hhandler : c.eventHandlers.lookup id with
  | some i =>
    obtain ⟨s, hi, hid⟩ := h.handled id i hhandler
    have hgrown : Tables env.orphanEventLimit (pushedThen pushed k id event)
        (Function.update noneLeft i [event]) c := by
      refine @Tables.grow _ _ _ _ _ _ h id [event] hregistered hsame
        (fun j => prefix_pushedThen _ _ _ _ _ _) (fun j s' k' hj hid' hclosed hk' => ?_)
        (fun j s' hj hid' => ?_)
      · obtain rfl := h.distinct i j s s' id hi hj hid hid'
        have hk : s'.connection = some k := (hplace s' (List.mem_of_getElem? hj) hid').resolve_left
          (by simp [hclosed])
        obtain rfl := Option.some.inj (hk.symm.trans hk')
        exact ⟨Function.update_self .., pushedThen_self _ _ _ _⟩
      · refine Function.update_of_ne ?_ ..
        rintro rfl
        obtain rfl := Option.some.inj (hi.symm.trans hj)
        exact hid' hid
    have hreceived := hgrown.receive hi hid (Function.update_self ..)
    have hnone : Function.update (Function.update noneLeft i [event]) i [] = noneLeft := by
      funext j
      by_cases hj : j = i <;> simp [Function.update, hj]
    rw [hnone] at hreceived
    unfold dispatchEvent
    rw [hhandler]
    exact hreceived
  | none =>
    -- the subscription that had the ID is closed
    have hgrown : Tables env.orphanEventLimit (pushedThen pushed k id event) noneLeft c := by
      refine @Tables.grow _ _ _ _ _ _ h id [] hregistered hsame
        (fun j => prefix_pushedThen _ _ _ _ _ _) (fun i s k' hi hid hclosed _ => ?_)
        (fun _ _ _ _ => rfl)
      obtain ⟨_, -, -, hopen⟩ := h.shown i s id hi hid
      rw [hhandler] at hopen
      exact absurd (hopen hclosed).2.1 nofun
    unfold dispatchEvent
    rw [hhandler]
    dsimp only
    split_ifs
    · exact hgrown
    · exact hgrown.of_registered hregistered (fun _ _ => rfl) fun id' hne =>
        Finset.mem_insert.trans (or_iff_right hne)
    · exact hgrown.of_registered hregistered (fun id' hne => Function.update_of_ne hne ..)
        fun _ _ => Iff.rfl

/-! ### Registrations -/

/-- Subscriptions keep their IDs and connections, and stay entered and closed. -/
structure Follows (c c' : Client) : Prop where
  old : ∀ (i : Nat) s, c.subscriptions[i]? = some s → ∃ s', c'.subscriptions[i]? = some s' ∧
    s'.subscriptionId = s.subscriptionId ∧ s'.connection = s.connection ∧
    (s.entered = true → s'.entered = true) ∧ (s.closed = true → s'.closed = true)
  new : ∀ (i : Nat) s', c'.subscriptions[i]? = some s' → c.subscriptions[i]? = none →
    s'.subscriptionId = none

theorem follows_of_eq (h : c'.subscriptions = c.subscriptions) : Follows c c' := by
  refine ⟨fun i s hi => ⟨s, by rw [h, hi], rfl, rfl, id, id⟩, fun i s' hi hnone => ?_⟩
  rw [h, hnone] at hi
  cases hi

theorem Follows.trans {c'' : Client} (h : Follows c c') (h' : Follows c' c'') : Follows c c'' := by
  refine ⟨fun i s hi => ?_, fun i s'' hi hnone => ?_⟩
  · obtain ⟨s', hi', hid, hconnection, hentered, hclosed⟩ := h.old i s hi
    obtain ⟨s'', hi'', hid', hconnection', hentered', hclosed'⟩ := h'.old i s' hi'
    exact ⟨s'', hi'', hid'.trans hid, hconnection'.trans hconnection, hentered' ∘ hentered,
      hclosed' ∘ hclosed⟩
  · cases hs' : c'.subscriptions[i]? with
    | none => exact h'.new i s'' hi hs'
    | some s' =>
      obtain ⟨s₂, hs₂, hid, -⟩ := h'.old i s' hs'
      obtain rfl := Option.some.inj (hi.symm.trans hs₂)
      exact hid.trans (h.new i s' hs' hnone)

theorem follows_modify (i : Nat) {f : Subscription → Subscription}
    (hf : ∀ s, c.subscriptions[i]? = some s → (f s).subscriptionId = s.subscriptionId ∧
      (f s).connection = s.connection ∧ (s.entered = true → (f s).entered = true) ∧
      (s.closed = true → (f s).closed = true)) : Follows c (c.modifySubscription i f) := by
  refine ⟨fun j s hj => ?_, fun j s' hj hnone => ?_⟩
  · by_cases hij : i = j
    · subst hij
      exact ⟨f s, by rw [modifySubscription, List.getElem?_modify_eq, hj]; rfl, hf s hj⟩
    · exact ⟨s, by rw [modifySubscription, List.getElem?_modify_ne _ _ hij, hj], rfl, rfl, id, id⟩
  · have hlength := List.getElem?_eq_none_iff.mp hnone
    have hlt := (List.getElem?_eq_some_iff.mp hj).1
    rw [modifySubscription, List.length_modify] at hlt
    omega

/-- A subscription that fails keeps its ID and connection. -/
theorem fail_spec (s : Subscription) (error : SdkError) :
    (s.fail error).subscriptionId = s.subscriptionId ∧ (s.fail error).connection = s.connection ∧
      (s.entered = true → (s.fail error).entered = true) ∧
      (s.closed = true → (s.fail error).closed = true) := by
  unfold Subscription.fail
  split_ifs
  · exact ⟨rfl, rfl, id, id⟩
  · exact ⟨rfl, rfl, id, fun _ => rfl⟩

theorem follows_receiveError (c : Client) (error : SdkError) (i : Nat) :
    Follows c (c.receiveError error i) := follows_modify i fun s _ => fail_spec s error

theorem follows_overflow (c : Client) (i : Nat) (s : Subscription) :
    Follows c (c.overflow i s) := by
  have hmodified : Follows c (c.modifySubscription i fun s =>
      { s with closed := true }.finish (.error queueFullError)) :=
    follows_modify i fun _ _ => ⟨rfl, rfl, id, fun _ => rfl⟩
  unfold Client.overflow
  cases s.subscriptionId with
  | none => exact hmodified
  | some id => exact hmodified.trans (follows_of_eq rfl)

theorem follows_receive (c : Client) (i : Nat) (item : PyDict) : Follows c (c.receive i item) := by
  unfold Client.receive
  split
  · exact follows_of_eq rfl
  · next s _ =>
    by_cases hclosed : s.closed = true
    · rw [if_pos hclosed]
      exact follows_of_eq rfl
    · rw [if_neg hclosed]
      cases eventFromData (.dict item) "subscription event".toList with
      | error message => exact follows_receiveError _ _ _
      | ok event =>
        dsimp only
        split_ifs
        · exact follows_modify i fun _ _ => ⟨rfl, rfl, id, id⟩
        · exact follows_overflow _ _ _

theorem follows_dispatchEvent (env : Environment) (c : Client) (id : Text) (event : PyDict) :
    Follows c (c.dispatchEvent env id event) := by
  unfold dispatchEvent
  split
  · exact follows_receive _ _ _
  · split_ifs <;> exact follows_of_eq rfl

theorem follows_foldl_receive (c : Client) (i : Nat) (items : List PyDict) :
    Follows c (items.foldl (fun c item => c.receive i item) c) := by
  induction items generalizing c with
  | nil => exact follows_of_eq rfl
  | cons item items ih => exact (follows_receive c i item).trans (ih _)

/-- A subscription receives all the events that have been kept for it. -/
theorem Tables.replay (h : Tables limit pushed todo c) {i : Nat} {s : Subscription} {id : Text}
    (hi : c.subscriptions[i]? = some s) (hid : s.subscriptionId = some id) {items : List PyDict}
    (htodo : todo i = items) :
    Tables limit pushed (Function.update todo i [])
      (items.foldl (fun c item => c.receive i item) c) := by
  induction items generalizing c todo s with
  | nil =>
    have hsame : Function.update todo i [] = todo := by rw [← htodo, Function.update_eq_self]
    rwa [hsame]
  | cons item items ih =>
    obtain ⟨s', hi', hid', -⟩ := (follows_receive c i item).old i s hi
    have hrest := ih (h.receive hi hid htodo) hi' (hid'.trans hid) (Function.update_self ..)
    rwa [Function.update_idem] at hrest

/-- A subscription that had no ID gets one that no other subscription has, and its handler. -/
def assignId (c : Client) (i k : Nat) (id : Text) : Client :=
  installEventHandler
    (c.modifySubscription i fun s => { s with subscriptionId := some id, connection := some k })
    id i

section AssignId

variable {i k : Nat} {id : Text} {s : Subscription} (hi : c.subscriptions[i]? = some s)
include hi

theorem getElem?_assignId :
    (c.assignId i k id).subscriptions[i]? =
      some { s with subscriptionId := some id, connection := some k } := by
  rw [assignId, installEventHandler, modifySubscription, List.getElem?_modify_eq, hi]
  rfl

omit hi in
theorem getElem?_assignId_of_ne {j : Nat} (hj : j ≠ i) :
    (c.assignId i k id).subscriptions[j]? = c.subscriptions[j]? := by
  rw [assignId, installEventHandler, modifySubscription, List.getElem?_modify_ne _ _ (Ne.symm hj)]

/-- A subscription with an ID is that one, or it was there before. -/
theorem assignId_cases (hfresh : ∀ s ∈ c.subscriptions, s.subscriptionId ≠ some id) {j : Nat}
    {s' : Subscription} {id' : Text} (hj : (c.assignId i k id).subscriptions[j]? = some s')
    (hid' : s'.subscriptionId = some id') :
    (j = i ∧ s' = { s with subscriptionId := some id, connection := some k } ∧ id' = id) ∨
      (j ≠ i ∧ id' ≠ id ∧ c.subscriptions[j]? = some s') := by
  by_cases hji : j = i
  · subst hji
    obtain rfl := Option.some.inj ((getElem?_assignId hi).symm.trans hj)
    exact Or.inl ⟨rfl, rfl, (Option.some.inj hid').symm⟩
  · rw [getElem?_assignId_of_ne hji] at hj
    refine Or.inr ⟨hji, ?_, hj⟩
    rintro rfl
    exact hfresh s' (List.mem_of_getElem? hj) hid'

theorem getElem?_assignId_of_some (hnone : s.subscriptionId = none) {j : Nat} {s' : Subscription}
    {id' : Text} (hj : c.subscriptions[j]? = some s') (hid' : s'.subscriptionId = some id') :
    (c.assignId i k id).subscriptions[j]? = some s' := by
  have hji : j ≠ i := by
    rintro rfl
    obtain rfl := Option.some.inj (hi.symm.trans hj)
    rw [hnone] at hid'
    cases hid'
  rw [getElem?_assignId_of_ne hji, hj]

/-- What has been kept is now to be received. -/
theorem Tables.assignId (h : Tables limit pushed noneLeft c) (hnone : s.subscriptionId = none)
    (hfresh : ∀ s ∈ c.subscriptions, s.subscriptionId ≠ some id)
    (hpushed : ∀ j id', id' ≠ id → pushed' j id' = pushed j id') (htodo : ∀ j, j ≠ i → todo j = [])
    (hopen : s.closed = false → c.writer = some k ∧ todo i = pushed' k id) :
    Tables limit pushed' todo (c.assignId i k id) := by
  have hshown : s.shown = [] := h.silent s (List.mem_of_getElem? hi) hnone
  have hself : (c.assignId i k id).subscriptions[i]? =
      some { s with subscriptionId := some id, connection := some k } := getElem?_assignId hi
  have hold : ∀ id', (∃ s ∈ c.subscriptions, s.subscriptionId = some id') →
      ∃ s ∈ (c.assignId i k id).subscriptions, s.subscriptionId = some id' := by
    rintro id' ⟨s', hs', hid'⟩
    obtain ⟨j, hj⟩ := List.mem_iff_getElem?.mp hs'
    exact ⟨s', List.mem_of_getElem? (getElem?_assignId_of_some hi hnone hj hid'), hid'⟩
  refine ⟨fun j s' id' hj hid' => ?_, fun s' hs' hid' => ?_,
    fun j j' s' s'' id' hj hj' hid' hid'' => ?_, fun id' j hj => ?_, fun id' hid' => ?_,
    fun id' k' hnone' hwriter hempty => ?_⟩
  · rcases assignId_cases hi hfresh hj hid' with ⟨rfl, rfl, rfl⟩ | ⟨hji, hne, hold'⟩
    · have hempty : Subscription.shown { s with subscriptionId := some id', connection := some k } =
        [] := hshown
      refine ⟨k, rfl, by rw [hempty]; exact List.nil_prefix, fun hclosed => ?_⟩
      obtain ⟨hwriter, heq⟩ := hopen hclosed
      exact ⟨hwriter, AList.lookup_insert .., by rw [hempty, heq, List.nil_append]⟩
    · obtain ⟨k', hk', hbegins, hrest⟩ := h.shown j s' id' hold' hid'
      refine ⟨k', hk', by rwa [hpushed k' id' hne], fun hclosed => ?_⟩
      obtain ⟨hwriter, hhandler, hall⟩ := hrest hclosed
      refine ⟨hwriter, (AList.lookup_insert_ne hne).trans hhandler, ?_⟩
      rw [htodo j hji, hpushed k' id' hne]
      exact hall
  · obtain ⟨j, hj⟩ := List.mem_iff_getElem?.mp hs'
    by_cases hji : j = i
    · subst hji
      obtain rfl := Option.some.inj (hself.symm.trans hj)
      cases hid'
    · rw [getElem?_assignId_of_ne hji] at hj
      exact h.silent s' (List.mem_of_getElem? hj) hid'
  · rcases assignId_cases hi hfresh hj hid' with ⟨hji, -, heq⟩ | ⟨-, hne, hold⟩ <;>
      rcases assignId_cases hi hfresh hj' hid'' with ⟨hj'i, -, heq'⟩ | ⟨-, hne', hold'⟩
    · rw [hji, hj'i]
    · exact absurd heq hne'
    · exact absurd heq' hne
    · exact h.distinct j j' s' s'' id' hold hold' hid' hid''
  · by_cases hne : id' = id
    · subst hne
      obtain rfl := Option.some.inj ((AList.lookup_insert c.eventHandlers).symm.trans hj)
      exact ⟨_, hself, rfl⟩
    · obtain ⟨s', hs', hid'⟩ := h.handled id' j ((AList.lookup_insert_ne hne).symm.trans hj)
      exact ⟨s', getElem?_assignId_of_some hi hnone hs' hid', hid'⟩
  · exact hold id' (h.ignored id' (Finset.mem_of_mem_erase hid'))
  · have hne : id' ≠ id := by
      rintro rfl
      exact hnone' _ (List.mem_of_getElem? hself) rfl
    obtain ⟨hkept, hover⟩ := h.kept id' k'
      (fun s' hs' hid' => by
        obtain ⟨s'', hs'', hid''⟩ := hold id' ⟨s', hs', hid'⟩
        exact hnone' s'' hs'' hid'') hwriter
      (fun j hj => by rw [← hpushed j id' hne, hempty j hj])
    rw [hpushed k' id' hne]
    exact ⟨(Function.update_of_ne hne ..).trans hkept,
      (Finset.mem_erase.trans (and_iff_right hne)).trans hover⟩

/-- **Registrations.** A subscription gets its handler. Unless it is closed, this is on the client's
connection, and nothing has been pushed to its ID elsewhere. -/
theorem Tables.register (h : Tables limit pushed noneLeft c) (hnone : s.subscriptionId = none)
    (hfresh : ∀ s ∈ c.subscriptions, s.subscriptionId ≠ some id)
    (hopen : s.closed = false → c.writer = some k ∧ ∀ j, j ≠ k → pushed j id = []) :
    Tables limit pushed noneLeft
      (registerEventHandler
        (c.modifySubscription i fun s => { s with subscriptionId := some id, connection := some k })
        id i) := by
  have hself : (c.assignId i k id).subscriptions[i]? =
      some { s with subscriptionId := some id, connection := some k } := getElem?_assignId hi
  have hempty : ∀ items : List PyDict,
      Function.update (Function.update noneLeft i items) i [] = noneLeft := fun items => by
    rw [Function.update_idem, Function.update_eq_self]
  have hother : ∀ items : List PyDict, ∀ j, j ≠ i → Function.update noneLeft i items j = [] :=
    fun items j hj => Function.update_of_ne hj ..
  have hreplay : ∀ pushed₁, Tables limit pushed₁
        (Function.update noneLeft i (c.orphanEvents id)) (c.assignId i k id) →
      Tables limit pushed₁ noneLeft
        ((c.orphanEvents id).foldl (fun c event => c.receive i event) (c.assignId i k id)) := by
    intro pushed₁ hstart
    have hdone := hstart.replay hself rfl (Function.update_self ..)
    rwa [hempty] at hdone
  have hfold : registerEventHandler
      (c.modifySubscription i fun s => { s with subscriptionId := some id, connection := some k })
      id i =
      if id ∈ c.orphanOverflow then
        Client.receiveError
          ((c.orphanEvents id).foldl (fun c event => c.receive i event) (c.assignId i k id))
          orphanOverflowError i
      else (c.orphanEvents id).foldl (fun c event => c.receive i event) (c.assignId i k id) := rfl
  rw [hfold]
  cases hclosed : s.closed with
  | true =>
    have hdone := hreplay pushed (h.assignId hi hnone hfresh (fun _ _ _ => rfl) (hother _)
      (by simp [hclosed]))
    split_ifs
    · exact hdone.receiveError _ i
    · exact hdone
  | false =>
    obtain ⟨hwriter, helsewhere⟩ := hopen hclosed
    obtain ⟨hkept, hover⟩ := h.kept id k hfresh hwriter helsewhere
    -- without what has been pushed to the ID beyond what has been kept
    set pushed₁ : Nat → Text → List PyDict := fun j id' =>
      if id' = id ∧ j = k then c.orphanEvents id else pushed j id' with hpushed₁
    have hself₁ : pushed₁ k id = c.orphanEvents id := if_pos ⟨rfl, rfl⟩
    have hdone := hreplay pushed₁ (h.assignId hi hnone hfresh
      (fun j id' hne => if_neg fun heq => hne heq.1) (hother _)
      (fun _ => ⟨hwriter, by rw [hself₁, Function.update_self]⟩))
    split_ifs with hfull
    · have hfailed := hdone.receiveError orphanOverflowError i
      obtain ⟨s₁, hs₁, hid₁, -⟩ := ((follows_foldl_receive (c.assignId i k id) i
        (c.orphanEvents id)).trans (follows_receiveError _ orphanOverflowError i)).old i _ hself
      have hends : s₁.closed = true := by
        rw [Client.receiveError, modifySubscription, List.getElem?_modify_eq] at hs₁
        obtain ⟨s₂, -, rfl⟩ := Option.map_eq_some_iff.mp hs₁
        exact closed_fail s₂ _
      refine @Tables.grow _ _ _ _ _ _ hfailed id [] ⟨s₁, List.mem_of_getElem? hs₁, hid₁⟩
        (fun j id' hne => (if_neg fun heq => hne heq.1).symm) (fun j => ?_)
        (fun j s' k' hj hid' hclosed' _ => ?_) (fun _ _ _ _ => rfl)
      · by_cases hj : j = k
        · subst hj
          rw [hself₁, hkept]
          exact List.take_prefix _ _
        · rw [helsewhere j hj, hpushed₁]
          simp [hj, helsewhere j hj]
      · obtain rfl := hfailed.distinct i j s₁ s' id hs₁ hj hid₁ hid'
        obtain rfl := Option.some.inj (hs₁.symm.trans hj)
        rw [hends] at hclosed'
        cases hclosed'
    · have hall : pushed₁ = pushed := by
        funext j id'
        by_cases hj : id' = id ∧ j = k
        · obtain ⟨rfl, rfl⟩ := hj
          have hle := Nat.not_lt.mp (mt hover.mpr hfull)
          rw [hself₁, hkept, List.take_of_length_le hle]
        · exact if_neg hj
      rwa [hall] at hdone

end AssignId

/-! ### Connections -/

/-- All waiters have failed: the subscriptions that have been registered are closed. -/
theorem Tables.fail (h : Tables limit pushed noneLeft c) {error : SdkError}
    (hsubscriptions : ∀ i : Nat, c'.subscriptions[i]? = c.subscriptions[i]?.map fun subscription =>
      if ∃ h ∈ c.eventHandlers.entries, h.2 = i then subscription.fail error else subscription)
    (hwriter : c'.writer = none) (hhandlers : c'.eventHandlers = ∅)
    (hignored : c'.ignoredSubscriptions = ∅) : Tables limit pushed noneLeft c' := by
  have hcases : ∀ (i : Nat) s', c'.subscriptions[i]? = some s' → ∃ s, c.subscriptions[i]? = some s ∧
      Continues s s' [] [] ∧ (s.subscriptionId ≠ none → s'.closed = true) := by
    intro i s' hi
    obtain ⟨s, hs, rfl⟩ := Option.map_eq_some_iff.mp ((hsubscriptions i).symm.trans hi)
    refine ⟨s, hs, ?_, fun hsome => ?_⟩
    · split_ifs
      · exact continues_fail s error []
      · exact continues_self s []
    · split_ifs with htold
      · exact closed_fail s error
      · -- an open subscription that has been registered has a handler
        obtain ⟨id, hid⟩ := Option.ne_none_iff_exists'.mp hsome
        obtain ⟨_, -, -, hopen⟩ := h.shown i s id hs hid
        by_contra hclosed
        exact htold ⟨⟨id, i⟩,
          AList.mem_lookup_iff.mp (hopen (by simpa using hclosed)).2.1, rfl⟩
  refine h.follow (fun i s' hi => ?_) (fun i hi => ?_) (Or.inl fun s' hs' hsome => ?_)
    (fun id i hi => ?_) ?_ fun k hk => ?_
  · obtain ⟨s, hs, hcontinues, -⟩ := hcases i s' hi
    exact ⟨s, hs, hcontinues⟩
  · exact Option.map_eq_none_iff.mp ((hsubscriptions i).symm.trans hi)
  · obtain ⟨i, hi⟩ := List.mem_iff_getElem?.mp hs'
    obtain ⟨s, -, hcontinues, hends⟩ := hcases i s' hi
    exact hends (hcontinues.subscriptionId ▸ hsome)
  · rw [hhandlers, AList.lookup_empty] at hi
    cases hi
  · rw [hignored]
    exact Finset.empty_subset _
  · rw [hwriter] at hk
    cases hk

/-- A new connection is there, and the subscriptions that have been registered are closed. -/
theorem Tables.connect (h : Tables limit pushed noneLeft c)
    (hclosed : ∀ s ∈ c.subscriptions, s.subscriptionId ≠ none → s.closed = true) {k : Nat}
    (hpushed : ∀ id, pushed k id = []) (hsubscriptions : c'.subscriptions = c.subscriptions)
    (hwriter : c'.writer = some k) (hhandlers : c'.eventHandlers = c.eventHandlers)
    (horphans : c'.orphanEvents = fun _ => []) (hoverflow : c'.orphanOverflow = ∅)
    (hignored : c'.ignoredSubscriptions = ∅) : Tables limit pushed noneLeft c' := by
  have hends : ∀ (i : Nat) s id, c.subscriptions[i]? = some s → s.subscriptionId = some id →
      s.closed = true := fun i s id hi hid =>
    hclosed s (List.mem_of_getElem? hi) (by simp [hid])
  refine ⟨fun i s id hi hid => ?_, ?_, ?_, ?_, ?_, fun id k' _ hk' _ => ?_⟩
  · rw [hsubscriptions] at hi
    obtain ⟨k', hk', hbegins, -⟩ := h.shown i s id hi hid
    refine ⟨k', hk', hbegins, fun hopen => ?_⟩
    rw [hends i s id hi hid] at hopen
    cases hopen
  · rw [hsubscriptions]
    exact h.silent
  · rw [hsubscriptions]
    exact h.distinct
  · rw [hhandlers, hsubscriptions]
    exact h.handled
  · rw [hignored]
    exact fun id hid => absurd hid (Finset.notMem_empty id)
  · obtain rfl := Option.some.inj (hwriter.symm.trans hk')
    rw [horphans, hoverflow, hpushed id]
    simp

/-! ### Calls of the application -/

/-- There is a new subscription. -/
theorem Tables.subscribe (h : Tables limit pushed noneLeft c) {s : Subscription}
    (hnone : s.subscriptionId = none) (hshown : s.shown = []) :
    Tables limit pushed noneLeft { c with subscriptions := c.subscriptions ++ [s] } := by
  have hcases : ∀ (i : Nat) s' id, (c.subscriptions ++ [s])[i]? = some s' →
      s'.subscriptionId = some id → c.subscriptions[i]? = some s' := by
    intro i s' id hi hid
    rw [List.getElem?_append] at hi
    split_ifs at hi
    · exact hi
    · obtain rfl := List.mem_singleton.mp (List.mem_of_getElem? hi)
      rw [hnone] at hid
      cases hid
  have hkept : ∀ (i : Nat) s', c.subscriptions[i]? = some s' →
      (c.subscriptions ++ [s])[i]? = some s' := fun i s' hi => by
    rw [List.getElem?_append_left (List.getElem?_eq_some_iff.mp hi).1, hi]
  refine ⟨fun i s' id hi hid => h.shown i s' id (hcases i s' id hi hid) hid,
    List.forall_mem_append.mpr ⟨h.silent, List.forall_mem_singleton.mpr fun _ => hshown⟩,
    fun i j s' s'' id hi hj hid hid' => h.distinct i j s' s'' id (hcases i s' id hi hid)
      (hcases j s'' id hj hid') hid hid', fun id i hi => ?_, fun id hid => ?_,
    fun id k hnone' => h.kept id k fun s' hs' => hnone' s' (List.mem_append_left _ hs')⟩
  · obtain ⟨s', hs', hid⟩ := h.handled id i hi
    exact ⟨s', hkept i s' hs', hid⟩
  · obtain ⟨s', hs', hid'⟩ := h.ignored id hid
    exact ⟨s', List.mem_append_left _ hs', hid'⟩

theorem shown_getNext {s : Subscription} {item : Item} {rest : List Item}
    (hqueue : s.queue = item :: rest) : (s.getNext item rest).shown = s.shown := by
  rw [Subscription.shown, Subscription.shown, hqueue]
  cases item with
  | event e =>
    rw [List.filterMap_cons_some (show Item.event? (.event e) = some e from rfl)]
    simp [Subscription.getNext]
  | error error =>
    rw [List.filterMap_cons_none (show Item.event? (.error error) = none from rfl)]
    rfl
  | finish =>
    rw [List.filterMap_cons_none (show Item.event? .finish = none from rfl)]
    rfl

/-- A closed subscription gets its last item. -/
theorem Tables.finish (h : Tables limit pushed noneLeft c) {i : Nat} {s : Subscription}
    (hi : c.subscriptions[i]? = some s) (hclosed : s.closed = true) :
    Tables limit pushed noneLeft (c.modifySubscription i fun s => s.finish .finish) := by
  refine h.modify (fun s' hs' => ?_) fun _ _ => rfl
  obtain rfl := Option.some.inj (hi.symm.trans hs')
  refine ⟨rfl, rfl, Or.inl (shown_finish s rfl), fun hopen => ?_⟩
  rw [show (s.finish .finish).closed = s.closed from rfl, hclosed] at hopen
  cases hopen

/-- A subscription is closed by the application. -/
theorem Tables.aclose (h : Tables limit pushed noneLeft c) {i : Nat} {s : Subscription}
    (hi : c.subscriptions[i]? = some s) : Tables limit pushed noneLeft (c.aclose i s) := by
  have hclosed : Tables limit pushed noneLeft
      (c.modifySubscription i fun s => { s with closed := true }) :=
    h.modify (fun s _ => ⟨rfl, rfl, Or.inl List.prefix_rfl, nofun⟩) fun _ _ => rfl
  have hself : (c.modifySubscription i fun s => { s with closed := true }).subscriptions[i]? =
      some { s with closed := true } := by
    rw [modifySubscription, List.getElem?_modify_eq, hi]
    rfl
  unfold Client.aclose
  dsimp only
  cases hid : s.subscriptionId with
  | none => exact hclosed.finish hself rfl
  | some id => exact (hclosed.unregister hself hid rfl).of_eq rfl rfl rfl rfl rfl rfl

end Client

end Thalweg.SdkPython
