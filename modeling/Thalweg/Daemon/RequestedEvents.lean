import Mathlib.Data.List.Perm.Basic
import Thalweg.Daemon.Codec
import Thalweg.Daemon.Query

/-!
# Requested events

The events that a peer returns are checked against the IDs that were asked for, which each event
takes off. The check is passed exactly by the pages that hold each of the requested events once.

## Main results

* `checkRequested_eq_ok_iff`, `validateRequestedEvents_eq_ok_iff`.
-/

namespace Thalweg

/-- The check of the events that are left against the IDs that are left. -/
theorem checkRequested_eq_ok_iff {networkName : Text} {expected : List Text}
    {events : List ThalwegEvent} (h : expected.Nodup) :
    checkRequested networkName expected events = .ok () ↔
      (∀ event ∈ events, event.network = networkName) ∧
        (events.map ThalwegEvent.id).Perm expected := by
  induction events generalizing expected with
  | nil =>
    cases expected with
    | nil => simp [checkRequested]
    | cons id expected => simp [checkRequested, errorf]
  | cons event events ih =>
    have herase : (expected.filter fun id => decide (id ≠ event.id)) = expected.erase event.id := by
      rw [h.erase_eq_filter]
      exact List.filter_congr fun id _ => Bool.eq_iff_iff.mpr (by simp)
    rw [List.map_cons, List.cons_perm_iff_perm_erase, List.forall_mem_cons, checkRequested]
    split_ifs with hnetwork hid
    · exact iff_of_false (by rintro ⟨⟩) fun hall => hnetwork hall.1.1
    · rw [herase, ih (h.erase _)]
      tauto
    · exact iff_of_false (by rintro ⟨⟩) fun hall => hid hall.2.1

/-- **Pages of requested events.** A page is accepted exactly if its events are of the network and
their IDs are the requested ones in some order. -/
theorem validateRequestedEvents_eq_ok_iff {networkName : Text} {ids : List Text}
    {events : List ThalwegEvent} (h : ids.Nodup) :
    validateRequestedEvents networkName ids events = .ok () ↔
      (∀ event ∈ events, event.network = networkName) ∧ (events.map ThalwegEvent.id).Perm ids := by
  unfold validateRequestedEvents
  split_ifs with hlength
  · refine iff_of_false (by rintro ⟨⟩) fun hall => hlength ?_
    rw [← hall.2.length_eq, List.length_map]
  · exact checkRequested_eq_ok_iff h

/-- An event without content. -/
def bareEvent (networkName id : Text) : ThalwegEvent :=
  { ThalwegEvent.zero with network := networkName, id }

/-- Two events come back in the other order. -/
theorem validateRequestedEvents_swapped :
    validateRequestedEvents ['h'] [['a'], ['b']] [bareEvent ['h'] ['b'], bareEvent ['h'] ['a']] =
      .ok () :=
  (validateRequestedEvents_eq_ok_iff (by decide)).mpr ⟨by simp [bareEvent], List.Perm.swap _ _ _⟩

end Thalweg
