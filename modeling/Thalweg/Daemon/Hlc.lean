import Thalweg.Daemon.Event
import Thalweg.Data.OrderedStore

/-!
# The hybrid logical clock

The clock state, its step for local events and its merge with the stamp of a remote event, and its
record in the store.
-/

namespace Thalweg

/-- The database of a daemon. -/
abbrev Store := OrderedStore Char Text

/-- A stamp of the hybrid logical clock. -/
structure HlcTimestamp where
  physical : Text
  logical : UInt64
  deriving DecidableEq

/-- The state of a clock that has not stamped an event. -/
def HlcTimestamp.zero : HlcTimestamp := ⟨[], 0⟩

/-- The key of the clock state. -/
def hlcStateKey : Text := "meta:hlc-state".toList

/-- The greatest value of a 64-bit counter. -/
def maxUint64 : UInt64 := UInt64.ofNat (2 ^ 64 - 1)

/-- The next value of the logical counter. -/
def incrementLogical (value : UInt64) : Result UInt64 :=
  if value = maxUint64 then errorf "HLC logical counter overflow" [] else .ok (value + 1)

/-- The stamp of a local event. -/
def nextLocal (state : HlcTimestamp) (wallTime : Instant) : Result HlcTimestamp :=
  if state.physical = [] ∨ state.physical < wallTime.format then .ok ⟨wallTime.format, 0⟩
  else
    match incrementLogical state.logical with
    | .error e => .error e
    | .ok logical => .ok ⟨state.physical, logical⟩

/-- The physical part of a stamp in canonical form; an empty one stays empty. -/
def normalizePhysical (field : String) (physical : Text) : Result Text :=
  if physical = [] then .ok [] else normalizeTimestamp field physical

/-- The later of two texts. -/
def laterText (a b : Text) : Text := if a < b then b else a

/-- The logical counter that a merged stamp counts on from, if any. -/
def mergeBase (physical : Text) (localState remote : HlcTimestamp) : Option UInt64 :=
  if physical = localState.physical ∧ physical = remote.physical then
    some (max localState.logical remote.logical)
  else if physical = localState.physical then some localState.logical
  else if physical = remote.physical then some remote.logical
  else none

/-- The clock state after an event with the stamp `remote`. -/
def mergeHLCTimestamp (localState remote : HlcTimestamp) (wallTime : Instant) :
    Result HlcTimestamp := do
  let localPhysical ← normalizePhysical "local HLC physical time" localState.physical
  if remote.physical = [] then errorf "remote HLC physical time is required" []
  else
    let remotePhysical ← normalizeTimestamp "remote HLC physical time" remote.physical
    let maxPhysical := laterText (laterText wallTime.format localPhysical) remotePhysical
    match mergeBase maxPhysical ⟨localPhysical, localState.logical⟩
        ⟨remotePhysical, remote.logical⟩ with
    | none => .ok ⟨maxPhysical, 0⟩
    | some base =>
      let logical ← incrementLogical base
      .ok ⟨maxPhysical, logical⟩

/-- The JSON text of a clock state. -/
def marshalHLCState (state : HlcTimestamp) : Text :=
  Json.renderRecord [("physical".toList, Json.quote state.physical),
    ("logical".toList, Text.decimal state.logical.toNat)]

/-- The fields of a clock state in its JSON text. -/
def hlcFields : List (Text × Json.Setter HlcTimestamp) :=
  [("physical".toList, fun s _ v =>
      (Json.decodeText s.physical v).map fun x => { s with physical := x }),
    ("logical".toList, fun s _ v =>
      (Json.decodeUInt64 s.logical v).map fun x => { s with logical := x })]

/-- Write the clock state. -/
def setHLCState (store : Store) (state : HlcTimestamp) : Store :=
  store.set hlcStateKey (marshalHLCState state)

/-- Read the clock state of a database. -/
def loadHLC (store : Store) : Result HlcTimestamp :=
  match store.get hlcStateKey with
  | none => .error (.wrap "load HLC state: %w" [] (.external "badger"))
  | some value =>
    match Json.decodeRecord false hlcFields HlcTimestamp.zero value with
    | none => .error (.wrap "load HLC state: %w" [] (.external "encoding/json"))
    | some state =>
      if state.physical = [] then .ok state
      else
        match normalizeTimestamp "HLC physical time" state.physical with
        | .error e => .error e
        | .ok normalized =>
          if normalized ≠ state.physical then
            errorf "HLC physical time is not canonical: %s" [state.physical]
          else .ok state

end Thalweg
