import Thalweg.Daemon.Codec
import Thalweg.Daemon.Hlc

/-!
# The clock moves forward

The order of stamps, the steps of the clock in it, and the round trip of the persisted clock state.

* `HlcTimestamp.Before`, `HlcTimestamp.AtMost`: the order of stamps.
* `nextLocal_eq_ok_iff`, `before_localStep`, `mergeHLCTimestamp_spec`: a step of the
  clock goes past the state before it and, in a merge, past the remote stamp.
* `mergeHLCTimestamp_of_atMost`: the merge with a stamp that the clock has passed is a local step.
* `loadHLC_eq_ok_iff`: what is persisted is loaded, if its physical time can be read.
-/

namespace Thalweg

namespace HlcTimestamp

/-- The stamp comes before another one. -/
def Before (a b : HlcTimestamp) : Prop :=
  a.physical < b.physical ∨ a.physical = b.physical ∧ a.logical < b.logical

/-- The stamp comes before another one or is equal to it. -/
def AtMost (a b : HlcTimestamp) : Prop :=
  a.physical < b.physical ∨ a.physical = b.physical ∧ a.logical ≤ b.logical

/-- The physical part is empty or a canonical timestamp. -/
def Canonical (a : HlcTimestamp) : Prop := a.physical = [] ∨ IsTimestamp a.physical

/-- The physical part can be read back. -/
def Readable (a : HlcTimestamp) : Prop := a.physical = [] ∨ IsReadableTimestamp a.physical

theorem AtMost.refl (a : HlcTimestamp) : a.AtMost a := Or.inr ⟨rfl, UInt64.le_refl _⟩

theorem AtMost.trans {a b c : HlcTimestamp} (hab : a.AtMost b) (hbc : b.AtMost c) : a.AtMost c := by
  rcases hab with hab | ⟨hab, hle⟩
  · rcases hbc with hbc | ⟨hbc, -⟩
    · exact Or.inl (lt_trans hab hbc)
    · exact Or.inl (hbc ▸ hab)
  · rcases hbc with hbc | ⟨hbc, hle'⟩
    · exact Or.inl (hab ▸ hbc)
    · exact Or.inr ⟨hab.trans hbc, UInt64.le_trans hle hle'⟩

theorem Before.atMost {a b : HlcTimestamp} (h : a.Before b) : a.AtMost b :=
  h.imp_right fun h => ⟨h.1, UInt64.le_of_lt h.2⟩

theorem AtMost.trans_before {a b c : HlcTimestamp} (hab : a.AtMost b) (hbc : b.Before c) :
    a.Before c := by
  rcases hab with hab | ⟨hab, hle⟩
  · rcases hbc with hbc | ⟨hbc, -⟩
    · exact Or.inl (lt_trans hab hbc)
    · exact Or.inl (hbc ▸ hab)
  · rcases hbc with hbc | ⟨hbc, hlt⟩
    · exact Or.inl (hab ▸ hbc)
    · exact Or.inr ⟨hab.trans hbc, UInt64.lt_of_le_of_lt hle hlt⟩

theorem AtMost.physical_le {a b : HlcTimestamp} (h : a.AtMost b) : a.physical ≤ b.physical :=
  h.elim le_of_lt fun h => h.1.le

theorem Readable.canonical {a : HlcTimestamp} (h : a.Readable) : a.Canonical :=
  h.imp_right IsReadableTimestamp.isTimestamp

end HlcTimestamp

/-! ### Local steps -/

theorem incrementLogical_eq_ok_iff {value next : UInt64} :
    incrementLogical value = .ok next ↔ value ≠ maxUint64 ∧ next = value + 1 := by
  by_cases h : value = maxUint64 <;> simp [incrementLogical, h, errorf, eq_comm]

theorem toNat_maxUint64 : maxUint64.toNat = 2 ^ 64 - 1 := by
  rw [maxUint64, UInt64.toNat_ofNat_of_lt' (by decide)]

theorem toNat_add_one {value : UInt64} (h : value ≠ maxUint64) :
    (value + 1).toNat = value.toNat + 1 := by
  have hlt := value.toNat_lt
  have hne : value.toNat ≠ 2 ^ 64 - 1 := fun heq =>
    h (UInt64.toNat_inj.mp (heq.trans toNat_maxUint64.symm))
  rw [UInt64.toNat_add, UInt64.toNat_one, Nat.mod_eq_of_lt (by omega)]

theorem lt_add_one_of_ne_maxUint64 {value : UInt64} (h : value ≠ maxUint64) : value < value + 1 :=
  UInt64.lt_iff_toNat_lt.mpr (by rw [toNat_add_one h]; omega)

/-- A local step of the clock. -/
def localStep (state : HlcTimestamp) (wallTime : Instant) : HlcTimestamp :=
  if state.physical < wallTime.format then ⟨wallTime.format, 0⟩
  else ⟨state.physical, state.logical + 1⟩

/-- There is room for a local step: the wall clock is ahead or the logical counter is not full. -/
def HasRoom (state : HlcTimestamp) (wallTime : Instant) : Prop :=
  state.physical < wallTime.format ∨ state.logical ≠ maxUint64

theorem nextLocal_eq_ok_iff {state next : HlcTimestamp} {wallTime : Instant} :
    nextLocal state wallTime = .ok next ↔
      HasRoom state wallTime ∧ next = localStep state wallTime := by
  have hempty : state.physical = [] → state.physical < wallTime.format := fun h => by
    rw [h]
    exact OrderedStore.nil_lt_of_ne_nil (format_ne_nil wallTime)
  unfold nextLocal localStep HasRoom
  by_cases hlt : state.physical < wallTime.format
  · simp [hlt, eq_comm]
  · have hne : state.physical ≠ [] := fun h => hlt (hempty h)
    have hinc := @incrementLogical_eq_ok_iff state.logical
    cases hi : incrementLogical state.logical with
    | error e =>
      have hmax : state.logical = maxUint64 := by
        by_contra h
        have := hinc.mpr ⟨h, rfl⟩
        rw [hi] at this
        cases this
      simp [hlt, hne, hmax]
    | ok logical =>
      obtain ⟨hmax, rfl⟩ := hinc.mp hi
      simp [hlt, hne, hmax, eq_comm]

theorem before_localStep {state : HlcTimestamp} {wallTime : Instant}
    (h : HasRoom state wallTime) : state.Before (localStep state wallTime) := by
  unfold localStep
  split_ifs with hlt
  · exact Or.inl hlt
  · exact Or.inr ⟨rfl, lt_add_one_of_ne_maxUint64 (h.resolve_left hlt)⟩

theorem isTimestamp_localStep {state : HlcTimestamp} (h : state.Canonical) (wallTime : Instant) :
    IsTimestamp (localStep state wallTime).physical := by
  unfold localStep
  split_ifs with hlt
  · exact ⟨wallTime, rfl⟩
  · refine h.resolve_left fun hempty => hlt ?_
    rw [hempty]
    exact OrderedStore.nil_lt_of_ne_nil (format_ne_nil wallTime)

theorem isReadableTimestamp_localStep {state : HlcTimestamp} (h : state.Readable)
    {wallTime : Instant} (hwall : wallTime.InRange) :
    IsReadableTimestamp (localStep state wallTime).physical := by
  unfold localStep
  split_ifs with hlt
  · exact ⟨wallTime, hwall, rfl⟩
  · refine h.resolve_left fun hempty => hlt ?_
    rw [hempty]
    exact OrderedStore.nil_lt_of_ne_nil (format_ne_nil wallTime)

/-! ### Merges -/

theorem max_uint64_eq (a b : UInt64) : max a b = if a ≤ b then b else a := rfl

theorem le_max_uint64 (a b : UInt64) : a ≤ max a b ∧ b ≤ max a b := by
  rw [max_uint64_eq]
  split_ifs with h
  · exact ⟨h, UInt64.le_refl _⟩
  · exact ⟨UInt64.le_refl _, UInt64.le_of_lt (UInt64.not_le.mp h)⟩

theorem max_eq_of_le_uint64 {a b : UInt64} (h : b ≤ a) : max a b = a := by
  rw [max_uint64_eq]
  split_ifs with h'
  · exact UInt64.le_antisymm h h'
  · rfl

theorem laterText_eq_max (a b : Text) : laterText a b = max a b := by
  unfold laterText
  split_ifs with h
  · exact (max_eq_right h.le).symm
  · exact (max_eq_left (not_lt.mp h)).symm

theorem normalizePhysical_eq_ok_iff {state : HlcTimestamp} (h : state.Canonical) {field : String}
    {canonical : Text} : normalizePhysical field state.physical = .ok canonical ↔
      state.Readable ∧ canonical = state.physical := by
  unfold normalizePhysical HlcTimestamp.Readable
  rcases h with h | h
  · simp [h, eq_comm]
  · simp [h.ne_nil, h.normalizeTimestamp_eq_ok_iff]

/-- The merge of canonical stamps. -/
theorem mergeHLCTimestamp_eq_ok_iff {state remote next : HlcTimestamp} {wallTime : Instant}
    (hstate : state.Canonical) (hremote : IsTimestamp remote.physical) :
    mergeHLCTimestamp state remote wallTime = .ok next ↔
      state.Readable ∧ IsReadableTimestamp remote.physical ∧
      next.physical = max (max wallTime.format state.physical) remote.physical ∧
      match mergeBase next.physical state remote with
      | none => next.logical = 0
      | some base => base ≠ maxUint64 ∧ next.logical = base + 1 := by
  have hlocal : ∀ c, normalizePhysical "local HLC physical time" state.physical = .ok c ↔ _ :=
    fun _ => normalizePhysical_eq_ok_iff hstate
  have hremote' : ∀ c, normalizeTimestamp "remote HLC physical time" remote.physical = .ok c ↔ _ :=
    fun _ => hremote.normalizeTimestamp_eq_ok_iff
  obtain ⟨nextPhysical, nextLogical⟩ := next
  unfold mergeHLCTimestamp
  cases hl : normalizePhysical "local HLC physical time" state.physical with
  | error e =>
    have : ¬ state.Readable := fun h => by
      have := (hlocal state.physical).mpr ⟨h, rfl⟩
      rw [hl] at this
      cases this
    simp [bind, Except.bind, this]
  | ok localPhysical =>
    obtain ⟨hreadable, rfl⟩ := (hlocal localPhysical).mp hl
    cases hr : normalizeTimestamp "remote HLC physical time" remote.physical with
    | error e =>
      have : ¬ IsReadableTimestamp remote.physical := fun h => by
        have := (hremote' remote.physical).mpr ⟨h, rfl⟩
        rw [hr] at this
        cases this
      simp [bind, Except.bind, this, hremote.ne_nil]
    | ok remotePhysical =>
      obtain ⟨hreadable', rfl⟩ := (hremote' remotePhysical).mp hr
      simp only [bind, Except.bind, hremote.ne_nil, if_false, laterText_eq_max, hreadable,
        hreadable', true_and]
      cases hb : mergeBase (max (max wallTime.format state.physical) remote.physical) state
          remote with
      | none =>
        constructor
        · intro h
          cases h
          simp [hb]
        · rintro ⟨rfl, h⟩
          simp only [hb] at h
          rw [h]
      | some base =>
        have hinc := @incrementLogical_eq_ok_iff base
        constructor
        · intro h
          cases hi : incrementLogical base with
          | error e => simp [hi] at h
          | ok logical =>
            obtain ⟨hmax, rfl⟩ := hinc.mp hi
            simp only [hi, Except.ok.injEq, HlcTimestamp.mk.injEq] at h
            obtain ⟨rfl, rfl⟩ := h
            simp [hb, hmax]
        · rintro ⟨rfl, h⟩
          simp only [hb] at h
          simp only [hinc.mpr h]

/-- A merge goes past both stamps. -/
theorem mergeHLCTimestamp_spec {state remote next : HlcTimestamp} {wallTime : Instant}
    (hstate : state.Canonical) (hremote : IsTimestamp remote.physical)
    (h : mergeHLCTimestamp state remote wallTime = .ok next) :
    IsTimestamp next.physical ∧ state.Before next ∧ remote.Before next := by
  obtain ⟨-, -, hphysical, hlogical⟩ := (mergeHLCTimestamp_eq_ok_iff hstate hremote).mp h
  have hle : state.physical ≤ next.physical ∧ remote.physical ≤ next.physical := by
    rw [hphysical]
    exact ⟨le_max_of_le_left (le_max_right _ _), le_max_right _ _⟩
  refine ⟨?_, ?_, ?_⟩
  · rw [hphysical]
    rcases max_choice (max wallTime.format state.physical) remote.physical with hm | hm <;> rw [hm]
    · rcases max_choice wallTime.format state.physical with hm' | hm' <;> rw [hm']
      · exact ⟨wallTime, rfl⟩
      · refine hstate.resolve_left fun hempty => ?_
        have := le_max_left wallTime.format state.physical
        rw [hm', hempty] at this
        exact absurd (OrderedStore.nil_lt_of_ne_nil (format_ne_nil wallTime)) (not_lt.mpr this)
    · exact hremote
  · rcases lt_or_eq_of_le hle.1 with hlt | heq
    · exact Or.inl hlt
    · refine Or.inr ⟨heq, ?_⟩
      unfold mergeBase at hlogical
      split_ifs at hlogical with hboth
      · obtain ⟨hmax, hnext⟩ := hlogical
        rw [hnext]
        exact UInt64.lt_of_le_of_lt (le_max_uint64 _ _).1 (lt_add_one_of_ne_maxUint64 hmax)
      · obtain ⟨hmax, hnext⟩ := hlogical
        rw [hnext]
        exact lt_add_one_of_ne_maxUint64 hmax
      all_goals exact absurd heq.symm ‹_›
  · rcases lt_or_eq_of_le hle.2 with hlt | heq
    · exact Or.inl hlt
    · refine Or.inr ⟨heq, ?_⟩
      unfold mergeBase at hlogical
      split_ifs at hlogical with hboth hstate'
      · obtain ⟨hmax, hnext⟩ := hlogical
        rw [hnext]
        exact UInt64.lt_of_le_of_lt (le_max_uint64 _ _).2 (lt_add_one_of_ne_maxUint64 hmax)
      · exact absurd ⟨hstate', heq.symm⟩ hboth
      · obtain ⟨hmax, hnext⟩ := hlogical
        rw [hnext]
        exact lt_add_one_of_ne_maxUint64 hmax
      · exact absurd heq.symm ‹_›

/-- The merge with a stamp that the clock has passed is a local step. -/
theorem mergeHLCTimestamp_of_atMost {state remote next : HlcTimestamp} {wallTime : Instant}
    (hremote : IsReadableTimestamp remote.physical) (hle : remote.AtMost state)
    (hstate : state.Readable) : mergeHLCTimestamp state remote wallTime = .ok next ↔
      HasRoom state wallTime ∧ next = localStep state wallTime := by
  rw [mergeHLCTimestamp_eq_ok_iff hstate.canonical hremote.isTimestamp]
  have hp := hle.physical_le
  obtain ⟨nextPhysical, nextLogical⟩ := next
  simp only [hstate, hremote, true_and]
  unfold HasRoom localStep
  by_cases hlt : state.physical < wallTime.format
  · have hmax : max (max wallTime.format state.physical) remote.physical = wallTime.format := by
      rw [max_eq_left hlt.le, max_eq_left (hp.trans hlt.le)]
    have hbase : mergeBase wallTime.format state remote = none := by
      simp [mergeBase, hlt.ne', (lt_of_le_of_lt hp hlt).ne']
    simp only [hmax, hlt, true_or, if_true, HlcTimestamp.mk.injEq, true_and]
    constructor
    · rintro ⟨rfl, h⟩
      rw [hbase] at h
      exact ⟨rfl, h⟩
    · rintro ⟨rfl, rfl⟩
      rw [hbase]
      exact ⟨rfl, rfl⟩
  · have hmax : max (max wallTime.format state.physical) remote.physical = state.physical := by
      rw [max_eq_right (not_lt.mp hlt), max_eq_left hp]
    have hbase : mergeBase state.physical state remote = some state.logical := by
      simp only [mergeBase, true_and, if_true]
      split_ifs with h1
      · rcases hle with hlt' | ⟨-, hle'⟩
        · exact absurd h1 hlt'.ne'
        · rw [max_eq_of_le_uint64 hle']
      · rfl
    simp only [hmax, hlt, false_or, if_false, HlcTimestamp.mk.injEq]
    constructor
    · rintro ⟨rfl, h⟩
      rw [hbase] at h
      exact ⟨h.1, rfl, h.2⟩
    · rintro ⟨h, rfl, rfl⟩
      rw [hbase]
      exact ⟨rfl, h, rfl⟩

/-! ### The persisted state -/

/-- The record of a clock state reads back. -/
theorem decodeRecord_marshalHLCState (state : HlcTimestamp) :
    Json.decodeRecord false hlcFields HlcTimestamp.zero (marshalHLCState state) = some state := by
  let members : List (Text × Json) := [("physical".toList, .str state.physical),
    ("logical".toList, .num (Text.decimal state.logical.toNat))]
  have hwell : Json.MembersWellFormed Json.IsNumber members := by
    simp [members, Json.MembersWellFormed, Json.WellFormed, Json.isNumber_decimal]
  have htext : marshalHLCState state = Json.render (.obj members) := by
    rw [← Json.renderRecord_map]
    simp only [marshalHLCState, members, List.map_cons, List.map_nil, Json.render]
  rw [htext, Json.decodeRecord_renderRecord _ _ _ (by simp [members]) hwell
    (by simp only [members, Json.membersDepth, Json.depth]; decide)]
  simp [members, Json.rawMembers, Json.setMember, Json.lookupField, hlcFields, Json.decodeText,
    decodeUInt64_decimal, HlcTimestamp.zero]

/-- A persisted clock state is loaded exactly when its physical time can be read. -/
theorem loadHLC_eq_ok_iff {store : Store} {state loaded : HlcTimestamp}
    (h : store.get hlcStateKey = some (marshalHLCState state)) (hcanonical : state.Canonical) :
    loadHLC store = .ok loaded ↔ state.Readable ∧ loaded = state := by
  unfold loadHLC HlcTimestamp.Readable
  simp only [h, decodeRecord_marshalHLCState]
  rcases hcanonical with hempty | htime
  · simp [hempty, eq_comm]
  · have hiff : ∀ c, normalizeTimestamp "HLC physical time" state.physical = .ok c ↔ _ :=
      fun _ => htime.normalizeTimestamp_eq_ok_iff
    simp only [htime.ne_nil, if_false, false_or]
    cases hn : normalizeTimestamp "HLC physical time" state.physical with
    | error e =>
      have : ¬ IsReadableTimestamp state.physical := fun hr => by
        have := (hiff state.physical).mpr ⟨hr, rfl⟩
        rw [hn] at this
        cases this
      simp [this]
    | ok normalized =>
      obtain ⟨hr, rfl⟩ := (hiff normalized).mp hn
      simp [hr, eq_comm]

end Thalweg
