import Thalweg.Daemon.Readability

/-!
# Paging through an inventory

A reader of an inventory calls `inventoryPage` with the empty cursor and then with the cursor of
each page, until a page is the last one. The pages together list the visible events of the network,
each once, when these can be read.

* `validateInventoryEntries_eq_ok_iff`: the entries that a reader accepts.
* `Daemon.inventoryPages`, `Daemon.PagesComplete`: the pages and what they are to list.
* `Represents.exists_pagesFrom`: the run lemma, along the pages.
* `Daemon.pagesComplete_iff`: the pages are complete exactly if the visible events can be read.
-/

namespace Thalweg

/-! ### Entries that a reader accepts -/

/-- The entry has an ID and a digest of the length of a hash. -/
def InventoryEntry.WellFormed (entry : InventoryEntry) : Prop :=
  entry.id ≠ [] ∧ (Base64Url.decode entry.digest).map List.length = some 32

theorem checkInventoryEntries_eq_ok_iff {entries : List InventoryEntry} {seen : List Text}
    {previous : Text} (hseen : ∀ id ∈ seen, id ≤ previous) :
    checkInventoryEntries seen previous entries = .ok () ↔
      (∀ entry ∈ entries, entry.WellFormed) ∧
        (previous :: entries.map InventoryEntry.id).Pairwise (· < ·) := by
  induction entries generalizing seen previous with
  | nil => simp [checkInventoryEntries]
  | cons entry entries ih =>
    rw [checkInventoryEntries, List.map_cons, List.pairwise_cons, List.forall_mem_cons]
    by_cases hid : entry.id = []
    · rw [if_pos hid]
      exact iff_of_false nofun fun h => h.1.1.1 hid
    rw [if_neg hid]
    by_cases hlt : previous < entry.id
    · have hnotMem : entry.id ∉ seen := fun hin => absurd (hseen _ hin) (not_le.mpr hlt)
      rw [if_neg hnotMem, if_neg fun h => absurd h.2 (not_le.mpr hlt)]
      by_cases hdigest : (Base64Url.decode entry.digest).map List.length = some 32
      · have hseen' : ∀ id ∈ entry.id :: seen, id ≤ entry.id :=
          List.forall_mem_cons.mpr ⟨le_refl _, fun id hin => (hseen id hin).trans hlt.le⟩
        rw [if_neg (not_not.mpr hdigest), ih hseen']
        constructor
        · rintro ⟨hwell, hpair⟩
          have hle := List.pairwise_cons.mp hpair
          refine ⟨⟨⟨hid, hdigest⟩, hwell⟩, List.forall_mem_cons.mpr ⟨hlt, fun id hin => ?_⟩, hpair⟩
          exact hlt.trans (hle.1 id hin)
        · rintro ⟨⟨-, hwell⟩, -, hpair⟩
          exact ⟨hwell, hpair⟩
      · rw [if_pos hdigest]
        exact iff_of_false nofun fun h => hdigest h.1.1.2
    · refine iff_of_false (fun h => ?_) fun h => hlt (h.2.1 _ List.mem_cons_self)
      by_cases hin : entry.id ∈ seen
      · rw [if_pos hin] at h
        cases h
      · have hprevious : previous ≠ [] := by
          rintro rfl
          exact hlt (OrderedStore.nil_lt_of_ne_nil hid)
        rw [if_neg hin, if_pos ⟨hprevious, not_lt.mp hlt⟩] at h
        cases h

/-- The entries that a reader accepts: not too many, well formed, and in the order of their IDs. -/
theorem validateInventoryEntries_eq_ok_iff {entries : List InventoryEntry} :
    validateInventoryEntries entries = .ok () ↔
      (0 < entries.length ∧ entries.length ≤ syncMaxPageSize) ∧
      (∀ entry ∈ entries, entry.WellFormed) ∧
        (entries.map InventoryEntry.id).Pairwise (· < ·) := by
  unfold validateInventoryEntries
  by_cases hlength : entries.length = 0 ∨ syncMaxPageSize < entries.length
  · rw [if_pos hlength]
    exact iff_of_false nofun fun h => by omega
  · rw [if_neg hlength, checkInventoryEntries_eq_ok_iff (by simp), List.pairwise_cons]
    constructor
    · rintro ⟨hwell, -, hpair⟩
      exact ⟨by omega, hwell, hpair⟩
    · rintro ⟨-, hwell, hpair⟩
      refine ⟨hwell, fun id hin => ?_, hpair⟩
      obtain ⟨entry, hentry, rfl⟩ := List.mem_map.mp hin
      exact OrderedStore.nil_lt_of_ne_nil (hwell entry hentry).1

/-- The entry of a stored event is well formed. -/
theorem wellFormed_entryOf {e : ThalwegEvent} (h : Storable e) : (entryOf e).WellFormed :=
  ⟨h.id_ne_nil, by simp [entryOf, digestOf, sha256Text]⟩

/-! ### Pages -/

@[simp] theorem length_entries_pageOf (indexed : List IndexedEntry) (limit : Nat) :
    (pageOf indexed limit).entries.length = min limit indexed.length := by
  simp [pageOf]

/-- The entries of a page are in the order of their IDs. -/
theorem pairwise_entries_pageOf (indexed : List IndexedEntry) (limit : Nat) :
    (pageOf indexed limit).entries.Pairwise fun a b => a.id ≤ b.id :=
  List.pairwise_insertionSort _ _

/-- The entry has the ID and the digest of the event. -/
def InventoryEntry.Describes (entry : InventoryEntry) (e : ThalwegEvent) : Prop :=
  entry.id = e.id ∧ eventDigest e = .ok entry.digest

namespace Daemon

/-- The pages of an inventory from a cursor on, each after the cursor of the one before, up to the
last; `calls` bounds how many are asked for. -/
def inventoryPages (d : Daemon) (networkName : Text) (limit : Int) :
    Nat → Text → Option (Result (List InventoryPage))
  | 0, _ => none
  | calls + 1, cursor =>
    match d.inventoryPage networkName cursor limit with
    | .error e => some (.error e)
    | .ok page =>
      if page.done then some (.ok [page])
      else (d.inventoryPages networkName limit calls page.nextCursor).map fun rest =>
        rest.map fun pages => page :: pages

/-- The cursors that a reader calls with. -/
def cursorsOf (pages : List InventoryPage) : List Text :=
  [] :: pages.dropLast.map InventoryPage.nextCursor

/-- The pages list the visible events of a network, each once and with its digest, at most `limit`
on a page; a reader accepts each page, and the cursors ascend. -/
structure InventoryPages (d : Daemon) (networkName : Text) (limit : Int)
    (pages : List InventoryPage) : Prop where
  nodup : ((pages.flatMap InventoryPage.entries).map InventoryEntry.id).Nodup
  listed : ∀ e ∈ visible (storedEvents d.store) networkName,
    ∃ entry ∈ pages.flatMap InventoryPage.entries, entry.Describes e
  stored : ∀ entry ∈ pages.flatMap InventoryPage.entries,
    ∃ e ∈ visible (storedEvents d.store) networkName, entry.Describes e
  length_le : ∀ page ∈ pages, (page.entries.length : Int) ≤ limit
  accepted : ∀ page ∈ pages, page.entries ≠ [] → validateInventoryEntries page.entries = .ok ()
  ascending : (cursorsOf pages).Pairwise (· < ·)

/-- Paging through an inventory ends, and the pages are complete. -/
def PagesComplete (d : Daemon) (networkName : Text) (limit : Int) : Prop :=
  ∃ calls pages, d.inventoryPages networkName limit calls [] = some (.ok pages) ∧
    d.InventoryPages networkName limit pages

end Daemon

namespace Represents

variable {d : Daemon} {events : List ThalwegEvent} {networkName cursor : Text} {limit : Int}
  {page : InventoryPage}

/-- A page has at most as many entries as were asked for, and as many if it is not the last. -/
theorem length_entries_inventoryPage (h : Represents d.store events)
    (hok : d.inventoryPage networkName cursor limit = .ok page) :
    (page.entries.length : Int) ≤ limit ∧
      (page.done = false → (page.entries.length : Int) = limit) := by
  obtain ⟨vis, -, -, hpage⟩ := h.exists_inventoryPage_eq networkName cursor
  obtain ⟨hvalid, -, rfl⟩ := (hpage limit page).mp hok
  have hpos := hvalid.limit_pos
  rw [length_entries_pageOf]
  refine ⟨by omega, fun hdone => ?_⟩
  have hlt := of_decide_eq_false hdone
  omega

/-- The events of a network have distinct IDs. -/
theorem nodup_map_id (h : Represents d.store events) {es : List ThalwegEvent} (hnodup : es.Nodup)
    (hes : ∀ e ∈ es, e ∈ visible (storedEvents d.store) networkName) :
    (es.map ThalwegEvent.id).Nodup := by
  refine hnodup.map_on fun e he f hf hid => ?_
  obtain ⟨he, hen, -⟩ := h.mem_visible_iff.mp (hes e he)
  obtain ⟨hf, hfn, -⟩ := h.mem_visible_iff.mp (hes f hf)
  exact h.distinct.eq_of_id he hf (hen.trans hfn.symm) hid

/-- A reader accepts a page. -/
theorem validateInventoryEntries_inventoryPage (h : Represents d.store events)
    (hok : d.inventoryPage networkName cursor limit = .ok page) (hne : page.entries ≠ []) :
    validateInventoryEntries page.entries = .ok () := by
  obtain ⟨vis, -, -, hpage⟩ := h.exists_inventoryPage_eq networkName cursor
  obtain ⟨hvalid, -, heq⟩ := (hpage limit page).mp hok
  obtain ⟨es, hlists⟩ := h.inventoryPage_lists hok
  have hvisible : ∀ e ∈ es, e ∈ visible (storedEvents d.store) networkName := fun e he =>
    ((hlists.mem_iff e).mp he).1
  rw [validateInventoryEntries_eq_ok_iff]
  refine ⟨⟨List.length_pos_of_ne_nil hne, ?_⟩, fun entry hentry => ?_, ?_⟩
  · have hle := (h.length_entries_inventoryPage hok).1
    have hlimit := hvalid.limit_le
    omega
  · obtain ⟨e, he, rfl⟩ := List.mem_map.mp (hlists.entries_perm.mem_iff.mp hentry)
    exact wellFormed_entryOf (hlists.readable e he).storable
  · have hle : page.entries.Pairwise fun a b => a.id ≤ b.id := by
      rw [heq]
      exact pairwise_entries_pageOf _ _
    have hnodup : (page.entries.map InventoryEntry.id).Nodup := by
      rw [(hlists.entries_perm.map InventoryEntry.id).nodup_iff, List.map_map]
      exact h.nodup_map_id hlists.nodup hvisible
    rw [List.Nodup, List.pairwise_map] at hnodup
    rw [List.pairwise_map]
    exact (hle.and hnodup).imp fun hab => lt_of_le_of_ne hab.1 hab.2

end Represents

/-- The pages of an inventory from a cursor on list the visible events after it. -/
structure PagesFrom (d : Daemon) (networkName : Text) (limit : Int) (cursor : Text)
    (pages : List InventoryPage) (es : List ThalwegEvent) : Prop where
  nodup : es.Nodup
  mem_iff : ∀ e, e ∈ es ↔ e ∈ visible (storedEvents d.store) networkName ∧ IsAfter cursor e
  readable : ∀ e ∈ es, Readable e
  entries_perm : (pages.flatMap InventoryPage.entries).Perm (es.map entryOf)
  length_le : ∀ page ∈ pages, (page.entries.length : Int) ≤ limit
  accepted : ∀ page ∈ pages, page.entries ≠ [] → validateInventoryEntries page.entries = .ok ()
  ascending : (cursor :: pages.dropLast.map InventoryPage.nextCursor).Pairwise (· < ·)

namespace Represents

variable {d : Daemon} {events : List ThalwegEvent} {networkName cursor : Text} {limit : Int}
  {page : InventoryPage}

/-- The last page lists what is left. -/
theorem pagesFrom_last (h : Represents d.store events)
    (hok : d.inventoryPage networkName cursor limit = .ok page) (hdone : page.done = true) :
    ∃ es, PagesFrom d networkName limit cursor [page] es := by
  obtain ⟨es, hlists⟩ := h.inventoryPage_lists hok
  refine ⟨es, hlists.nodup, fun e => ?_, hlists.readable, ?_, ?_, ?_, List.pairwise_singleton _ _⟩
  · rw [hlists.mem_iff]
    simp [hdone]
  · simpa using hlists.entries_perm
  · simpa using (h.length_entries_inventoryPage hok).1
  · simpa using h.validateInventoryEntries_inventoryPage hok

/-- A page before others lists what comes before them. -/
theorem pagesFrom_cons (h : Represents d.store events)
    (hok : d.inventoryPage networkName cursor limit = .ok page) (hdone : page.done = false)
    {pages : List InventoryPage} {rest : List ThalwegEvent} (hne : pages ≠ [])
    (hrest : PagesFrom d networkName limit page.nextCursor pages rest) :
    ∃ es, PagesFrom d networkName limit cursor (page :: pages) es := by
  obtain ⟨es, hlists⟩ := h.inventoryPage_lists hok
  have hadvances := hlists.advances hdone
  have hafter : ∀ e, IsAfter page.nextCursor e ↔ page.nextCursor < position e := fun e =>
    or_iff_right fun hnil => List.not_lt_nil _ (hnil ▸ hadvances)
  have hmem : ∀ e, e ∈ es ↔ e ∈ visible (storedEvents d.store) networkName ∧ IsAfter cursor e ∧
      position e ≤ page.nextCursor := fun e => by
    rw [hlists.mem_iff]
    simp [hdone]
  refine ⟨es ++ rest, ?_, fun e => ?_, ?_, ?_, ?_, ?_, ?_⟩
  · refine List.nodup_append.mpr ⟨hlists.nodup, hrest.nodup, ?_⟩
    rintro e he f hf rfl
    exact absurd ((hmem e).mp he).2.2 (not_le.mpr ((hafter e).mp ((hrest.mem_iff e).mp hf).2))
  · rw [List.mem_append, hmem, hrest.mem_iff, hafter]
    constructor
    · rintro (⟨he, hcursor, -⟩ | ⟨he, hlt⟩)
      · exact ⟨he, hcursor⟩
      · exact ⟨he, Or.inr (hadvances.trans hlt)⟩
    · rintro ⟨he, hcursor⟩
      rcases le_or_gt (position e) page.nextCursor with hle | hlt
      · exact Or.inl ⟨he, hcursor, hle⟩
      · exact Or.inr ⟨he, hlt⟩
  · intro e he
    rcases List.mem_append.mp he with he | he
    · exact hlists.readable e he
    · exact hrest.readable e he
  · rw [List.flatMap_cons, List.map_append]
    exact hlists.entries_perm.append hrest.entries_perm
  · exact List.forall_mem_cons.mpr ⟨(h.length_entries_inventoryPage hok).1, hrest.length_le⟩
  · exact List.forall_mem_cons.mpr
      ⟨h.validateInventoryEntries_inventoryPage hok, hrest.accepted⟩
  · have hle := (List.pairwise_cons.mp hrest.ascending).1
    rw [List.dropLast_cons_of_ne_nil hne, List.map_cons]
    refine List.pairwise_cons.mpr ⟨?_, hrest.ascending⟩
    exact List.forall_mem_cons.mpr ⟨hadvances, fun next hin => hadvances.trans (hle next hin)⟩

/-- Pages that were all returned list the visible events after the first cursor. -/
theorem exists_pagesFrom (h : Represents d.store events) {calls : Nat}
    {pages : List InventoryPage}
    (hpages : d.inventoryPages networkName limit calls cursor = some (.ok pages)) :
    pages ≠ [] ∧ ∃ es, PagesFrom d networkName limit cursor pages es := by
  induction calls generalizing cursor pages with
  | zero => cases hpages
  | succ calls ih =>
    rw [Daemon.inventoryPages] at hpages
    cases hok : d.inventoryPage networkName cursor limit with
    | error e =>
      rw [hok] at hpages
      cases hpages
    | ok page =>
      simp only [hok] at hpages
      cases hdone : page.done with
      | true =>
        rw [hdone, if_pos rfl] at hpages
        cases hpages
        exact ⟨by simp, h.pagesFrom_last hok hdone⟩
      | false =>
        rw [hdone, if_neg Bool.false_ne_true] at hpages
        obtain ⟨rest, hrest, hmap⟩ := Option.map_eq_some_iff.mp hpages
        cases rest with
        | error e => cases hmap
        | ok rest =>
          cases hmap
          obtain ⟨hne, es, hes⟩ := ih hrest
          exact ⟨by simp, h.pagesFrom_cons hok hdone hne hes⟩

/-- The cursor of a page is that of a next call. -/
theorem isSome_decode_nextCursor (h : Represents d.store events)
    (hok : d.inventoryPage networkName cursor limit = .ok page) :
    (Base64Url.decode page.nextCursor).isSome := by
  obtain ⟨vis, -, -, hpage⟩ := h.exists_inventoryPage_eq networkName cursor
  obtain ⟨-, -, rfl⟩ := (hpage limit page).mp hok
  simp only [pageOf, ← List.map_take, List.getLast?_map, Option.map_map, Function.comp_def]
  cases ((vis.take (limit.toNat + 1)).take limit.toNat).getLast? with
  | none => rfl
  | some e =>
    obtain ⟨bytes, hdecode, -⟩ := Option.map_eq_some_iff.mp (decode_encodeKeyPart e.id)
    simp [indexedEntryOf, position, hdecode]

/-- Paging through readable events ends: a page that is not the last leaves fewer of them. -/
theorem exists_inventoryPages (h : Represents d.store events)
    (hreadable : ∀ e ∈ visible (storedEvents d.store) networkName, Readable e) {calls : Nat}
    (hvalid : ValidPage networkName cursor limit) {left : List ThalwegEvent}
    (hleft : ∀ e ∈ visible (storedEvents d.store) networkName, IsAfter cursor e → e ∈ left)
    (hcalls : left.length < calls) :
    ∃ pages, d.inventoryPages networkName limit calls cursor = some (.ok pages) := by
  induction calls generalizing cursor left with
  | zero => omega
  | succ calls ih =>
    obtain ⟨page, hok⟩ : ∃ page, d.inventoryPage networkName cursor limit = .ok page := by
      obtain ⟨vis, hmem, -, hpage⟩ := h.exists_inventoryPage_eq networkName cursor
      exact ⟨_, (hpage limit _).mpr ⟨hvalid, fun e he =>
        hreadable e ((hmem e).mp (List.mem_of_mem_take he)).1, rfl⟩⟩
    simp only [Daemon.inventoryPages, hok]
    cases hdone : page.done with
    | true => exact ⟨[page], rfl⟩
    | false =>
      obtain ⟨es, hlists⟩ := h.inventoryPage_lists hok
      have hlength := (h.length_entries_inventoryPage hok).2 hdone
      have hne : es ≠ [] := by
        rintro rfl
        have hnil := hlists.entries_perm.length_eq
        have hpos := hvalid.limit_pos
        rw [List.map_nil, List.length_nil] at hnil
        omega
      obtain ⟨e, he⟩ := List.exists_mem_of_ne_nil es hne
      obtain ⟨hin, hafter, hle⟩ := (hlists.mem_iff e).mp he
      rw [hdone, or_iff_right Bool.false_ne_true] at hle
      have hfewer : (left.filter fun f => page.nextCursor < position f).length < left.length := by
        refine List.length_filter_lt_length_iff_exists.mpr ⟨e, hleft e hin hafter, ?_⟩
        simpa using hle
      have hrest : ∀ f ∈ visible (storedEvents d.store) networkName, IsAfter page.nextCursor f →
          f ∈ left.filter fun f => page.nextCursor < position f := fun f hf hnext => by
        have hadvances := hlists.advances hdone
        have hlt : page.nextCursor < position f := hnext.resolve_left fun hnil =>
          List.not_lt_nil _ (hnil ▸ hadvances)
        rw [List.mem_filter]
        exact ⟨hleft f hf (Or.inr (hadvances.trans hlt)), by simpa using hlt⟩
      obtain ⟨pages, hpages⟩ := ih ⟨hvalid.network_ne_nil,
        Or.inr (h.isSome_decode_nextCursor hok), hvalid.limit_pos, hvalid.limit_le⟩ hrest (by omega)
      exact ⟨page :: pages, by simp [hpages, Except.map]⟩

end Represents

namespace Daemon

variable {d : Daemon} {L : Ledger} {networkName : Text} {limit : Int}

/-- Pages from the empty cursor on are those of the whole inventory. -/
theorem InventoryPages.of_pagesFrom (h : d.Holds L) {pages : List InventoryPage}
    {es : List ThalwegEvent} (hpages : PagesFrom d networkName limit [] pages es) :
    d.InventoryPages networkName limit pages := by
  have hmem : ∀ e, e ∈ es ↔ e ∈ visible (storedEvents d.store) networkName := fun e => by
    rw [hpages.mem_iff]
    simp [IsAfter]
  have hdescribes : ∀ e ∈ es, (entryOf e).Describes e := fun e he =>
    ⟨rfl, eventDigest_of_readable (hpages.readable e he)⟩
  refine ⟨?_, fun e he => ?_, fun entry hentry => ?_, hpages.length_le, hpages.accepted,
    hpages.ascending⟩
  · rw [(hpages.entries_perm.map InventoryEntry.id).nodup_iff, List.map_map]
    exact h.represents.nodup_map_id hpages.nodup fun e he => (hmem e).mp he
  · rw [← hmem] at he
    exact ⟨entryOf e, hpages.entries_perm.mem_iff.mpr (List.mem_map_of_mem he), hdescribes e he⟩
  · obtain ⟨e, he, rfl⟩ := List.mem_map.mp (hpages.entries_perm.mem_iff.mp hentry)
    exact ⟨e, (hmem e).mp he, hdescribes e he⟩

/-- **Complete pages.** Paging through the inventory of a network of a reachable daemon ends and its
pages are complete exactly if the network has a name and its visible events can be read again. -/
theorem pagesComplete_iff (h : d.Reachable) (hpos : 1 ≤ limit) (hle : limit ≤ syncMaxPageSize) :
    d.PagesComplete networkName limit ↔
      networkName ≠ [] ∧ ∀ e ∈ visible (storedEvents d.store) networkName, Readable e := by
  obtain ⟨⟨L, hL⟩, -⟩ := h.exists_holds
  constructor
  · rintro ⟨calls, pages, hpages, -⟩
    obtain ⟨-, es, hes⟩ := hL.represents.exists_pagesFrom hpages
    refine ⟨?_, fun e he => hes.readable e ((hes.mem_iff e).mpr ⟨he, Or.inl rfl⟩)⟩
    rintro rfl
    obtain ⟨calls, rfl⟩ : ∃ n, calls = n + 1 := Nat.exists_eq_succ_of_ne_zero fun hzero => by
      rw [hzero] at hpages
      cases hpages
    have hlimit : ¬ (limit ≤ 0 ∨ (syncMaxPageSize : Int) < limit) := by omega
    rw [inventoryPages, inventoryPage, if_neg hlimit, if_pos rfl] at hpages
    cases hpages
  · rintro ⟨hn, hreadable⟩
    obtain ⟨pages, hpages⟩ := hL.represents.exists_inventoryPages hreadable
      ⟨hn, Or.inl rfl, by omega, hle⟩ (fun e he _ => (hL.represents.mem_visible_iff.mp he).1)
      (Nat.lt_succ_self L.events.length)
    obtain ⟨-, es, hes⟩ := hL.represents.exists_pagesFrom hpages
    exact ⟨_, pages, hpages, .of_pagesFrom hL hes⟩

theorem pagesComplete_lastSecond : (atNoon.after 0 [lastSecond]).PagesComplete ['h'] 64 :=
  (pagesComplete_iff lastSecond_reachableBy.reachable (by decide) (by decide)).mpr
    ⟨by decide, fun e he => lastSecond_reachableBy.readable e he.1⟩

/-- The event is accepted, and the first page of its network fails. -/
theorem not_pagesComplete_yearTenThousand :
    (atNoon.after 0 [yearTenThousand]).Reachable ∧
      ¬ (atNoon.after 0 [yearTenThousand]).PagesComplete ['h'] 64 := by
  refine ⟨⟨_, _, _, run_after _ _ _⟩, ?_⟩
  rintro ⟨calls, pages, hpages, -⟩
  have hfails : ((atNoon.after 0 [yearTenThousand]).inventoryPage ['h'] [] 64).isOk = false := by
    decide +kernel
  cases calls with
  | zero => cases hpages
  | succ calls =>
    rw [inventoryPages] at hpages
    cases hok : (atNoon.after 0 [yearTenThousand]).inventoryPage ['h'] [] 64 with
    | error e =>
      rw [hok] at hpages
      cases hpages
    | ok page =>
      rw [hok] at hfails
      cases hfails

end Daemon

end Thalweg
