import Thalweg.Data.IPAddress
import Mathlib.Algebra.Order.Group.Int
import Mathlib.Data.List.Basic
import Mathlib.Tactic.SplitIfs

/-!
# The remembered address of a peer

After an inbound authentication the daemon remembers one address of the peer: the best of those that
the peer advertises and of the one that its connection comes from.

* `selectPreferredPeerAddress`, `preferredPeerAddress`.
* `addressClass`: what kind of listener an address is.
* `Selected`, `selectLoop_spec`: what the choice is among all candidates.
* `preferredPeerAddress_isListener_iff`: when the choice is a listener of the best kind.
-/

namespace Thalweg

/-- The protocols that the daemon asks an address for. -/
inductive ProtocolCode where
  | ip4
  | ip6
  | tcp
  | dns
  | dns4
  | dns6
  deriving DecidableEq

/-- What the daemon uses of a library of addresses: their text, and the value of a protocol in
them. -/
structure AddressLibrary (Multiaddr : Type) where
  string : Multiaddr → Text
  valueForProtocol : Multiaddr → ProtocolCode → Option Text

variable {Multiaddr : Type} (lib : AddressLibrary Multiaddr)

/-! ### Scores -/

/-- The IP of an address. -/
def multiaddrIP (address : Multiaddr) : Option IP :=
  match lib.valueForProtocol address .ip4 with
  | some value => IP.parse value
  | none =>
    match lib.valueForProtocol address .ip6 with
    | some value => IP.parse value
    | none => none

/-- The score of the IP address in an address. -/
def ipScore : Option IP → Int
  | none => 10
  | some ip =>
    if ip.isLoopback then 20
    else if ip.isPrivate || ip.isLinkLocalUnicast then 50
    else if ip.isGlobalUnicast then 40
    else 10

/-- How good an address is to reach a peer at. -/
def peerAddressScore (address : Multiaddr) : Int :=
  if lib.valueForProtocol address .tcp = none then 0
  else
    match lib.valueForProtocol address .ip4 with
    | some value => ipScore (IP.parse value)
    | none =>
      match lib.valueForProtocol address .ip6 with
      | some value => ipScore (IP.parse value)
      | none =>
        if (lib.valueForProtocol address .dns).isSome then 30
        else if (lib.valueForProtocol address .dns4).isSome then 30
        else if (lib.valueForProtocol address .dns6).isSome then 30
        else 10

/-- The address has the IP address that the connection comes from. -/
def hasConnectedIP (connectedIP : Option IP) (candidate : Multiaddr) : Bool :=
  match connectedIP, multiaddrIP lib candidate with
  | some connected, some ip => IP.equal ip connected
  | _, _ => false

/-- The score of a candidate by its place: advertised addresses come first. -/
def candidateScore (advertisedCount : Nat) (connectedIP : Option IP) (index : Nat)
    (candidate : Multiaddr) : Int :=
  if index < advertisedCount ∧ hasConnectedIP lib connectedIP candidate = true then
    peerAddressScore lib candidate + 100
  else peerAddressScore lib candidate

/-! ### The choice -/

/-- The choice among the candidates from a place on, after the best one so far; an address that was
seen is passed over. -/
def selectLoop (advertisedCount : Nat) (connectedIP : Option IP) :
    Nat → Int → Option Multiaddr → List Text → List (Option Multiaddr) → Option Multiaddr
  | _, _, best, _, [] => best
  | index, bestScore, best, seen, none :: candidates =>
    selectLoop advertisedCount connectedIP (index + 1) bestScore best seen candidates
  | index, bestScore, best, seen, some candidate :: candidates =>
    let value := lib.string candidate
    if value ∈ seen then
      selectLoop advertisedCount connectedIP (index + 1) bestScore best seen candidates
    else
      let score := candidateScore lib advertisedCount connectedIP index candidate
      if bestScore < score then
        selectLoop advertisedCount connectedIP (index + 1) score (some candidate) (value :: seen)
          candidates
      else
        selectLoop advertisedCount connectedIP (index + 1) bestScore best (value :: seen) candidates

/-- An address with the ID of its peer. -/
def peerTarget (address : Multiaddr) (peerID : Text) : Text :=
  lib.string address ++ "/p2p/".toList ++ peerID

/-- The target of the best candidate, if there is one. -/
def selectPreferredPeerAddress (candidates : List (Option Multiaddr)) (advertisedCount : Nat)
    (connectedIP : Option IP) (peerID : Text) : Text :=
  match selectLoop lib advertisedCount connectedIP 0 (-1) none [] candidates with
  | none => []
  | some best => peerTarget lib best peerID

/-- The address to remember, of those that the peer advertises and the remote address of its
connection, if there is one. -/
def preferredPeerAddress (advertised : List (Option Multiaddr)) (connection : Option Multiaddr)
    (peerID : Text) : Text :=
  selectPreferredPeerAddress lib (advertised ++ (connection.map some).toList) advertised.length
    (connection.bind (multiaddrIP lib)) peerID

/-! ### Kinds of listeners -/

/-- What kind of listener a TCP address is, the better ones later. -/
inductive AddressClass where
  | other
  | loopback
  | dns
  | global
  | lan
  deriving DecidableEq

/-- The score of a class. -/
def AddressClass.rank : AddressClass → Nat
  | other => 0
  | loopback => 1
  | dns => 2
  | global => 3
  | lan => 4

/-- The kind of an IP address. -/
def ipClass (ip : IP) : AddressClass :=
  if ip.isLoopback then .loopback
  else if ip.isPrivate || ip.isLinkLocalUnicast then .lan
  else if ip.isGlobalUnicast then .global
  else .other

/-- The address has a TCP port. -/
def IsTCP (address : Multiaddr) : Prop := (lib.valueForProtocol address .tcp).isSome = true

instance (address : Multiaddr) : Decidable (IsTCP lib address) := by
  unfold IsTCP
  infer_instance

/-- The address has a value for one of the protocols. -/
def hasProtocol (address : Multiaddr) (codes : List ProtocolCode) : Bool :=
  codes.any fun code => (lib.valueForProtocol address code).isSome

/-- The kind of a TCP address: that of its IP address, or that of a name. -/
def addressClass (address : Multiaddr) : AddressClass :=
  if hasProtocol lib address [.ip4, .ip6] then (multiaddrIP lib address).elim .other ipClass
  else if hasProtocol lib address [.dns, .dns4, .dns6] then .dns
  else .other

/-- The result is a TCP address that the peer advertises: one with the IP address of the connection
if there is such a one, and otherwise one of the best kind there is. -/
def IsListener (advertised : List (Option Multiaddr)) (connection : Option Multiaddr)
    (peerID result : Text) : Prop :=
  ∃ a, some a ∈ advertised ∧ IsTCP lib a ∧ result = peerTarget lib a peerID ∧
    ((∃ b, some b ∈ advertised ∧ IsTCP lib b ∧
        hasConnectedIP lib (connection.bind (multiaddrIP lib)) b) →
      hasConnectedIP lib (connection.bind (multiaddrIP lib)) a) ∧
    ((¬∃ b, some b ∈ advertised ∧ IsTCP lib b ∧
        hasConnectedIP lib (connection.bind (multiaddrIP lib)) b) →
      ∀ b, some b ∈ advertised → IsTCP lib b →
        (addressClass lib b).rank ≤ (addressClass lib a).rank)

/-! ### Scores and kinds -/

/-- The score of a kind of listener. -/
def AddressClass.score : AddressClass → Int
  | other => 10
  | loopback => 20
  | dns => 30
  | global => 40
  | lan => 50

theorem AddressClass.score_le_iff (c d : AddressClass) : c.score ≤ d.score ↔ c.rank ≤ d.rank := by
  cases c <;> cases d <;> decide

theorem AddressClass.score_range (c : AddressClass) : 10 ≤ c.score ∧ c.score ≤ 50 := by
  cases c <;> decide

theorem ipScore_eq (ip : Option IP) :
    ipScore ip = (ip.elim .other ipClass : AddressClass).score := by
  cases ip with
  | none => rfl
  | some ip =>
    simp only [ipScore, Option.elim_some, ipClass]
    split_ifs <;> rfl

variable {lib}

theorem peerAddressScore_of_isTCP {address : Multiaddr} (h : IsTCP lib address) :
    peerAddressScore lib address = (addressClass lib address).score := by
  have htcp : lib.valueForProtocol address .tcp ≠ none := Option.isSome_iff_ne_none.mp h
  rw [peerAddressScore, if_neg htcp, addressClass, multiaddrIP]
  cases h4 : lib.valueForProtocol address .ip4 with
  | some value => simp [hasProtocol, h4, ipScore_eq]
  | none =>
    cases h6 : lib.valueForProtocol address .ip6 with
    | some value => simp [hasProtocol, h4, h6, ipScore_eq]
    | none =>
      simp only [hasProtocol, List.any_cons, List.any_nil, h4, h6, Option.isSome_none,
        Bool.or_false, Bool.false_eq_true, if_false]
      cases lib.valueForProtocol address .dns <;> cases lib.valueForProtocol address .dns4 <;>
        cases lib.valueForProtocol address .dns6 <;> rfl

theorem peerAddressScore_of_not_isTCP {address : Multiaddr} (h : ¬IsTCP lib address) :
    peerAddressScore lib address = 0 := by
  have htcp : lib.valueForProtocol address .tcp = none := by
    simpa [IsTCP] using h
  rw [peerAddressScore, if_pos htcp]

theorem peerAddressScore_range (lib : AddressLibrary Multiaddr) (address : Multiaddr) :
    0 ≤ peerAddressScore lib address ∧ peerAddressScore lib address ≤ 50 ∧
      (IsTCP lib address → 10 ≤ peerAddressScore lib address) := by
  by_cases h : IsTCP lib address
  · have hrange := (addressClass lib address).score_range
    rw [peerAddressScore_of_isTCP h]
    exact ⟨by omega, hrange.2, fun _ => hrange.1⟩
  · rw [peerAddressScore_of_not_isTCP h]
    exact ⟨by decide, by decide, fun htcp => absurd htcp h⟩

/-! ### What is chosen -/

/-- The score of an address that the peer advertises. -/
def advertisedScore (lib : AddressLibrary Multiaddr) (connectedIP : Option IP)
    (candidate : Multiaddr) : Int :=
  if hasConnectedIP lib connectedIP candidate then peerAddressScore lib candidate + 100
  else peerAddressScore lib candidate

theorem advertisedScore_of_hasConnectedIP {connectedIP : Option IP} {candidate : Multiaddr}
    (h : hasConnectedIP lib connectedIP candidate = true) :
    advertisedScore lib connectedIP candidate = peerAddressScore lib candidate + 100 :=
  if_pos h

theorem advertisedScore_of_not_hasConnectedIP {connectedIP : Option IP} {candidate : Multiaddr}
    (h : ¬hasConnectedIP lib connectedIP candidate = true) :
    advertisedScore lib connectedIP candidate = peerAddressScore lib candidate :=
  if_neg h

section Choice

variable {advertisedCount : Nat} {connectedIP : Option IP}

theorem candidateScore_of_lt {i : Nat} (h : i < advertisedCount) (candidate : Multiaddr) :
    candidateScore lib advertisedCount connectedIP i candidate =
      advertisedScore lib connectedIP candidate := by
  simp only [candidateScore, h, true_and, advertisedScore]

theorem candidateScore_of_le {i : Nat} (h : advertisedCount ≤ i) (candidate : Multiaddr) :
    candidateScore lib advertisedCount connectedIP i candidate =
      peerAddressScore lib candidate :=
  if_neg fun hi => absurd hi.1 (Nat.not_lt.mpr h)

theorem advertisedScore_nonneg (connectedIP : Option IP) (candidate : Multiaddr) :
    0 ≤ advertisedScore lib connectedIP candidate := by
  have hnonneg := (peerAddressScore_range lib candidate).1
  unfold advertisedScore
  split_ifs <;> omega

/-- A candidate has no better score at a later place. -/
theorem candidateScore_anti {i j : Nat} (h : i ≤ j) (candidate : Multiaddr) :
    candidateScore lib advertisedCount connectedIP j candidate ≤
      candidateScore lib advertisedCount connectedIP i candidate := by
  unfold candidateScore
  split_ifs with hj hi hi
  · exact Int.le_refl _
  · exact absurd ⟨h.trans_lt hj.1, hj.2⟩ hi
  · omega
  · exact Int.le_refl _

/-- What is known of the best candidate of those that were visited: it is the first one with the
greatest score. -/
structure Ranked (lib : AddressLibrary Multiaddr) (advertisedCount : Nat) (connectedIP : Option IP)
    (visited : List (Option Multiaddr)) (bestScore : Int) (best : Option Multiaddr)
    (seen : List Text) : Prop where
  mem_seen_iff : ∀ value, value ∈ seen ↔ ∃ c, some c ∈ visited ∧ lib.string c = value
  le : ∀ i c, visited[i]? = some (some c) →
    candidateScore lib advertisedCount connectedIP i c ≤ bestScore
  first : (best = none ∧ bestScore = -1) ∨ ∃ i c, visited[i]? = some (some c) ∧ best = some c ∧
    candidateScore lib advertisedCount connectedIP i c = bestScore ∧
    ∀ j < i, ∀ d, visited[j]? = some (some d) →
      candidateScore lib advertisedCount connectedIP j d < bestScore

variable {visited : List (Option Multiaddr)} {bestScore : Int} {best : Option Multiaddr}
  {seen : List Text}

theorem getElem?_append_singleton_iff {α : Type*} {xs : List α} {x y : α} {i : Nat} :
    (xs ++ [x])[i]? = some y ↔ xs[i]? = some y ∨ (i = xs.length ∧ x = y) := by
  rcases lt_trichotomy i xs.length with hi | rfl | hi
  · simp [List.getElem?_append_left hi, hi.ne]
  · simp
  · rw [List.getElem?_append_right hi.le, List.getElem?_eq_none (by simp; omega),
      List.getElem?_eq_none hi.le]
    simp [hi.ne']

/-- The best one stays the best when the next candidate is not better. -/
theorem Ranked.skip (h : Ranked lib advertisedCount connectedIP visited bestScore best seen)
    {x : Option Multiaddr} {seen' : List Text}
    (hseen : ∀ value, value ∈ seen' ↔ ∃ c, some c ∈ visited ++ [x] ∧ lib.string c = value)
    (hle : ∀ c, x = some c →
      candidateScore lib advertisedCount connectedIP visited.length c ≤ bestScore) :
    Ranked lib advertisedCount connectedIP (visited ++ [x]) bestScore best seen' where
  mem_seen_iff := hseen
  le i c hc := by
    rcases getElem?_append_singleton_iff.mp hc with hc | ⟨rfl, hx⟩
    · exact h.le i c hc
    · exact hle c hx
  first := by
    refine h.first.imp_right ?_
    rintro ⟨i, c, hc, hbest, hscore, hfirst⟩
    have hi : i < visited.length := (List.getElem?_eq_some_iff.mp hc).1
    refine ⟨i, c, getElem?_append_singleton_iff.mpr (Or.inl hc), hbest, hscore, fun j hj d hd => ?_⟩
    rcases getElem?_append_singleton_iff.mp hd with hd | ⟨rfl, -⟩
    · exact hfirst j hj d hd
    · exact absurd hj (not_lt.mpr hi.le)

/-- A better candidate becomes the best one. -/
theorem Ranked.improve (h : Ranked lib advertisedCount connectedIP visited bestScore best seen)
    {c : Multiaddr}
    (hlt : bestScore < candidateScore lib advertisedCount connectedIP visited.length c)
    {seen' : List Text}
    (hseen : ∀ value, value ∈ seen' ↔ ∃ d, some d ∈ visited ++ [some c] ∧ lib.string d = value) :
    Ranked lib advertisedCount connectedIP (visited ++ [some c])
      (candidateScore lib advertisedCount connectedIP visited.length c) (some c) seen' where
  mem_seen_iff := hseen
  le i d hd := by
    rcases getElem?_append_singleton_iff.mp hd with hd | ⟨rfl, hx⟩
    · exact (h.le i d hd).trans hlt.le
    · cases hx
      exact Int.le_refl _
  first := by
    refine Or.inr ⟨visited.length, c, by simp, rfl, rfl, fun j hj d hd => ?_⟩
    rcases getElem?_append_singleton_iff.mp hd with hd | ⟨rfl, -⟩
    · exact (h.le j d hd).trans_lt hlt
    · exact absurd hj (lt_irrefl _)

/-- The loop chooses the first candidate with the greatest score, when the text of an address
determines it. -/
theorem selectLoop_spec (hstring : Function.Injective lib.string)
    (h : Ranked lib advertisedCount connectedIP visited bestScore best seen)
    (candidates : List (Option Multiaddr)) :
    ∃ bestScore' seen', Ranked lib advertisedCount connectedIP (visited ++ candidates) bestScore'
      (selectLoop lib advertisedCount connectedIP visited.length bestScore best seen candidates)
      seen' := by
  induction candidates generalizing visited bestScore best seen with
  | nil =>
    rw [List.append_nil]
    exact ⟨bestScore, seen, h⟩
  | cons x candidates ih =>
    have hlength : visited.length + 1 = (visited ++ [x]).length := by simp
    rw [List.append_cons]
    cases x with
    | none =>
      rw [selectLoop, hlength]
      exact ih (h.skip (by simpa using h.mem_seen_iff) nofun)
    | some c =>
      rw [selectLoop, hlength]
      simp only
      split_ifs with hseen hlt
      · -- the address was seen before, at a place where its score is no less
        refine ih (h.skip (fun value => ?_) fun d hd => ?_)
        · rw [h.mem_seen_iff]
          constructor
          · rintro ⟨d, hd, hvalue⟩
            exact ⟨d, List.mem_append_left _ hd, hvalue⟩
          · rintro ⟨d, hd, hvalue⟩
            rcases List.mem_append.mp hd with hd | hd
            · exact ⟨d, hd, hvalue⟩
            · obtain rfl : d = c := by simpa using hd
              exact hvalue ▸ (h.mem_seen_iff _).mp hseen
        · cases hd
          obtain ⟨d, hd, hvalue⟩ := (h.mem_seen_iff _).mp hseen
          obtain rfl := hstring hvalue
          obtain ⟨i, hi⟩ := List.mem_iff_getElem?.mp hd
          have hlt : i < visited.length := (List.getElem?_eq_some_iff.mp hi).1
          exact (candidateScore_anti hlt.le d).trans (h.le i d hi)
      · refine ih (h.improve hlt fun value => ?_)
        simp [h.mem_seen_iff, or_comm, eq_comm, exists_or, or_and_right]
      · refine ih (h.skip (fun value => ?_) fun d hd => ?_)
        · simp [h.mem_seen_iff, or_comm, eq_comm, exists_or, or_and_right]
        · cases hd
          exact not_lt.mp hlt

variable {advertised : List (Option Multiaddr)}

/-- The places of the candidates: the advertised addresses, and then that of the connection. -/
theorem getElem?_candidates {connection : Option Multiaddr} {i : Nat} {b : Multiaddr}
    (h : (advertised ++ (connection.map some).toList)[i]? = some (some b)) :
    (i < advertised.length ∧ some b ∈ advertised) ∨
      (i = advertised.length ∧ connection = some b) := by
  cases connection with
  | none =>
    rw [Option.map_none, Option.toList_none, List.append_nil] at h
    exact Or.inl ⟨(List.getElem?_eq_some_iff.mp h).1, List.mem_of_getElem? h⟩
  | some c =>
    rw [Option.map_some, Option.toList_some, getElem?_append_singleton_iff] at h
    refine h.imp (fun h => ⟨(List.getElem?_eq_some_iff.mp h).1, List.mem_of_getElem? h⟩) ?_
    rintro ⟨hi, hb⟩
    exact ⟨hi, Option.some.inj hb ▸ rfl⟩

/-- The address that is remembered is one of those that are advertised, with the greatest score, or
else the remote address of the connection, whose score is then greater than all of theirs. -/
theorem preferredPeerAddress_spec (connection : Option Multiaddr) (peerID : Text)
    (hstring : Function.Injective lib.string) {a : Multiaddr} (ha : some a ∈ advertised) :
    ∃ m, preferredPeerAddress lib advertised connection peerID = peerTarget lib m peerID ∧
      ((some m ∈ advertised ∧
        (∀ b, some b ∈ advertised →
          advertisedScore lib (connection.bind (multiaddrIP lib)) b ≤
            advertisedScore lib (connection.bind (multiaddrIP lib)) m) ∧
        ∀ c, connection = some c → peerAddressScore lib c ≤
          advertisedScore lib (connection.bind (multiaddrIP lib)) m) ∨
      (connection = some m ∧ ∀ b, some b ∈ advertised →
        advertisedScore lib (connection.bind (multiaddrIP lib)) b < peerAddressScore lib m)) := by
  set ip := connection.bind (multiaddrIP lib) with hip
  set candidates := advertised ++ (connection.map some).toList with hcandidates
  have hadvertised : ∀ b, some b ∈ advertised →
      ∃ i < advertised.length, candidates[i]? = some (some b) := by
    intro b hb
    obtain ⟨i, hi⟩ := List.mem_iff_getElem?.mp hb
    have hlt := (List.getElem?_eq_some_iff.mp hi).1
    exact ⟨i, hlt, (List.getElem?_append_left hlt).trans hi⟩
  have hconnection : ∀ c, connection = some c →
      candidates[advertised.length]? = some (some c) := by
    rintro c rfl
    simp [hcandidates]
  have hnone : Ranked lib advertised.length ip [] (-1) none [] :=
    ⟨by simp, by simp, Or.inl ⟨rfl, rfl⟩⟩
  obtain ⟨bestScore, seen, hranked⟩ := selectLoop_spec hstring hnone candidates
  rw [List.nil_append, List.length_nil] at hranked
  rcases hranked.first with ⟨-, hscore⟩ | ⟨i, m, hm, hbest, hscore, hfirst⟩
  · obtain ⟨i, hi, ha⟩ := hadvertised a ha
    have hle := hranked.le i a ha
    have hnonneg : 0 ≤ advertisedScore lib ip a := advertisedScore_nonneg ip a
    rw [candidateScore_of_lt hi] at hle
    omega
  · refine ⟨m, by rw [preferredPeerAddress, selectPreferredPeerAddress, ← hip, ← hcandidates,
      hbest], ?_⟩
    rcases getElem?_candidates hm with ⟨hi, hmem⟩ | ⟨rfl, hc⟩
    · rw [candidateScore_of_lt hi] at hscore
      refine Or.inl ⟨hmem, fun b hb => ?_, fun c hc => ?_⟩
      · obtain ⟨j, hj, hb⟩ := hadvertised b hb
        rw [← candidateScore_of_lt hj, hscore]
        exact hranked.le j b hb
      · rw [← candidateScore_of_le (Nat.le_refl advertised.length), hscore]
        exact hranked.le _ c (hconnection c hc)
    · rw [candidateScore_of_le (Nat.le_refl _)] at hscore
      refine Or.inr ⟨hc, fun b hb => ?_⟩
      obtain ⟨j, hj, hb⟩ := hadvertised b hb
      rw [← candidateScore_of_lt hj, hscore]
      exact hfirst j hj b hb

end Choice

/-! ### Listeners -/

/-- A listener is preferred over all else: the peer advertises a TCP address with the IP address of
the connection, or no address with it, and then a TCP address that scores no less than the remote
address of the connection. -/
def ListenerPreferred (lib : AddressLibrary Multiaddr) (advertised : List (Option Multiaddr))
    (connection : Option Multiaddr) : Prop :=
  (∃ b, some b ∈ advertised ∧ IsTCP lib b ∧
    hasConnectedIP lib (connection.bind (multiaddrIP lib)) b) ∨
  ((∀ b, some b ∈ advertised → ¬hasConnectedIP lib (connection.bind (multiaddrIP lib)) b) ∧
    ∀ c, connection = some c → ∃ b, some b ∈ advertised ∧ IsTCP lib b ∧
      peerAddressScore lib c ≤ peerAddressScore lib b)

theorem peerTarget_inj (hstring : Function.Injective lib.string) {a b : Multiaddr} {peerID : Text}
    (h : peerTarget lib a peerID = peerTarget lib b peerID) : a = b := by
  simp only [peerTarget, List.append_assoc] at h
  exact hstring (List.append_cancel_right h)

/-- **The remembered address.** Of a peer that advertises a TCP address, the daemon remembers one
with the IP address of the connection, or else one of the best kind, if and only if a listener is
preferred over the other candidates. -/
theorem preferredPeerAddress_isListener_iff (hstring : Function.Injective lib.string)
    {advertised : List (Option Multiaddr)} (connection : Option Multiaddr) (peerID : Text)
    (htcp : ∃ b, some b ∈ advertised ∧ IsTCP lib b) :
    IsListener lib advertised connection peerID
        (preferredPeerAddress lib advertised connection peerID) ↔
      ListenerPreferred lib advertised connection := by
  obtain ⟨t, ht, httcp⟩ := htcp
  obtain ⟨m, hresult, hm⟩ :=
    preferredPeerAddress_spec connection peerID hstring ht
  have hrange := peerAddressScore_range lib
  constructor
  · rintro ⟨a, ha, hatcp, heq, -, -⟩
    obtain rfl : m = a := peerTarget_inj hstring (hresult.symm.trans heq)
    refine or_iff_not_imp_left.mpr fun hno => ?_
    have hmip : ¬hasConnectedIP lib (connection.bind (multiaddrIP lib)) m := fun h =>
      hno ⟨m, ha, hatcp, h⟩
    have hmscore := advertisedScore_of_not_hasConnectedIP hmip
    constructor
    · -- an advertised address with the IP address would score more than any without it
      intro b hb hip
      have hbscore := advertisedScore_of_hasConnectedIP hip
      have hb0 := (hrange b).1
      have hm50 := (hrange m).2.1
      rcases hm with ⟨-, hmax, -⟩ | ⟨-, hlt⟩
      · have := hmax b hb
        omega
      · have := hlt b hb
        omega
    · rintro c hc
      refine ⟨m, ha, hatcp, ?_⟩
      rcases hm with ⟨-, -, hmax⟩ | ⟨hconnection, -⟩
      · exact hmscore ▸ hmax c hc
      · cases hconnection.symm.trans hc
        exact Int.le_refl _
  · rintro (⟨b, hb, hbtcp, hip⟩ | ⟨hno, hconnection⟩)
    · -- the bonus is only for advertised addresses, and a TCP address keeps its lead
      have hbscore := advertisedScore_of_hasConnectedIP hip
      have hb10 := (hrange b).2.2 hbtcp
      have hm50 := (hrange m).2.1
      rcases hm with ⟨hmem, hmax, -⟩ | ⟨-, hlt⟩
      · have hle := hmax b hb
        have hmip : hasConnectedIP lib (connection.bind (multiaddrIP lib)) m := by
          by_contra hmip
          rw [advertisedScore_of_not_hasConnectedIP hmip] at hle
          omega
        have hmtcp : IsTCP lib m := by
          by_contra hmtcp
          rw [advertisedScore_of_hasConnectedIP hmip, peerAddressScore_of_not_isTCP hmtcp] at hle
          omega
        exact ⟨m, hmem, hmtcp, hresult, fun _ => hmip, fun h => absurd ⟨b, hb, hbtcp, hip⟩ h⟩
      · have := hlt b hb
        omega
    · rcases hm with ⟨hmem, hmax, -⟩ | ⟨hc, hlt⟩
      · have hscore : ∀ b, some b ∈ advertised → peerAddressScore lib b ≤
            peerAddressScore lib m := by
          intro b hb
          have hle := hmax b hb
          rwa [advertisedScore_of_not_hasConnectedIP (hno b hb),
            advertisedScore_of_not_hasConnectedIP (hno m hmem)] at hle
        have hmtcp : IsTCP lib m := by
          by_contra hmtcp
          have hle := hscore t ht
          have ht10 := (hrange t).2.2 httcp
          rw [peerAddressScore_of_not_isTCP hmtcp] at hle
          omega
        refine ⟨m, hmem, hmtcp, hresult, ?_, fun _ b hb hbtcp => ?_⟩
        · rintro ⟨b, hb, -, hip⟩
          exact absurd hip (hno b hb)
        · rw [← AddressClass.score_le_iff, ← peerAddressScore_of_isTCP hbtcp,
            ← peerAddressScore_of_isTCP hmtcp]
          exact hscore b hb
      · obtain ⟨b, hb, -, hle⟩ := hconnection m hc
        have hlt := hlt b hb
        rw [advertisedScore_of_not_hasConnectedIP (hno b hb)] at hlt
        omega

/-! ### An address that is no listener -/

/-- Addresses of a peer in a local network. -/
inductive SampleAddress where
  | virtualHost
  | wifi
  | wifiUDP
  | ephemeral
  deriving DecidableEq

/-- The text of the addresses and the values in them. -/
def sampleLibrary : AddressLibrary SampleAddress where
  string
    | .virtualHost => "/ip4/192.168.117.0/tcp/42422".toList
    | .wifi => "/ip4/192.168.68.57/tcp/42422".toList
    | .wifiUDP => "/ip4/192.168.68.57/udp/42422/quic-v1".toList
    | .ephemeral => "/ip4/192.168.68.57/tcp/55000".toList
  valueForProtocol
    | .virtualHost, .ip4 => some "192.168.117.0".toList
    | .virtualHost, .tcp => some "42422".toList
    | .wifi, .ip4 | .wifiUDP, .ip4 | .ephemeral, .ip4 => some "192.168.68.57".toList
    | .wifi, .tcp => some "42422".toList
    | .ephemeral, .tcp => some "55000".toList
    | _, _ => none

theorem sampleLibrary_string_injective : Function.Injective sampleLibrary.string := by
  intro a b
  cases a <;> cases b <;> decide +kernel

/-- The listener with the IP address of the connection is remembered. -/
theorem wifi_isListener_iff :
    IsListener sampleLibrary [some .virtualHost, some .wifi] (some .ephemeral) ['p']
        (preferredPeerAddress sampleLibrary [some .virtualHost, some .wifi] (some .ephemeral)
          ['p']) ↔
      ListenerPreferred sampleLibrary [some .virtualHost, some .wifi] (some .ephemeral) :=
  preferredPeerAddress_isListener_iff sampleLibrary_string_injective _ _
    ⟨.wifi, by decide, by decide⟩

/-- A peer that advertises a TCP address of one interface and a UDP address of the one that it is
connected from is remembered under the UDP address. -/
theorem wifiUDP_not_isListener :
    ¬IsListener sampleLibrary [some .virtualHost, some .wifiUDP] (some .ephemeral) ['p']
      (preferredPeerAddress sampleLibrary [some .virtualHost, some .wifiUDP] (some .ephemeral)
        ['p']) := by
  have hresult : preferredPeerAddress sampleLibrary [some .virtualHost, some .wifiUDP]
      (some .ephemeral) ['p'] = peerTarget sampleLibrary .wifiUDP ['p'] := by
    decide +kernel
  rintro ⟨a, -, htcp, heq, -, -⟩
  obtain rfl := peerTarget_inj sampleLibrary_string_injective (hresult.symm.trans heq)
  exact absurd htcp (by decide)

end Thalweg
