import Mathlib.Algebra.Group.Nat.Defs
import Thalweg.Data.Sha256

/-!
# Lists of byte strings as one byte string

Each item is written after its length, as four big-endian bytes. As long as all items are shorter
than `2 ^ 32` bytes the lists can be told apart (`LengthPrefix.encode_injective`), whatever the
number of items and wherever one item ends and the next one starts.
-/

namespace LengthPrefix

/-- The items one after the other, each after its length. -/
def encode : List (List UInt8) → List UInt8
  | [] => []
  | item :: items => Sha256.wordBytes item.length ++ item ++ encode items

/-- Every item is short enough for its length to be written. -/
def Fits (items : List (List UInt8)) : Prop := ∀ item ∈ items, item.length < 2 ^ 32

/-- The number of a big-endian sequence of bytes. -/
def number : List UInt8 → Nat
  | bytes => bytes.foldl (fun n b => n * 256 + b.toNat) 0

theorem number_wordBytes {n : Nat} (h : n < 2 ^ 32) : number (Sha256.wordBytes n) = n := by
  simp only [number, Sha256.wordBytes, List.foldl_cons, List.foldl_nil, UInt8.toNat_ofNat']
  omega

theorem wordBytes_injective {m n : Nat} (hm : m < 2 ^ 32) (hn : n < 2 ^ 32)
    (h : Sha256.wordBytes m = Sha256.wordBytes n) : m = n := by
  rw [← number_wordBytes hm, h, number_wordBytes hn]

theorem encode_cons_ne_nil (item : List UInt8) (items : List (List UInt8)) :
    encode (item :: items) ≠ [] := by
  simp [encode, Sha256.wordBytes]

/-- **Unambiguity.** Lists of short items with the same encoding are the same. -/
theorem encode_injective : ∀ {items items' : List (List UInt8)}, Fits items → Fits items' →
    encode items = encode items' → items = items'
  | [], [], _, _, _ => rfl
  | [], item :: items, _, _, h => absurd h.symm (encode_cons_ne_nil item items)
  | item :: items, [], _, _, h => absurd h (encode_cons_ne_nil item items)
  | item :: items, item' :: items', hfits, hfits', h => by
    obtain ⟨hitem, hitems⟩ := List.forall_mem_cons.mp hfits
    obtain ⟨hitem', hitems'⟩ := List.forall_mem_cons.mp hfits'
    simp only [encode, List.append_assoc] at h
    obtain ⟨hlength, hrest⟩ := List.append_inj h rfl
    obtain ⟨rfl, htail⟩ := List.append_inj hrest (wordBytes_injective hitem hitem' hlength)
    rw [encode_injective hitems hitems' htail]

end LengthPrefix
