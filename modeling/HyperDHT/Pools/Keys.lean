import Mathlib.Data.List.AList
import Mathlib.Data.Vector.Basic

/-!
# Public keys as the pools use them

The pools of connections and of sockets are maps over the hexadecimal form of a public key, and the bytes of two keys
are compared to break ties.

## Main definitions

* `Pools.PublicKey` — the 32 bytes of a key.
* `Pools.keyHex` — `key_hex`, the key of the maps.
* `Pools.memcmp` — the order of the bytes.

## Main results

* `Pools.keyHex_injective` — different keys have different entries.
* `Pools.memcmp_eq_gt_iff` — of two different keys, one is greater.
-/

set_option autoImplicit false

namespace HyperDHT.Pools

/-- The bytes of a public key. -/
abbrev PublicKey := List.Vector UInt8 32

/-- The table `h` of `key_hex`. -/
def hexDigits : List Char :=
  ['0', '1', '2', '3', '4', '5', '6', '7', '8', '9', 'a', 'b', 'c', 'd', 'e', 'f']

/-- The two characters of a byte. -/
def byteHex (b : UInt8) : List Char :=
  [hexDigits.getD (b >>> 4).toNat '0', hexDigits.getD (b &&& 0x0F).toNat '0']

/-- `key_hex`. -/
def keyHex (key : PublicKey) : List Char := key.toList.flatMap byteHex

/-- `memcmp` of two keys. -/
def memcmp (a b : PublicKey) : Ordering := compare a.toList b.toList

/-- The byte of two characters. -/
def byteOfHex (high low : Char) : UInt8 :=
  UInt8.ofNat (16 * hexDigits.idxOf high + hexDigits.idxOf low)

/-- The bytes of a row of characters. -/
def bytesOfHex : List Char → List UInt8
  | high :: low :: rest => byteOfHex high low :: bytesOfHex rest
  | _ => []

lemma byteOfHex_byteHex : ∀ b : UInt8, ∃ high low, byteHex b = [high, low] ∧ byteOfHex high low = b := by
  have hall : ∀ b : BitVec 8, byteOfHex (hexDigits.getD (UInt8.ofBitVec b >>> 4).toNat '0')
      (hexDigits.getD (UInt8.ofBitVec b &&& 0x0F).toNat '0') = UInt8.ofBitVec b := by decide +kernel
  exact fun b => ⟨_, _, rfl, hall b.toBitVec⟩

lemma bytesOfHex_flatMap (bytes : List UInt8) : bytesOfHex (bytes.flatMap byteHex) = bytes := by
  induction bytes with
  | nil => rfl
  | cons b rest ih =>
    obtain ⟨high, low, hhex, hbyte⟩ := byteOfHex_byteHex b
    rw [List.flatMap_cons, hhex, List.cons_append, List.cons_append, List.nil_append, bytesOfHex, hbyte, ih]

/-- **Different keys have different entries** in the maps. -/
theorem keyHex_injective : Function.Injective keyHex := by
  intro a b h
  apply List.Vector.eq
  rw [← bytesOfHex_flatMap a.toList, ← bytesOfHex_flatMap b.toList]
  exact congrArg bytesOfHex h

lemma memcmp_eq_gt_iff {a b : PublicKey} (h : a ≠ b) : memcmp a b = .gt ↔ memcmp b a ≠ .gt := by
  have hne : compare b.toList a.toList ≠ .eq := fun heq =>
    h (List.Vector.eq _ _ (Std.LawfulEqCmp.compare_eq_iff_eq.1 heq)).symm
  rw [memcmp, memcmp, Std.OrientedCmp.gt_iff_lt]
  cases hcmp : compare b.toList a.toList with
  | lt => simp
  | eq => exact absurd hcmp hne
  | gt => simp

end HyperDHT.Pools
