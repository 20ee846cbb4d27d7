import Mathlib.Data.List.Induction
import Mathlib.Tactic.Ring

/-!
# Byte strings and fixed-width big-endian integers

A natural number below `256 ^ width` is written as `width` bytes, most
significant byte first.  The encoding is exact: it has the fixed length, it is
read back unchanged, and it is injective below the bound.
-/

namespace ZkLlmGateway.Encoding

/-- Byte strings. -/
abbrev Bytes := List UInt8

/-- Byte strings of one fixed length, such as keys and nonces. -/
abbrev Block (size : Nat) := { bytes : Bytes // bytes.length = size }

namespace Block

/-- The block with these bytes, when they have the right length. -/
def ofBytes? (size : Nat) (bytes : Bytes) : Option (Block size) :=
  if fits : bytes.length = size then some ⟨bytes, fits⟩ else none

theorem ofBytes?_eq_some_iff {size : Nat} {bytes : Bytes} {block : Block size} :
    ofBytes? size bytes = some block ↔ block.val = bytes := by
  constructor
  · intro read
    rw [ofBytes?] at read
    split at read
    next => exact congrArg Subtype.val (Option.some.inj read).symm
    next => contradiction
  · rintro rfl
    exact dif_pos block.property

@[simp]
theorem ofBytes?_val {size : Nat} (block : Block size) :
    ofBytes? size block.val = some block :=
  ofBytes?_eq_some_iff.mpr rfl

/-- The block that repeats one byte. -/
def replicate (size : Nat) (byte : UInt8) : Block size :=
  ⟨List.replicate size byte, List.length_replicate⟩

end Block

/-- The `width` low-order bytes of `n`, most significant first. -/
def toBeBytes : Nat → Nat → Bytes
  | 0, _ => []
  | width + 1, n => toBeBytes width (n / 256) ++ [UInt8.ofNat (n % 256)]

/-- The number a big-endian byte string denotes. -/
def fromBeBytes (bytes : Bytes) : Nat :=
  bytes.foldl (fun total byte => 256 * total + byte.toNat) 0

@[simp]
theorem length_toBeBytes (width n : Nat) : (toBeBytes width n).length = width := by
  induction width generalizing n with
  | zero => rfl
  | succ width ih => simp [toBeBytes, ih]

theorem fromBeBytes_append_singleton (bytes : Bytes) (byte : UInt8) :
    fromBeBytes (bytes ++ [byte]) = 256 * fromBeBytes bytes + byte.toNat := by
  simp [fromBeBytes, List.foldl_append]

/-- Reading back a number that fits the width gives the number. -/
theorem fromBeBytes_toBeBytes {width n : Nat} (fits : n < 256 ^ width) :
    fromBeBytes (toBeBytes width n) = n := by
  induction width generalizing n with
  | zero =>
      have isZero : n = 0 := by simpa using fits
      subst isZero
      rfl
  | succ width ih =>
      have quotientFits : n / 256 < 256 ^ width := by
        rw [Nat.div_lt_iff_lt_mul (by decide)]
        calc
          n < 256 ^ (width + 1) := fits
          _ = 256 ^ width * 256 := pow_succ 256 width
      have lowByte : (UInt8.ofNat (n % 256)).toNat = n % 256 :=
        UInt8.toNat_ofNat_of_lt' (Nat.mod_lt n (by decide))
      rw [toBeBytes, fromBeBytes_append_singleton, ih quotientFits, lowByte]
      exact Nat.div_add_mod n 256

theorem fromBeBytes_lt (bytes : Bytes) : fromBeBytes bytes < 256 ^ bytes.length := by
  induction bytes using List.reverseRecOn with
  | nil => decide
  | append_singleton bytes byte ih =>
      have small := byte.toNat_lt
      rw [fromBeBytes_append_singleton, List.length_append, List.length_singleton, pow_succ]
      omega

/-- Writing back a number that was read gives the bytes. -/
theorem toBeBytes_fromBeBytes (bytes : Bytes) :
    toBeBytes bytes.length (fromBeBytes bytes) = bytes := by
  induction bytes using List.reverseRecOn with
  | nil => rfl
  | append_singleton bytes byte ih =>
      have small := byte.toNat_lt
      have quotient : (256 * fromBeBytes bytes + byte.toNat) / 256 = fromBeBytes bytes := by omega
      have remainder : (256 * fromBeBytes bytes + byte.toNat) % 256 = byte.toNat := by omega
      rw [fromBeBytes_append_singleton, List.length_append, List.length_singleton, toBeBytes,
        quotient, remainder, ih, UInt8.ofNat_toNat]

end ZkLlmGateway.Encoding
