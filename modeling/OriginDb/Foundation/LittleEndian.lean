/-
Fixed-width little-endian words over byte lists.

`encode width value` lays out the low `width` bytes of a natural number and
`decode` reads any byte list back.  The two compose to the residue modulo
`256 ^ width`, which is all that a fixed-width field of a file can hold.
-/

import Mathlib.Data.List.Basic
import Mathlib.Tactic.Ring

namespace Foundation.LittleEndian

/-- The low `width` bytes of `value`, least significant byte first. -/
def encode : Nat → Nat → List UInt8
  | 0, _ => []
  | width + 1, value => UInt8.ofNat value :: encode width (value / 256)

def decode : List UInt8 → Nat
  | [] => 0
  | byte :: rest => byte.toNat + 256 * decode rest

@[simp] theorem encode_length (width value : Nat) :
    (encode width value).length = width := by
  induction width generalizing value with
  | zero => rfl
  | succ width ih => simp only [encode, List.length_cons, ih]

/-- Reading back a word of `width` bytes recovers the value up to the width. -/
theorem decode_encode (width value : Nat) :
    decode (encode width value) = value % 256 ^ width := by
  induction width generalizing value with
  | zero => simp only [encode, decode, Nat.pow_zero, Nat.mod_one]
  | succ width ih =>
      have lowByte : (UInt8.ofNat value).toNat = value % 256 := by
        simp only [UInt8.toNat_ofNat', Nat.reducePow]
      simp only [encode, decode, ih, lowByte]
      rw [Nat.pow_succ, Nat.mul_comm (256 ^ width) 256, Nat.mod_mul]

theorem decode_encode_of_lt {width value : Nat} (fits : value < 256 ^ width) :
    decode (encode width value) = value := by
  rw [decode_encode, Nat.mod_eq_of_lt fits]

theorem decode_lt (bytes : List UInt8) : decode bytes < 256 ^ bytes.length := by
  induction bytes with
  | nil => exact Nat.one_pos
  | cons byte rest ih =>
      have small := byte.toNat_lt
      rw [decode, List.length_cons, Nat.pow_succ']
      omega

/-- Writing back what was read from as many bytes. -/
theorem encode_decode (bytes : List UInt8) : encode bytes.length (decode bytes) = bytes := by
  induction bytes with
  | nil => rfl
  | cons byte rest ih =>
      have small : byte.toNat < 256 := byte.toNat_lt
      have low : (byte.toNat + 256 * decode rest) % 256 = byte.toNat := by omega
      have high : (byte.toNat + 256 * decode rest) / 256 = decode rest := by omega
      have lowByte : UInt8.ofNat (byte.toNat + 256 * decode rest) = byte := by
        rw [← UInt8.toNat_inj, UInt8.toNat_ofNat', low]
      rw [decode, List.length_cons, encode, high, ih, lowByte]

end Foundation.LittleEndian
