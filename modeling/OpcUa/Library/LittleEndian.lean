import Mathlib.Data.Nat.Basic
import Mathlib.Tactic.Ring

/-!
Little-endian byte strings of a fixed width, and the bit tests of a flag byte.
Nothing here mentions a particular format: a width is a number of bytes, a value
is a natural number taken modulo the width.
-/

namespace LittleEndian

abbrev Byte := BitVec 8

def leBytes : Nat → Nat → List Byte
  | 0, _ => []
  | width + 1, value => BitVec.ofNat 8 value :: leBytes width (value / 256)

def ofLeBytes : List Byte → Nat
  | [] => 0
  | byte :: rest => byte.toNat + 256 * ofLeBytes rest

@[simp] theorem leBytes_length (width value : Nat) : (leBytes width value).length = width := by
  induction width generalizing value with
  | zero => rfl
  | succ width ih => simp [leBytes, ih]

theorem ofLeBytes_leBytes (width value : Nat) :
    ofLeBytes (leBytes width value) = value % 256 ^ width := by
  induction width generalizing value with
  | zero => simp [leBytes, ofLeBytes, Nat.mod_one]
  | succ width ih =>
    have split : value % 256 ^ (width + 1) = value % 256 + 256 * (value / 256 % 256 ^ width) := by
      rw [Nat.pow_succ, Nat.mul_comm, Nat.mod_mul]
    simp only [leBytes, ofLeBytes, ih, BitVec.toNat_ofNat]
    rw [split]

theorem ofNat_ofLeBytes_leBytes (width bits : Nat) (word : BitVec bits) (fits : bits ≤ 8 * width) :
    BitVec.ofNat bits (ofLeBytes (leBytes width word.toNat)) = word := by
  have below : word.toNat < 256 ^ width := by
    have bound := word.isLt
    have power : 2 ^ bits ≤ 256 ^ width := by
      rw [show (256 : Nat) = 2 ^ 8 by decide, ← Nat.pow_mul]
      exact Nat.pow_le_pow_right (by decide) fits
    omega
  rw [ofLeBytes_leBytes, Nat.mod_eq_of_lt below]
  simp

theorem ofLeBytes_lt (bytes : List Byte) : ofLeBytes bytes < 256 ^ bytes.length := by
  induction bytes with
  | nil => exact Nat.one_pos
  | cons byte rest ih =>
    have first : byte.toNat < 256 := byte.isLt
    rw [ofLeBytes, List.length_cons, Nat.pow_succ]
    omega

theorem leBytes_ofLeBytes (bytes : List Byte) : leBytes bytes.length (ofLeBytes bytes) = bytes := by
  induction bytes with
  | nil => rfl
  | cons byte rest ih =>
    have below : byte.toNat < 256 := byte.isLt
    have first : BitVec.ofNat 8 (byte.toNat + 256 * ofLeBytes rest) = byte := by
      apply BitVec.eq_of_toNat_eq
      rw [BitVec.toNat_ofNat]
      omega
    have behind : (byte.toNat + 256 * ofLeBytes rest) / 256 = ofLeBytes rest := by omega
    rw [List.length_cons, leBytes, ofLeBytes, first, behind, ih]

def flagBit (present : Bool) (index : Nat) : Byte := if present then (1#8) <<< index else 0

end LittleEndian
