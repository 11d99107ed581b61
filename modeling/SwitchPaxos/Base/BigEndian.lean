import Mathlib.Tactic.Positivity
import Mathlib.Tactic.GCongr
import Mathlib.Tactic.Ring
import Mathlib.Data.List.Basic

/-!
# Unsigned integers in network byte order

The fixed-width big-endian encoding of a natural number and its inverse.
-/

namespace SwitchPaxos

abbrev Bytes : Type := List UInt8

/-- The last `width` bytes of a number, most significant byte first. -/
def bigEndian : ℕ → ℕ → Bytes
  | 0, _ => []
  | width + 1, n => UInt8.ofNat (n / 256 ^ width) :: bigEndian width n

def ofBigEndian : Bytes → ℕ
  | [] => 0
  | byte :: bytes => byte.toNat * 256 ^ bytes.length + ofBigEndian bytes

@[simp] theorem length_bigEndian (width n : ℕ) :
    (bigEndian width n).length = width := by
  induction width with
  | zero => rfl
  | succ width induction => simp [bigEndian, induction]

theorem ofBigEndian_lt (bytes : Bytes) :
    ofBigEndian bytes < 256 ^ bytes.length := by
  induction bytes with
  | nil => simp [ofBigEndian]
  | cons byte bytes induction =>
      have small : byte.toNat ≤ 255 := Nat.le_of_lt_succ byte.toNat_lt
      calc byte.toNat * 256 ^ bytes.length + ofBigEndian bytes
          < byte.toNat * 256 ^ bytes.length + 256 ^ bytes.length := by omega
        _ ≤ 255 * 256 ^ bytes.length + 256 ^ bytes.length := by gcongr
        _ = 256 ^ (byte :: bytes).length := by
          simp only [List.length_cons, pow_succ]; ring

theorem ofBigEndian_bigEndian (width n : ℕ) :
    ofBigEndian (bigEndian width n) = n % 256 ^ width := by
  induction width with
  | zero => simp [bigEndian, ofBigEndian, Nat.mod_one]
  | succ width induction =>
      have digit : (UInt8.ofNat (n / 256 ^ width)).toNat =
          n / 256 ^ width % 256 := by simp
      rw [bigEndian, ofBigEndian, induction, digit, length_bigEndian, pow_succ,
        Nat.mod_mul]
      ring

theorem ofBigEndian_bigEndian_of_lt {width n : ℕ} (small : n < 256 ^ width) :
    ofBigEndian (bigEndian width n) = n := by
  rw [ofBigEndian_bigEndian, Nat.mod_eq_of_lt small]

private theorem bigEndian_add_mul (width high low : ℕ) :
    bigEndian width (high * 256 ^ width + low) = bigEndian width low := by
  induction width generalizing high with
  | zero => rfl
  | succ width induction =>
      have positive : 0 < 256 ^ width := by positivity
      have split : high * 256 ^ (width + 1) + low =
          high * 256 * 256 ^ width + low := by ring
      have top : (high * 256 * 256 ^ width + low) / 256 ^ width =
          low / 256 ^ width + 256 * high := by
        rw [Nat.add_comm, Nat.add_mul_div_right _ _ positive]; ring
      rw [bigEndian, bigEndian, split, induction, top]
      congr 1
      apply UInt8.toNat_inj.mp
      simp

theorem bigEndian_ofBigEndian (bytes : Bytes) :
    bigEndian bytes.length (ofBigEndian bytes) = bytes := by
  induction bytes with
  | nil => rfl
  | cons byte bytes induction =>
      have positive : 0 < 256 ^ bytes.length := by positivity
      have top : (byte.toNat * 256 ^ bytes.length + ofBigEndian bytes) /
          256 ^ bytes.length = byte.toNat := by
        rw [Nat.add_comm, Nat.add_mul_div_right _ _ positive,
          Nat.div_eq_of_lt (ofBigEndian_lt bytes), Nat.zero_add]
      rw [List.length_cons, bigEndian, ofBigEndian, top, bigEndian_add_mul,
        induction]
      simp

end SwitchPaxos
