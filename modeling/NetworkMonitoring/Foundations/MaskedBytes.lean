import Mathlib.Data.UInt
import Mathlib.Tactic.Ring

/-!
# Bytes picked out of a word by a mask

A program that takes a word apart masks one of its bytes and shifts it to its new place, and puts
the pieces together with `|||`. In numbers, a masked byte is a digit to the base 256 (`and_byte`),
moved by the shift (`toNat_up`, `toNat_down`), and putting a piece below the others is adding a
digit (`or_byte`).
-/

namespace Bytes

/-- Masking one byte of a number. -/
theorem and_byte (n k : ℕ) : n &&& 255 * 2 ^ k = n / 2 ^ k % 256 * 2 ^ k := by
  apply Nat.eq_of_testBit_eq
  intro i
  have h255 : 255 = 2 ^ 8 - 1 := rfl
  have h256 : 256 = 2 ^ 8 := rfl
  rw [Nat.testBit_and, Nat.testBit_mul_two_pow, Nat.testBit_mul_two_pow, h255,
    Nat.testBit_two_pow_sub_one, h256, Nat.testBit_mod_two_pow, Nat.testBit_div_two_pow]
  by_cases hk : k ≤ i
  · simp [hk, Bool.and_comm]
  · simp [hk]

/-- Numbers that share no bit are added. -/
theorem or_of_dvd {x b k : ℕ} (hx : 2 ^ k ∣ x) (hb : b < 2 ^ k) : x ||| b = x + b := by
  obtain ⟨a, rfl⟩ := hx
  rw [Nat.mul_comm, ← Nat.shiftLeft_eq, Nat.shiftLeft_add_eq_or_of_lt hb]

/-- Putting a byte below the others. -/
theorem or_byte {x b j k : ℕ} (hj : j = k + 8) (hb : b < 256) :
    x * 2 ^ j ||| b * 2 ^ k = (b + 256 * x) * 2 ^ k := by
  have hlt : b * 2 ^ k < 2 ^ j := by
    rw [hj, pow_add, Nat.mul_comm (2 ^ k)]
    exact Nat.mul_lt_mul_of_pos_right hb (Nat.two_pow_pos k)
  rw [or_of_dvd (Nat.dvd_mul_left _ _) hlt, hj, pow_add]
  ring

section
variable {v m s : UInt64} {j k : ℕ}

/-- A byte that is moved up. -/
theorem toNat_up (hm : m.toNat = 255 * 2 ^ k) (hs : s.toNat = j) (h : k + j ≤ 56) :
    ((v &&& m) <<< s).toNat = v.toNat / 2 ^ k % 256 * 2 ^ (k + j) := by
  have hj : j < 64 := by omega
  -- the byte stays below the upper end of the word
  have hlt : v.toNat / 2 ^ k % 256 * 2 ^ (k + j) < 2 ^ 64 :=
    calc v.toNat / 2 ^ k % 256 * 2 ^ (k + j)
      _ < 256 * 2 ^ (k + j) :=
        Nat.mul_lt_mul_of_pos_right (Nat.mod_lt _ (by decide)) (Nat.two_pow_pos _)
      _ = 2 ^ (8 + (k + j)) := by rw [pow_add 2 8, show 2 ^ 8 = 256 from rfl]
      _ ≤ 2 ^ 64 := Nat.pow_le_pow_right (by decide) (by omega)
  rw [UInt64.toNat_shiftLeft, UInt64.toNat_and, hm, and_byte, hs, Nat.mod_eq_of_lt hj,
    Nat.shiftLeft_eq, Nat.mul_assoc, ← pow_add, Nat.mod_eq_of_lt hlt]

/-- A byte that is moved down. -/
theorem toNat_down (hm : m.toNat = 255 * 2 ^ (k + j)) (hs : s.toNat = j) (h : j < 64) :
    ((v &&& m) >>> s).toNat = v.toNat / 2 ^ (k + j) % 256 * 2 ^ k := by
  rw [UInt64.toNat_shiftRight, UInt64.toNat_and, hm, and_byte, hs, Nat.mod_eq_of_lt h,
    Nat.shiftRight_eq_div_pow, pow_add 2 k, ← Nat.mul_assoc,
    Nat.mul_div_cancel _ (Nat.two_pow_pos _)]

end

end Bytes
