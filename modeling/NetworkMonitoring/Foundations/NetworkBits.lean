import Mathlib.Data.UInt
import NetworkMonitoring.Foundations.LittleEndian

/-!
# Bits in network order

The bits of a byte string are numbered as they are sent: from its first byte on, and in each byte
from the most significant bit on. A string is told apart by its bits (`eq_of_netBit`), and the
operations on bytes act on each bit.

A 32-bit word that is stored in network order lies in memory most significant bit first
(`bitAt_le32_htonl`), so a mask that a program builds by shifting a word (`lowMask`) covers the
first bits of the string.
-/

namespace Bytes

/-- The bit `k` of a byte, the most significant one first. -/
def bitAt (b : UInt8) (k : ℕ) : Bool := b.toBitVec.getMsbD k

/-- The bit `i` of a byte string. -/
def netBit {n : ℕ} (bytes : Fin n → UInt8) (i : ℕ) : Bool :=
  if h : i / 8 < n then bitAt (bytes ⟨i / 8, h⟩) (i % 8) else false

@[simp]
theorem bitAt_zero (k : ℕ) : bitAt 0 k = false := by simp [bitAt]

@[simp]
theorem bitAt_and (a b : UInt8) (k : ℕ) : bitAt (a &&& b) k = (bitAt a k && bitAt b k) := by
  simp [bitAt]

theorem bitAt_not (a : UInt8) {k : ℕ} (hk : k < 8) : bitAt (~~~a) k = !bitAt a k := by
  simp [bitAt, hk]

theorem eq_of_bitAt {a b : UInt8} (h : ∀ k < 8, bitAt a k = bitAt b k) : a = b :=
  UInt8.toBitVec_inj.mp (BitVec.eq_of_getMsbD_eq h)

section
variable {n : ℕ}

theorem netBit_eq (bytes : Fin n → UInt8) {i : ℕ} (hi : i < 8 * n) :
    netBit bytes i = bitAt (bytes ⟨i / 8, by omega⟩) (i % 8) :=
  dif_pos (by omega)

theorem netBit_byte (bytes : Fin n → UInt8) (j : Fin n) {k : ℕ} (hk : k < 8) :
    netBit bytes (8 * j + k) = bitAt (bytes j) k := by
  have hj := j.isLt
  rw [netBit_eq bytes (by omega)]
  have hdiv : (8 * j.val + k) / 8 = j := by omega
  have hmod : (8 * j.val + k) % 8 = k := by omega
  simp only [hdiv, hmod, Fin.eta]

/-- Byte strings with the same bits are equal. -/
theorem eq_of_netBit {a b : Fin n → UInt8} (h : ∀ i < 8 * n, netBit a i = netBit b i) : a = b := by
  ext1 j
  apply eq_of_bitAt
  intro k hk
  have hj := j.isLt
  rw [← netBit_byte a j hk, ← netBit_byte b j hk]
  exact h _ (by omega)

end

/-! ## Words in network order -/

/-- A byte of a stored word. -/
theorem getElem?_leBytes {w j : ℕ} (hj : j < w) (v : ℕ) :
    (leBytes w v)[j]? = some (UInt8.ofNat (v / 256 ^ j)) := by
  induction w generalizing j v with
  | zero => omega
  | succ w ih =>
    cases j with
    | zero => simp [leBytes]
    | succ j =>
      rw [leBytes, List.getElem?_cons_succ, ih (by omega), Nat.div_div_eq_div_mul, pow_succ']

/-- The first byte of a word in network order is the most significant one. -/
theorem getD_le32_htonl (w : UInt32) {j : ℕ} (hj : j < 4) :
    (le32 (htonl w)).getD j 0 = UInt8.ofNat (w.toNat / 256 ^ (3 - j)) := by
  have hlen : (leBytes 4 w.toNat).length = 4 := length_leBytes 4 w.toNat
  rw [le32, toNat_htonl, leBytes_swapBytes, List.getD_eq_getElem?_getD,
    List.getElem?_reverse (by omega), hlen, getElem?_leBytes (by omega)]
  have hsub : 4 - 1 - j = 3 - j := by omega
  rw [hsub, Option.getD_some]

/-- So its bits lie in memory in the order of their significance. -/
theorem bitAt_le32_htonl (w : UInt32) {j k : ℕ} (hj : j < 4) (hk : k < 8) :
    bitAt ((le32 (htonl w)).getD j 0) k = w.toBitVec.getMsbD (8 * j + k) := by
  have hpow : 256 ^ (3 - j) = 2 ^ (8 * (3 - j)) := by rw [pow_mul, show 2 ^ 8 = 256 from rfl]
  -- both are bit `31 - (8 * j + k)` of the number
  have hbit : 8 * (3 - j) + (8 - 1 - k) = 32 - 1 - (8 * j + k) := by omega
  have hlt : 8 * j + k < 32 := by omega
  have hlt' : 8 - 1 - k < 8 := by omega
  rw [getD_le32_htonl w hj, bitAt, BitVec.getMsbD, BitVec.getMsbD, hpow, ← Nat.shiftRight_eq_div_pow]
  simp only [hk, hlt, decide_true, Bool.true_and, BitVec.getLsbD]
  rw [UInt8.toNat_toBitVec, UInt8.toNat_ofNat', UInt32.toNat_toBitVec, Nat.testBit_mod_two_pow,
    Nat.testBit_shiftRight, hbit, decide_eq_true hlt', Bool.true_and]

theorem htonl_ones : htonl 0xffffffff = 0xffffffff := by decide

theorem htonl_zero : htonl 0 = 0 := by decide

/-- The word whose first `l` bits are set, as it is built by shifting. -/
def lowMask (l : ℕ) : UInt32 := ~~~(0xffffffff >>> UInt32.ofNat l)

theorem getMsbD_lowMask {l b : ℕ} (hl : l < 32) (hb : b < 32) :
    (lowMask l).toBitVec.getMsbD b = decide (b < l) := by
  have hcount : ((UInt32.ofNat l).toBitVec % 32).toNat = l := by
    simp
    omega
  have hones : (0xffffffff : UInt32).toBitVec = BitVec.allOnes 32 := by decide
  -- the shift brings `l` zeros in from the left
  have hshift : (0xffffffff >>> UInt32.ofNat l : UInt32).toBitVec = BitVec.allOnes 32 >>> l := by
    rw [UInt32.toBitVec_shiftRight, hones, BitVec.ushiftRight_eq', hcount]
  rw [lowMask, UInt32.toBitVec_not, hshift, BitVec.getMsbD_not, BitVec.getMsbD_ushiftRight,
    BitVec.getMsbD_allOnes]
  by_cases hlt : b < l
  · simp [hlt, hb]
  · have hsub : b - l < 32 := by omega
    simp [hlt, hb, hsub]

end Bytes
