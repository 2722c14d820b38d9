import NetworkMonitoring.Foundations.LittleEndian

/-!
# Writing into a byte buffer

A buffer is the list of its bytes. `poke` overwrites a piece of it, as `memcpy` and an assignment
through a structure pointer do, and `peek16` loads a 16-bit word. Where the buffer is known as a
concatenation of pieces, `poke_append` and `peek16_append` say which piece is concerned.

`memcpy` writes behind a pointer without regard to where the buffer ends; what is written piece
after piece is written at once (`memcpy_memcpy`).
-/

namespace ByteBuffer

open Bytes

/-- Overwrite the bytes from offset `off` on with `bs`. -/
def poke (buf : List UInt8) (off : ℕ) (bs : List UInt8) : List UInt8 :=
  buf.take off ++ (bs ++ buf.drop (off + bs.length))

/-- The 16-bit word at offset `off`. -/
def peek16 (buf : List UInt8) (off : ℕ) : UInt16 :=
  UInt16.ofNat (leNat ((buf.drop off).take 2))

/-- Writing inside the buffer does not change its size. -/
theorem length_poke {buf : List UInt8} {off : ℕ} {bs : List UInt8}
    (h : off + bs.length ≤ buf.length) : (poke buf off bs).length = buf.length := by
  simp only [poke, List.length_append, List.length_take, List.length_drop]
  omega

/-- Overwriting a piece of the buffer with one of the same size. -/
theorem poke_append {a x c bs : List UInt8} {off : ℕ} (hoff : off = a.length)
    (hlen : bs.length = x.length) : poke (a ++ (x ++ c)) off bs = a ++ (bs ++ c) := by
  subst hoff
  rw [poke, List.take_left, ← List.drop_drop, List.drop_left, hlen, List.drop_left]

/-- Overwriting the start of what is left of the buffer. -/
theorem poke_append_left {a c bs : List UInt8} {off : ℕ} (hoff : off = a.length) :
    poke (a ++ c) off bs = a ++ (bs ++ c.drop bs.length) := by
  subst hoff
  rw [poke, List.take_left, ← List.drop_drop, List.drop_left]

/-- Loading a stored word. -/
theorem peek16_append {a c : List UInt8} {v : UInt16} {off : ℕ} (hoff : off = a.length) :
    peek16 (a ++ (le16 v ++ c)) off = v := by
  have hv : leNat (leBytes 2 v.toNat) = v.toNat := leNat_leBytes (by simpa using v.toNat_lt)
  subst hoff
  rw [peek16, List.drop_left, List.take_left' (length_le16 v), le16, hv, UInt16.ofNat_toNat]

/-! ## Writing behind a pointer -/

/-- `memcpy` to the bytes from an offset on. -/
def memcpy (m : Mem) (off : ℕ) (bs : List UInt8) : Mem :=
  fun i => if off ≤ i ∧ i < off + bs.length then bs.getD (i - off) 0 else m i

@[simp]
theorem memcpy_nil (m : Mem) (off : ℕ) : memcpy m off [] = m := by
  ext i
  rw [memcpy, if_neg]
  rw [List.length_nil]
  omega

/-- A piece that follows another one. -/
theorem memcpy_memcpy (m : Mem) (off : ℕ) (a b : List UInt8) :
    memcpy (memcpy m off a) (off + a.length) b = memcpy m off (a ++ b) := by
  ext i
  rw [memcpy, memcpy, memcpy, List.length_append, List.getD_eq_getElem?_getD,
    List.getD_eq_getElem?_getD, List.getD_eq_getElem?_getD]
  by_cases hb : off + a.length ≤ i ∧ i < off + a.length + b.length
  · have hsub : i - off - a.length = i - (off + a.length) := by omega
    rw [if_pos hb, if_pos (by omega), List.getElem?_append_right (by omega), hsub]
  · rw [if_neg hb]
    by_cases ha : off ≤ i ∧ i < off + a.length
    · rw [if_pos ha, if_pos (by omega), List.getElem?_append_left (by omega)]
    · rw [if_neg ha, if_neg (by omega)]

end ByteBuffer
