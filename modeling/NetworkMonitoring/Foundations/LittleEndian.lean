import Mathlib.Data.Nat.ModEq
import Mathlib.Data.List.OfFn
import Mathlib.Tactic.Ring
import Mathlib.Tactic.NormNum

/-!
# Little-endian memory words

A machine word in memory is the list of its bytes, least significant first. This module relates
that list to the number it holds, reverses it (what `htonl` does on a little-endian host), and
reads fixed-width fields off the front of a byte string.

* `leBytes w n` and `leNat` are inverse on `w`-byte words (`leNat_leBytes`, `leBytes_leNat`).
* `swapBytes w` reverses the bytes of a word and is an involution below `256 ^ w`
  (`swapBytes_swapBytes`); `htons`, `htonl` and `htonll` are its three instances.
* `le16` and `le32` store a word, `read16`, `read32` and `readOctets` consume one from
  the front of a byte string; the `run_read…` lemmas say that reading what was stored gives it
  back together with the rest.
* `drop_flatMap` finds the `i`-th of a row of structures of one size.
-/

namespace Bytes

/-! ## Words as byte lists -/

/-- The `w` little-endian bytes of `n`; what does not fit in `w` bytes is dropped. -/
def leBytes : ℕ → ℕ → List UInt8
  | 0, _ => []
  | w + 1, n => UInt8.ofNat n :: leBytes w (n / 256)

/-- The number held by a little-endian byte list. -/
def leNat : List UInt8 → ℕ
  | [] => 0
  | b :: bs => b.toNat + 256 * leNat bs

/-- `w` bytes of a number are `w` bytes. -/
@[simp]
theorem length_leBytes (w n : ℕ) : (leBytes w n).length = w := by
  induction w generalizing n with
  | zero => rfl
  | succ w ih => simp [leBytes, ih]

/-- A byte list holds a number below `256` to its length. -/
theorem leNat_lt (bs : List UInt8) : leNat bs < 256 ^ bs.length := by
  induction bs with
  | nil => simp [leNat]
  | cons b bs ih =>
    have hb : b.toNat < 256 := b.toNat_lt
    rw [leNat, List.length_cons, pow_succ]
    omega

/-- Storing `n` in `w` bytes and loading it back keeps `n` modulo `256 ^ w`. -/
theorem leNat_leBytes_mod (w n : ℕ) : leNat (leBytes w n) = n % 256 ^ w := by
  induction w generalizing n with
  | zero => simp [leBytes, leNat, Nat.mod_one]
  | succ w ih =>
    have hb : (UInt8.ofNat n).toNat = n % 256 := by simp
    rw [leBytes, leNat, hb, ih, pow_succ', Nat.mod_mul]

/-- A number that fits in `w` bytes survives being stored. -/
theorem leNat_leBytes {w n : ℕ} (h : n < 256 ^ w) : leNat (leBytes w n) = n := by
  rw [leNat_leBytes_mod, Nat.mod_eq_of_lt h]

/-- Loading a byte list and storing the number again gives the list back. -/
theorem leBytes_leNat (bs : List UInt8) : leBytes bs.length (leNat bs) = bs := by
  induction bs with
  | nil => rfl
  | cons b bs ih =>
    have hb : b.toNat < 256 := b.toNat_lt
    have hdiv : (b.toNat + 256 * leNat bs) / 256 = leNat bs := by omega
    have hmod : UInt8.ofNat (b.toNat + 256 * leNat bs) = b := by
      apply UInt8.toNat_inj.mp
      simp only [UInt8.toNat_ofNat']
      omega
    rw [List.length_cons, leNat, leBytes, hdiv, hmod, ih]

/-- Bytes are those of the number that they spell. -/
theorem leBytes_leNat_of_length {w : ℕ} {bs : List UInt8} (h : bs.length = w) :
    leBytes w (leNat bs) = bs := by
  subst h
  exact leBytes_leNat bs

/-- A second part of the bytes weighs 256 to the power of the length of the first. -/
theorem leNat_append (a b : List UInt8) :
    leNat (a ++ b) = leNat a + 256 ^ a.length * leNat b := by
  induction a with
  | nil => simp [leNat]
  | cons x xs ih =>
    rw [List.cons_append, leNat, ih, leNat, List.length_cons, pow_succ]
    ring

/-- A number that fits in `w` bytes is determined by them. -/
theorem leBytes_inj {w m n : ℕ} (hm : m < 256 ^ w) (hn : n < 256 ^ w) :
    leBytes w m = leBytes w n ↔ m = n := by
  refine ⟨fun h => ?_, congrArg (leBytes w)⟩
  rw [← leNat_leBytes hm, h, leNat_leBytes hn]

/-- The first bytes of a byte string are those of a number. -/
theorem exists_leBytes {w n : ℕ} {bs : List UInt8} (h : bs.length = n + w) :
    ∃ v < 256 ^ w, ∃ rest, bs = leBytes w v ++ rest ∧ rest.length = n := by
  have htake : (bs.take w).length = w := by
    rw [List.length_take]
    omega
  refine ⟨leNat (bs.take w), ?_, bs.drop w, ?_, ?_⟩
  · exact (leNat_lt _).trans_eq (by rw [htake])
  · rw [leBytes_leNat_of_length htake, List.take_append_drop]
  · rw [List.length_drop]
    omega

/-- The bytes of a number at the front of others. -/
theorem take_leBytes_append (w n : ℕ) (bs : List UInt8) :
    (leBytes w n ++ bs).take w = leBytes w n := List.take_left' (length_leBytes w n)

/-- What is behind the bytes of a number. -/
theorem drop_leBytes_append (w n : ℕ) (bs : List UInt8) :
    (leBytes w n ++ bs).drop w = bs := List.drop_left' (length_leBytes w n)

/-! ## Byte order -/

/-- The `w`-byte word whose bytes are those of `n` in the opposite order. -/
def swapBytes (w n : ℕ) : ℕ := leNat (leBytes w n).reverse

/-- Swapped bytes are still `w` bytes. -/
theorem swapBytes_lt (w n : ℕ) : swapBytes w n < 256 ^ w := by
  simpa [swapBytes] using leNat_lt (leBytes w n).reverse

/-- The bytes of a swapped word are the bytes of the word, reversed. -/
theorem leBytes_swapBytes (w n : ℕ) : leBytes w (swapBytes w n) = (leBytes w n).reverse := by
  simpa [swapBytes] using leBytes_leNat (leBytes w n).reverse

/-- Swapping the bytes twice gives the word back. -/
theorem swapBytes_swapBytes {w n : ℕ} (h : n < 256 ^ w) : swapBytes w (swapBytes w n) = n := by
  rw [swapBytes, leBytes_swapBytes, List.reverse_reverse, leNat_leBytes h]

/-- `htons` and `ntohs` of a little-endian host. -/
def htons (v : UInt16) : UInt16 := UInt16.ofNat (swapBytes 2 v.toNat)

/-- `htonl` and `ntohl` of a little-endian host. -/
def htonl (v : UInt32) : UInt32 := UInt32.ofNat (swapBytes 4 v.toNat)

/-- The 64-bit counterpart of `htonl`. -/
def htonll (v : UInt64) : UInt64 := UInt64.ofNat (swapBytes 8 v.toNat)

/-- `htons` swaps two bytes. -/
theorem toNat_htons (v : UInt16) : (htons v).toNat = swapBytes 2 v.toNat := by
  have := swapBytes_lt 2 v.toNat
  simp only [htons, UInt16.toNat_ofNat']
  omega

/-- `htonl` swaps four bytes. -/
theorem toNat_htonl (v : UInt32) : (htonl v).toNat = swapBytes 4 v.toNat := by
  have := swapBytes_lt 4 v.toNat
  simp only [htonl, UInt32.toNat_ofNat']
  omega

/-- `htonll` swaps eight bytes. -/
theorem toNat_htonll (v : UInt64) : (htonll v).toNat = swapBytes 8 v.toNat := by
  have := swapBytes_lt 8 v.toNat
  simp only [htonll, UInt64.toNat_ofNat']
  omega

/-- `htons` undoes itself, so it is `ntohs` too. -/
@[simp]
theorem htons_htons (v : UInt16) : htons (htons v) = v := by
  apply UInt16.toNat_inj.mp
  rw [toNat_htons, toNat_htons, swapBytes_swapBytes (by simpa using v.toNat_lt)]

/-- `htonl` undoes itself. -/
@[simp]
theorem htonl_htonl (v : UInt32) : htonl (htonl v) = v := by
  apply UInt32.toNat_inj.mp
  rw [toNat_htonl, toNat_htonl, swapBytes_swapBytes (by simpa using v.toNat_lt)]

/-- `htonll` undoes itself. -/
@[simp]
theorem htonll_htonll (v : UInt64) : htonll (htonll v) = v := by
  apply UInt64.toNat_inj.mp
  rw [toNat_htonll, toNat_htonll, swapBytes_swapBytes (by simpa using v.toNat_lt)]

/-- A 16-bit word is its own `htons` exactly when its two bytes are equal. -/
theorem htons_eq_self_iff (v : UInt16) : htons v = v ↔ v.toNat % 256 = v.toNat / 256 := by
  have hv : v.toNat < 65536 := v.toNat_lt
  rw [← UInt16.toNat_inj, toNat_htons]
  simp only [swapBytes, leBytes, leNat, List.reverse_cons, List.reverse_nil, List.nil_append,
    List.cons_append, UInt8.toNat_ofNat']
  omega

/-! ## Storing and reading fields -/

/-- The two bytes of a 16-bit word in memory. -/
def le16 (v : UInt16) : List UInt8 := leBytes 2 v.toNat

/-- The four bytes of a 32-bit word in memory. -/
def le32 (v : UInt32) : List UInt8 := leBytes 4 v.toNat

/-- The eight bytes of a 64-bit word in memory. -/
def le64 (v : UInt64) : List UInt8 := leBytes 8 v.toNat

/-- A 16-bit number has two bytes. -/
@[simp]
theorem length_le16 (v : UInt16) : (le16 v).length = 2 := by simp [le16]

/-- A 32-bit number has four bytes. -/
@[simp]
theorem length_le32 (v : UInt32) : (le32 v).length = 4 := by simp [le32]

/-- A 64-bit number has eight bytes. -/
@[simp]
theorem length_le64 (v : UInt64) : (le64 v).length = 8 := by simp [le64]

/-- The first bytes of a byte string are those of a word. -/
theorem exists_le16 {n : ℕ} {bs : List UInt8} (h : bs.length = n + 2) :
    ∃ v rest, bs = le16 v ++ rest ∧ rest.length = n := by
  obtain ⟨v, hv, rest, rfl, hrest⟩ := exists_leBytes h
  refine ⟨UInt16.ofNat v, rest, ?_, hrest⟩
  rw [le16, UInt16.toNat_ofNat', Nat.mod_eq_of_lt (by simpa using hv)]

/-- The first four bytes are those of a number. -/
theorem exists_le32 {n : ℕ} {bs : List UInt8} (h : bs.length = n + 4) :
    ∃ v rest, bs = le32 v ++ rest ∧ rest.length = n := by
  obtain ⟨v, hv, rest, rfl, hrest⟩ := exists_leBytes h
  refine ⟨UInt32.ofNat v, rest, ?_, hrest⟩
  rw [le32, UInt32.toNat_ofNat', Nat.mod_eq_of_lt (by simpa using hv)]

/-- The first eight bytes are those of a number. -/
theorem exists_le64 {n : ℕ} {bs : List UInt8} (h : bs.length = n + 8) :
    ∃ v rest, bs = le64 v ++ rest ∧ rest.length = n := by
  obtain ⟨v, hv, rest, rfl, hrest⟩ := exists_leBytes h
  refine ⟨UInt64.ofNat v, rest, ?_, hrest⟩
  rw [le64, UInt64.toNat_ofNat', Nat.mod_eq_of_lt (by simpa using hv)]

/-- The first byte of a byte string. -/
theorem exists_byte {n : ℕ} {bs : List UInt8} (h : bs.length = n + 1) :
    ∃ b rest, bs = b :: rest ∧ rest.length = n := by
  cases bs with
  | nil => exact absurd h (Nat.succ_ne_zero n).symm
  | cons b rest => exact ⟨b, rest, rfl, Nat.succ.inj h⟩

/-- A word is determined by its bytes. -/
theorem le16_inj {v w : UInt16} : le16 v = le16 w ↔ v = w := by
  rw [le16, le16, leBytes_inj (by simpa using v.toNat_lt) (by simpa using w.toNat_lt),
    UInt16.toNat_inj]

/-- Different numbers have different bytes. -/
theorem le32_inj {v w : UInt32} : le32 v = le32 w ↔ v = w := by
  rw [le32, le32, leBytes_inj (by simpa using v.toNat_lt) (by simpa using w.toNat_lt),
    UInt32.toNat_inj]

/-- Different numbers have different bytes. -/
theorem le64_inj {v w : UInt64} : le64 v = le64 w ↔ v = w := by
  rw [le64, le64, leBytes_inj (by simpa using v.toNat_lt) (by simpa using w.toNat_lt),
    UInt64.toNat_inj]

/-- Two bytes at the front and what is behind them are determined. -/
theorem le16_append_inj {v w : UInt16} {bs cs : List UInt8} :
    le16 v ++ bs = le16 w ++ cs ↔ v = w ∧ bs = cs := by
  rw [List.append_eq_append_iff_of_size_eq_left (by simp), le16_inj]

/-- Four bytes at the front and what is behind them are determined. -/
theorem le32_append_inj {v w : UInt32} {bs cs : List UInt8} :
    le32 v ++ bs = le32 w ++ cs ↔ v = w ∧ bs = cs := by
  rw [List.append_eq_append_iff_of_size_eq_left (by simp), le32_inj]

/-- Consume one byte. -/
def read8 : StateM (List UInt8) UInt8 := fun bs => (bs.headD 0, bs.drop 1)

/-- Consume the two bytes of a 16-bit word. -/
def read16 : StateM (List UInt8) UInt16 :=
  fun bs => (UInt16.ofNat (leNat (bs.take 2)), bs.drop 2)

/-- Consume the four bytes of a 32-bit word. -/
def read32 : StateM (List UInt8) UInt32 :=
  fun bs => (UInt32.ofNat (leNat (bs.take 4)), bs.drop 4)

/-- Consume the eight bytes of a 64-bit word. -/
def read64 : StateM (List UInt8) UInt64 :=
  fun bs => (UInt64.ofNat (leNat (bs.take 8)), bs.drop 8)

/-- Consume an array of `n` bytes. -/
def readOctets (n : ℕ) : StateM (List UInt8) (Fin n → UInt8) :=
  fun bs => (fun i => bs.getD i 0, bs.drop n)

/-- One byte is read. -/
@[simp]
theorem run_read8 (b : UInt8) (bs : List UInt8) : read8.run (b :: bs) = pure (b, bs) := rfl

/-- A 16-bit number is read back, and the bytes behind it are left. -/
@[simp]
theorem run_read16 (v : UInt16) (bs : List UInt8) : read16.run (le16 v ++ bs) = pure (v, bs) := by
  change (UInt16.ofNat (leNat ((leBytes 2 v.toNat ++ bs).take 2)),
    (leBytes 2 v.toNat ++ bs).drop 2) = _
  rw [take_leBytes_append, drop_leBytes_append, leNat_leBytes (by simpa using v.toNat_lt),
    UInt16.ofNat_toNat]
  rfl

/-- A 32-bit number is read back, and the bytes behind it are left. -/
@[simp]
theorem run_read32 (v : UInt32) (bs : List UInt8) : read32.run (le32 v ++ bs) = pure (v, bs) := by
  change (UInt32.ofNat (leNat ((leBytes 4 v.toNat ++ bs).take 4)),
    (leBytes 4 v.toNat ++ bs).drop 4) = _
  rw [take_leBytes_append, drop_leBytes_append, leNat_leBytes (by simpa using v.toNat_lt),
    UInt32.ofNat_toNat]
  rfl

/-- A 64-bit number is read back, and the bytes behind it are left. -/
@[simp]
theorem run_read64 (v : UInt64) (bs : List UInt8) : read64.run (le64 v ++ bs) = pure (v, bs) := by
  change (UInt64.ofNat (leNat ((leBytes 8 v.toNat ++ bs).take 8)),
    (leBytes 8 v.toNat ++ bs).drop 8) = _
  rw [take_leBytes_append, drop_leBytes_append, leNat_leBytes (by simpa using v.toNat_lt),
    UInt64.ofNat_toNat]
  rfl

/-- An array of bytes is read back, and the bytes behind it are left. -/
@[simp]
theorem run_readOctets {n : ℕ} (a : Fin n → UInt8) (bs : List UInt8) :
    (readOctets n).run (List.ofFn a ++ bs) = pure (a, bs) := by
  have hdrop : (List.ofFn a ++ bs).drop n = bs := List.drop_left' (List.length_ofFn)
  change ((fun i : Fin n => (List.ofFn a ++ bs).getD i 0), (List.ofFn a ++ bs).drop n) = (a, bs)
  rw [hdrop]
  refine Prod.ext (funext fun i => ?_) rfl
  simp [List.getD_eq_getElem?_getD, List.getElem?_append]

/-- The `i`-th of a row of structures of `w` bytes starts at offset `i * w`. -/
theorem drop_flatMap {α : Type*} {f : α → List UInt8} {w : ℕ} (hf : ∀ x, (f x).length = w)
    (xs : List α) (i : ℕ) : (xs.flatMap f).drop (i * w) = (xs.drop i).flatMap f := by
  induction i generalizing xs with
  | zero => simp
  | succ i ih =>
    cases xs with
    | nil => simp
    | cons x xs =>
      rw [List.flatMap_cons, Nat.succ_mul, Nat.add_comm, ← List.drop_drop, ← hf x,
        List.drop_left, hf x, ih, List.drop_succ_cons]

/-- The length of records of one size. -/
theorem length_flatMap_const {α : Type*} {f : α → List UInt8} {w : ℕ}
    (hf : ∀ x, (f x).length = w) (xs : List α) : (xs.flatMap f).length = xs.length * w := by
  induction xs with
  | nil => simp
  | cons x xs ih =>
    rw [List.flatMap_cons, List.length_append, hf, ih, List.length_cons, Nat.succ_mul, Nat.add_comm]

/-! ## Memory behind a pointer -/

/-- The bytes from a pointer on, also those past the end of the object it points to. -/
abbrev Mem := ℕ → UInt8

/-- The 16-bit word at an offset. -/
def Mem.u16 (m : Mem) (off : ℕ) : UInt16 := UInt16.ofNat (leNat [m off, m (off + 1)])

/-- The 32-bit word at an offset. -/
def Mem.u32 (m : Mem) (off : ℕ) : UInt32 :=
  UInt32.ofNat (leNat [m off, m (off + 1), m (off + 2), m (off + 3)])

/-- The array of `n` bytes at an offset. -/
def Mem.octets (m : Mem) (off n : ℕ) : Fin n → UInt8 := fun i => m (off + i)

end Bytes
