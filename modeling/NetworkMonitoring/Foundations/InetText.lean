import Mathlib.Data.Fin.VecNotation
import Mathlib.Tactic.FinCases
import NetworkMonitoring.Foundations.CText

/-!
# Dotted-quad IPv4 addresses

`inet_ntoa` and the `AF_INET` half of `inet_pton`. An address is its four bytes in network order.
The reader accepts four numerals of one to three digits, each at most 255 and without a leading
zero, separated by dots; on the texts it accepts it is the inverse of the writer in both
directions (`inetPton_inetNtoa`, `inetNtoa_of_inetPton`).
-/

namespace InetText

open CText

/-- `struct in_addr`: the four bytes of an IPv4 address in network order. -/
abbrev InAddr := Fin 4 → UInt8

/-- An IPv4 address fits into the space of an IPv6 address. -/
theorem InAddr.size_le : 4 ≤ 16 := by decide

/-- `inet_ntoa`. -/
def inetNtoa (a : InAddr) : Text :=
  digitText (a 0).toNat ++ 46 :: (digitText (a 1).toNat ++ 46 :: (digitText (a 2).toNat ++
    46 :: digitText (a 3).toNat))

/-- One numeral of a dotted quad. -/
def octet (s : Text) : Option UInt8 :=
  if 1 ≤ s.length ∧ s.length ≤ 3 ∧ s.all isDigit ∧ (s = [48] ∨ s.head? ≠ some 48) ∧
      digitsValue s ≤ 255 then
    some (UInt8.ofNat (digitsValue s))
  else
    none

/-- `inet_pton (AF_INET, s, ..)`; `none` where it returns `0` and writes nothing. -/
def inetPton (s : Text) : Option InAddr := do
  let (a, s) ← cut 46 s
  let (b, s) ← cut 46 s
  let (c, d) ← cut 46 s
  return ![← octet a, ← octet b, ← octet c, ← octet d]

/-- The reader accepts the numeral of every byte. -/
theorem octet_digitText (b : UInt8) : octet (digitText b.toNat) = some b := by
  have hlen : 1 ≤ (digitText b.toNat).length :=
    List.length_pos_iff.mpr (digitText_ne_nil b.toNat)
  have hthree : (digitText b.toNat).length ≤ 3 :=
    (length_digitText_le_iff (by norm_num)).mpr (by have := b.toNat_lt; omega)
  have hdigits : (digitText b.toNat).all isDigit = true :=
    List.all_eq_true.mpr fun c hc => isDigit_of_mem_digitText hc
  have hb : b.toNat ≤ 255 := by have := b.toNat_lt; omega
  rw [octet, if_pos ⟨hlen, hthree, hdigits, digitText_head b.toNat, by simpa using hb⟩,
    digitsValue_digitText, UInt8.ofNat_toNat]

/-- A text the reader accepts is the numeral of the byte it returns. -/
theorem digitText_of_octet {s : Text} {b : UInt8} (h : octet s = some b) :
    digitText b.toNat = s := by
  rw [octet] at h
  split at h
  · rename_i hs
    obtain ⟨hlen, -, hdigits, hzero, hval⟩ := hs
    obtain rfl : UInt8.ofNat (digitsValue s) = b := by simpa using h
    have hmod : (UInt8.ofNat (digitsValue s)).toNat = digitsValue s := by
      simp only [UInt8.toNat_ofNat']
      omega
    rw [hmod]
    exact digitText_digitsValue (fun c hc => List.all_eq_true.mp hdigits c hc)
      (List.length_pos_iff.mp hlen) hzero
  · cases h

/-- `inet_pton` reads back what `inet_ntoa` writes. -/
@[simp]
theorem inetPton_inetNtoa (a : InAddr) : inetPton (inetNtoa a) = some a := by
  have hdot : ∀ n, (46 : UInt8) ∉ digitText n := not_mem_digitText (by decide)
  have ha : ![a 0, a 1, a 2, a 3] = a := by
    ext i
    fin_cases i <;> rfl
  simp [inetPton, inetNtoa, cut_append (hdot _), octet_digitText, ha]

/-- A text `inet_pton` accepts is the canonical text of the address. -/
theorem inetNtoa_of_inetPton {s : Text} {a : InAddr} (h : inetPton s = some a) :
    inetNtoa a = s := by
  simp only [inetPton, Option.bind_eq_bind, Option.bind_eq_some_iff, Option.pure_def,
    Option.some.injEq] at h
  obtain ⟨⟨t₀, s₀⟩, h₀, ⟨t₁, s₁⟩, h₁, ⟨t₂, t₃⟩, h₂, b₀, o₀, b₁, o₁, b₂, o₂, b₃, o₃, rfl⟩ := h
  obtain ⟨rfl, -⟩ := cut_eq_some h₀
  obtain ⟨rfl, -⟩ := cut_eq_some h₁
  obtain ⟨rfl, -⟩ := cut_eq_some h₂
  simp [inetNtoa, digitText_of_octet o₀, digitText_of_octet o₁, digitText_of_octet o₂,
    digitText_of_octet o₃]

/-- The text of an address has at most fifteen characters. -/
theorem length_inetNtoa_le (a : InAddr) : (inetNtoa a).length ≤ 15 := by
  have hthree : ∀ b : UInt8, (digitText b.toNat).length ≤ 3 := fun b =>
    (length_digitText_le_iff (by norm_num)).mpr (by have := b.toNat_lt; omega)
  have h₀ := hthree (a 0)
  have h₁ := hthree (a 1)
  have h₂ := hthree (a 2)
  have h₃ := hthree (a 3)
  simp only [inetNtoa, List.length_append, List.length_cons]
  omega

theorem inetNtoa_ne_nil (a : InAddr) : inetNtoa a ≠ [] := by
  simp [inetNtoa, digitText_ne_nil]

/-- A character that is neither a digit nor a dot occurs in no address. -/
theorem not_mem_inetNtoa {c : UInt8} (hc : isDigit c = false) (hdot : c ≠ 46) (a : InAddr) :
    c ∉ inetNtoa a := by
  simp [inetNtoa, not_mem_digitText hc, hdot]

end InetText
