import NetworkMonitoring.Flowd.Addr
import NetworkMonitoring.Foundations.NetworkBits

/-!
# flowd — networks as address prefixes

The functions of `addr.c` that split an address into its network and host parts. `addr_netmask`
builds the mask from whole words and one shifted word, for one word (IPv4) or four (IPv6); here the
mask is the address whose first `masklen` bits are set (`addrNetmask_bits`), the masked address has
the first bits of the address (`addrHostToAll0s_bits`), and `addr_netmatch` compares the first bits
of two addresses (`addrNetmatch_eq_zero_iff`).

Addresses are compared bit by bit, in network order. An IPv4 address has 32 bits, the first ones of
the address union; what stands behind them is left alone.
-/

namespace Flowd

open Bytes

/-- `addr_invert`. -/
def addrInvert (n : Xaddr) : Option Xaddr :=
  if n.af = afInet then
    some { n with addr8 := fun i => if i.val < 4 then ~~~n.addr8 i else n.addr8 i }
  else if n.af = afInet6 then some { n with addr8 := fun i => ~~~n.addr8 i }
  else none

/-- `addr_hostmask`. -/
def addrHostmask (af : UInt16) (l : ℕ) : Option Xaddr :=
  match addrNetmask af l with
  | none => none
  | some n => addrInvert n

/-- `addr_is_all0s`. -/
def addrIsAll0s (a : Xaddr) : ℤ :=
  if a.af = afInet then if ∀ i, a.v4 i = 0 then 0 else -1
  -- a word is zero when its bytes are
  else if a.af = afInet6 then if ∀ i, a.addr8 i = 0 then 0 else -1
  else -1

/-- `addr_host_is_all0s`. -/
def addrHostIsAll0s (a : Xaddr) (masklen : ℕ) : ℤ :=
  match addrHostmask a.af masklen with
  | none => -1
  | some tmpMask =>
    match addrAnd a tmpMask with
    | none => -1
    | some tmpResult => addrIsAll0s tmpResult

/-- `addr_host_to_all0s`. -/
def addrHostToAll0s (a : Xaddr) (masklen : ℕ) : Option Xaddr :=
  match addrNetmask a.af masklen with
  | none => none
  | some tmpMask => addrAnd a tmpMask

/-! ## The bits of an address -/

namespace Xaddr

/-- The bit `i` of an address, the first one sent being bit 0. -/
def bit (a : Xaddr) (i : ℕ) : Bool := netBit a.addr8 i

/-- The number of bits of an address of the family. -/
def width (a : Xaddr) : ℕ := if a.af = afInet then 32 else 128

theorem width_le (a : Xaddr) : a.width ≤ 128 := by
  rw [width]
  split_ifs <;> omega

theorem width_congr {a b : Xaddr} (h : a.af = b.af) : a.width = b.width := by
  rw [width, width, h]

theorem Valid.of_af {a b : Xaddr} (ha : a.Valid) (h : b.af = a.af) : b.Valid := by
  rwa [Valid, h]

theorem bit_eq (a : Xaddr) {i : ℕ} (hi : i < 128) :
    a.bit i = bitAt (a.addr8 ⟨i / 8, by omega⟩) (i % 8) :=
  netBit_eq a.addr8 (by omega)

/-- The bits of an IPv4 address are those of its four bytes. -/
theorem v4_eq_iff {a b : Xaddr} : a.v4 = b.v4 ↔ ∀ i < 32, a.bit i = b.bit i := by
  have hbit : ∀ (x : Xaddr), ∀ i < 32, x.bit i = netBit x.v4 i := by
    intro x i hi
    rw [bit_eq x (by omega), netBit_eq x.v4 (by omega)]
    rfl
  constructor
  · intro h i hi
    rw [hbit a i hi, hbit b i hi, h]
  · intro h
    apply eq_of_netBit
    intro i hi
    rw [← hbit a i hi, ← hbit b i hi]
    exact h i hi

/-- The bits of an IPv6 address are all the bits of the union. -/
theorem addr8_eq_iff {a b : Xaddr} : a.addr8 = b.addr8 ↔ ∀ i < 128, a.bit i = b.bit i := by
  constructor
  · intro h i _
    rw [bit, bit, h]
  · intro h
    exact eq_of_netBit h

/-- The address that `memset` leaves has no bit set. -/
theorem bit_default (i : ℕ) : ({} : Xaddr).bit i = false := by
  rw [bit, netBit]
  split_ifs
  · exact bitAt_zero _
  · rfl

end Xaddr

/-! ## The mask -/

/-- An address is the mask of length `l` when each of its words holds its share of the mask. -/
theorem netBit_octetsOfWords {words : ℕ → UInt32} {l : ℕ}
    (h : ∀ q < 4, ∃ w, words q = htonl w ∧ ∀ b < 32, w.toBitVec.getMsbD b = decide (32 * q + b < l))
    {i : ℕ} (hi : i < 128) : netBit (octetsOfWords words) i = decide (i < l) := by
  obtain ⟨w, hw, hbits⟩ := h (i / 32) (by omega)
  have hq : i / 8 / 4 = i / 32 := by omega
  have hb : 8 * (i / 8 % 4) + i % 8 = i % 32 := by omega
  have hi' : 32 * (i / 32) + i % 32 = i := by omega
  rw [netBit_eq _ (by omega), octetsOfWords]
  dsimp only
  rw [hq, hw, bitAt_le32_htonl _ (by omega) (by omega), hb, hbits _ (by omega), hi']

/-- A word all of whose bits are below `l`. -/
theorem full_word {q l : ℕ} (h : 32 * (q + 1) ≤ l) :
    ∃ w, 0xffffffff = htonl w ∧ ∀ b < 32, w.toBitVec.getMsbD b = decide (32 * q + b < l) := by
  refine ⟨0xffffffff, htonl_ones.symm, ?_⟩
  intro b hb
  have hlt : 32 * q + b < l := by omega
  have hones : (0xffffffff : UInt32).toBitVec = BitVec.allOnes 32 := by decide
  rw [hones, BitVec.getMsbD_allOnes, decide_eq_true hb, decide_eq_true hlt]

/-- The word in which the mask ends. -/
theorem last_word {q l : ℕ} (h : l - 32 * q < 32) (hle : 32 * q ≤ l) :
    ∃ w, htonl (lowMask (l - 32 * q)) = htonl w ∧
      ∀ b < 32, w.toBitVec.getMsbD b = decide (32 * q + b < l) := by
  refine ⟨_, rfl, ?_⟩
  intro b hb
  rw [getMsbD_lowMask h hb, decide_eq_decide]
  omega

/-- A word behind the mask. -/
theorem empty_word {q l : ℕ} (h : l ≤ 32 * q) :
    ∃ w, 0 = htonl w ∧ ∀ b < 32, w.toBitVec.getMsbD b = decide (32 * q + b < l) := by
  refine ⟨0, htonl_zero.symm, ?_⟩
  intro b hb
  have hge : ¬ 32 * q + b < l := by omega
  simp [hge]

/-- `addr_netmask` sets the first `l` bits. -/
theorem addrNetmask_bits {a : Xaddr} (ha : a.Valid) {l : ℕ} (hl : l ≤ a.width) :
    ∃ m, addrNetmask a.af l = some m ∧ m.af = a.af ∧ ∀ i < 128, m.bit i = decide (i < l) := by
  rw [addrNetmask]
  rcases ha with haf | haf
  · have hl' : l ≤ 32 := by rwa [Xaddr.width, if_pos haf] at hl
    rw [if_pos haf, if_pos hl']
    refine ⟨_, rfl, haf.symm, fun i hi => netBit_octetsOfWords ?_ hi⟩
    intro q hq
    by_cases hq0 : q = 0
    · subst hq0
      rw [if_pos rfl]
      -- the full word has its own branch: a shift by the width of the word has no effect
      by_cases hfull : l = 32
      · rw [if_pos hfull]
        exact full_word (by omega)
      · rw [if_neg hfull]
        exact last_word (q := 0) (by omega) (by omega)
    · rw [if_neg hq0]
      exact empty_word (by omega)
  · have hne : ¬ a.af = afInet := by rw [haf]; decide
    have hl' : l ≤ 128 := by rwa [Xaddr.width, if_neg hne] at hl
    rw [if_neg hne, if_pos haf, if_pos hl']
    refine ⟨_, rfl, haf.symm, fun i hi => netBit_octetsOfWords ?_ hi⟩
    intro q hq
    by_cases hfull : 32 * (q + 1) ≤ l
    · rw [if_pos hfull]
      exact full_word hfull
    rw [if_neg hfull]
    by_cases hlast : 32 * q < l
    · rw [if_pos hlast]
      exact last_word (by omega) (by omega)
    · rw [if_neg hlast]
      exact empty_word (by omega)

/-- `addr_invert` flips the bits of the family. -/
theorem addrInvert_bits {a : Xaddr} (ha : a.Valid) :
    ∃ n, addrInvert a = some n ∧ n.af = a.af ∧ ∀ i < a.width, n.bit i = !a.bit i := by
  rw [addrInvert]
  rcases ha with haf | haf
  · rw [if_pos haf]
    refine ⟨_, rfl, rfl, ?_⟩
    intro i hi
    rw [Xaddr.width, if_pos haf] at hi
    have hbyte : i / 8 < 4 := by omega
    rw [Xaddr.bit, Xaddr.bit, netBit_eq _ (by omega), netBit_eq _ (by omega)]
    dsimp only
    rw [if_pos hbyte, bitAt_not _ (by omega)]
  · have hne : ¬ a.af = afInet := by rw [haf]; decide
    rw [if_neg hne, if_pos haf]
    refine ⟨_, rfl, rfl, ?_⟩
    intro i hi
    have hw := a.width_le
    rw [Xaddr.bit, Xaddr.bit, netBit_eq _ (by omega), netBit_eq _ (by omega), bitAt_not _ (by omega)]

/-- `addr_and` keeps the bits that the mask sets; an IPv4 mask leaves alone what stands behind the
address. -/
theorem addrAnd_bits {a m : Xaddr} (ha : a.Valid) (hm : m.af = a.af) :
    ∃ r, addrAnd a m = some r ∧ r.af = a.af ∧ r.scopeId = a.scopeId ∧
      (∀ i < a.width, r.bit i = (a.bit i && m.bit i)) ∧
      ∀ i, a.width ≤ i → r.bit i = a.bit i := by
  rw [addrAnd, if_neg (not_not.mpr hm.symm)]
  rcases ha with haf | haf
  · have hw : a.width = 32 := if_pos haf
    rw [if_pos haf, hw]
    refine ⟨_, rfl, rfl, rfl, ?_, ?_⟩
    -- only the first word of the union is assigned
    · intro i hi
      have hbyte : i / 8 < 4 := by omega
      rw [Xaddr.bit, Xaddr.bit, Xaddr.bit, netBit_eq _ (by omega), netBit_eq _ (by omega),
        netBit_eq _ (by omega)]
      dsimp only
      rw [if_pos hbyte, bitAt_and]
    · intro i hi
      have hbyte : ¬ i / 8 < 4 := by omega
      rw [Xaddr.bit, Xaddr.bit, netBit, netBit]
      simp only [hbyte, if_false]
  · have hne : ¬ a.af = afInet := by rw [haf]; decide
    have hw : a.width = 128 := if_neg hne
    rw [if_neg hne, if_pos haf, hw]
    refine ⟨_, rfl, rfl, rfl, ?_, ?_⟩
    · intro i hi
      rw [Xaddr.bit, Xaddr.bit, Xaddr.bit, netBit_eq _ (by omega), netBit_eq _ (by omega),
        netBit_eq _ (by omega), bitAt_and]
    · intro i hi
      have hout : ¬ i / 8 < 16 := by omega
      rw [Xaddr.bit, Xaddr.bit, netBit, netBit, dif_neg hout, dif_neg hout]

/-- `addr_is_all0s` asks for zero bits. -/
theorem addrIsAll0s_eq_zero_iff {a : Xaddr} (ha : a.Valid) :
    addrIsAll0s a = 0 ↔ ∀ i < a.width, a.bit i = false := by
  rw [addrIsAll0s]
  rcases ha with haf | haf
  · have hzero : (∀ i, a.v4 i = 0) ↔ ∀ i < 32, a.bit i = false := by
      have hv4 : (∀ i, a.v4 i = 0) ↔ a.v4 = ({} : Xaddr).v4 := funext_iff.symm
      rw [hv4, Xaddr.v4_eq_iff]
      simp only [Xaddr.bit_default]
    rw [if_pos haf, Xaddr.width, if_pos haf, ← hzero]
    split_ifs with h <;> simp [h]
  · have hne : ¬ a.af = afInet := by rw [haf]; decide
    have hzero : (∀ i, a.addr8 i = 0) ↔ ∀ i < 128, a.bit i = false := by
      have haddr8 : (∀ i, a.addr8 i = 0) ↔ a.addr8 = ({} : Xaddr).addr8 := funext_iff.symm
      rw [haddr8, Xaddr.addr8_eq_iff]
      simp only [Xaddr.bit_default]
    rw [if_neg hne, if_pos haf, Xaddr.width, if_neg hne, ← hzero]
    split_ifs with h <;> simp [h]

/-- `addr_cmp` finds no difference between addresses of one scope when they have the same bits. -/
theorem addrCmp_eq_zero_iff {a b : Xaddr} (ha : a.Valid) (hb : b.af = a.af)
    (hscope : b.scopeId = a.scopeId) : addrCmp a b = 0 ↔ ∀ i < a.width, a.bit i = b.bit i := by
  have hbv : b.Valid := ha.of_af hb
  rw [(addrCmp_eq ha hbv).1]
  rcases ha with haf | haf
  · have hbf : b.af = afInet := hb.trans haf
    rw [Xaddr.key_v4 haf, Xaddr.key_v4 hbf, Xaddr.hostOrder_inj, Xaddr.v4_eq_iff, Xaddr.width,
      if_pos haf]
  · have hbf : b.af = afInet6 := hb.trans haf
    have hne : ¬ a.af = afInet := by rw [haf]; decide
    rw [Xaddr.key_v6 haf, Xaddr.key_v6 hbf, hscope, Xaddr.width, if_neg hne, ← Xaddr.addr8_eq_iff]
    constructor
    · intro hkey
      apply List.ofFn_injective
      refine leNat_reverse_inj (by rw [List.length_ofFn, List.length_ofFn]) ?_
      omega
    · intro h
      rw [h]

/-! ## Networks -/

/-- `addr_host_to_all0s` keeps the first bits and clears the others. -/
theorem addrHostToAll0s_bits {a : Xaddr} (ha : a.Valid) {masklen : ℕ} (hlen : masklen ≤ a.width) :
    ∃ r, addrHostToAll0s a masklen = some r ∧ r.af = a.af ∧ r.scopeId = a.scopeId ∧
      (∀ i < a.width, r.bit i = (a.bit i && decide (i < masklen))) ∧
      ∀ i, a.width ≤ i → r.bit i = a.bit i := by
  obtain ⟨m, hm, hmaf, hmbits⟩ := addrNetmask_bits ha hlen
  obtain ⟨r, hr, hraf, hrscope, hrbits, hrest⟩ := addrAnd_bits ha hmaf
  refine ⟨r, by rw [addrHostToAll0s, hm]; exact hr, hraf, hrscope, ?_, hrest⟩
  intro i hi
  have hw := a.width_le
  rw [hrbits i hi, hmbits i (by omega)]

/-- Clearing the host part twice is clearing it once. -/
theorem addrHostToAll0s_idem {a r : Xaddr} (ha : a.Valid) {masklen : ℕ} (hlen : masklen ≤ a.width)
    (h : addrHostToAll0s a masklen = some r) : addrHostToAll0s r masklen = some r := by
  obtain ⟨r₁, hr₁, haf, hscope, hbits, hrest⟩ := addrHostToAll0s_bits ha hlen
  obtain rfl : r₁ = r := Option.some.inj (hr₁.symm.trans h)
  have hwidth : r₁.width = a.width := Xaddr.width_congr haf
  have hrv : r₁.Valid := ha.of_af haf
  obtain ⟨r₂, hr₂, haf', hscope', hbits', hrest'⟩ := addrHostToAll0s_bits hrv (hwidth ▸ hlen)
  rw [hwidth] at hbits' hrest'
  -- all bits of the union, with those behind an IPv4 address
  have haddr8 : r₂.addr8 = r₁.addr8 := by
    rw [Xaddr.addr8_eq_iff]
    intro i _
    rcases Nat.lt_or_ge i a.width with hi | hi
    · rw [hbits' i hi, hbits i hi, Bool.and_assoc, Bool.and_self]
    · exact hrest' i hi
  have heq : r₂ = r₁ := by
    cases r₁
    cases r₂
    obtain rfl := haf'
    obtain rfl := hscope'
    obtain rfl := haddr8
    rfl
  rw [hr₂, heq]

/-- `addr_host_is_all0s` looks at the bits behind the first ones. -/
theorem addrHostIsAll0s_eq_zero_iff {a : Xaddr} (ha : a.Valid) {masklen : ℕ}
    (hlen : masklen ≤ a.width) :
    addrHostIsAll0s a masklen = 0 ↔ ∀ i, masklen ≤ i → i < a.width → a.bit i = false := by
  have hw := a.width_le
  obtain ⟨m, hm, hmaf, hmbits⟩ := addrNetmask_bits ha hlen
  have hmv : m.Valid := ha.of_af hmaf
  obtain ⟨n, hn, hnaf, hnbits⟩ := addrInvert_bits hmv
  rw [Xaddr.width_congr hmaf] at hnbits
  obtain ⟨r, hr, hraf, -, hrbits, -⟩ := addrAnd_bits ha (hnaf.trans hmaf)
  have hrv : r.Valid := ha.of_af hraf
  simp only [addrHostIsAll0s, addrHostmask, hm, hn, hr]
  rw [addrIsAll0s_eq_zero_iff hrv, Xaddr.width_congr hraf]
  -- the inverted mask leaves the bits from `masklen` on
  have hbit : ∀ i < a.width, r.bit i = (a.bit i && !decide (i < masklen)) := by
    intro i hi
    rw [hrbits i hi, hnbits i hi, hmbits i (by omega)]
  constructor
  · intro h i hle hi
    have hge : ¬ i < masklen := by omega
    simpa [hbit i hi, hge] using h i hi
  · intro h i hi
    rw [hbit i hi]
    by_cases hlt : i < masklen
    · simp [hlt]
    · rw [h i (by omega) hi, Bool.false_and]

/-- `addr_netmatch` compares the first bits, when the host part of the network is cleared. -/
theorem addrNetmatch_eq_zero_iff {host net : Xaddr} (hnet : net.Valid) {masklen : ℕ}
    (hlen : masklen ≤ net.width) (haf : host.af = net.af) (hscope : host.scopeId = net.scopeId)
    (hclear : ∀ i, masklen ≤ i → i < net.width → net.bit i = false) :
    addrNetmatch host net masklen = 0 ↔ ∀ i < masklen, host.bit i = net.bit i := by
  have hhost : host.Valid := hnet.of_af haf
  have hwidth : host.width = net.width := Xaddr.width_congr haf
  obtain ⟨r, hr, hraf, hrscope, hrbits, -⟩ := addrHostToAll0s_bits hhost (hwidth ▸ hlen)
  -- what `addr_netmatch` compares with the network is the host with its host part cleared
  rw [addrHostToAll0s] at hr
  rw [addrNetmatch, if_neg (not_not.mpr haf)]
  obtain ⟨m, hm, -⟩ := addrNetmask_bits hhost (hwidth ▸ hlen)
  rw [hm] at hr ⊢
  simp only [hr]
  have hrv : r.Valid := hhost.of_af hraf
  have hrw : r.width = net.width := (Xaddr.width_congr hraf).trans hwidth
  rw [addrCmp_eq_zero_iff hrv (haf.symm.trans hraf.symm) (hscope.symm.trans hrscope.symm), hrw]
  rw [hwidth] at hrbits
  constructor
  · intro h i hi
    have hbit := h i (by omega)
    rwa [hrbits i (by omega), decide_eq_true hi, Bool.and_true] at hbit
  · intro h i hi
    rw [hrbits i hi]
    by_cases hlt : i < masklen
    · rw [decide_eq_true hlt, Bool.and_true, h i hlt]
    · rw [decide_eq_false hlt, Bool.and_false, hclear i (by omega) hi]

/-- Addresses of different families never match. -/
theorem addrNetmatch_family {host net : Xaddr} (h : host.af ≠ net.af) (masklen : ℕ) :
    addrNetmatch host net masklen ≠ 0 := by
  rw [addrNetmatch, if_pos h]
  decide

/-- **Address matching is prefix membership.** For a network address of a family the collector knows
and a mask length of the family, `addr_host_to_all0s` gives the address with the same first bits and
zeros behind them, which it leaves as it is when called again; `addr_host_is_all0s` holds when the
bits behind the first ones are zero; and a host of the family and the scope matches the network
exactly when the two agree on the first bits. A host of another family matches no network. -/
theorem netmatch_iff_prefix {addr : Xaddr} (haddr : addr.Valid) {masklen : ℕ}
    (hlen : masklen ≤ addr.width) :
    (∃ net, addrHostToAll0s addr masklen = some net ∧
      net.af = addr.af ∧ net.scopeId = addr.scopeId ∧
      (∀ i < masklen, net.bit i = addr.bit i) ∧
      (∀ i, masklen ≤ i → i < addr.width → net.bit i = false) ∧
      addrHostToAll0s net masklen = some net ∧
      ∀ host : Xaddr, host.af = net.af → host.scopeId = net.scopeId →
        (addrNetmatch host net masklen = 0 ↔ ∀ i < masklen, host.bit i = net.bit i)) ∧
    (addrHostIsAll0s addr masklen = 0 ↔
      ∀ i, masklen ≤ i → i < addr.width → addr.bit i = false) ∧
    ∀ (host net : Xaddr) (l : ℕ), host.af ≠ net.af → addrNetmatch host net l ≠ 0 := by
  refine ⟨?_, addrHostIsAll0s_eq_zero_iff haddr hlen, fun host net l h => addrNetmatch_family h l⟩
  obtain ⟨net, hnet, haf, hscope, hbits, -⟩ := addrHostToAll0s_bits haddr hlen
  have hwidth : net.width = addr.width := Xaddr.width_congr haf
  have hvalid : net.Valid := haddr.of_af haf
  have hclear : ∀ i, masklen ≤ i → i < addr.width → net.bit i = false := by
    intro i hle hi
    rw [hbits i hi, decide_eq_false (by omega), Bool.and_false]
  refine ⟨net, hnet, haf, hscope, ?_, hclear, addrHostToAll0s_idem haddr hlen hnet, ?_⟩
  · intro i hi
    rw [hbits i (by omega), decide_eq_true hi, Bool.and_true]
  · intro host hhaf hhscope
    exact addrNetmatch_eq_zero_iff hvalid (hwidth ▸ hlen) hhaf hhscope (hwidth ▸ hclear)

/-- The theorem at 192.168.23.9 and its first 20 bits. -/
theorem netmatch_iff_prefix_lan :
    ∃ addr : Xaddr, addr.Valid ∧ 20 ≤ addr.width ∧
      (∃ net, addrHostToAll0s addr 20 = some net ∧ net.af = addr.af ∧
        ∀ i < 20, net.bit i = addr.bit i) ∧
      (addrHostIsAll0s addr 20 = 0 ↔ ∀ i, 20 ≤ i → i < addr.width → addr.bit i = false) := by
  let addr : Xaddr := Xaddr.copy {} [192, 168, 23, 9] afInet
  have hvalid : addr.Valid := .inl rfl
  have hlen : 20 ≤ addr.width := by decide
  obtain ⟨⟨net, hnet, haf, -, hbits, -⟩, hzero, -⟩ := netmatch_iff_prefix hvalid hlen
  exact ⟨addr, hvalid, hlen, ⟨net, hnet, haf, hbits⟩, hzero⟩

end Flowd
