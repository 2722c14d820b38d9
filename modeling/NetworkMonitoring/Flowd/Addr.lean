import NetworkMonitoring.Flowd.Store

/-!
# flowd — addresses

`addr.c`: the conversion of a socket address, the comparison of two addresses and the match of an
address against a network. A function that returns an address through a pointer returns `none` where
the source returns `-1`.

Peers are told apart by `addr_cmp`. It orders the addresses of a family the collector knows
(`Xaddr.Valid`) by the number `Xaddr.key` (`addrCmp_eq`), and addresses that it takes to be equal
match the same networks (`addrNetmatch_congr`).
-/

namespace Flowd

open Bytes InetText

/-- A socket address, by what is read of it. -/
inductive SockAddr where
  /-- `struct sockaddr_in`. -/
  | inet (sinAddr : InAddr)
  /-- `struct sockaddr_in6`. -/
  | inet6 (sin6Addr : Fin 16 → UInt8) (sin6ScopeId : UInt32)
  | other

/-- `addr_sa_to_xaddr`. -/
def addrSaToXaddr (sa : SockAddr) (slen : ℕ) : Option Xaddr :=
  match sa with
  | .inet sinAddr => if slen < 16 then none else some (Xaddr.copy {} (List.ofFn sinAddr) afInet)
  | .inet6 sin6Addr sin6ScopeId =>
    if slen < 28 then none
    else some { af := afInet6, addr8 := sin6Addr, scopeId := sin6ScopeId }
  | .other => none

/-- `ntohl(a->v4.s_addr)`. -/
def Xaddr.hostOrder (a : Xaddr) : ℕ := leNat (List.ofFn a.v4).reverse

/-- `addr_cmp`. -/
def addrCmp (a b : Xaddr) : ℤ :=
  if a.af ≠ b.af then if a.af = afInet6 then 1 else -1
  else if a.af = afInet then
    if a.v4 = b.v4 then 0
    else if a.hostOrder > b.hostOrder then 1 else -1
  else if a.af = afInet6 then
    -- Do this a byte at a time
    match ((List.ofFn a.addr8).zip (List.ofFn b.addr8)).find? fun bytes => bytes.1 ≠ bytes.2 with
    | some bytes => (bytes.1.toNat : ℤ) - bytes.2.toNat
    | none => if a.scopeId = b.scopeId then 0 else if a.scopeId > b.scopeId then 1 else -1
  else -1

/-! ## Networks -/

/-- The address union with a 32-bit word in each quarter. -/
def octetsOfWords (words : ℕ → UInt32) : Fin 16 → UInt8 :=
  fun i => (le32 (words (i / 4))).getD (i % 4) 0

/-- `addr_netmask`. -/
def addrNetmask (af : UInt16) (l : ℕ) : Option Xaddr :=
  if af = afInet then
    if l ≤ 32 then some {
      af := afInet
      addr8 := octetsOfWords fun i =>
        if i = 0 then
          if l = 32 then 0xffffffff else htonl (~~~(0xffffffff >>> UInt32.ofNat l))
        else 0 }
    else none
  else if af = afInet6 then
    if l ≤ 128 then some {
      af := afInet6
      addr8 := octetsOfWords fun i =>
        -- the loop over the words takes 32 bits off `l` for each word that is full
        if 32 * (i + 1) ≤ l then 0xffffffff
        else if 32 * i < l then htonl (~~~(0xffffffff >>> UInt32.ofNat (l - 32 * i)))
        else 0 }
    else none
  else none

/-- `addr_and`. -/
def addrAnd (a b : Xaddr) : Option Xaddr :=
  if a.af ≠ b.af then none
  else if a.af = afInet then
    some { a with addr8 := fun i => if i.val < 4 then a.addr8 i &&& b.addr8 i else a.addr8 i }
  else if a.af = afInet6 then some { a with addr8 := fun i => a.addr8 i &&& b.addr8 i }
  else none

/-- `addr_netmatch`. -/
def addrNetmatch (host net : Xaddr) (masklen : ℕ) : ℤ :=
  if host.af ≠ net.af then -1
  else match addrNetmask host.af masklen with
  | none => -1
  | some tmpMask =>
    match addrAnd host tmpMask with
    | none => -1
    | some tmpResult => addrCmp tmpResult net

/-! ## The order of the addresses -/

namespace Xaddr

/-- The family is one of the two the collector knows. -/
def Valid (a : Xaddr) : Prop := a.af = afInet ∨ a.af = afInet6

/-- The number `addr_cmp` orders an address by: the IPv4 addresses come before the others, which are
in the order of their scopes behind that of their bytes. -/
def key (a : Xaddr) : ℕ :=
  if a.af = afInet then a.hostOrder
  else 256 ^ 4 + (leNat (List.ofFn a.addr8).reverse * 2 ^ 32 + a.scopeId.toNat)

end Xaddr

theorem addrSaToXaddr_valid {sa : SockAddr} {slen : ℕ} {a : Xaddr}
    (h : addrSaToXaddr sa slen = some a) : a.Valid := by
  cases sa with
  | inet sinAddr =>
    rw [addrSaToXaddr] at h
    split_ifs at h
    cases h
    exact .inl rfl
  | inet6 sin6Addr sin6ScopeId =>
    rw [addrSaToXaddr] at h
    split_ifs at h
    cases h
    exact .inr rfl
  | other => cases h

/-- The first byte in which two byte strings differ decides which number, read in network order, is
the greater one. -/
theorem find?_zip_ne {l l' : List UInt8} (hlen : l.length = l'.length) :
    match (l.zip l').find? fun bytes => bytes.1 ≠ bytes.2 with
    | some bytes => l ≠ l' ∧ bytes.1 ≠ bytes.2 ∧
        (leNat l.reverse < leNat l'.reverse ↔ bytes.1.toNat < bytes.2.toNat)
    | none => l = l' := by
  induction l generalizing l' with
  | nil => exact (List.length_eq_zero_iff.mp hlen.symm).symm
  | cons x l ih =>
    obtain _ | ⟨y, l'⟩ := l'
    · cases hlen
    have hrest : l.length = l'.length := Nat.succ.inj hlen
    have hl := leNat_lt l.reverse
    have hl' := leNat_lt l'.reverse
    rw [List.length_reverse] at hl hl'
    rw [← hrest] at hl'
    have hcons : ∀ (z : UInt8) (k : List UInt8),
        leNat (z :: k).reverse = leNat k.reverse + 256 ^ k.length * z.toNat := by
      intro z k
      rw [List.reverse_cons, leNat_append, List.length_reverse]
      simp [leNat]
    rw [List.zip_cons_cons, List.find?_cons]
    by_cases hxy : x = y
    · -- the bytes so far are equal
      subst hxy
      have hstep := ih hrest
      simp only [ne_eq, not_true_eq_false, decide_false] at hstep ⊢
      rw [hcons, hcons, ← hrest]
      simp only [Nat.add_lt_add_iff_right]
      revert hstep
      cases (l.zip l').find? fun bytes => decide ¬bytes.1 = bytes.2 with
      | none => exact congrArg _
      | some bytes => exact And.imp_left fun h heq => h (List.cons.inj heq).2
    · simp only [ne_eq, hxy, not_false_eq_true, decide_true]
      refine ⟨fun heq => hxy (List.cons.inj heq).1, trivial, ?_⟩
      rw [hcons, hcons, ← hrest]
      constructor
      · intro hlt
        by_contra hge
        have hne : x.toNat ≠ y.toNat := fun h => hxy (UInt8.toNat_inj.mp h)
        have hmul := Nat.mul_le_mul_left (256 ^ l.length)
          (show y.toNat + 1 ≤ x.toNat by omega)
        rw [Nat.mul_add, Nat.mul_one] at hmul
        omega
      · intro hlt
        have hmul := Nat.mul_le_mul_left (256 ^ l.length) (show x.toNat + 1 ≤ y.toNat from hlt)
        rw [Nat.mul_add, Nat.mul_one] at hmul
        omega

/-- Byte strings of one length that hold the same number are equal. -/
theorem leNat_reverse_inj {l l' : List UInt8} (hlen : l.length = l'.length)
    (h : leNat l.reverse = leNat l'.reverse) : l = l' := by
  have hl := leBytes_leNat l.reverse
  have hl' := leBytes_leNat l'.reverse
  rw [List.length_reverse] at hl hl'
  rw [h, hlen] at hl
  exact List.reverse_inj.mp (hl.symm.trans hl')

namespace Xaddr

theorem hostOrder_lt (a : Xaddr) : a.hostOrder < 256 ^ 4 := by
  simpa [hostOrder] using leNat_lt (List.ofFn a.v4).reverse

theorem hostOrder_inj {a b : Xaddr} : a.hostOrder = b.hostOrder ↔ a.v4 = b.v4 := by
  constructor
  · intro h
    exact List.ofFn_injective (leNat_reverse_inj (by rw [List.length_ofFn, List.length_ofFn]) h)
  · intro h
    rw [hostOrder, hostOrder, h]

theorem key_v4 {a : Xaddr} (h : a.af = afInet) : a.key = a.hostOrder := if_pos h

theorem key_v6 {a : Xaddr} (h : a.af = afInet6) :
    a.key = 256 ^ 4 + (leNat (List.ofFn a.addr8).reverse * 2 ^ 32 + a.scopeId.toNat) := by
  rw [key, if_neg (by rw [h]; decide)]

end Xaddr

/-- A three-way comparison of two numbers. -/
theorem ite_cmp {x y : ℕ} (hne : x ≠ y) :
    ((if x > y then 1 else -1 : ℤ) = 0 ↔ x = y) ∧ ((if x > y then 1 else -1 : ℤ) < 0 ↔ x < y) := by
  by_cases h : x > y
  · rw [if_pos h]
    exact ⟨iff_of_false (by decide) hne, iff_of_false (by decide) (by omega)⟩
  · rw [if_neg h]
    exact ⟨iff_of_false (by decide) hne, iff_of_true (by decide) (by omega)⟩

/-- `addr_cmp` compares the keys of two IPv4 addresses. -/
theorem addrCmp_v4 {a b : Xaddr} (ha : a.af = afInet) (hb : b.af = afInet) :
    (addrCmp a b = 0 ↔ a.key = b.key) ∧ (addrCmp a b < 0 ↔ a.key < b.key) := by
  rw [addrCmp, if_neg (by rw [ha, hb]; simp), if_pos ha, Xaddr.key_v4 ha, Xaddr.key_v4 hb]
  by_cases heq : a.v4 = b.v4
  · have hkey := Xaddr.hostOrder_inj.mpr heq
    rw [if_pos heq, hkey]
    exact ⟨iff_of_true rfl rfl, iff_of_false (lt_irrefl _) (lt_irrefl _)⟩
  · rw [if_neg heq]
    exact ite_cmp fun h => heq (Xaddr.hostOrder_inj.mp h)

/-- It compares those of two IPv6 addresses. -/
theorem addrCmp_v6 {a b : Xaddr} (ha : a.af = afInet6) (hb : b.af = afInet6) :
    (addrCmp a b = 0 ↔ a.key = b.key) ∧ (addrCmp a b < 0 ↔ a.key < b.key) := by
  have hne : ¬ a.af = afInet := by rw [ha]; decide
  rw [addrCmp, if_neg (by rw [ha, hb]; simp), if_neg hne, if_pos ha, Xaddr.key_v6 ha,
    Xaddr.key_v6 hb]
  have hscope := a.scopeId.toNat_lt
  have hscope' := b.scopeId.toNat_lt
  have hlen : (List.ofFn a.addr8).length = (List.ofFn b.addr8).length := by
    rw [List.length_ofFn, List.length_ofFn]
  have hfind := find?_zip_ne hlen
  revert hfind
  cases ((List.ofFn a.addr8).zip (List.ofFn b.addr8)).find? fun bytes => bytes.1 ≠ bytes.2 with
  | none =>
    -- the bytes are equal, and the scopes decide
    intro heq
    dsimp only at heq ⊢
    rw [heq]
    by_cases hs : a.scopeId = b.scopeId
    · rw [if_pos hs, hs]
      exact ⟨iff_of_true rfl rfl, iff_of_false (lt_irrefl _) (lt_irrefl _)⟩
    · have hcmp := ite_cmp fun h => hs (UInt32.toNat_inj.mp h)
      rw [if_neg hs]
      simp only [gt_iff_lt, UInt32.lt_iff_toNat_lt, Nat.add_left_cancel_iff, Nat.add_lt_add_iff_left]
      exact hcmp
  | some bytes =>
    rintro ⟨hne', hbytes, hlt⟩
    dsimp only
    have hbytes' : bytes.1.toNat ≠ bytes.2.toNat := fun h => hbytes (UInt8.toNat_inj.mp h)
    have hnum : leNat (List.ofFn a.addr8).reverse ≠ leNat (List.ofFn b.addr8).reverse :=
      fun h => hne' (leNat_reverse_inj hlen h)
    have hlt' : (bytes.1.toNat : ℤ) - bytes.2.toNat < 0 ↔
        leNat (List.ofFn a.addr8).reverse < leNat (List.ofFn b.addr8).reverse := by
      rw [hlt]
      omega
    constructor
    · exact iff_of_false (by omega) (by omega)
    · rw [hlt']
      omega

/-- `addr_cmp` orders the addresses by their keys. -/
theorem addrCmp_eq {a b : Xaddr} (ha : a.Valid) (hb : b.Valid) :
    (addrCmp a b = 0 ↔ a.key = b.key) ∧ (addrCmp a b < 0 ↔ a.key < b.key) := by
  rcases ha with ha | ha <;> rcases hb with hb | hb
  · exact addrCmp_v4 ha hb
  · have hkey := a.hostOrder_lt
    rw [addrCmp, if_pos (by rw [ha, hb]; decide), if_neg (by rw [ha]; decide), Xaddr.key_v4 ha,
      Xaddr.key_v6 hb]
    exact ⟨iff_of_false (by decide) (by omega), iff_of_true (by decide) (by omega)⟩
  · have hkey := b.hostOrder_lt
    rw [addrCmp, if_pos (by rw [ha, hb]; decide), if_pos ha, Xaddr.key_v6 ha, Xaddr.key_v4 hb]
    exact ⟨iff_of_false (by decide) (by omega), iff_of_false (by decide) (by omega)⟩
  · exact addrCmp_v6 ha hb

theorem addrCmp_pos {a b : Xaddr} (ha : a.Valid) (hb : b.Valid) :
    0 < addrCmp a b ↔ b.key < a.key := by
  obtain ⟨hzero, hneg⟩ := addrCmp_eq ha hb
  omega

theorem addrCmp_self {a : Xaddr} (ha : a.Valid) : addrCmp a a = 0 :=
  (addrCmp_eq ha ha).1.mpr rfl

/-- Addresses that `addr_cmp` takes to be equal agree on what is read of them. -/
theorem eq_of_addrCmp {a b : Xaddr} (ha : a.Valid) (hb : b.Valid) (h : addrCmp a b = 0) :
    (a.af = afInet ∧ b.af = afInet ∧ a.v4 = b.v4) ∨ a = b := by
  have hkey := (addrCmp_eq ha hb).1.mp h
  -- one case for each pair of families: the keys of different families are never equal
  rcases ha with ha | ha <;> rcases hb with hb | hb
  · rw [Xaddr.key_v4 ha, Xaddr.key_v4 hb] at hkey
    exact .inl ⟨ha, hb, Xaddr.hostOrder_inj.mp hkey⟩
  · have hlt := a.hostOrder_lt
    rw [Xaddr.key_v4 ha, Xaddr.key_v6 hb] at hkey
    omega
  · have hlt := b.hostOrder_lt
    rw [Xaddr.key_v6 ha, Xaddr.key_v4 hb] at hkey
    omega
  · rw [Xaddr.key_v6 ha, Xaddr.key_v6 hb] at hkey
    have hscope := a.scopeId.toNat_lt
    have hscope' := b.scopeId.toNat_lt
    -- the key is the address with the scope behind it, and both can be read off it
    have haddr8 : a.addr8 = b.addr8 := by
      refine List.ofFn_injective (leNat_reverse_inj (by rw [List.length_ofFn, List.length_ofFn]) ?_)
      omega
    have hscopeId : a.scopeId = b.scopeId := by
      rw [haddr8] at hkey
      exact UInt32.toNat_inj.mp (by omega)
    cases a
    cases b
    obtain rfl := ha.trans hb.symm
    obtain rfl := haddr8
    obtain rfl := hscopeId
    exact .inr rfl

/-- The mask is applied to the four bytes of an IPv4 address. -/
theorem addrAnd_v4 {a m : Xaddr} (ha : a.af = afInet) (hm : m.af = afInet) :
    ∃ r, addrAnd a m = some r ∧ r.af = afInet ∧ r.v4 = fun i => a.v4 i &&& m.v4 i := by
  rw [addrAnd, if_neg (not_not.mpr (ha.trans hm.symm)), if_pos ha]
  exact ⟨_, rfl, ha, funext fun i => if_pos i.isLt⟩

/-- Addresses that `addr_cmp` takes to be equal match the same networks. -/
theorem addrNetmatch_congr {a b : Xaddr} (ha : a.Valid) (hb : b.Valid) (h : addrCmp a b = 0)
    (net : Xaddr) (masklen : ℕ) : addrNetmatch a net masklen = addrNetmatch b net masklen := by
  rcases eq_of_addrCmp ha hb h with ⟨hafa, hafb, hv4⟩ | rfl
  · rw [addrNetmatch, addrNetmatch, hafa, hafb]
    by_cases hnet : afInet ≠ net.af
    · rw [if_pos hnet, if_pos hnet]
    rw [if_neg hnet, if_neg hnet]
    cases hmask : addrNetmask afInet masklen with
    | none => rfl
    | some m =>
      -- a mask that can be made has the family of the addresses
      have hm : m.af = afInet := by
        rw [addrNetmask, if_pos rfl] at hmask
        by_cases hl : masklen ≤ 32
        · rw [if_pos hl] at hmask
          rw [← Option.some.inj hmask]
        · rw [if_neg hl] at hmask
          cases hmask
      obtain ⟨r, hr, hraf, hrv4⟩ := addrAnd_v4 hafa hm
      obtain ⟨r', hr', hraf', hrv4'⟩ := addrAnd_v4 hafb hm
      have hsame : r.v4 = r'.v4 := by rw [hrv4, hrv4', hv4]
      have hhost : r.hostOrder = r'.hostOrder := Xaddr.hostOrder_inj.mpr hsame
      -- so what is compared with the network is the same for both
      simp only [hr, hr']
      rw [addrCmp, addrCmp, hraf, hraf', if_neg hnet, if_neg hnet, if_pos rfl, if_pos rfl, hsame,
        hhost]
  · rfl

end Flowd
