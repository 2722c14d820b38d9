import NetworkMonitoring.Softflowd.Packet

/-!
# softflowd — the two directions of a conversation

A packet and its reverse, with addresses and ports exchanged, are to be counted by one flow, each in
its own slot. `ipv4_to_flowrec` and `ipv6_to_flowrec` store the numerically lower address first, and
the port of the source in the slot of its address. `IpPacket.toFlowrec_eq` is the record they build
of a packet with complete headers.

## Main result

* `directions_iff`: the two records belong together exactly when the addresses differ or the packet
  is its own reverse. Between two ports of one host both directions go to the first slot, and the
  records have their ports the wrong way round for each other.
-/

namespace Softflowd

open Bytes Function

/-! ## Packets -/

/-- Exchange the `n` bytes at `i` with the `n` bytes behind them. -/
def exchange (m : Mem) (i n : ℕ) : Mem := fun k =>
  if i ≤ k ∧ k < i + n then m (k + n) else if i + n ≤ k ∧ k < i + n + n then m (k - n) else m k

theorem octets_exchange (m : Mem) (i n : ℕ) : (exchange m i n).octets i n = m.octets (i + n) n := by
  funext k
  have hk := k.isLt
  rw [Mem.octets, exchange, if_pos (by omega), Mem.octets]
  exact congrArg m (by omega)

theorem octets_exchange_snd (m : Mem) (i n : ℕ) :
    (exchange m i n).octets (i + n) n = m.octets i n := by
  funext k
  have hk := k.isLt
  rw [Mem.octets, exchange, if_neg (by omega), if_pos (by omega), Mem.octets]
  exact congrArg m (by omega)

/-- The bytes around the exchanged ones stay. -/
theorem exchange_of_outside (m : Mem) {i n k : ℕ} (h : k < i ∨ i + n + n ≤ k) :
    exchange m i n k = m k := by
  rw [exchange, if_neg (by omega), if_neg (by omega)]

/-- Exchanging equal bytes changes nothing. -/
theorem exchange_eq_self {m : Mem} {i n : ℕ} (h : m.octets i n = m.octets (i + n) n) :
    exchange m i n = m := by
  have hbyte : ∀ j < n, m (i + j) = m (i + n + j) := fun j hj => congrFun h ⟨j, hj⟩
  funext k
  rw [exchange]
  split_ifs with h1 h2
  · have hk := hbyte (k - i) (by omega)
    rw [show i + (k - i) = k by omega, show i + n + (k - i) = k + n by omega] at hk
    exact hk.symm
  · have hk := hbyte (k - (i + n)) (by omega)
    rwa [show i + (k - (i + n)) = k - n by omega, show i + n + (k - (i + n)) = k by omega] at hk
  · rfl

/-- The version of the Internet protocol, by which `process_packet` chooses the converter. -/
inductive IpVersion where
  | v4 | v6
  deriving DecidableEq, Repr

/-- A captured packet. -/
structure IpPacket where
  version : IpVersion
  m : Mem
  caplen : ℕ

namespace IpPacket

/-- Where the source address is; the destination address follows. -/
def addrOffset : IpVersion → ℕ
  | .v4 => 12
  | .v6 => 8

abbrev addrLen : IpVersion → ℕ
  | .v4 => 4
  | .v6 => 16

/-- The address family of the records. -/
def af : IpVersion → ℤ
  | .v4 => afInet
  | .v6 => afInet6

variable (p : IpPacket)

def src : Fin (addrLen p.version) → UInt8 := p.m.octets (addrOffset p.version) _

def dst : Fin (addrLen p.version) → UInt8 :=
  p.m.octets (addrOffset p.version + addrLen p.version) _

/-- The protocol of an unfragmented packet, the offset of its transport header, and what has been
captured from there on. -/
def transport : Option (UInt8 × ℕ × ℕ) :=
  match p.version with
  | .v4 =>
    if ipVersion p.m = 4 ∧ 20 ≤ ipHeaderLen p.m ∧ ipHeaderLen p.m ≤ p.caplen ∧ ipIsFrag p.m = false
    then some (p.m 9, ipHeaderLen p.m, p.caplen - ipHeaderLen p.m)
    else none
  | .v6 =>
    if (p.m 0).toNat / 16 = 6 ∧ 40 ≤ p.caplen then
      match ipv6Walk p.m 40 (p.caplen - 40) (p.m 6) false with
      | .transport nxt pkt caplen false => some (nxt, pkt, caplen)
      | _ => none
    else none

/-- The packet is an unfragmented TCP or UDP packet whose headers have been captured; its transport
header is at `off`. -/
def Complete (protocol : UInt8) (off : ℕ) : Prop :=
  ∃ caplen, p.transport = some (protocol, off, caplen) ∧
    (protocol = ipprotoTcp ∧ 20 ≤ caplen ∨ protocol = ipprotoUdp ∧ 8 ≤ caplen)

/-- The packet with its addresses, and with the ports at `off`, exchanged. -/
def reverse (off : ℕ) : IpPacket :=
  { p with m := exchange (exchange p.m (addrOffset p.version) (addrLen p.version)) off 2 }

/-- The converter for the packet, on a zeroed record. -/
def toFlowrec (len : UInt32) : Option (ℤ × Flow × Bool) :=
  match p.version with
  | .v4 => ipv4ToFlowrec {} p.m p.caplen len (af .v4)
  | .v6 => ipv6ToFlowrec {} p.m p.caplen len (af .v6)

end IpPacket

/-- A value in one slot, zero in the other. -/
def slot (d : Dir) (x : UInt32) : Dir → UInt32 := update (fun _ => 0) d x

/-- Both packets are converted, to records that compare equal and count in opposite slots. -/
def OneFlow (r r' : Option (ℤ × Flow × Bool)) (len len' : UInt32) : Prop :=
  ∃ f f', r = some (0, f, false) ∧ r' = some (0, f', false) ∧ flowCompare f f' = .eq ∧
    ∃ d : Dir, f.octets = slot d len ∧ f.packets = slot d 1 ∧
      f'.octets = slot d.other len' ∧ f'.packets = slot d.other 1

/-! ## The records -/

/-- `memcmp` tells equal arrays. -/
theorem memcmp_eq_iff {n : ℕ} {a b : Fin n → UInt8} : memcmp a b = .eq ↔ a = b := by
  rw [memcmp, Std.compare_eq_iff_eq, List.ofFn_injective.eq_iff]

/-- The slots of two different addresses are exchanged with them. -/
theorem canonicalNdx_swap {n : ℕ} {a b : Fin n → UInt8} (h : a ≠ b) :
    canonicalNdx b a = (canonicalNdx a b).other := by
  have hswap : memcmp b a = (memcmp a b).swap :=
    (Std.OrientedOrd.eq_swap : compare (List.ofFn b) (List.ofFn a) = _)
  have hne : memcmp a b ≠ .eq := memcmp_eq_iff.not.mpr h
  rw [canonicalNdx, canonicalNdx, hswap]
  cases hcmp : memcmp a b with
  | lt => rfl
  | eq => exact absurd hcmp hne
  | gt => rfl

/-- A family over the slots is given by its values in a slot and in the other one. -/
theorem Dir.funext_of {α : Type} {g g' : Dir → α} (d : Dir) (h : g d = g' d)
    (h' : g d.other = g' d.other) : g = g' := by
  funext k
  rcases Dir.eq_or_eq_other d k with rfl | rfl
  · exact h
  · exact h'

theorem canonicalNdx_self {n : ℕ} (a : Fin n → UInt8) : canonicalNdx a a = 0 := by
  rw [canonicalNdx, memcmp_eq_iff.mpr rfl]
  rfl

/-- The slot that is assigned first keeps its value. -/
theorem update_update_other {α : Type} (g : Dir → α) (d : Dir) (x y : α) :
    update (update g d x) d.other y d = x := by
  rw [update_of_ne (Dir.ne_other d), update_self]

/-- A complete TCP or UDP header gives the ports. -/
theorem transportToFlowrec_complete (flow : Flow) (m : Mem) (pkt : ℕ) {caplen : ℕ} (isfrag : Bool)
    {protocol : UInt8} (ndx : Dir)
    (h : protocol = ipprotoTcp ∧ 20 ≤ caplen ∨ protocol = ipprotoUdp ∧ 8 ≤ caplen) :
    ∃ flags, transportToFlowrec flow m pkt caplen isfrag protocol ndx = (0, { flow with
      port := update (update flow.port ndx (m.u16 pkt)) ndx.other (m.u16 (pkt + 2))
      tcpFlags := flags }) := by
  rcases h with ⟨rfl, hlen⟩ | ⟨rfl, hlen⟩
  · refine ⟨update flow.tcpFlags ndx (flow.tcpFlags ndx ||| m (pkt + 13)), ?_⟩
    rw [transportToFlowrec, if_pos rfl, if_neg (by omega)]
  · refine ⟨flow.tcpFlags, ?_⟩
    have hne : ipprotoUdp ≠ ipprotoTcp := by decide
    rw [transportToFlowrec, if_neg hne, if_pos rfl, if_neg (by omega)]

namespace IpPacket

/-- An address in the address union of a zeroed record. -/
def flowAddr : (v : IpVersion) → (Fin (addrLen v) → UInt8) → FlowAddr
  | .v4, x => FlowAddr.setV4 (fun _ => 0) x
  | .v6, x => x

/-- The slot of the source of a packet. -/
def ndx (p : IpPacket) : Dir := canonicalNdx p.src p.dst

/-- What the record of a packet says, whose ports are at `off`. -/
structure Converted (p : IpPacket) (protocol : UInt8) (off : ℕ) (len : UInt32) (f : Flow) :
    Prop where
  af_eq : f.af = af p.version
  src_eq : f.addr p.ndx = flowAddr p.version p.src
  dst_eq : f.addr p.ndx.other = flowAddr p.version p.dst
  protocol_eq : f.protocol = protocol
  srcPort_eq : f.port p.ndx = p.m.u16 off
  dstPort_eq : f.port p.ndx.other = p.m.u16 (off + 2)
  octets_eq : f.octets = slot p.ndx len
  packets_eq : f.packets = slot p.ndx 1

/-- The record of a packet with its ports, whatever flow labels and flags it has. -/
theorem converted_record (p : IpPacket) (protocol : UInt8) (off : ℕ) (len : UInt32)
    (flowlabel : Dir → UInt32) (flags : Dir → UInt8) : p.Converted protocol off len
      { af := af p.version
        ip6Flowlabel := flowlabel
        addr := update (update (fun _ _ => 0) p.ndx (flowAddr p.version p.src)) p.ndx.other
          (flowAddr p.version p.dst)
        port := update (update (fun _ => 0) p.ndx (p.m.u16 off)) p.ndx.other (p.m.u16 (off + 2))
        tcpFlags := flags
        protocol := protocol
        octets := slot p.ndx len
        packets := slot p.ndx 1 } where
  af_eq := rfl
  src_eq := update_update_other _ _ _ _
  dst_eq := update_self _ _ _
  protocol_eq := rfl
  srcPort_eq := update_update_other _ _ _ _
  dstPort_eq := update_self _ _ _
  octets_eq := rfl
  packets_eq := rfl

variable {p : IpPacket} {protocol : UInt8} {off : ℕ}

/-- The converters build the record of a packet with complete headers. -/
theorem toFlowrec_eq (h : p.Complete protocol off) (len : UInt32) :
    ∃ f, p.toFlowrec len = some (0, f, false) ∧ p.Converted protocol off len f := by
  obtain ⟨version, m, caplen⟩ := p
  obtain ⟨rest, htransport, hrest⟩ := h
  cases version with
  | v4 =>
    simp only [transport] at htransport
    split_ifs at htransport with hhdr
    obtain ⟨hversion, hmin, hmax, hfrag⟩ := hhdr
    obtain ⟨rfl, hpair⟩ := Prod.mk.inj (Option.some.inj htransport)
    obtain ⟨rfl, rfl⟩ := Prod.mk.inj hpair
    have hrunt : ¬ (caplen < 20 ∨ caplen < ipHeaderLen m) := by omega
    have hport : ¬ ((ipIsFrag m && ipHasOffset m) = true) := by simp [hfrag]
    simp only [toFlowrec, ipv4ToFlowrec, if_neg hrunt, if_neg (not_not.mpr hversion), if_neg hport]
    obtain ⟨flags, hrecord⟩ := transportToFlowrec_complete _ m (ipHeaderLen m) (ipIsFrag m) _ hrest
    rw [hrecord, hfrag]
    exact ⟨_, rfl, converted_record ⟨.v4, m, caplen⟩ _ _ _ _ _⟩
  | v6 =>
    simp only [transport] at htransport
    split_ifs at htransport with hhdr
    obtain ⟨hversion, hmin⟩ := hhdr
    simp only [toFlowrec, ipv6ToFlowrec, if_neg (not_lt.mpr hmin), if_neg (not_not.mpr hversion)]
    split at htransport
    · rename_i nxt pkt rest' hwalk
      obtain ⟨rfl, hpair⟩ := Prod.mk.inj (Option.some.inj htransport)
      obtain ⟨rfl, rfl⟩ := Prod.mk.inj hpair
      rw [hwalk]
      obtain ⟨flags, hrecord⟩ := transportToFlowrec_complete _ m pkt false _ hrest
      simp only
      rw [hrecord]
      exact ⟨_, rfl, converted_record ⟨.v6, m, caplen⟩ _ _ _ _ _⟩
    · cases htransport

/-! ## The reverse packet -/

end IpPacket

/-- The header walk ends behind the bytes it has read, and depends on these only. -/
theorem ipv6Walk_congr {m : Mem} {pkt caplen : ℕ} {nxt : UInt8} {isfrag : Bool} {nxt' : UInt8}
    {pkt' caplen' : ℕ} {isfrag' : Bool}
    (h : ipv6Walk m pkt caplen nxt isfrag = .transport nxt' pkt' caplen' isfrag') :
    pkt ≤ pkt' ∧ ∀ m' : Mem, (∀ i, pkt ≤ i → i < pkt' → m' i = m i) →
      ipv6Walk m' pkt caplen nxt isfrag = .transport nxt' pkt' caplen' isfrag' := by
  induction pkt, caplen, nxt, isfrag using ipv6Walk.induct (m := m) with
  | case1 pkt caplen nxt isfrag hext hrunt =>
    rw [ipv6Walk_extensionRunt hext (lt_extensionLen_iff.mpr hrunt)] at h
    cases h
  | case2 pkt caplen nxt isfrag hext hrunt ih =>
    have hlen : extensionLen m pkt ≤ caplen := not_lt.mp (lt_extensionLen_iff.not.mpr hrunt)
    have hpos : 2 ≤ extensionLen m pkt := by
      unfold extensionLen
      omega
    rw [ipv6Walk_extension hext hlen] at h
    obtain ⟨hle, hcongr⟩ := ih h
    have hle' : pkt + extensionLen m pkt ≤ pkt' := hle
    refine ⟨by omega, fun m' hm' => ?_⟩
    -- the two bytes that are read belong to the header that is skipped
    have h0 : m' pkt = m pkt := hm' pkt le_rfl (by omega)
    have h1 : extensionLen m' pkt = extensionLen m pkt := by
      rw [extensionLen, extensionLen, hm' (pkt + 1) (by omega) (by omega)]
    rw [ipv6Walk_extension hext (h1 ▸ hlen), h0, h1]
    exact hcongr m' fun i hi hi' => hm' i (by omega) hi'
  | case3 pkt caplen isfrag hrunt hext =>
    rw [ipv6Walk_fragmentRunt hrunt] at h
    cases h
  | case4 pkt caplen isfrag hrunt hoff hext =>
    rw [ipv6Walk_laterFragment (not_lt.mp hrunt) hoff] at h
    cases h
  | case5 pkt caplen isfrag hrunt hoff hext ih =>
    have hfirst : fragmentOffset m pkt = 0 := not_not.mp hoff
    rw [ipv6Walk_firstFragment (not_lt.mp hrunt) hfirst] at h
    obtain ⟨hle, hcongr⟩ := ih h
    refine ⟨by omega, fun m' hm' => ?_⟩
    have h0 : m' pkt = m pkt := hm' pkt le_rfl (by omega)
    have hoff' : fragmentOffset m' pkt = fragmentOffset m pkt := by
      rw [fragmentOffset, fragmentOffset, hm' (pkt + 2) (by omega) (by omega),
        hm' (pkt + 3) (by omega) (by omega)]
    rw [ipv6Walk_firstFragment (not_lt.mp hrunt) (hoff'.trans hfirst), h0]
    exact hcongr m' fun i hi hi' => hm' i (by omega) hi'
  | case6 pkt caplen nxt isfrag hext hfrag =>
    rw [ipv6Walk_transport hext hfrag] at h
    obtain ⟨rfl, rfl, rfl, rfl⟩ := Ipv6Walk.transport.inj h
    exact ⟨le_rfl, fun m' _ => ipv6Walk_transport hext hfrag⟩

namespace IpPacket

variable {p : IpPacket} {protocol : UInt8} {off : ℕ}

/-- The transport header of a packet depends on the bytes before it that are not addresses. -/
theorem transport_congr {m' : Mem} {caplen : ℕ} (h : p.transport = some (protocol, off, caplen))
    (hm' : ∀ i < off, (i < addrOffset p.version ∨
      addrOffset p.version + addrLen p.version + addrLen p.version ≤ i) → m' i = p.m i) :
    addrOffset p.version + addrLen p.version + addrLen p.version ≤ off ∧
      ({ p with m := m' } : IpPacket).transport = some (protocol, off, caplen) := by
  obtain ⟨version, m, len⟩ := p
  cases version with
  | v4 =>
    simp only [transport] at h
    split_ifs at h with hhdr
    obtain ⟨hversion, hmin, hmax, hfrag⟩ := hhdr
    obtain ⟨rfl, hpair⟩ := Prod.mk.inj (Option.some.inj h)
    obtain ⟨rfl, rfl⟩ := Prod.mk.inj hpair
    -- all that the header says stands in front of the addresses
    have hbyte : ∀ i < 12, m' i = m i := fun i hi => hm' i (by omega) (.inl hi)
    refine ⟨hmin, ?_⟩
    have hv : ipVersion m' = ipVersion m := by rw [ipVersion, ipVersion, hbyte 0 (by decide)]
    have hl : ipHeaderLen m' = ipHeaderLen m := by
      rw [ipHeaderLen, ipHeaderLen, hbyte 0 (by decide)]
    have hf : ipIsFrag m' = ipIsFrag m := by
      rw [ipIsFrag, ipIsFrag, ipOff, ipOff, hbyte 6 (by decide), hbyte 7 (by decide)]
    simp only [transport]
    rw [hv, hl, hf, hbyte 9 (by decide), if_pos ⟨hversion, hmin, hmax, hfrag⟩]
  | v6 =>
    simp only [transport] at h
    split_ifs at h with hhdr
    split at h
    · rename_i nxt pkt rest hwalk
      obtain ⟨rfl, hpair⟩ := Prod.mk.inj (Option.some.inj h)
      obtain ⟨rfl, rfl⟩ := Prod.mk.inj hpair
      obtain ⟨hle, hcongr⟩ := ipv6Walk_congr hwalk
      have hbyte : ∀ i < 8, m' i = m i := fun i hi => hm' i (by omega) (.inl hi)
      have hwalk' := hcongr m' fun i hi hi' => hm' i hi' (.inr hi)
      refine ⟨hle, ?_⟩
      simp only [transport]
      rw [hbyte 0 (by decide), hbyte 6 (by decide), if_pos hhdr, hwalk']
    · cases h

/-- The ports stand behind the addresses. -/
theorem Complete.le_off (h : p.Complete protocol off) :
    addrOffset p.version + addrLen p.version + addrLen p.version ≤ off := by
  obtain ⟨caplen, htransport, -⟩ := h
  exact (transport_congr htransport fun _ _ _ => rfl).1

/-- The reverse packet is as complete. -/
theorem Complete.reverse (h : p.Complete protocol off) : (p.reverse off).Complete protocol off := by
  obtain ⟨caplen, htransport, hlen⟩ := h
  refine ⟨caplen, (transport_congr htransport fun i hi hout => ?_).2, hlen⟩
  rw [exchange_of_outside _ (.inl hi), exchange_of_outside _ hout]

/-- A word is made of its bytes. -/
theorem u16_eq_octets (m : Mem) (i : ℕ) :
    m.u16 i = UInt16.ofNat (leNat [m.octets i 2 0, m.octets i 2 1]) := rfl

theorem octets_eq_of_u16_eq {m : Mem} {i j : ℕ} (h : m.u16 i = m.u16 j) :
    m.octets i 2 = m.octets j 2 := by
  have hi := (m i).toNat_lt
  have hi' := (m (i + 1)).toNat_lt
  have hj := (m j).toNat_lt
  have hj' := (m (j + 1)).toNat_lt
  have hnat := congrArg UInt16.toNat h
  simp only [Mem.u16, leNat, UInt16.toNat_ofNat'] at hnat
  have h0 : m i = m j := UInt8.toNat_inj.mp (by omega)
  have h1 : m (i + 1) = m (j + 1) := UInt8.toNat_inj.mp (by omega)
  funext k
  fin_cases k
  · exact h0
  · exact h1

section Reverse

variable (h : p.Complete protocol off)

include h

theorem src_reverse : (p.reverse off).src = p.dst := by
  have hle := h.le_off
  have hsrc : (p.reverse off).src =
      ((exchange p.m (addrOffset p.version) (addrLen p.version)).octets (addrOffset p.version)
        (addrLen p.version) : Fin (addrLen p.version) → UInt8) := by
    funext (k : Fin (addrLen p.version))
    have hk := k.isLt
    exact exchange_of_outside (exchange p.m _ _) (k := addrOffset p.version + k) (.inl (by omega))
  rw [hsrc]
  exact octets_exchange p.m _ _

theorem dst_reverse : (p.reverse off).dst = p.src := by
  have hle := h.le_off
  have hdst : (p.reverse off).dst =
      ((exchange p.m (addrOffset p.version) (addrLen p.version)).octets
        (addrOffset p.version + addrLen p.version) (addrLen p.version) :
          Fin (addrLen p.version) → UInt8) := by
    funext (k : Fin (addrLen p.version))
    have hk := k.isLt
    exact exchange_of_outside (exchange p.m _ _) (k := addrOffset p.version + addrLen p.version + k)
      (.inl (by omega))
  rw [hdst]
  exact octets_exchange_snd p.m _ _

theorem srcPort_reverse : (p.reverse off).m.u16 off = p.m.u16 (off + 2) := by
  have hle := h.le_off
  rw [u16_eq_octets, IpPacket.reverse, octets_exchange, u16_eq_octets]
  rw [Mem.octets, Mem.octets, exchange_of_outside _ (.inr (by omega)),
    exchange_of_outside _ (.inr (by omega))]
  rfl

theorem dstPort_reverse : (p.reverse off).m.u16 (off + 2) = p.m.u16 off := by
  have hle := h.le_off
  rw [u16_eq_octets, IpPacket.reverse, octets_exchange_snd, u16_eq_octets]
  rw [Mem.octets, Mem.octets, exchange_of_outside _ (.inr (by omega)),
    exchange_of_outside _ (.inr (by omega))]
  rfl

end Reverse

/-- With equal addresses and equal ports a packet is its own reverse. -/
theorem reverse_eq_self (haddr : p.src = p.dst) (hport : p.m.u16 off = p.m.u16 (off + 2)) :
    p.reverse off = p := by
  have hm : exchange p.m (addrOffset p.version) (addrLen p.version) = p.m := exchange_eq_self haddr
  rw [IpPacket.reverse, hm, exchange_eq_self (octets_eq_of_u16_eq hport)]

/-! ## Two records for one conversation -/

/-- Different addresses exchange their slots, and each slot holds the same address and port for both
directions. -/
theorem oneFlow_of_ne (h : p.Complete protocol off) (haddr : p.src ≠ p.dst) (len len' : UInt32) :
    OneFlow (p.toFlowrec len) ((p.reverse off).toFlowrec len') len len' := by
  obtain ⟨f, hf, hrecord⟩ := toFlowrec_eq h len
  obtain ⟨f', hf', hrecord'⟩ := toFlowrec_eq h.reverse len'
  have hndx : (p.reverse off).ndx = p.ndx.other := by
    have hswap : canonicalNdx p.dst p.src = p.ndx.other := canonicalNdx_swap haddr
    rw [ndx, src_reverse h, dst_reverse h]
    exact hswap
  have hsrc : f'.addr p.ndx.other = flowAddr p.version p.dst := by
    have hsrc' := hrecord'.src_eq
    rw [hndx, src_reverse h] at hsrc'
    exact hsrc'
  have hdst : f'.addr p.ndx = flowAddr p.version p.src := by
    have hdst' := hrecord'.dst_eq
    rw [hndx, dst_reverse h, Dir.other_other] at hdst'
    exact hdst'
  have hsrcPort := hrecord'.srcPort_eq
  rw [hndx, srcPort_reverse h] at hsrcPort
  have hdstPort := hrecord'.dstPort_eq
  rw [hndx, dstPort_reverse h, Dir.other_other] at hdstPort
  have haddrs : f.addr = f'.addr := by
    refine Dir.funext_of p.ndx ?_ ?_
    · rw [hrecord.src_eq, hdst]
    · rw [hrecord.dst_eq, hsrc]
  have hports : f.port = f'.port := by
    refine Dir.funext_of p.ndx ?_ ?_
    · rw [hrecord.srcPort_eq, hdstPort]
    · rw [hrecord.dstPort_eq, hsrcPort]
  have haf : f.af = f'.af := hrecord.af_eq.trans hrecord'.af_eq.symm
  have hprotocol : f.protocol = f'.protocol := hrecord.protocol_eq.trans hrecord'.protocol_eq.symm
  refine ⟨f, f', hf, hf', flowCompare_eq_iff.mpr ?_, p.ndx, hrecord.octets_eq, hrecord.packets_eq,
    hndx ▸ hrecord'.octets_eq, hndx ▸ hrecord'.packets_eq⟩
  rw [Flow.key, Flow.key, haf, haddrs, hprotocol, hports]

/-- Equal addresses leave the source port in the first slot, in both directions. -/
theorem ports_eq_of_oneFlow (h : p.Complete protocol off) (haddr : p.src = p.dst)
    {len len' : UInt32}
    (hone : OneFlow (p.toFlowrec len) ((p.reverse off).toFlowrec len') len len') :
    p.m.u16 off = p.m.u16 (off + 2) := by
  obtain ⟨f, hf, hrecord⟩ := toFlowrec_eq h len
  obtain ⟨f', hf', hrecord'⟩ := toFlowrec_eq h.reverse len'
  obtain ⟨g, g', hg, hg', hcmp, -⟩ := hone
  obtain rfl : f = g := by
    have hpair := hf.symm.trans hg
    simpa using hpair
  obtain rfl : f' = g' := by
    have hpair := hf'.symm.trans hg'
    simpa using hpair
  have hndx : p.ndx = 0 := by
    rw [ndx, haddr]
    exact canonicalNdx_self _
  have hndx' : (p.reverse off).ndx = 0 := by
    rw [ndx, src_reverse h, dst_reverse h, haddr]
    exact canonicalNdx_self _
  have hkey := flowCompare_eq_iff.mp hcmp
  have hport : f.port 0 = f'.port 0 := congrArg (fun x => x.2.2.2.2.1) hkey
  calc p.m.u16 off = f.port 0 := by rw [← hrecord.srcPort_eq, hndx]
    _ = f'.port 0 := hport
    _ = p.m.u16 (off + 2) := by rw [← srcPort_reverse h, ← hrecord'.srcPort_eq, hndx']

/-- A packet that is not its own reverse and its reverse are one flow exactly when the addresses
differ or the ports agree. -/
theorem directions_iff (h : p.Complete protocol off) (len len' : UInt32) :
    (p.reverse off ≠ p →
        OneFlow (p.toFlowrec len) ((p.reverse off).toFlowrec len') len len') ↔
      p.src ≠ p.dst ∨ p.m.u16 off = p.m.u16 (off + 2) := by
  constructor
  · intro hone
    by_cases haddr : p.src = p.dst
    · refine .inr ?_
      by_cases hrev : p.reverse off = p
      · rw [← dstPort_reverse h, hrev]
      · exact ports_eq_of_oneFlow h haddr (hone hrev)
    · exact .inl haddr
  · rintro (haddr | hport) hrev
    · exact oneFlow_of_ne h haddr len len'
    · by_cases haddr : p.src = p.dst
      · exact absurd (reverse_eq_self haddr hport) hrev
      · exact oneFlow_of_ne h haddr len len'

/-- A UDP datagram of eight bytes between two addresses, to port 80. -/
def datagram (src dst : Fin 4 → UInt8) (sport : UInt8 × UInt8) : IpPacket where
  version := .v4
  m i := ([0x45, 0, 0, 28, 0, 0, 0, 0, 64, 17, 0, 0] ++ List.ofFn src ++ List.ofFn dst ++
    [sport.1, sport.2, 0, 80, 0, 8, 0, 0]).getD i 0
  caplen := 28

theorem datagram_complete (src dst : Fin 4 → UInt8) (sport : UInt8 × UInt8) :
    (datagram src dst sport).Complete ipprotoUdp 20 := by
  set p := datagram src dst sport
  have hfirst : p.m 0 = 0x45 := rfl
  have hversion : ipVersion p.m = 4 := by rw [ipVersion, hfirst]; decide
  have hlen : ipHeaderLen p.m = 20 := by rw [ipHeaderLen, hfirst]; decide
  have hfrag : ipIsFrag p.m = false := by
    have hhigh : p.m 6 = 0 := rfl
    have hlow : p.m 7 = 0 := rfl
    rw [ipIsFrag, ipOff, hhigh, hlow]
    decide
  have hcaplen : p.caplen = 28 := rfl
  have hhdr : ipVersion p.m = 4 ∧ 20 ≤ ipHeaderLen p.m ∧ ipHeaderLen p.m ≤ p.caplen ∧
      ipIsFrag p.m = false := ⟨hversion, by omega, by omega, hfrag⟩
  have htransport : p.transport = some (ipprotoUdp, 20, 8) :=
    calc p.transport = some (p.m 9, ipHeaderLen p.m, p.caplen - ipHeaderLen p.m) := if_pos hhdr
      _ = some (ipprotoUdp, 20, 8) := by rw [hlen, hcaplen]; rfl
  exact ⟨8, htransport, .inr ⟨rfl, le_rfl⟩⟩

/-- The directions between two hosts are one flow. -/
theorem directions_hosts :
    let p := datagram ![10, 0, 0, 1] ![10, 0, 0, 2] (4, 0)
    (p.reverse 20 ≠ p → OneFlow (p.toFlowrec 28) ((p.reverse 20).toFlowrec 28) 28 28) ↔
      p.src ≠ p.dst ∨ p.m.u16 20 = p.m.u16 22 :=
  directions_iff (datagram_complete _ _ _) 28 28

/-- From 127.0.0.1:1024 to 127.0.0.1:80 and back are two flows. -/
theorem directions_loopback :
    let p := datagram ![127, 0, 0, 1] ![127, 0, 0, 1] (4, 0)
    p.Complete ipprotoUdp 20 ∧ p.reverse 20 ≠ p ∧
      ¬ OneFlow (p.toFlowrec 28) ((p.reverse 20).toFlowrec 28) 28 28 := by
  have hcomplete := datagram_complete ![127, 0, 0, 1] ![127, 0, 0, 1] (4, 0)
  refine ⟨hcomplete, fun hrev => ?_, fun hone => ?_⟩
  · have hbyte : ((datagram ![127, 0, 0, 1] ![127, 0, 0, 1] (4, 0)).reverse 20).m 20 = 4 := by
      rw [hrev]
      rfl
    exact absurd hbyte (by decide)
  · have haddr : (datagram ![127, 0, 0, 1] ![127, 0, 0, 1] (4, 0)).src =
        (datagram ![127, 0, 0, 1] ![127, 0, 0, 1] (4, 0)).dst := by
      funext k
      revert k
      decide
    exact absurd (ports_eq_of_oneFlow hcomplete haddr hone) (by decide)

end IpPacket

end Softflowd
