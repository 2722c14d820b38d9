import NetworkMonitoring.Softflowd.Directions
import NetworkMonitoring.Softflowd.FailedPackets

/-!
# softflowd — packets cut short by the capture

The converters return `-1` for a runt IP header and `1` for a runt extension header or transport
header, and `process_packet` tests for `-1` only. A packet that is cut short behind its IP header is
filed like any other, with what its record holds by then. The ICMP branch of `transport_to_flowrec`
does not look at `caplen` at all.

`IpPacket.reads` lists the offsets at which the converters read, and `packetRecord_congr` says that
nothing else goes into the record. The headers of an IPv6 packet are told apart by `Ipv6Header`s
that follow one another.

## Main results

* `truncatedPackets_iff`: a packet is read within its bounds, and rejected if it is cut short,
  exactly when its IP header is rejected, or when it is not cut short and the ICMP type and code
  have been captured;
* `truncatedPacket_filed`: a packet that is cut short and starts a flow.
-/

namespace Softflowd

open Bytes Function Relation

/-! ## What is read -/

/-- The offsets `transport_to_flowrec` reads. -/
def transportReads (pkt caplen : ℕ) (protocol : UInt8) : List ℕ :=
  if protocol = ipprotoTcp then
    if caplen < 20 then [] else [pkt, pkt + 1, pkt + 2, pkt + 3, pkt + 13]
  else if protocol = ipprotoUdp then
    if caplen < 8 then [] else [pkt, pkt + 1, pkt + 2, pkt + 3]
  else if protocol = ipprotoIcmp then [pkt, pkt + 1]
  else []

/-- The offsets `ipv4_to_flowrec` reads. -/
def ipv4Reads (m : Mem) (caplen : ℕ) : List ℕ :=
  if caplen < 20 then []
  else if caplen < ipHeaderLen m ∨ ipVersion m ≠ 4 then [0]
  else
    -- ip_hl and ip_v, the addresses, ip_p and ip_off
    [0, 9, 6, 7] ++ List.range' 12 8 ++
      if ipIsFrag m && ipHasOffset m then []
      else transportReads (ipHeaderLen m) (caplen - ipHeaderLen m) (m 9)

/-- The offsets the loop of `ipv6_to_flowrec` reads. -/
def ipv6WalkReads (m : Mem) (pkt caplen : ℕ) (nxt : UInt8) : List ℕ :=
  if nxt = 0 ∨ nxt = 43 ∨ nxt = 60 then
    if caplen < 2 then []
    else if caplen < extensionLen m pkt then [pkt + 1]
    else [pkt + 1, pkt] ++
      ipv6WalkReads m (pkt + extensionLen m pkt) (caplen - extensionLen m pkt) (m pkt)
  else if nxt = 44 then
    if caplen < 8 then []
    else if fragmentOffset m pkt ≠ 0 then [pkt + 2, pkt + 3]
    else [pkt + 2, pkt + 3, pkt] ++ ipv6WalkReads m (pkt + 8) (caplen - 8) (m pkt)
  else []
termination_by caplen
decreasing_by
  · rename_i hlen
    simp only [extensionLen] at hlen ⊢
    omega
  · omega

/-- The offsets `ipv6_to_flowrec` reads. -/
def ipv6Reads (m : Mem) (caplen : ℕ) : List ℕ :=
  if caplen < 40 then []
  else if (m 0).toNat / 16 ≠ 6 then [0]
  else
    -- ip6_flow, the addresses and ip6_nxt
    List.range 4 ++ List.range' 8 32 ++ [6] ++ ipv6WalkReads m 40 (caplen - 40) (m 6) ++
      match ipv6Walk m 40 (caplen - 40) (m 6) false with
      | .ret _ _ => []
      | .transport nxt pkt caplen _ => transportReads pkt caplen nxt

/-- The offsets the converter for a packet reads. -/
def IpPacket.reads (p : IpPacket) : List ℕ :=
  match p.version with
  | .v4 => ipv4Reads p.m p.caplen
  | .v6 => ipv6Reads p.m p.caplen

/-! ## What the records depend on -/

section Congr

variable {m m' : Mem} {caplen : ℕ}

/-- The transport header is read at `transportReads` alone. -/
theorem transportToFlowrec_congr (flow : Flow) {pkt : ℕ} (isfrag : Bool) {protocol : UInt8}
    (ndx : Dir) (h : ∀ i ∈ transportReads pkt caplen protocol, m' i = m i) :
    transportToFlowrec flow m' pkt caplen isfrag protocol ndx =
      transportToFlowrec flow m pkt caplen isfrag protocol ndx := by
  unfold transportReads at h
  unfold transportToFlowrec
  split
  · split
    · rfl
    · rename_i htcp hlen
      rw [if_pos htcp, if_neg hlen] at h
      simp [Mem.u16, h]
  · rename_i htcp
    rw [if_neg htcp] at h
    split
    · split
      · rfl
      · rename_i hudp hlen
        rw [if_pos hudp, if_neg hlen] at h
        simp [Mem.u16, h]
    · rename_i hudp
      rw [if_neg hudp] at h
      split
      · rename_i hicmp
        rw [if_pos hicmp] at h
        simp [h]
      · rfl

/-- A packet whose IPv4 header is cut short, or of another version, is bad. -/
theorem ipv4ToFlowrec_eq_none (flow : Flow) (len : UInt32) (af : ℤ)
    (h : caplen < 20 ∨ caplen < ipHeaderLen m ∨ ipVersion m ≠ 4) :
    ipv4ToFlowrec flow m caplen len af = none := by
  unfold ipv4ToFlowrec
  split
  · rfl
  · rename_i hrunt
    rw [if_pos (by tauto)]

/-- Packets that are no packets of IPv6. -/
theorem ipv6ToFlowrec_eq_none (flow : Flow) (len : UInt32) (af : ℤ)
    (h : caplen < 40 ∨ (m 0).toNat / 16 ≠ 6) :
    ipv6ToFlowrec flow m caplen len af = none := by
  unfold ipv6ToFlowrec
  split
  · rfl
  · rename_i hrunt
    rw [if_pos (h.resolve_left hrunt)]

/-- An array of bytes is read at its offsets alone. -/
theorem octets_congr {i n : ℕ} (h : ∀ k, i ≤ k → k < i + n → m' k = m k) :
    m'.octets i n = m.octets i n :=
  funext fun k => h (i + k) (by omega) (by omega)

/-- A packet of IPv4 is read at `ipv4Reads` alone. -/
theorem ipv4ToFlowrec_congr (flow : Flow) (len : UInt32) (af : ℤ)
    (h : ∀ i ∈ ipv4Reads m caplen, m' i = m i) :
    ipv4ToFlowrec flow m' caplen len af = ipv4ToFlowrec flow m caplen len af := by
  by_cases hlen : caplen < 20
  · rw [ipv4ToFlowrec_eq_none _ _ _ (.inl hlen), ipv4ToFlowrec_eq_none _ _ _ (.inl hlen)]
  · rw [ipv4Reads, if_neg hlen] at h
    -- the first byte decides which others are read
    have h0 : m' 0 = m 0 := h 0 (by split <;> simp)
    have hhl : ipHeaderLen m' = ipHeaderLen m := by rw [ipHeaderLen, ipHeaderLen, h0]
    have hv : ipVersion m' = ipVersion m := by rw [ipVersion, ipVersion, h0]
    by_cases hhdr : caplen < ipHeaderLen m ∨ ipVersion m ≠ 4
    · have hhdr' : caplen < ipHeaderLen m' ∨ ipVersion m' ≠ 4 := by rwa [hhl, hv]
      rw [ipv4ToFlowrec_eq_none _ _ _ (.inr hhdr), ipv4ToFlowrec_eq_none _ _ _ (.inr hhdr')]
    · rw [if_neg hhdr] at h
      have hsrc : m'.octets 12 4 = m.octets 12 4 :=
        octets_congr fun k hk hk' => h k (by simp; omega)
      have hdst : m'.octets 16 4 = m.octets 16 4 :=
        octets_congr fun k hk hk' => h k (by simp; omega)
      have h9 : m' 9 = m 9 := h 9 (by simp)
      have hoff : ipOff m' = ipOff m := by
        rw [ipOff, ipOff, h 6 (by simp), h 7 (by simp)]
      have hfrag : ipIsFrag m' = ipIsFrag m := by rw [ipIsFrag, ipIsFrag, hoff]
      have hpos : ipHasOffset m' = ipHasOffset m := by rw [ipHasOffset, ipHasOffset, hoff]
      unfold ipv4ToFlowrec
      rw [hhl, hv, hfrag, hpos, hsrc, hdst, h9]
      split
      · rfl
      · split
        · rfl
        · dsimp only
          split
          · rfl
          · rename_i hlater
            rw [if_neg hlater] at h
            rw [transportToFlowrec_congr _ _ _ fun i hi => h i (List.mem_append_right _ hi)]

/-- The walk depends on the bytes it reads. -/
theorem ipv6Walk_congr_reads {pkt : ℕ} {nxt : UInt8} {isfrag : Bool}
    (h : ∀ i ∈ ipv6WalkReads m pkt caplen nxt, m' i = m i) :
    ipv6Walk m' pkt caplen nxt isfrag = ipv6Walk m pkt caplen nxt isfrag := by
  induction pkt, caplen, nxt, isfrag using ipv6Walk.induct (m := m) with
  | case1 pkt caplen nxt isfrag hext hrunt =>
    have hlen : caplen < extensionLen m pkt := lt_extensionLen_iff.mpr hrunt
    rw [ipv6WalkReads, if_pos hext] at h
    have hlen' : caplen < extensionLen m' pkt := by
      -- the length of the header is read only when its byte has been captured
      by_cases hmin : caplen < 2
      · exact lt_extensionLen_iff.mpr (.inl hmin)
      · rw [if_neg hmin, if_pos hlen] at h
        rwa [extensionLen, h (pkt + 1) (by simp)]
    rw [ipv6Walk_extensionRunt hext hlen, ipv6Walk_extensionRunt hext hlen']
  | case2 pkt caplen nxt isfrag hext hrunt ih =>
    have hlen : ¬ caplen < extensionLen m pkt := lt_extensionLen_iff.not.mpr hrunt
    rw [ipv6WalkReads, if_pos hext, if_neg (not_or.mp hrunt).1, if_neg hlen] at h
    have hlen' : extensionLen m' pkt = extensionLen m pkt := by
      rw [extensionLen, extensionLen, h (pkt + 1) (by simp)]
    rw [ipv6Walk_extension hext (not_lt.mp hlen), ipv6Walk_extension hext (by omega), hlen',
      h pkt (by simp)]
    exact ih fun i hi => h i (List.mem_append_right _ hi)
  | case3 pkt caplen isfrag hrunt hext =>
    rw [ipv6Walk_fragmentRunt hrunt, ipv6Walk_fragmentRunt hrunt]
  | case4 pkt caplen isfrag hrunt hlater hext =>
    have hoff : fragmentOffset m pkt ≠ 0 := hlater
    rw [ipv6WalkReads, if_neg hext, if_pos rfl, if_neg hrunt, if_pos hoff] at h
    have hoff' : fragmentOffset m' pkt = fragmentOffset m pkt := by
      rw [fragmentOffset, fragmentOffset, h (pkt + 2) (by simp), h (pkt + 3) (by simp)]
    rw [ipv6Walk_laterFragment (not_lt.mp hrunt) hoff,
      ipv6Walk_laterFragment (not_lt.mp hrunt) (hoff'.trans_ne hoff)]
  | case5 pkt caplen isfrag hrunt hlater hext ih =>
    have hfirst : fragmentOffset m pkt = 0 := not_not.mp hlater
    rw [ipv6WalkReads, if_neg hext, if_pos rfl, if_neg hrunt, if_neg (not_not.mpr hfirst)] at h
    have hoff' : fragmentOffset m' pkt = fragmentOffset m pkt := by
      rw [fragmentOffset, fragmentOffset, h (pkt + 2) (by simp), h (pkt + 3) (by simp)]
    rw [ipv6Walk_firstFragment (not_lt.mp hrunt) hfirst,
      ipv6Walk_firstFragment (not_lt.mp hrunt) (hoff'.trans hfirst), h pkt (by simp)]
    exact ih fun i hi => h i (List.mem_append_right _ hi)
  | case6 pkt caplen nxt isfrag hext hfrag =>
    rw [ipv6Walk_transport hext hfrag, ipv6Walk_transport hext hfrag]

/-- A packet of IPv6 is read at `ipv6Reads` alone. -/
theorem ipv6ToFlowrec_congr (flow : Flow) (len : UInt32) (af : ℤ)
    (h : ∀ i ∈ ipv6Reads m caplen, m' i = m i) :
    ipv6ToFlowrec flow m' caplen len af = ipv6ToFlowrec flow m caplen len af := by
  by_cases hlen : caplen < 40
  · rw [ipv6ToFlowrec_eq_none _ _ _ (.inl hlen), ipv6ToFlowrec_eq_none _ _ _ (.inl hlen)]
  rw [ipv6Reads, if_neg hlen] at h
  by_cases hversion : (m 0).toNat / 16 ≠ 6
  · rw [if_pos hversion] at h
    have hversion' : (m' 0).toNat / 16 ≠ 6 := by rwa [h 0 (by simp)]
    rw [ipv6ToFlowrec_eq_none _ _ _ (.inr hversion), ipv6ToFlowrec_eq_none _ _ _ (.inr hversion')]
  · rw [if_neg hversion] at h
    -- the bytes of the fixed header but the payload length and the hop limit
    -- are read, then those of the walk and of the transport header
    have hhead : ∀ i, i < 4 ∨ 8 ≤ i ∧ i < 40 ∨ i = 6 → m' i = m i := fun i hi =>
      h i (by simp; omega)
    have hlabel : m'.u32 0 = m.u32 0 := by
      simp [Mem.u32, hhead]
    have hsrc : m'.octets 8 16 = m.octets 8 16 :=
      octets_congr fun k hk hk' => hhead k (by omega)
    have hdst : m'.octets 24 16 = m.octets 24 16 :=
      octets_congr fun k hk hk' => hhead k (by omega)
    have hwalk : ipv6Walk m' 40 (caplen - 40) (m 6) false =
        ipv6Walk m 40 (caplen - 40) (m 6) false :=
      ipv6Walk_congr_reads fun i hi =>
        h i (List.mem_append_left _ (List.mem_append_right _ hi))
    unfold ipv6ToFlowrec
    rw [if_neg hlen, if_neg hlen, hhead 0 (by omega), if_neg hversion, if_neg hversion,
      hhead 6 (by omega), hlabel, hsrc, hdst]
    dsimp only
    rw [hwalk]
    split
    · rfl
    · rename_i hend
      rw [hend] at h
      rw [transportToFlowrec_congr _ _ _ fun i hi => h i (List.mem_append_right _ hi)]

/-- A packet is read at `reads` alone. -/
theorem IpPacket.toFlowrec_congr (p : IpPacket) (len : UInt32) (h : ∀ i ∈ p.reads, m' i = p.m i) :
    ({ p with m := m' } : IpPacket).toFlowrec len = p.toFlowrec len := by
  obtain ⟨version, m, caplen⟩ := p
  cases version with
  | v4 => exact ipv4ToFlowrec_congr _ _ _ h
  | v6 => exact ipv6ToFlowrec_congr _ _ _ h

end Congr

/-! ## The headers of an IPv6 packet -/

/-- A header behind the IPv6 header: where it starts, what has been captured from there on, its
protocol, and whether there is a fragment header before it. -/
structure Ipv6Header where
  pkt : ℕ
  rest : ℕ
  nxt : UInt8
  isfrag : Bool
  deriving DecidableEq, Repr

namespace Ipv6Header

/-- The header behind the IPv6 header. -/
def first (m : Mem) (caplen : ℕ) : Ipv6Header := ⟨40, caplen - 40, m 6, false⟩

/-- A Hop-by-Hop Options, Routing or Destination Options header. -/
def IsExtension (h : Ipv6Header) : Prop := h.nxt = 0 ∨ h.nxt = 43 ∨ h.nxt = 60

/-- A header that has been captured completely is followed by another one. -/
inductive Follows (m : Mem) : Ipv6Header → Ipv6Header → Prop
  | extension {h : Ipv6Header} (hext : h.IsExtension) (hlen : extensionLen m h.pkt ≤ h.rest) :
    Follows m h
      ⟨h.pkt + extensionLen m h.pkt, h.rest - extensionLen m h.pkt, m h.pkt, h.isfrag⟩
  | fragment {h : Ipv6Header} (hfrag : h.nxt = 44) (hlen : 8 ≤ h.rest)
    (hoff : fragmentOffset m h.pkt = 0) :
    Follows m h ⟨h.pkt + 8, h.rest - 8, m h.pkt, true⟩

/-- The loop of `ipv6_to_flowrec` from a header on. -/
def walk (m : Mem) (h : Ipv6Header) : Ipv6Walk := ipv6Walk m h.pkt h.rest h.nxt h.isfrag

variable {m : Mem} {h h' : Ipv6Header}

/-- The walk goes on from the next header. -/
theorem Follows.walk_eq (hstep : Follows m h h') : h.walk m = h'.walk m := by
  cases hstep with
  | extension hext hlen => exact ipv6Walk_extension hext hlen
  | fragment hfrag hlen hoff =>
    rw [walk, hfrag]
    exact ipv6Walk_firstFragment hlen hoff

/-- All headers end where the captured bytes end. -/
theorem Follows.end_eq (hstep : Follows m h h') : h'.pkt + h'.rest = h.pkt + h.rest := by
  cases hstep with
  | extension hext hlen =>
    dsimp only
    omega
  | fragment hfrag hlen hoff =>
    dsimp only
    omega

/-- The walk goes on from each header that it comes to. -/
theorem walk_eq_of_reaches (hreach : ReflTransGen (Follows m) h h') : h.walk m = h'.walk m := by
  induction hreach with
  | refl => rfl
  | tail _ hstep ih => exact ih.trans hstep.walk_eq

/-- The end of the packet does not move. -/
theorem end_eq_of_reaches (hreach : ReflTransGen (Follows m) h h') :
    h'.pkt + h'.rest = h.pkt + h.rest := by
  induction hreach with
  | refl => rfl
  | tail _ hstep ih => exact hstep.end_eq.trans ih

/-- The header at which the walk stops. -/
theorem exists_last (m : Mem) (h : Ipv6Header) : ∃ h', ReflTransGen (Follows m) h h' ∧
    (h'.IsExtension ∧ h'.rest < extensionLen m h'.pkt ∨
      h'.nxt = 44 ∧ (h'.rest < 8 ∨ fragmentOffset m h'.pkt ≠ 0) ∨
      ¬ h'.IsExtension ∧ h'.nxt ≠ 44) := by
  obtain ⟨pkt, rest, nxt, isfrag⟩ := h
  induction pkt, rest, nxt, isfrag using ipv6Walk.induct (m := m) with
  | case1 pkt rest nxt isfrag hext hrunt =>
    exact ⟨_, .refl, .inl ⟨hext, lt_extensionLen_iff.mpr hrunt⟩⟩
  | case2 pkt rest nxt isfrag hext hrunt ih =>
    obtain ⟨h', hreach, hend⟩ := ih
    have hlen : ¬ rest < extensionLen m pkt := lt_extensionLen_iff.not.mpr hrunt
    exact ⟨h', .head (.extension hext (not_lt.mp hlen)) hreach, hend⟩
  | case3 pkt rest isfrag hrunt hext => exact ⟨_, .refl, .inr (.inl ⟨rfl, .inl hrunt⟩)⟩
  | case4 pkt rest isfrag hrunt hoff hext => exact ⟨_, .refl, .inr (.inl ⟨rfl, .inr hoff⟩)⟩
  | case5 pkt rest isfrag hrunt hoff hext ih =>
    obtain ⟨h', hreach, hend⟩ := ih
    exact ⟨h', .head (.fragment rfl (not_lt.mp hrunt) (not_not.mp hoff)) hreach, hend⟩
  | case6 pkt rest nxt isfrag hext hfrag => exact ⟨_, .refl, .inr (.inr ⟨hext, hfrag⟩)⟩

/-- The walk stops at an extension header that is cut off. -/
theorem walk_extensionRunt (hext : h.IsExtension) (hlen : h.rest < extensionLen m h.pkt) :
    h.walk m = .ret 1 h.isfrag :=
  ipv6Walk_extensionRunt hext hlen

/-- The walk stops at a fragment that is not the first one. -/
theorem walk_fragment (hfrag : h.nxt = 44) (hend : h.rest < 8 ∨ fragmentOffset m h.pkt ≠ 0) :
    ∃ r, h.walk m = .ret r true := by
  rw [walk, hfrag]
  by_cases hlen : h.rest < 8
  · exact ⟨1, ipv6Walk_fragmentRunt hlen⟩
  · exact ⟨0, ipv6Walk_laterFragment (not_lt.mp hlen) (hend.resolve_left hlen)⟩

/-- The walk stops at a transport header. -/
theorem walk_transport (hext : ¬ h.IsExtension) (hfrag : h.nxt ≠ 44) :
    h.walk m = .transport h.nxt h.pkt h.rest h.isfrag :=
  ipv6Walk_transport hext hfrag

/-- The loop comes to a transport header when complete headers lead to it. -/
theorem walk_eq_transport_iff {nxt : UInt8} {pkt rest : ℕ} {isfrag : Bool} :
    h.walk m = .transport nxt pkt rest isfrag ↔
      ReflTransGen (Follows m) h ⟨pkt, rest, nxt, isfrag⟩ ∧
        ¬ (nxt = 0 ∨ nxt = 43 ∨ nxt = 60) ∧ nxt ≠ 44 := by
  constructor
  · intro hwalk
    obtain ⟨h', hreach, ⟨hext, hlen⟩ | ⟨hfrag, hend⟩ | ⟨hext, hfrag⟩⟩ := exists_last m h
    · rw [walk_eq_of_reaches hreach, walk_extensionRunt hext hlen] at hwalk
      cases hwalk
    · obtain ⟨r, hret⟩ := walk_fragment hfrag hend
      rw [walk_eq_of_reaches hreach, hret] at hwalk
      cases hwalk
    · rw [walk_eq_of_reaches hreach, walk_transport hext hfrag] at hwalk
      obtain ⟨rfl, rfl, rfl, rfl⟩ := Ipv6Walk.transport.inj hwalk
      exact ⟨hreach, hext, hfrag⟩
  · rintro ⟨hreach, hext, hfrag⟩
    exact (walk_eq_of_reaches hreach).trans (ipv6Walk_transport hext hfrag)

/-- A transport header to which complete headers lead is the one the loop comes to. -/
theorem exists_transport_iff {P : Ipv6Header → Prop}
    (hP : ∀ h, P h → ¬ h.IsExtension ∧ h.nxt ≠ 44) :
    (∃ h', ReflTransGen (Follows m) h h' ∧ P h') ↔ ∃ nxt pkt rest isfrag,
      h.walk m = .transport nxt pkt rest isfrag ∧ P ⟨pkt, rest, nxt, isfrag⟩ := by
  constructor
  · rintro ⟨h', hreach, hh'⟩
    exact ⟨_, _, _, _, walk_eq_transport_iff.mpr ⟨hreach, hP h' hh'⟩, hh'⟩
  · rintro ⟨nxt, pkt, rest, isfrag, hwalk, hend⟩
    exact ⟨_, (walk_eq_transport_iff.mp hwalk).1, hend⟩

/-- The loop takes a packet for a runt, and not for a fragment, when complete headers lead to an
extension header that is cut short. -/
theorem walk_eq_runt_iff :
    h.walk m = .ret 1 false ↔ ∃ h', ReflTransGen (Follows m) h h' ∧ h'.isfrag = false ∧
      h'.IsExtension ∧ h'.rest < extensionLen m h'.pkt := by
  constructor
  · intro hwalk
    obtain ⟨h', hreach, ⟨hext, hlen⟩ | ⟨hfrag, hend⟩ | ⟨hext, hfrag⟩⟩ := exists_last m h
    · rw [walk_eq_of_reaches hreach, walk_extensionRunt hext hlen] at hwalk
      exact ⟨h', hreach, (Ipv6Walk.ret.inj hwalk).2, hext, hlen⟩
    · obtain ⟨r, hret⟩ := walk_fragment hfrag hend
      rw [walk_eq_of_reaches hreach, hret] at hwalk
      cases hwalk
    · rw [walk_eq_of_reaches hreach, walk_transport hext hfrag] at hwalk
      cases hwalk
  · rintro ⟨h', hreach, hfrag, hext, hlen⟩
    rw [walk_eq_of_reaches hreach, walk_extensionRunt hext hlen, hfrag]

end Ipv6Header

/-! ## Packets that are cut short -/

/-- The size of the header that `transport_to_flowrec` takes for complete. -/
def runtLen (protocol : UInt8) : ℕ :=
  if protocol = ipprotoTcp then 20 else if protocol = ipprotoUdp then 8 else 0

/-- `sizeof (struct tcphdr)`, `sizeof (struct udphdr)` and `ICMP_MINLEN`. -/
def transportHeaderLen (protocol : UInt8) : ℕ :=
  if protocol = ipprotoIcmp then 8 else runtLen protocol

/-- Only TCP and UDP headers are taken for runts. -/
theorem eq_of_lt_runtLen {protocol : UInt8} {n : ℕ} (h : n < runtLen protocol) :
    protocol = ipprotoTcp ∨ protocol = ipprotoUdp := by
  unfold runtLen at h
  split_ifs at h with htcp hudp
  · exact .inl htcp
  · exact .inr hudp
  · cases h

namespace IpPacket

variable (p : IpPacket)

/-- The IP header is cut short. -/
def IpHeaderCut : Prop :=
  match p.version with
  | .v4 => p.caplen < 20 ∨ p.caplen < ipHeaderLen p.m
  | .v6 => p.caplen < 40

/-- The packet cannot be read as one of its version. -/
def HeaderRejected : Prop :=
  p.IpHeaderCut ∨
    match p.version with
    | .v4 => ipVersion p.m ≠ 4
    | .v6 => (p.m 0).toNat / 16 ≠ 6

/-- Behind a complete IP header a packet that is not a fragment is cut short, in an extension header
or in the transport header, whose size is given by its protocol. -/
def CutBehind (headerLen : UInt8 → ℕ) : Prop :=
  match p.version with
  | .v4 => ipIsFrag p.m = false ∧ p.caplen - ipHeaderLen p.m < headerLen (p.m 9)
  | .v6 => ∃ h, ReflTransGen (Ipv6Header.Follows p.m) (.first p.m p.caplen) h ∧
      h.isfrag = false ∧
      (h.IsExtension ∧ h.rest < extensionLen p.m h.pkt ∨ h.rest < headerLen h.nxt)

/-- The packet is cut short by `caplen`, and not a fragment as far as it has been captured. -/
def CutShort : Prop := p.IpHeaderCut ∨ p.CutBehind transportHeaderLen

/-- The ICMP type and code that are examined have not been captured. -/
def IcmpMissing : Prop :=
  match p.version with
  | .v4 => (ipIsFrag p.m && ipHasOffset p.m) = false ∧ p.m 9 = ipprotoIcmp ∧
      p.caplen - ipHeaderLen p.m < 2
  | .v6 => ∃ h, ReflTransGen (Ipv6Header.Follows p.m) (.first p.m p.caplen) h ∧
      h.nxt = ipprotoIcmp ∧ h.rest < 2

variable {p}

/-- Exactly these packets are bad. -/
theorem toFlowrec_eq_none_iff (len : UInt32) : p.toFlowrec len = none ↔ p.HeaderRejected := by
  obtain ⟨version, m, caplen⟩ := p
  cases version with
  | v4 =>
    refine ⟨fun hnone => ?_, fun h => ipv4ToFlowrec_eq_none _ _ _ (or_assoc.mp h)⟩
    simp only [toFlowrec, ipv4ToFlowrec] at hnone
    split_ifs at hnone with hrunt hversion
    · exact .inl hrunt
    · exact .inr hversion
  | v6 =>
    refine ⟨fun hnone => ?_, fun h => ipv6ToFlowrec_eq_none _ _ _ h⟩
    simp only [toFlowrec, ipv6ToFlowrec] at hnone
    split_ifs at hnone with hrunt hversion
    · exact .inl hrunt
    · exact .inr hversion
    · split at hnone <;> cases hnone

/-! ## Bounds -/

/-- The transport header is read within the packet, but for the type and code of ICMP. -/
theorem transportReads_lt_iff (pkt caplen : ℕ) (protocol : UInt8) :
    (∀ i ∈ transportReads pkt caplen protocol, i < pkt + caplen) ↔
      ¬ (protocol = ipprotoIcmp ∧ caplen < 2) := by
  have htcp : ipprotoTcp ≠ ipprotoIcmp := by decide
  have hudp : ipprotoUdp ≠ ipprotoIcmp := by decide
  unfold transportReads
  split_ifs with h1 h2 h3 h4 h5
  · simp [h1, htcp]
  · simp [h1, htcp]
    omega
  · simp [h3, hudp]
  · simp [h3, hudp]
    omega
  · simp [h5]
    omega
  · simp [h5]

/-- The loop of `ipv6_to_flowrec` stays within the packet. -/
theorem lt_of_mem_ipv6WalkReads {m : Mem} {pkt caplen : ℕ} {nxt : UInt8} {i : ℕ}
    (hi : i ∈ ipv6WalkReads m pkt caplen nxt) : i < pkt + caplen := by
  fun_induction ipv6WalkReads m pkt caplen nxt with
  | case1 => cases hi
  | case2 =>
    rw [List.mem_singleton] at hi
    omega
  | case3 pkt caplen nxt hext hmin hlen ih =>
    rcases List.mem_append.mp hi with hi | hi
    · simp only [List.mem_cons, List.not_mem_nil, or_false] at hi
      omega
    · have := ih hi
      omega
  | case4 => cases hi
  | case5 =>
    simp only [List.mem_cons, List.not_mem_nil, or_false] at hi
    omega
  | case6 pkt caplen hmin hoff hext ih =>
    rcases List.mem_append.mp hi with hi | hi
    · simp only [List.mem_cons, List.not_mem_nil, or_false] at hi
      omega
    · have := ih hi
      omega
  | case7 => cases hi

/-- A header that is rejected has not been read behind the packet. -/
theorem reads_lt_of_headerRejected (h : p.HeaderRejected) : ∀ i ∈ p.reads, i < p.caplen := by
  obtain ⟨version, m, caplen⟩ := p
  cases version with
  | v4 =>
    by_cases hrunt : caplen < 20
    · simp [reads, ipv4Reads, hrunt]
    · have hhdr : caplen < ipHeaderLen m ∨ ipVersion m ≠ 4 := (or_assoc.mp h).resolve_left hrunt
      simp only [reads, ipv4Reads, if_neg hrunt, if_pos hhdr, List.forall_mem_singleton]
      omega
  | v6 =>
    by_cases hrunt : caplen < 40
    · simp [reads, ipv6Reads, hrunt]
    · have hversion : (m 0).toNat / 16 ≠ 6 := h.resolve_left hrunt
      simp only [reads, ipv6Reads, if_neg hrunt, if_pos hversion, List.forall_mem_singleton]
      omega

/-- A packet that is not rejected is read within its bounds, but for the type and code of ICMP. -/
theorem reads_lt_iff (h : ¬ p.HeaderRejected) :
    (∀ i ∈ p.reads, i < p.caplen) ↔ ¬ p.IcmpMissing := by
  obtain ⟨version, m, caplen⟩ := p
  obtain ⟨hcut, hversion⟩ := not_or.mp h
  cases version with
  | v4 =>
    obtain ⟨hmin, hlen⟩ := not_or.mp (show ¬ (caplen < 20 ∨ caplen < ipHeaderLen m) from hcut)
    have hhdr : ¬ (caplen < ipHeaderLen m ∨ ipVersion m ≠ 4) := not_or.mpr ⟨hlen, hversion⟩
    -- the IP header is complete, so the bound is that of the transport header
    have hhead : ∀ i ∈ [0, 9, 6, 7] ++ List.range' 12 8, i < caplen := by
      intro i hi
      have : i < 20 := by
        revert i
        decide
      omega
    have htransport := transportReads_lt_iff (ipHeaderLen m) (caplen - ipHeaderLen m) (m 9)
    rw [Nat.add_sub_cancel' (not_lt.mp hlen)] at htransport
    simp only [reads, ipv4Reads, if_neg hmin, if_neg hhdr, IcmpMissing]
    rw [List.forall_mem_append, and_iff_right hhead]
    cases hlater : ipIsFrag m && ipHasOffset m with
    | false => simpa using htransport
    | true => simp
  | v6 =>
    have hmin : ¬ caplen < 40 := hcut
    have hhead : ∀ i ∈ List.range 4 ++ List.range' 8 32 ++ [6], i < caplen := by
      intro i hi
      have : i < 40 := by
        revert i
        decide
      omega
    have hwalk : ∀ i ∈ ipv6WalkReads m 40 (caplen - 40) (m 6), i < caplen := by
      intro i hi
      have := lt_of_mem_ipv6WalkReads hi
      omega
    simp only [reads, ipv6Reads, if_neg hmin, if_neg hversion, IcmpMissing]
    rw [List.forall_mem_append, List.forall_mem_append, and_iff_right hhead, and_iff_right hwalk]
    -- where an ICMP header is missing, the walk comes to it
    have hmissing : (∃ h, ReflTransGen (Ipv6Header.Follows m) (.first m caplen) h ∧
        h.nxt = ipprotoIcmp ∧ h.rest < 2) ↔ ∃ nxt pkt rest isfrag,
          ipv6Walk m 40 (caplen - 40) (m 6) false = .transport nxt pkt rest isfrag ∧
            nxt = ipprotoIcmp ∧ rest < 2 := by
      refine Ipv6Header.exists_transport_iff fun h hicmp => ?_
      rw [Ipv6Header.IsExtension, hicmp.1]
      decide
    rw [hmissing]
    cases hend : ipv6Walk m 40 (caplen - 40) (m 6) false with
    | ret r isfrag => simp
    | transport nxt pkt rest isfrag =>
      have hwalk' : (Ipv6Header.first m caplen).walk m = .transport nxt pkt rest isfrag := hend
      have hlen : pkt + rest = 40 + (caplen - 40) :=
        Ipv6Header.end_eq_of_reaches (Ipv6Header.walk_eq_transport_iff.mp hwalk').1
      have htransport := transportReads_lt_iff pkt rest nxt
      rw [hlen, Nat.add_sub_cancel' (not_lt.mp hmin)] at htransport
      simpa using htransport

/-! ## The return value of the converters -/

/-- A transport header that is cut off makes a runt, except in a fragment. -/
theorem transportToFlowrec_fst (flow : Flow) (m : Mem) (pkt caplen : ℕ) (isfrag : Bool)
    (protocol : UInt8) (ndx : Dir) :
    (transportToFlowrec flow m pkt caplen isfrag protocol ndx).1 =
      if caplen < runtLen protocol ∧ isfrag = false then 1 else 0 := by
  unfold transportToFlowrec runtLen
  split_ifs <;> simp_all

/-- A record makes a runt, whatever the flow. -/
theorem exists_runt_iff {x : ℤ × Flow} {isfrag : Bool} :
    (∃ f, (match x with | (r, flow) => some (r, flow, isfrag)) = some (1, f, false)) ↔
      x.1 = 1 ∧ isfrag = false := by
  obtain ⟨r, flow⟩ := x
  simp

/-- The converters return `1` for a packet that is cut short behind its IP header, if it is not a
fragment. A short ICMP header is none to them. -/
theorem toFlowrec_eq_one_iff (h : ¬ p.HeaderRejected) (len : UInt32) :
    (∃ f, p.toFlowrec len = some (1, f, false)) ↔ p.CutBehind runtLen := by
  obtain ⟨version, m, caplen⟩ := p
  obtain ⟨hcut, hversion⟩ := not_or.mp h
  cases version with
  | v4 =>
    have hrunt : ¬ (caplen < 20 ∨ caplen < ipHeaderLen m) := hcut
    simp only [toFlowrec, ipv4ToFlowrec, if_neg hrunt, if_neg hversion, CutBehind]
    split
    · rename_i hlater
      have hfrag : ipIsFrag m = true := ((Bool.and_eq_true _ _).mp hlater).1
      simp [hfrag]
    · rw [exists_runt_iff, transportToFlowrec_fst]
      cases ipIsFrag m <;> simp
  | v6 =>
    have hrunt : ¬ caplen < 40 := hcut
    simp only [toFlowrec, ipv6ToFlowrec, if_neg hrunt, if_neg hversion, CutBehind]
    -- the walk ends in an extension header that is cut short, or in a transport header
    have hsplit : (∃ h, ReflTransGen (Ipv6Header.Follows m) (.first m caplen) h ∧
        h.isfrag = false ∧
        (h.IsExtension ∧ h.rest < extensionLen m h.pkt ∨ h.rest < runtLen h.nxt)) ↔
        (Ipv6Header.first m caplen).walk m = .ret 1 false ∨
        ∃ nxt pkt rest isfrag, (Ipv6Header.first m caplen).walk m =
          .transport nxt pkt rest isfrag ∧ isfrag = false ∧ rest < runtLen nxt := by
      rw [Ipv6Header.walk_eq_runt_iff,
        ← Ipv6Header.exists_transport_iff (P := fun h => h.isfrag = false ∧ h.rest < runtLen h.nxt)]
      · rw [← exists_or]
        exact exists_congr fun h => by tauto
      · intro h hlen
        rcases eq_of_lt_runtLen hlen.2 with hnxt | hnxt
        · rw [Ipv6Header.IsExtension, hnxt]
          decide
        · rw [Ipv6Header.IsExtension, hnxt]
          decide
    have hwalk : (Ipv6Header.first m caplen).walk m =
        ipv6Walk m 40 (caplen - 40) (m 6) false := rfl
    rw [hsplit, hwalk]
    cases ipv6Walk m 40 (caplen - 40) (m 6) false with
    | ret r isfrag => simp
    | transport nxt pkt rest isfrag =>
      dsimp only
      rw [exists_runt_iff, transportToFlowrec_fst]
      cases isfrag <;> simp

end IpPacket

/-! ## process_packet -/

/-- The packet of which `caplen` bytes have been captured. -/
abbrev IpPacket.captured (v : IpVersion) (m : Mem) (caplen : UInt32) : IpPacket :=
  ⟨v, m, caplen.toNat⟩

variable {ft ft' : FlowTrack} {alloc : Alloc} {received : Timeval}

/-- The packet is counted as bad, and the table stays as it is. -/
def FlowTrack.Rejects (ft : FlowTrack) (x : Except Fault (PpResult × FlowTrack)) : Prop :=
  ∃ ft', x = .ok (.badPacket, ft') ∧ ft'.badPackets = ft.badPackets + 1 ∧ ft.SameTable ft'

/-- A record is filed, or there is no memory for it. -/
theorem fileRecord_ne_badPacket {tmp : Flow} :
    ft.fileRecord tmp alloc received ≠ .ok (.badPacket, ft') := by
  intro h
  unfold FlowTrack.fileRecord at h
  split at h
  · split at h
    · cases h
    · obtain ⟨ft₁, -, hret⟩ := ErrorLoops.bind_eq_ok.mp h
      cases hret
  · obtain ⟨ft₁, -, hret⟩ := ErrorLoops.bind_eq_ok.mp h
    cases hret

/-- The converter is chosen by the version. -/
theorem packetRecord_eq (v : IpVersion) (m : Mem) (caplen len : UInt32) :
    FlowTrack.packetRecord m (IpPacket.af v) caplen len =
      ((IpPacket.captured v m caplen).toFlowrec len).map fun (_, tmp, frag) => (tmp, frag) := by
  cases v with
  | v4 => rfl
  | v6 => rfl

/-- The record of a packet depends only on the bytes that are read. -/
theorem packetRecord_congr (v : IpVersion) {m m' : Mem} {caplen : UInt32} (len : UInt32)
    (h : ∀ i ∈ (IpPacket.captured v m caplen).reads, m' i = m i) :
    FlowTrack.packetRecord m' (IpPacket.af v) caplen len =
      FlowTrack.packetRecord m (IpPacket.af v) caplen len := by
  rw [packetRecord_eq, packetRecord_eq]
  exact congrArg _ (IpPacket.toFlowrec_congr (.captured v m caplen) len h)

/-- Exactly the packets with a bad IP header are rejected, whatever the table. -/
theorem rejects_iff (ft : FlowTrack) (alloc : Alloc) (v : IpVersion) (m : Mem)
    (caplen len : UInt32) (received : Timeval) :
    ft.Rejects (ft.processPacket alloc m (IpPacket.af v) caplen len received) ↔
      (IpPacket.captured v m caplen).HeaderRejected := by
  rw [← IpPacket.toFlowrec_eq_none_iff len]
  unfold FlowTrack.processPacket
  dsimp only
  rw [packetRecord_eq]
  cases (IpPacket.captured v m caplen).toFlowrec len with
  | none => exact iff_of_true ⟨_, rfl, rfl, rfl, rfl, rfl⟩ rfl
  | some record =>
    refine iff_of_false ?_ (by simp)
    rintro ⟨ft', h, -⟩
    exact fileRecord_ne_badPacket h

/-- **Truncated packets.** A packet is read within its bounds, and rejected if it is cut short,
exactly when its IP header is rejected, or when it is not cut short and the ICMP type and code that
are examined have been captured. -/
theorem truncatedPackets_iff (ft : FlowTrack) (alloc : Alloc) (v : IpVersion) (m : Mem)
    (caplen len : UInt32) (received : Timeval) :
    ((∀ i ∈ (IpPacket.captured v m caplen).reads, i < caplen.toNat) ∧
      ((IpPacket.captured v m caplen).CutShort →
        ft.Rejects (ft.processPacket alloc m (IpPacket.af v) caplen len received))) ↔
      (IpPacket.captured v m caplen).HeaderRejected ∨
        ¬ (IpPacket.captured v m caplen).CutShort ∧
          ¬ (IpPacket.captured v m caplen).IcmpMissing := by
  rw [rejects_iff]
  by_cases h : (IpPacket.captured v m caplen).HeaderRejected
  · exact iff_of_true ⟨IpPacket.reads_lt_of_headerRejected h, fun _ => h⟩ (.inl h)
  · rw [IpPacket.reads_lt_iff h]
    tauto

/-- An ICMP packet of which nothing but the IP header has been captured. -/
def bareIcmp : Mem := fun i =>
  [0x45, 0, 0, 20, 0, 0, 0, 0, 64, 1, 0, 0, 10, 0, 0, 1, 10, 0, 0, 2].getD i 0

/-- Its type and code are read behind the captured bytes, and it starts a flow. -/
theorem truncatedPacket_filed :
    (IpPacket.captured .v4 bareIcmp 20).CutShort ∧
      20 ∈ (IpPacket.captured .v4 bareIcmp 20).reads ∧
      ∃ ft', FlowTrack.processPacket {} {} bareIcmp afInet 20 20 {} = .ok (.ok, ft') ∧
        ft'.badPackets = 0 ∧ ft'.flows.length = 1 := by
  refine ⟨.inr ⟨by decide, by decide⟩, by decide, ?_⟩
  have hfiled : (FlowTrack.processPacket {} {} bareIcmp afInet 20 20 {}).toOption.any
      (fun x => x.1 = .ok && x.2.badPackets = 0 && x.2.flows.length = 1) = true := by decide
  obtain ⟨⟨r, ft'⟩, hcall, hresult⟩ := ErrorLoops.exists_of_any hfiled
  simp only [Bool.and_eq_true, decide_eq_true_eq] at hresult
  obtain ⟨⟨rfl, hbad⟩, hflows⟩ := hresult
  exact ⟨ft', hcall, hbad, hflows⟩

end Softflowd
