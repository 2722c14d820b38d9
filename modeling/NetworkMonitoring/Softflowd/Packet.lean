import NetworkMonitoring.Softflowd.Flow

/-!
# softflowd — from a captured packet to a flow record

`transport_to_flowrec`, `ipv4_to_flowrec` and `ipv6_to_flowrec` of `softflowd.c`. A captured
packet is the memory behind `pkt`; nothing stops the code from reading past `caplen`, so the
bytes behind it are part of the input.

The record is filled in the zeroed `tmp` of `process_packet`. The early `return (-1)` of the
converters is `none`; their other return values are kept, since the caller only tests for `-1`.
-/

namespace Softflowd

open Bytes Function

/-- `transport_to_flowrec`; `pkt` is the offset of the transport header. -/
def transportToFlowrec (flow : Flow) (m : Mem) (pkt caplen : ℕ) (isfrag : Bool) (protocol : UInt8)
    (ndx : Dir) : ℤ × Flow :=
  if protocol = ipprotoTcp then
    -- Check for runt packet, but don't error out on short frags
    if caplen < 20 then (if isfrag then 0 else 1, flow)
    else (0, { flow with
      port := update (update flow.port ndx (m.u16 pkt)) ndx.other (m.u16 (pkt + 2))
      tcpFlags := update flow.tcpFlags ndx (flow.tcpFlags ndx ||| m (pkt + 13)) })
  else if protocol = ipprotoUdp then
    if caplen < 8 then (if isfrag then 0 else 1, flow)
    else (0, { flow with
      port := update (update flow.port ndx (m.u16 pkt)) ndx.other (m.u16 (pkt + 2)) })
  else if protocol = ipprotoIcmp then
    -- Encode ICMP type * 256 + code into dest port like Cisco routers
    (0, { flow with
      port := update (update flow.port ndx 0) ndx.other
        (htons (UInt16.ofNat ((m pkt).toNat * 256 + (m (pkt + 1)).toNat))) })
  else (0, flow)

/-- The index under which the packet's source is stored: the numerically lowest address first. -/
def canonicalNdx {n : ℕ} (src dst : Fin n → UInt8) : Dir :=
  if memcmp src dst = .gt then 1 else 0

/-- `ip_hl * 4` of the IPv4 header. -/
def ipHeaderLen (m : Mem) : ℕ := (m 0).toNat % 16 * 4

/-- `ip_v` of the IPv4 header. -/
def ipVersion (m : Mem) : ℕ := (m 0).toNat / 16

/-- `ntohs (ip->ip_off)`. -/
def ipOff (m : Mem) : ℕ := (m 6).toNat * 256 + (m 7).toNat

/-- `ntohs (ip->ip_off) & (IP_OFFMASK|IP_MF)` is not zero. -/
def ipIsFrag (m : Mem) : Bool := ipOff m % 0x4000 != 0

/-- `ntohs (ip->ip_off) & IP_OFFMASK` is not zero. -/
def ipHasOffset (m : Mem) : Bool := ipOff m % 0x2000 != 0

/-- `ipv4_to_flowrec`: return value, flow record and `*isfrag`. -/
def ipv4ToFlowrec (flow : Flow) (m : Mem) (caplen : ℕ) (len : UInt32) (af : ℤ) :
    Option (ℤ × Flow × Bool) :=
  -- Runt packet
  if caplen < 20 ∨ caplen < ipHeaderLen m then none
  -- Unsupported IP version
  else if ipVersion m ≠ 4 then none
  else
    let src := m.octets 12 4
    let dst := m.octets 16 4
    let ndx := canonicalNdx src dst
    let flow := { flow with
      af := af
      addr := update (update flow.addr ndx ((flow.addr ndx).setV4 src)) ndx.other
        ((flow.addr ndx.other).setV4 dst)
      protocol := m 9
      octets := update flow.octets ndx len
      packets := update flow.packets ndx 1 }
    -- Don't try to examine higher level headers if not first fragment
    if ipIsFrag m && ipHasOffset m then some (0, flow, ipIsFrag m)
    else
      let (r, flow) := transportToFlowrec flow m (ipHeaderLen m) (caplen - ipHeaderLen m)
        (ipIsFrag m) (m 9) ndx
      some (r, flow, ipIsFrag m)

/-- How the header walk of `ipv6_to_flowrec` ends: with a return value, or at the transport
header. Both carry `*isfrag`. -/
inductive Ipv6Walk where
  | ret (r : ℤ) (isfrag : Bool)
  | transport (nxt : UInt8) (pkt caplen : ℕ) (isfrag : Bool)
  deriving DecidableEq, Repr

/-- The loop of `ipv6_to_flowrec` through the extension headers; `pkt` is the offset of the
current header and `caplen` what was captured from there on. -/
def ipv6Walk (m : Mem) (pkt caplen : ℕ) (nxt : UInt8) (isfrag : Bool) : Ipv6Walk :=
  -- IPPROTO_HOPOPTS, IPPROTO_ROUTING, IPPROTO_DSTOPTS
  if nxt = 0 ∨ nxt = 43 ∨ nxt = 60 then
    if caplen < 2 ∨ caplen < ((m (pkt + 1)).toNat + 1) * 8 then .ret 1 isfrag
    else ipv6Walk m (pkt + ((m (pkt + 1)).toNat + 1) * 8)
      (caplen - ((m (pkt + 1)).toNat + 1) * 8) (m pkt) isfrag
  -- IPPROTO_FRAGMENT
  else if nxt = 44 then
    if caplen < 8 then .ret 1 true
    -- Don't try to examine higher level headers if not first fragment
    else if ((m (pkt + 2)).toNat * 256 + (m (pkt + 3)).toNat) / 8 ≠ 0 then .ret 0 true
    else ipv6Walk m (pkt + 8) (caplen - 8) (m pkt) true
  else .transport nxt pkt caplen isfrag
termination_by caplen

/-- `ipv6_to_flowrec`: return value, flow record and `*isfrag`. -/
def ipv6ToFlowrec (flow : Flow) (m : Mem) (caplen : ℕ) (len : UInt32) (af : ℤ) :
    Option (ℤ × Flow × Bool) :=
  -- Runt packet
  if caplen < 40 then none
  -- Unsupported IPv6 version
  else if (m 0).toNat / 16 ≠ 6 then none
  else
    let src := m.octets 8 16
    let dst := m.octets 24 16
    let ndx := canonicalNdx src dst
    let flow := { flow with
      af := af
      ip6Flowlabel := update flow.ip6Flowlabel ndx (m.u32 0 &&& htonl 0x000fffff)
      addr := update (update flow.addr ndx src) ndx.other dst
      octets := update flow.octets ndx len
      packets := update flow.packets ndx 1 }
    match ipv6Walk m 40 (caplen - 40) (m 6) false with
    | .ret r isfrag => some (r, flow, isfrag)
    | .transport nxt pkt caplen isfrag =>
      let (r, flow) := transportToFlowrec { flow with protocol := nxt } m pkt caplen isfrag nxt ndx
      some (r, flow, isfrag)

/-! ## The header walk -/

/-- `(ip6e_len + 1) << 3` of the extension header at `pkt`. -/
def extensionLen (m : Mem) (pkt : ℕ) : ℕ := ((m (pkt + 1)).toNat + 1) * 8

/-- The offset of the fragment whose header is at `pkt`. -/
def fragmentOffset (m : Mem) (pkt : ℕ) : ℕ :=
  ((m (pkt + 2)).toNat * 256 + (m (pkt + 3)).toNat) / 8

section Walk

variable {m : Mem} {pkt caplen : ℕ} {nxt : UInt8} {isfrag : Bool}

/-- An extension header is at least eight bytes long. -/
theorem lt_extensionLen_iff :
    caplen < extensionLen m pkt ↔ caplen < 2 ∨ caplen < ((m (pkt + 1)).toNat + 1) * 8 := by
  unfold extensionLen
  omega

theorem ipv6Walk_extensionRunt (hext : nxt = 0 ∨ nxt = 43 ∨ nxt = 60)
    (hlen : caplen < extensionLen m pkt) : ipv6Walk m pkt caplen nxt isfrag = .ret 1 isfrag := by
  rw [ipv6Walk, if_pos hext, if_pos (lt_extensionLen_iff.mp hlen)]

theorem ipv6Walk_extension (hext : nxt = 0 ∨ nxt = 43 ∨ nxt = 60)
    (hlen : extensionLen m pkt ≤ caplen) :
    ipv6Walk m pkt caplen nxt isfrag =
      ipv6Walk m (pkt + extensionLen m pkt) (caplen - extensionLen m pkt) (m pkt) isfrag := by
  rw [ipv6Walk, if_pos hext, if_neg (lt_extensionLen_iff.not.mp (not_lt.mpr hlen))]
  rfl

theorem ipv6Walk_fragmentRunt (hlen : caplen < 8) :
    ipv6Walk m pkt caplen 44 isfrag = .ret 1 true := by
  rw [ipv6Walk, if_neg (by decide), if_pos rfl, if_pos hlen]

theorem ipv6Walk_laterFragment (hlen : 8 ≤ caplen) (hoff : fragmentOffset m pkt ≠ 0) :
    ipv6Walk m pkt caplen 44 isfrag = .ret 0 true := by
  rw [ipv6Walk, if_neg (by decide), if_pos rfl, if_neg (not_lt.mpr hlen)]
  exact if_pos hoff

theorem ipv6Walk_firstFragment (hlen : 8 ≤ caplen) (hoff : fragmentOffset m pkt = 0) :
    ipv6Walk m pkt caplen 44 isfrag = ipv6Walk m (pkt + 8) (caplen - 8) (m pkt) true := by
  rw [ipv6Walk, if_neg (by decide), if_pos rfl, if_neg (not_lt.mpr hlen)]
  exact if_neg (not_not.mpr hoff)

theorem ipv6Walk_transport (hext : ¬ (nxt = 0 ∨ nxt = 43 ∨ nxt = 60)) (hfrag : nxt ≠ 44) :
    ipv6Walk m pkt caplen nxt isfrag = .transport nxt pkt caplen isfrag := by
  rw [ipv6Walk, if_neg hext, if_neg hfrag]

end Walk

end Softflowd
