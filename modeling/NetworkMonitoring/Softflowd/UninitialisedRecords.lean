import NetworkMonitoring.Softflowd.Emulator

/-!
# softflowd — records of uninitialised variables

`emulator_ipv4_to_flowrec` sets `*isfrag` for TCP only, and `ip_off` for TCP fragments only, and
then looks at both to decide whether the ports are to be read. `emulator_transport_to_flowrec` never
sets the ICMP type and code it encodes. What memory holds at the call is the `Uninit` of the model;
a record is determined by its message when two runs that differ in nothing else build the same one.

## Main result

* `emulatorRecord_determined_iff`: the messages that determine their record are those about TCP
  whose fragment mark is 0 or 1, or that change neither ports nor flags.
-/

namespace Softflowd

open Bytes CText Function InetText

/-! ## Two runs -/

/-- What a message makes of a record is the same whatever memory holds. -/
def Determined (flow : Flow) (pkt : Text) (len : UInt32) : Prop :=
  ∀ u u' : Uninit,
    emulatorIpv4ToFlowrec flow pkt len afInet u = emulatorIpv4ToFlowrec flow pkt len afInet u'

/-- Two runs in which memory says differently whether the packet is a fragment. -/
theorem not_determined_of_frag {flow : Flow} {pkt : Text} {len : UInt32}
    (hfrag : ∀ u : Uninit, ∃ f d,
      emulatorIpv4ToFlowrec flow pkt len afInet u = .ok (f, u.frag, d)) :
    ¬ Determined flow pkt len := by
  intro hsame
  obtain ⟨f, d, h0⟩ := hfrag { frag := 0 }
  obtain ⟨f', d', h1⟩ := hfrag { frag := 1 }
  have h := hsame { frag := 0 } { frag := 1 }
  rw [h0, h1] at h
  simp at h

/-! ## Well-formed messages -/

/-- The parts of a message that go into its record. -/
structure MessageParts where
  src : InAddr
  dst : InAddr
  sport : Text
  dport : Text
  asSrc : Text
  asDst : Text
  protocol : Text
  mark : Text
  offset : Text
  flags : Text

/-- The message fits the copies that are made of it, and so do its parts, whose addresses can be
read. -/
structure MessageParts.Of (x : MessageParts) (pkt : Text) : Prop where
  length : pkt.length < 100
  src : addrPart pkt 1 = .ok x.src
  dst : addrPart pkt 2 = .ok x.dst
  sport : copyPart 16 pkt 6 = .ok x.sport
  dport : copyPart 16 pkt 7 = .ok x.dport
  asSrc : copyPart 16 pkt 8 = .ok x.asSrc
  asDst : copyPart 16 pkt 9 = .ok x.asDst
  protocol : copyPart 16 pkt 10 = .ok x.protocol
  mark : copyPart 20 pkt 11 = .ok x.mark
  offset : copyPart 20 pkt 12 = .ok x.offset
  flags : copyPart 16 pkt 13 = .ok x.flags

namespace MessageParts

variable (x : MessageParts)

def ndx : Dir := canonicalNdx x.src x.dst

/-- A port as it goes into the record. -/
def portOf (part : Text) : UInt16 := htons (UInt16.ofInt (atoi part))

/-- The byte that is added to the TCP flags. -/
def flagByte : UInt8 := x.flags.headD 0

/-- Reading the TCP header changes nothing in the record. -/
def Idle (flow : Flow) : Prop :=
  flow.port x.ndx = portOf x.sport ∧ flow.port x.ndx.other = portOf x.dport ∧
    flow.tcpFlags x.ndx ||| x.flagByte = flow.tcpFlags x.ndx

instance (flow : Flow) : Decidable (x.Idle flow) := inferInstanceAs (Decidable (_ ∧ _ ∧ _))

/-! ## The record of a message -/

/-- The record before the transport header is looked at. -/
def networkPart (flow : Flow) (len : UInt32) (protocol : UInt8) : Flow :=
  { flow with
    af := afInet
    addr := update (update flow.addr x.ndx ((flow.addr x.ndx).setV4 x.src)) x.ndx.other
      ((flow.addr x.ndx.other).setV4 x.dst)
    protocol := protocol
    octets := update flow.octets x.ndx len
    packets := update flow.packets x.ndx 1
    asSrc := update flow.asSrc x.ndx (UInt32.ofInt (atoi x.asSrc))
    asDst := update flow.asDst x.ndx.other (UInt32.ofInt (atoi x.asDst)) }

/-- The ports, as `sport` and `dport` or in ICMP's way. -/
def withPorts (flow : Flow) (src dst : UInt16) : Flow :=
  { flow with port := update (update flow.port x.ndx src) x.ndx.other dst }

/-- The TCP header in the record. -/
def withTcp (flow : Flow) : Flow :=
  { x.withPorts flow (portOf x.sport) (portOf x.dport) with
    tcpFlags := update flow.tcpFlags x.ndx (flow.tcpFlags x.ndx ||| x.flagByte) }

/-- `ip_off` as it is looked at for a TCP packet. -/
def ipOff (u : Uninit) : UInt16 :=
  if atoi x.mark = 1 then UInt16.ofInt (strtol x.offset) else u.ipOff

variable {x} {pkt : Text} {flow : Flow} {len : UInt32} {u : Uninit}

theorem Of.transport_tcp (h : x.Of pkt) :
    emulatorTransportToFlowrec flow pkt ipprotoTcp x.ndx u = .ok (x.withTcp flow) := by
  have hcopy : strcpy 100 pkt = .ok pkt := if_pos h.length
  simp only [emulatorTransportToFlowrec, hcopy, h.sport, h.dport, h.flags, bind, Except.bind, pure,
    Except.pure, if_true]
  rfl

theorem Of.transport_udp (h : x.Of pkt) :
    emulatorTransportToFlowrec flow pkt ipprotoUdp x.ndx u =
      .ok (x.withPorts flow (portOf x.sport) (portOf x.dport)) := by
  have hcopy : strcpy 100 pkt = .ok pkt := if_pos h.length
  have hne : ipprotoUdp ≠ ipprotoTcp := by decide
  simp only [emulatorTransportToFlowrec, hcopy, h.sport, h.dport, bind, Except.bind, pure,
    Except.pure, if_neg hne, if_true]
  rfl

/-- The ICMP type and code are those that memory holds. -/
theorem Of.transport_icmp (h : x.Of pkt) :
    emulatorTransportToFlowrec flow pkt ipprotoIcmp x.ndx u =
      .ok (x.withPorts flow 0
        (htons (UInt16.ofNat (u.icmpType.toNat * 256 + u.icmpCode.toNat)))) := by
  have hcopy : strcpy 100 pkt = .ok pkt := if_pos h.length
  have htcp : ipprotoIcmp ≠ ipprotoTcp := by decide
  have hudp : ipprotoIcmp ≠ ipprotoUdp := by decide
  simp only [emulatorTransportToFlowrec, hcopy, h.sport, h.dport, bind, Except.bind, pure,
    Except.pure, if_neg htcp, if_neg hudp, if_true]
  rfl

theorem Of.protocol_tcp (h : x.Of pkt) (htcp : x.protocol = ascii "TCP") :
    emulatorProtocol pkt u = .ok (ipprotoTcp, atoi x.mark, x.ipOff u) := by
  simp only [emulatorProtocol, h.protocol, h.mark, h.offset, bind, Except.bind, pure, Except.pure,
    if_pos htcp, ipOff]
  split <;> rfl

theorem Of.protocol_udp (h : x.Of pkt) (hudp : x.protocol = ascii "UDP") :
    emulatorProtocol pkt u = .ok (ipprotoUdp, u.frag, u.ipOff) := by
  have hne : ascii "UDP" ≠ ascii "TCP" := by decide
  simp only [emulatorProtocol, h.protocol, hudp, bind, Except.bind, pure, Except.pure, if_neg hne,
    if_true]

theorem Of.protocol_icmp (h : x.Of pkt) (hicmp : x.protocol = ascii "ICMP") :
    emulatorProtocol pkt u = .ok (ipprotoIcmp, u.frag, u.ipOff) := by
  have htcp : ascii "ICMP" ≠ ascii "TCP" := by decide
  have hudp : ascii "ICMP" ≠ ascii "UDP" := by decide
  simp only [emulatorProtocol, h.protocol, hicmp, bind, Except.bind, pure, Except.pure, if_neg htcp,
    if_neg hudp, if_true]

/-- The record of a message whose protocol is known. -/
theorem Of.record_eq (h : x.Of pkt) {ipP : UInt8} {isfrag : ℤ} {off : UInt16} {f : Flow}
    (hprotocol : emulatorProtocol pkt u = .ok (ipP, isfrag, off))
    (htransport : emulatorTransportToFlowrec (x.networkPart flow len ipP) pkt ipP x.ndx u = .ok f) :
    emulatorIpv4ToFlowrec flow pkt len afInet u =
      .ok (if isfrag ≠ 0 ∧ htons off ≠ 0 then x.networkPart flow len ipP else f, isfrag, x.ndx) := by
  have hcopy : strcpy 100 pkt = .ok pkt := if_pos h.length
  simp only [emulatorIpv4ToFlowrec, hcopy, h.src, h.dst, hprotocol, h.asSrc, h.asDst, bind,
    Except.bind]
  split
  · rfl
  · simp only [networkPart, ndx] at htransport
    rw [htransport]
    rfl

/-! ## Which messages determine their records -/

/-- The TCP header is of no consequence. -/
theorem withTcp_eq_self_iff : x.withTcp flow = flow ↔ x.Idle flow := by
  constructor
  · intro h
    have hport : update (update flow.port x.ndx (portOf x.sport)) x.ndx.other (portOf x.dport) =
        flow.port := congrArg Flow.port h
    have hflags : update flow.tcpFlags x.ndx (flow.tcpFlags x.ndx ||| x.flagByte) =
        flow.tcpFlags := congrArg Flow.tcpFlags h
    refine ⟨?_, ?_, ?_⟩
    · have hsrc := congrFun hport x.ndx
      rw [update_of_ne (Dir.ne_other _), update_self] at hsrc
      exact hsrc.symm
    · have hdst := congrFun hport x.ndx.other
      rw [update_self] at hdst
      exact hdst.symm
    · have hflag := congrFun hflags x.ndx
      rwa [update_self] at hflag
  · rintro ⟨hsrc, hdst, hflag⟩
    rw [withTcp, withPorts, ← hsrc, ← hdst, hflag, update_eq_self, update_eq_self, update_eq_self]

/-- Whether the ports are read does not touch what `Idle` looks at. -/
theorem idle_networkPart {ipP : UInt8} : x.Idle (x.networkPart flow len ipP) ↔ x.Idle flow :=
  Iff.rfl

/-- A TCP message determines its record when it tells `ip_off`, or when `ip_off` does not matter. -/
theorem Of.determined_tcp_iff (h : x.Of pkt) (htcp : x.protocol = ascii "TCP") :
    Determined flow pkt len ↔ atoi x.mark = 0 ∨ atoi x.mark = 1 ∨ x.Idle flow := by
  have hrecord : ∀ u, emulatorIpv4ToFlowrec flow pkt len afInet u =
      .ok (if atoi x.mark ≠ 0 ∧ htons (x.ipOff u) ≠ 0 then x.networkPart flow len ipprotoTcp
        else x.withTcp (x.networkPart flow len ipprotoTcp), atoi x.mark, x.ndx) :=
    fun u => h.record_eq (h.protocol_tcp htcp) h.transport_tcp
  by_cases h0 : atoi x.mark = 0
  · refine iff_of_true (fun u u' => ?_) (.inl h0)
    rw [hrecord, hrecord, if_neg (fun hc => hc.1 h0), if_neg (fun hc => hc.1 h0)]
  by_cases h1 : atoi x.mark = 1
  · refine iff_of_true (fun u u' => ?_) (.inr (.inl h1))
    rw [hrecord, hrecord, ipOff, ipOff, if_pos h1, if_pos h1]
  · rw [or_iff_right h0, or_iff_right h1, ← idle_networkPart, ← withTcp_eq_self_iff]
    constructor
    · intro hsame
      -- one run takes the packet for a first fragment, the other for a later one
      have hruns := hsame { ipOff := 1 } { ipOff := 0 }
      rw [hrecord, hrecord, ipOff, ipOff, if_neg h1, if_neg h1, if_pos ⟨h0, by decide⟩,
        if_neg (fun hc => hc.2 (by decide))] at hruns
      exact (Prod.mk.inj (Except.ok.inj hruns)).1.symm
    -- whether the TCP header is read makes no difference
    · intro hidle u u'
      rw [hrecord, hrecord, hidle, ite_self, ite_self]

end MessageParts

/-- **Determined records.** A well-formed message about TCP, UDP or ICMP determines its record
exactly when it is about TCP and its fragment mark is 0 or 1, or the ports and flags it carries are
those of the record already. -/
theorem emulatorRecord_determined_iff {x : MessageParts} {pkt : Text} (h : x.Of pkt)
    (hprotocol : x.protocol = ascii "TCP" ∨ x.protocol = ascii "UDP" ∨ x.protocol = ascii "ICMP")
    (flow : Flow) (len : UInt32) :
    Determined flow pkt len ↔ x.protocol = ascii "TCP" ∧
      (atoi x.mark = 0 ∨ atoi x.mark = 1 ∨ x.Idle flow) := by
  rcases hprotocol with htcp | hudp | hicmp
  · rw [and_iff_right htcp]
    exact h.determined_tcp_iff htcp
  -- the fragment mark of UDP and ICMP is what memory holds
  · refine iff_of_false (not_determined_of_frag fun u => ?_) fun hc => ?_
    · exact ⟨_, _, h.record_eq (h.protocol_udp hudp) h.transport_udp⟩
    · exact absurd (hudp.symm.trans hc.1) (by decide)
  · refine iff_of_false (not_determined_of_frag fun u => ?_) fun hc => ?_
    · exact ⟨_, _, h.record_eq (h.protocol_icmp hicmp) h.transport_icmp⟩
    · exact absurd (hicmp.symm.trans hc.1) (by decide)

/-- A message about a packet from 1.2.3.4 to 5.6.7.8, with the given fields of the transport
layer. -/
def transportMessage (fields : String) : Text :=
  ascii "10.0.0.1#1.2.3.4#5.6.7.8#100#1#2#80#443#1#2#" ++ ascii fields

/-- Its parts. -/
def transportParts (protocol mark offset flags : String) : MessageParts where
  src := ![1, 2, 3, 4]
  dst := ![5, 6, 7, 8]
  sport := ascii "80"
  dport := ascii "443"
  asSrc := ascii "1"
  asDst := ascii "2"
  protocol := ascii protocol
  mark := ascii mark
  offset := ascii offset
  flags := ascii flags

/-- A fragment of a TCP stream determines its record. -/
theorem emulatorRecord_determined_tcp : Determined {} (transportMessage "TCP#1#7#A#0") 100 := by
  have hparts : (transportParts "TCP" "1" "7" "A").Of (transportMessage "TCP#1#7#A#0") := by
    constructor <;> decide +kernel
  exact (emulatorRecord_determined_iff hparts (.inl rfl) {} 100).mpr
    ⟨rfl, .inr (.inl (by decide))⟩

/-- A UDP message is filed under one flow or under another. -/
theorem udpRecord_twoFlows :
    (transportParts "UDP" "" "" "").Of (transportMessage "UDP####0") ∧
      ∃ f f' d, emulatorIpv4ToFlowrec {} (transportMessage "UDP####0") 100 afInet {} =
          .ok (f, 0, d) ∧
        emulatorIpv4ToFlowrec {} (transportMessage "UDP####0") 100 afInet
          { frag := 1, ipOff := 1 } = .ok (f', 1, d) ∧
        flowCompare f f' ≠ .eq := by
  have hparts : (transportParts "UDP" "" "" "").Of (transportMessage "UDP####0") := by
    constructor <;> decide +kernel
  refine ⟨hparts, _, _, _, hparts.record_eq (hparts.protocol_udp rfl) hparts.transport_udp,
    hparts.record_eq (hparts.protocol_udp rfl) hparts.transport_udp, ?_⟩
  decide +kernel

end Softflowd
