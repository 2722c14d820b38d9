import NetworkMonitoring.Foundations.ByteBuffer
import NetworkMonitoring.Softflowd.Export

/-!
# softflowd — the NetFlow v9 exporter

`nf9_init_template`, `nf_flow_to_flowset` and `send_netflow_v9` of `netflow9.c`. The packet buffer
is the list of its 512 bytes. The pointer `dh` is the offset of the flowset header it points to,
and a field of a structure in the buffer is loaded and stored there.

The outer loop takes an amount of fuel, and a call that runs out of it does not return
(`Fault.noReturn`).
-/

namespace Softflowd

open ByteBuffer Bytes InetText

/-! ## Templates -/

/-- `nf9_init_template`: the template with the given id, address field types and length of an
address. -/
def nf9Template (templateId srcType dstType addrLen : UInt16) : Nf9Template where
  flowsetId := htons 0
  length := htons 52
  templateId := htons templateId
  count := htons 11
  records := [(srcType, addrLen), (dstType, addrLen),
    -- NF9_LAST_SWITCHED, NF9_FIRST_SWITCHED
    (21, 4), (22, 4),
    -- NF9_IN_BYTES, NF9_IN_PACKETS
    (1, 4), (2, 4),
    -- NF9_L4_SRC_PORT, NF9_L4_DST_PORT
    (7, 2), (11, 2),
    -- NF9_IN_PROTOCOL, NF9_TCP_FLAGS, NF9_IP_PROTOCOL_VERSION
    (4, 1), (6, 1), (60, 1)].map fun (type, length) => (htons type, htons length)

/-- `NF9_SOFTFLOWD_V4_TEMPLATE_ID`. -/
def nf9V4TemplateId : UInt16 := 1024

/-- `NF9_SOFTFLOWD_V6_TEMPLATE_ID`. -/
def nf9V6TemplateId : UInt16 := 2048

/-- `v4_template` after `nf9_init_template`: `NF9_IPV4_SRC_ADDR` and `NF9_IPV4_DST_ADDR`. -/
def v4Template : Nf9Template := nf9Template nf9V4TemplateId 8 12 4

/-- `v6_template` after `nf9_init_template`: `NF9_IPV6_SRC_ADDR` and `NF9_IPV6_DST_ADDR`. -/
def v6Template : Nf9Template := nf9Template nf9V6TemplateId 27 28 16

/-! ## Data records -/

/-- `struct NF9_SOFTFLOWD_DATA_COMMON`. -/
structure Nf9DataCommon where
  firstSwitched : UInt32 := 0
  lastSwitched : UInt32 := 0
  bytes : UInt32 := 0
  packets : UInt32 := 0
  srcPort : UInt16 := 0
  dstPort : UInt16 := 0
  protocol : UInt8 := 0
  tcpFlags : UInt8 := 0
  ipproto : UInt8 := 0
  deriving DecidableEq

/-- `struct NF9_SOFTFLOWD_DATA_V4` and `struct NF9_SOFTFLOWD_DATA_V6`. -/
inductive Nf9Data where
  | v4 (srcAddr dstAddr : InAddr) (c : Nf9DataCommon)
  | v6 (srcAddr dstAddr : FlowAddr) (c : Nf9DataCommon)
  deriving DecidableEq

/-- The memory of the common part of a record. -/
def Nf9DataCommon.memory (c : Nf9DataCommon) : List UInt8 :=
  le32 c.firstSwitched ++ (le32 c.lastSwitched ++ (le32 c.bytes ++ (le32 c.packets ++
    (le16 c.srcPort ++ (le16 c.dstPort ++ [c.protocol, c.tcpFlags, c.ipproto])))))

/-- The memory of a record. -/
def Nf9Data.memory : Nf9Data → List UInt8
  | .v4 src dst c => List.ofFn src ++ (List.ofFn dst ++ c.memory)
  | .v6 src dst c => List.ofFn src ++ (List.ofFn dst ++ c.memory)

/-- The common part of the record `nf_flow_to_flowset` prepares for direction `d`. -/
def Flow.nf9Common (f : Flow) (boot : Timeval) (d : Dir) : Nf9DataCommon where
  firstSwitched := htonl (timevalSubMs f.flowStart boot)
  lastSwitched := htonl (timevalSubMs f.flowLast boot)
  bytes := htonl (f.octets d)
  packets := htonl (f.packets d)
  srcPort := f.port d
  dstPort := f.port d.other
  protocol := f.protocol
  tcpFlags := f.tcpFlags d
  ipproto := if f.af = afInet then 4 else 6

/-- The record `nf_flow_to_flowset` prepares for direction `d` of an IPv4 or IPv6 flow. -/
def Flow.nf9Data (f : Flow) (boot : Timeval) (d : Dir) : Nf9Data :=
  if f.af = afInet then .v4 (f.addr d).v4 (f.addr d.other).v4 (f.nf9Common boot d)
  else .v6 (f.addr d) (f.addr d.other) (f.nf9Common boot d)

/-- The buffer, `ret_len` and `nflows` of `nf_flow_to_flowset`. -/
structure RecordCopy where
  packet : List UInt8
  retLen : ℕ := 0
  nflows : ℕ := 0

/-- Copy the record of direction `d` behind those already copied, if the direction has any octets;
`.error` when there is no room left and the function returns `-1`. -/
def copyRecord (f : Flow) (boot : Timeval) (offset len : ℕ) (c : RecordCopy) (d : Dir) :
    Except (List UInt8) RecordCopy :=
  let data := (f.nf9Data boot d).memory
  if f.octets d > 0 then
    if c.retLen + data.length > len then .error c.packet
    else .ok { packet := poke c.packet (offset + c.retLen) data
               retLen := c.retLen + data.length
               nflows := c.nflows + 1 }
  else .ok c

/-- `nf_flow_to_flowset` on the `len` bytes from `offset` on: the return value, `*len_used` and the
buffer. -/
def nfFlowToFlowset (f : Flow) (packet : List UInt8) (offset len : ℕ) (boot : Timeval) :
    ℤ × ℕ × List UInt8 :=
  if f.af = afInet ∨ f.af = afInet6 then
    match [0, 1].foldlM (copyRecord f boot offset len) { packet := packet } with
    | .error packet => (-1, 0, packet)
    | .ok c => (c.nflows, c.retLen, c.packet)
  else (-1, 0, packet)

/-! ## Filling a packet -/

/-- `struct NF9_HEADER`. -/
structure Nf9Header where
  version : UInt16 := 0
  flows : UInt16 := 0
  uptimeMs : UInt32 := 0
  timeSec : UInt32 := 0
  packageSequence : UInt32 := 0
  sourceId : UInt32 := 0
  deriving DecidableEq

/-- The memory of a header. -/
def Nf9Header.bytes (h : Nf9Header) : List UInt8 :=
  le16 h.version ++ (le16 h.flows ++ (le32 h.uptimeMs ++ (le32 h.timeSec ++
    (le32 h.packageSequence ++ le32 h.sourceId))))

/-- `NF9_SOFTFLOWD_MAX_PACKET_SIZE`. -/
def nf9MaxPacketSize : ℕ := 512

/-- `NF9_DEFAULT_TEMPLATE_INTERVAL`. -/
def nf9DefaultTemplateInterval : ℤ := 16

/-- The variables of `send_netflow_v9` that concern the current packet. -/
structure V9Packet where
  packet : List UInt8
  offset : ℕ
  dh : Option ℕ := none
  lastAf : ℤ := 0
  lastValid : ℕ

namespace V9Packet

/-- Pad to a multiple of four and finalise the header `dh` points to. -/
def finishHeader (st : V9Packet) : V9Packet :=
  match st.dh with
  | none => st
  | some dh =>
    let pad := if st.offset % 4 ≠ 0 then 4 - st.offset % 4 else 0
    let length := peek16 st.packet (dh + 2) + UInt16.ofNat pad
    { st with
      packet := poke st.packet (dh + 2) (le16 (htons length))
      offset := st.offset + pad }

/-- Open a flowset for `f` behind what is in the packet. -/
def openHeader (ts : Nf9Statics) (f : Flow) (st : V9Packet) : V9Packet :=
  let flowsetId := if f.af = afInet then ts.v4Template.templateId else ts.v6Template.templateId
  { packet := poke st.packet st.offset (le16 flowsetId ++ le16 4)
    offset := st.offset + 4
    dh := some st.offset
    lastAf := f.af
    lastValid := st.offset }

/-- The flowset that takes `f`; `.error` when there is no room for another header. -/
def flowsetFor (ts : Nf9Statics) (f : Flow) (st : V9Packet) : Except V9Packet V9Packet :=
  if st.dh = none ∨ f.af ≠ st.lastAf then
    let st := st.finishHeader
    -- Mark header is finished
    if st.offset + 4 > nf9MaxPacketSize then .error { st with dh := none }
    else .ok (st.openHeader ts f)
  else .ok st

/-- Count what `nf_flow_to_flowset` has written. -/
def count (st : V9Packet) (r inc : ℕ) (packet : List UInt8) : V9Packet :=
  let packet := match st.dh with
    | none => packet
    | some dh => poke packet (dh + 2) (le16 (peek16 packet (dh + 2) + UInt16.ofNat inc))
  { st with
    packet := poke packet 2 (le16 (peek16 packet 2 + UInt16.ofNat r))
    offset := st.offset + inc
    -- Don't clobber this header now
    lastValid := 0 }

/-- The inner loop of `send_netflow_v9`: the packet and the flows that are left. -/
def fill (ts : Nf9Statics) (boot : Timeval) : List Flow → V9Packet → V9Packet × List Flow
  | [], st => (st, [])
  | f :: fs, st =>
    match st.flowsetFor ts f with
    | .error st => (st, f :: fs)
    | .ok st =>
      let (r, inc, packet) :=
        nfFlowToFlowset f st.packet st.offset (nf9MaxPacketSize - st.offset) boot
      if r ≤ 0 then
        -- yank off data header, if we had to go back
        ({ st with
          packet := packet
          offset := if st.lastValid ≠ 0 then st.lastValid else st.offset }, f :: fs)
      else fill ts boot fs (st.count r.toNat inc packet)

/-- Finish the packet: the last flowset header and the number of flows. -/
def finish (st : V9Packet) : V9Packet :=
  let st := st.finishHeader
  { st with packet := poke st.packet 2 (le16 (htons (peek16 st.packet 2))) }

end V9Packet

/-! ## Sending the packets -/

/-- What a call of `send_netflow_v9` is given besides the flows: the times `gettimeofday` and the
`k`-th call of `time` return, and `*system_boot_time`. -/
structure V9Env where
  now : Timeval
  time : ℕ → ℤ
  boot : Timeval

/-- The header of a packet that has no records yet; `sequence` is `*flows_exported + j`. -/
def V9Env.header (env : V9Env) (k : ℕ) (sequence : UInt64) : Nf9Header where
  version := htons 9
  flows := 0
  uptimeMs := htonl (timevalSubMs env.now env.boot)
  timeSec := htonl (UInt32.ofInt (env.time k))
  packageSequence := htonl sequence.toUInt32
  sourceId := 0

/-- The variables of `send_netflow_v9` that live as long as the call. -/
structure V9Send where
  numPackets : ℕ := 0
  j : ℕ := 0
  lastValid : ℕ := 0
  ex : Exporter

/-- Refresh template headers if we need to: the templates in the packet and the static state. -/
def Nf9Statics.refresh (ts : Nf9Statics) : List Nf9Template × Nf9Statics :=
  if ts.pktsUntilTemplate ≤ 0 then
    ([ts.v4Template, ts.v6Template], { ts with pktsUntilTemplate := nf9DefaultTemplateInterval })
  else ([], ts)

/-- The packet before the inner loop. -/
def V9Send.start (env : V9Env) (exported : UInt64) (st : V9Send) : V9Packet :=
  let hdr := env.header st.numPackets (exported + UInt64.ofNat st.j)
  let templates := st.ex.nf9.refresh.1.flatMap Nf9Template.bytes
  { packet := poke (poke (List.replicate nf9MaxPacketSize 0) 0 hdr.bytes) 20 templates
    offset := 20 + templates.length
    lastValid := st.lastValid }

/-- The outer loop of `send_netflow_v9`; the state is in `error` when a `send` fails. -/
def sendLoopV9 (env : V9Env) (exported : UInt64) :
    ℕ → List Flow → V9Send → Except Fault (Except V9Send V9Send)
  | _, [], st => .ok (.ok st)
  | 0, _ :: _, _ => .error .noReturn
  | fuel + 1, f :: fs, st =>
    let ts := st.ex.nf9.refresh.2
    let (pkt, rest) := V9Packet.fill ts env.boot (f :: fs) (st.start env exported)
    let pkt := pkt.finish
    match st.ex.net.send (pkt.packet.take pkt.offset) with
    -- `return (-1)`, before `nf9_pkts_until_template--`
    | .error net => .ok (.error { st with ex := { net := net, nf9 := ts } })
    | .ok net => sendLoopV9 env exported fuel rest
      { numPackets := st.numPackets + 1
        j := st.j + ((f :: fs).length - rest.length)
        lastValid := pkt.lastValid
        ex := { net := net
                nf9 := { ts with pktsUntilTemplate := ts.pktsUntilTemplate - 1 } } }

/-- The static state after the templates have been initialised. -/
def Nf9Statics.init (ts : Nf9Statics) : Nf9Statics :=
  if ts.pktsUntilTemplate = -1 then ⟨0, Softflowd.v4Template, Softflowd.v6Template⟩ else ts

/-- `send_netflow_v9`. -/
def sendNetflowV9 (fuel : ℕ) (now : Timeval) (time : ℕ → ℤ) : NetflowSendFunc :=
  fun flows flowsExported boot _ ex => do
    match ← sendLoopV9 ⟨now, time, boot⟩ flowsExported fuel flows
        { ex := { ex with nf9 := ex.nf9.init } } with
    | .error st => return (-1, flowsExported, st.ex)
    | .ok st => return (st.numPackets, flowsExported + UInt64.ofNat st.j, st.ex)

/-- `netflow9_resend_template`. -/
def Nf9Statics.resendTemplate (ts : Nf9Statics) : Nf9Statics :=
  if ts.pktsUntilTemplate > 0 then { ts with pktsUntilTemplate := 0 } else ts

end Softflowd
