import NetworkMonitoring.Flowd.Peer

/-!
# flowd — the NetFlow v5 decoder

`process_netflow_v5` of `flowd.c`. Casting the packet to a packed structure is reading the fields
of the structure from that place on, in order.
-/

namespace Flowd

open Bytes InetText

/-- `struct NF5_HEADER` of `netflow.h`. -/
structure Nf5Header where
  version : UInt16
  flows : UInt16
  uptimeMs : UInt32
  timeSec : UInt32
  timeNanosec : UInt32
  flowSequence : UInt32
  engineType : UInt8
  engineId : UInt8
  reserved1 : UInt8
  reserved2 : UInt8
  emulatorMonitorAdr : InAddr

/-- `struct NF5_FLOW` of `netflow.h`. -/
structure Nf5Flow where
  srcIp : InAddr
  destIp : InAddr
  nexthopIp : InAddr
  ifIndexIn : UInt16
  ifIndexOut : UInt16
  flowPackets : UInt32
  flowOctets : UInt32
  flowStart : UInt32
  flowFinish : UInt32
  srcPort : UInt16
  destPort : UInt16
  pad1 : UInt8
  tcpFlags : UInt8
  protocol : UInt8
  tos : UInt8
  srcAs : UInt32
  destAs : UInt32
  srcMask : UInt8
  dstMask : UInt8
  pad2 : UInt16
  emulatorMonitorAdr : InAddr

/-- The header at the start of a byte string. -/
def readNf5Header : StateM (List UInt8) Nf5Header := do
  return {
    version := ← read16
    flows := ← read16
    uptimeMs := ← read32
    timeSec := ← read32
    timeNanosec := ← read32
    flowSequence := ← read32
    engineType := ← read8
    engineId := ← read8
    reserved1 := ← read8
    reserved2 := ← read8
    emulatorMonitorAdr := ← readOctets 4 }

/-- The record at the start of a byte string. -/
def readNf5Flow : StateM (List UInt8) Nf5Flow := do
  return {
    srcIp := ← readOctets 4
    destIp := ← readOctets 4
    nexthopIp := ← readOctets 4
    ifIndexIn := ← read16
    ifIndexOut := ← read16
    flowPackets := ← read32
    flowOctets := ← read32
    flowStart := ← read32
    flowFinish := ← read32
    srcPort := ← read16
    destPort := ← read16
    pad1 := ← read8
    tcpFlags := ← read8
    protocol := ← read8
    tos := ← read8
    srcAs := ← read32
    destAs := ← read32
    srcMask := ← read8
    dstMask := ← read8
    pad2 := ← read16
    emulatorMonitorAdr := ← readOctets 4 }

/-- `NF5_MAXFLOWS`. -/
def nf5MaxFlows : ℕ := 30

/-- `NF5_PACKET_SIZE`. -/
def nf5PacketSize (nflows : ℕ) : ℕ := 28 + nflows * 56

/-- The store record of one v5 record. -/
def Nf5Flow.toStore (fp : FlowPacket) (hdr : Nf5Header) (flow : Nf5Flow) : StoreFlowComplete where
  fields := storeFieldAll &&& ~~~storeFieldTag &&& ~~~storeFieldSrcAddr6 &&&
    ~~~storeFieldDstAddr6 &&& ~~~storeFieldGatewayAddr6
  recvSec := UInt32.ofInt fp.recvSec
  recvUsec := UInt32.ofInt fp.recvUsec
  tcpFlags := flow.tcpFlags
  protocol := flow.protocol
  tos := flow.tos
  agentAddr := fp.flowSource
  srcAddr := Xaddr.copy {} (List.ofFn flow.srcIp) afInet
  dstAddr := Xaddr.copy {} (List.ofFn flow.destIp) afInet
  gatewayAddr := Xaddr.copy {} (List.ofFn flow.nexthopIp) afInet
  srcPort := flow.srcPort
  dstPort := flow.destPort
  -- the counters are widened to 64 bits, the indices to 32
  flowOctets := storeHtonll (htonl flow.flowOctets).toUInt64
  flowPackets := storeHtonll (htonl flow.flowPackets).toUInt64
  ifIndexIn := htonl (htons flow.ifIndexIn).toUInt32
  ifIndexOut := htonl (htons flow.ifIndexOut).toUInt32
  sysUptimeMs := hdr.uptimeMs
  timeSec := hdr.timeSec
  timeNanosec := hdr.timeNanosec
  netflowVersion := hdr.version
  flowStart := flow.flowStart
  flowFinish := flow.flowFinish
  -- the 16 bits of the packet in a field of 32, in network byte order
  srcAs := flow.srcAs
  dstAs := flow.destAs
  srcMask := flow.srcMask
  dstMask := flow.dstMask
  engineType := hdr.engineType.toUInt16
  engineId := hdr.engineId.toUInt16
  flowSequence := hdr.flowSequence

/-- The records `process_netflow_v5` hands to `process_flow`, in order; `none` when it rejects the
packet. -/
def decodeNetflowV5 (fp : FlowPacket) : Option (List StoreFlowComplete) :=
  let hdr := (readNf5Header.run fp.packet).1
  let nflows := (htons hdr.flows).toNat
  if fp.packet.length < 28 then none
  else if nflows = 0 ∨ nflows > nf5MaxFlows then none
  else if fp.packet.length ≠ nf5PacketSize nflows then none
  else some ((List.range nflows).map fun i =>
    Nf5Flow.toStore fp hdr (readNf5Flow.run (fp.packet.drop (nf5PacketSize i))).1)

/-- `process_netflow_v5`: the peer after it and the records handed to `process_flow`. -/
def processNetflowV5 (fp : FlowPacket) (peer : PeerState) : PeerState × List StoreFlowComplete :=
  match decodeNetflowV5 fp with
  | none => (peer.invalid, [])
  | some flows => (peer.update flows.length 5, flows)

end Flowd
