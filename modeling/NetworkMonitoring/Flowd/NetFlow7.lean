import NetworkMonitoring.Flowd.Peer

/-!
# flowd — the NetFlow v7 decoder

`process_netflow_v7` of `flowd.c`. The header of a v7 packet has no engine, so the engine of the
store record stays 0; the autonomous systems are 16-bit numbers and are widened.
-/

namespace Flowd

open Bytes InetText

/-- `struct NF7_HEADER` of `netflow.h`. -/
structure Nf7Header where
  version : UInt16
  flows : UInt16
  uptimeMs : UInt32
  timeSec : UInt32
  timeNanosec : UInt32
  flowSequence : UInt32
  reserved1 : UInt32

/-- `struct NF7_FLOW` of `netflow.h`. -/
structure Nf7Flow where
  srcIp : InAddr
  destIp : InAddr
  nexthopIp : InAddr
  ifIndexIn : UInt16
  ifIndexOut : UInt16
  flowPackets : UInt32
  flowOctets : UInt32
  flowStart : UInt32
  flowFinish : UInt32
  srcPort : UInt16
  destPort : UInt16
  flags1 : UInt8
  tcpFlags : UInt8
  protocol : UInt8
  tos : UInt8
  srcAs : UInt16
  destAs : UInt16
  srcMask : UInt8
  dstMask : UInt8
  flags2 : UInt16
  routerSc : UInt32

/-- The header at the start of a byte string. -/
def readNf7Header : StateM (List UInt8) Nf7Header := do
  return {
    version := ← read16
    flows := ← read16
    uptimeMs := ← read32
    timeSec := ← read32
    timeNanosec := ← read32
    flowSequence := ← read32
    reserved1 := ← read32 }

/-- The record at the start of a byte string. -/
def readNf7Flow : StateM (List UInt8) Nf7Flow := do
  return {
    srcIp := ← readOctets 4
    destIp := ← readOctets 4
    nexthopIp := ← readOctets 4
    ifIndexIn := ← read16
    ifIndexOut := ← read16
    flowPackets := ← read32
    flowOctets := ← read32
    flowStart := ← read32
    flowFinish := ← read32
    srcPort := ← read16
    destPort := ← read16
    flags1 := ← read8
    tcpFlags := ← read8
    protocol := ← read8
    tos := ← read8
    srcAs := ← read16
    destAs := ← read16
    srcMask := ← read8
    dstMask := ← read8
    flags2 := ← read16
    routerSc := ← read32 }

/-- `NF7_MAXFLOWS`. -/
def nf7MaxFlows : ℕ := 30

/-- `NF7_PACKET_SIZE`. -/
def nf7PacketSize (nflows : ℕ) : ℕ := 24 + nflows * 52

/-- The store record of one v7 record. -/
def Nf7Flow.toStore (fp : FlowPacket) (hdr : Nf7Header) (flow : Nf7Flow) : StoreFlowComplete where
  fields := storeFieldAll &&& ~~~storeFieldTag &&& ~~~storeFieldSrcAddr6 &&&
    ~~~storeFieldDstAddr6 &&& ~~~storeFieldGatewayAddr6
  recvSec := UInt32.ofInt fp.recvSec
  recvUsec := UInt32.ofInt fp.recvUsec
  tcpFlags := flow.tcpFlags
  protocol := flow.protocol
  tos := flow.tos
  agentAddr := fp.flowSource
  srcAddr := Xaddr.copy {} (List.ofFn flow.srcIp) afInet
  dstAddr := Xaddr.copy {} (List.ofFn flow.destIp) afInet
  gatewayAddr := Xaddr.copy {} (List.ofFn flow.nexthopIp) afInet
  srcPort := flow.srcPort
  dstPort := flow.destPort
  flowOctets := storeHtonll (htonl flow.flowOctets).toUInt64
  flowPackets := storeHtonll (htonl flow.flowPackets).toUInt64
  ifIndexIn := htonl (htons flow.ifIndexIn).toUInt32
  ifIndexOut := htonl (htons flow.ifIndexOut).toUInt32
  sysUptimeMs := hdr.uptimeMs
  timeSec := hdr.timeSec
  timeNanosec := hdr.timeNanosec
  netflowVersion := hdr.version
  flowStart := flow.flowStart
  flowFinish := flow.flowFinish
  srcAs := htonl (htons flow.srcAs).toUInt32
  dstAs := htonl (htons flow.destAs).toUInt32
  srcMask := flow.srcMask
  dstMask := flow.dstMask
  flowSequence := hdr.flowSequence

/-- The records `process_netflow_v7` hands to `process_flow`, in order; `none` when it rejects the
packet. -/
def decodeNetflowV7 (fp : FlowPacket) : Option (List StoreFlowComplete) :=
  let hdr := (readNf7Header.run fp.packet).1
  let nflows := (htons hdr.flows).toNat
  if fp.packet.length < 24 then none
  else if nflows = 0 ∨ nflows > nf7MaxFlows then none
  else if fp.packet.length ≠ nf7PacketSize nflows then none
  else some ((List.range nflows).map fun i =>
    Nf7Flow.toStore fp hdr (readNf7Flow.run (fp.packet.drop (nf7PacketSize i))).1)

/-- `process_netflow_v7`: the peer after it and the records handed to `process_flow`. -/
def processNetflowV7 (fp : FlowPacket) (peer : PeerState) : PeerState × List StoreFlowComplete :=
  match decodeNetflowV7 fp with
  | none => (peer.invalid, [])
  | some flows => (peer.update flows.length 7, flows)

end Flowd
