import NetworkMonitoring.Flowd.Peer

/-!
# flowd — the NetFlow v1 decoder

`process_netflow_v1` of `flowd.c`. Its local variable `tv` is never assigned, so the microseconds
of the receive time are whatever that variable holds; they are the argument `tvUsec`.
-/

namespace Flowd

open Bytes InetText

/-- `struct NF1_HEADER` of `netflow.h`. -/
structure Nf1Header where
  version : UInt16
  flows : UInt16
  uptimeMs : UInt32
  timeSec : UInt32
  timeNanosec : UInt32
  emulatorMonitorAdr : InAddr

/-- `struct NF1_FLOW` of `netflow.h`. -/
structure Nf1Flow where
  srcIp : InAddr
  destIp : InAddr
  nexthopIp : InAddr
  ifIndexIn : UInt16
  ifIndexOut : UInt16
  flowPackets : UInt32
  flowOctets : UInt32
  flowStart : UInt32
  flowFinish : UInt32
  srcPort : UInt16
  destPort : UInt16
  pad1 : UInt16
  protocol : UInt8
  tos : UInt8
  tcpFlags : UInt8
  pad2 : UInt8
  pad3 : UInt8
  pad4 : UInt8
  reserved1 : UInt32
  emulatorMonitorAdr : InAddr

/-- The header at the start of a byte string. -/
def readNf1Header : StateM (List UInt8) Nf1Header := do
  return {
    version := ← read16
    flows := ← read16
    uptimeMs := ← read32
    timeSec := ← read32
    timeNanosec := ← read32
    emulatorMonitorAdr := ← readOctets 4 }

/-- The record at the start of a byte string. -/
def readNf1Flow : StateM (List UInt8) Nf1Flow := do
  return {
    srcIp := ← readOctets 4
    destIp := ← readOctets 4
    nexthopIp := ← readOctets 4
    ifIndexIn := ← read16
    ifIndexOut := ← read16
    flowPackets := ← read32
    flowOctets := ← read32
    flowStart := ← read32
    flowFinish := ← read32
    srcPort := ← read16
    destPort := ← read16
    pad1 := ← read16
    protocol := ← read8
    tos := ← read8
    tcpFlags := ← read8
    pad2 := ← read8
    pad3 := ← read8
    pad4 := ← read8
    reserved1 := ← read32
    emulatorMonitorAdr := ← readOctets 4 }

/-- `NF1_MAXFLOWS`. -/
def nf1MaxFlows : ℕ := 24

/-- `NF1_PACKET_SIZE`. -/
def nf1PacketSize (nflows : ℕ) : ℕ := 20 + nflows * 52

/-- The store record of one v1 record. -/
def Nf1Flow.toStore (tvUsec : ℤ) (fp : FlowPacket) (hdr : Nf1Header) (flow : Nf1Flow) :
    StoreFlowComplete where
  fields := storeFieldAll &&& ~~~storeFieldTag &&& ~~~storeFieldSrcAddr6 &&&
    ~~~storeFieldDstAddr6 &&& ~~~storeFieldGatewayAddr6 &&& ~~~storeFieldAsInfo &&&
    ~~~storeFieldFlowEngineInfo
  recvSec := UInt32.ofInt fp.recvSec
  recvUsec := UInt32.ofInt tvUsec
  tcpFlags := flow.tcpFlags
  protocol := flow.protocol
  tos := flow.tos
  agentAddr := fp.flowSource
  srcAddr := Xaddr.copy {} (List.ofFn flow.srcIp) afInet
  dstAddr := Xaddr.copy {} (List.ofFn flow.destIp) afInet
  gatewayAddr := Xaddr.copy {} (List.ofFn flow.nexthopIp) afInet
  srcPort := flow.srcPort
  dstPort := flow.destPort
  flowOctets := storeHtonll (htonl flow.flowOctets).toUInt64
  flowPackets := storeHtonll (htonl flow.flowPackets).toUInt64
  ifIndexIn := htonl (htons flow.ifIndexIn).toUInt32
  ifIndexOut := htonl (htons flow.ifIndexOut).toUInt32
  sysUptimeMs := hdr.uptimeMs
  timeSec := hdr.timeSec
  timeNanosec := hdr.timeNanosec
  netflowVersion := hdr.version
  flowStart := flow.flowStart
  flowFinish := flow.flowFinish

/-- The records `process_netflow_v1` hands to `process_flow`, in order; `none` when it rejects the
packet. -/
def decodeNetflowV1 (tvUsec : ℤ) (fp : FlowPacket) : Option (List StoreFlowComplete) :=
  let hdr := (readNf1Header.run fp.packet).1
  let nflows := (htons hdr.flows).toNat
  if fp.packet.length < 20 then none
  else if nflows = 0 ∨ nflows > nf1MaxFlows then none
  else if fp.packet.length ≠ nf1PacketSize nflows then none
  else some ((List.range nflows).map fun i =>
    Nf1Flow.toStore tvUsec fp hdr (readNf1Flow.run (fp.packet.drop (nf1PacketSize i))).1)

/-- `process_netflow_v1`: the peer after it and the records handed to `process_flow`. -/
def processNetflowV1 (tvUsec : ℤ) (fp : FlowPacket) (peer : PeerState) :
    PeerState × List StoreFlowComplete :=
  match decodeNetflowV1 tvUsec fp with
  | none => (peer.invalid, [])
  | some flows => (peer.update flows.length 1, flows)

end Flowd
