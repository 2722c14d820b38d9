import Mathlib.Data.Fintype.Pi
import Mathlib.Data.UInt
import NetworkMonitoring.Foundations.InetText
import NetworkMonitoring.Foundations.LittleEndian

/-!
# flowd — store records

`struct store_flow_complete` of `store.h`, the record every decoder of the collector fills in,
with `struct xaddr` of `addr.h` and the input packet. The optional parts of the record are
flattened into one structure; each field keeps the name it has in its part, and a padding field is
named after its part. Integers are the words in memory, so on a little-endian host a field in
network byte order is read through `htonl` or one of its sisters.
-/

namespace Flowd

open InetText

/-- `AF_INET` on Linux. -/
def afInet : UInt16 := 2

/-- `AF_INET6` on Linux. -/
def afInet6 : UInt16 := 10

/-- `struct xaddr`; the address union by its 16 bytes. -/
structure Xaddr where
  af : UInt16 := 0
  addr8 : Fin 16 → UInt8 := fun _ => 0
  scopeId : UInt32 := 0
  deriving DecidableEq

/-- The `v4` member of the address union. -/
def Xaddr.v4 (a : Xaddr) : InAddr := fun i => a.addr8 (i.castLE InAddr.size_le)

/-- Copy the bytes `data` to the start of the address union and set the family. -/
def Xaddr.copy (a : Xaddr) (data : List UInt8) (af : UInt16) : Xaddr :=
  { a with af := af, addr8 := fun i => data.getD i (a.addr8 i) }

/-- An address tells which bytes have been copied into it. -/
theorem Xaddr.copy_inj {a : Xaddr} {x y : List UInt8} {af : UInt16} (hx : x.length ≤ 16)
    (hlen : x.length = y.length) (h : a.copy x af = a.copy y af) : x = y := by
  apply List.ext_getElem hlen
  intro i hi hi'
  have hbyte : x.getD i _ = y.getD i _ := congrFun (congrArg Xaddr.addr8 h) ⟨i, by omega⟩
  rwa [List.getD_eq_getElem?_getD, List.getD_eq_getElem?_getD, List.getElem?_eq_getElem hi,
    List.getElem?_eq_getElem hi'] at hbyte

/-! ## Field masks -/

/-- The mask `1U << bit`. -/
def storeField (bit : UInt32) : UInt32 := 1 <<< bit

def storeFieldTag : UInt32 := storeField 0
def storeFieldRecvTime : UInt32 := storeField 1
def storeFieldProtoFlagsTos : UInt32 := storeField 2
def storeFieldAgentAddr4 : UInt32 := storeField 3
def storeFieldAgentAddr6 : UInt32 := storeField 4
def storeFieldSrcAddr4 : UInt32 := storeField 5
def storeFieldSrcAddr6 : UInt32 := storeField 6
def storeFieldDstAddr4 : UInt32 := storeField 7
def storeFieldDstAddr6 : UInt32 := storeField 8
def storeFieldGatewayAddr4 : UInt32 := storeField 9
def storeFieldGatewayAddr6 : UInt32 := storeField 10
def storeFieldSrcdstPort : UInt32 := storeField 11
def storeFieldPackets : UInt32 := storeField 12
def storeFieldOctets : UInt32 := storeField 13
def storeFieldIfIndices : UInt32 := storeField 14
def storeFieldAgentInfo : UInt32 := storeField 15
def storeFieldFlowTimes : UInt32 := storeField 16
def storeFieldAsInfo : UInt32 := storeField 17
def storeFieldFlowEngineInfo : UInt32 := storeField 18
def storeFieldCrc32 : UInt32 := storeField 30
def storeFieldAll : UInt32 := (storeField 19 - 1) ||| storeFieldCrc32
def storeFieldAgentAddr : UInt32 := storeFieldAgentAddr4 ||| storeFieldAgentAddr6

/-! ## Records -/

/-- `struct store_flow_complete`. Its default value is the record after `bzero`. -/
structure StoreFlowComplete where
  -- hdr
  version : UInt8 := 0
  lenWords : UInt8 := 0
  reserved : UInt16 := 0
  fields : UInt32 := 0
  -- tag
  tag : UInt32 := 0
  -- recv_time
  recvSec : UInt32 := 0
  recvUsec : UInt32 := 0
  -- pft
  tcpFlags : UInt8 := 0
  protocol : UInt8 := 0
  tos : UInt8 := 0
  pftPad : UInt8 := 0
  agentAddr : Xaddr := {}
  srcAddr : Xaddr := {}
  dstAddr : Xaddr := {}
  gatewayAddr : Xaddr := {}
  -- ports
  srcPort : UInt16 := 0
  dstPort : UInt16 := 0
  flowPackets : UInt64 := 0
  flowOctets : UInt64 := 0
  -- ifndx
  ifIndexIn : UInt32 := 0
  ifIndexOut : UInt32 := 0
  -- ainfo
  sysUptimeMs : UInt32 := 0
  timeSec : UInt32 := 0
  timeNanosec : UInt32 := 0
  netflowVersion : UInt16 := 0
  ainfoPad : UInt16 := 0
  -- ftimes
  flowStart : UInt32 := 0
  flowFinish : UInt32 := 0
  -- asinf
  srcAs : UInt32 := 0
  dstAs : UInt32 := 0
  srcMask : UInt8 := 0
  dstMask : UInt8 := 0
  asinfPad : UInt16 := 0
  -- finf
  engineType : UInt16 := 0
  engineId : UInt16 := 0
  flowSequence : UInt32 := 0
  sourceId : UInt32 := 0
  crc32 : UInt32 := 0

/-- `struct flow_packet`: a received datagram. -/
structure FlowPacket where
  recvSec : ℤ := 0
  recvUsec : ℤ := 0
  flowSource : Xaddr := {}
  /-- The `len` bytes at `packet`. -/
  packet : List UInt8

/-- `store_htonll` and `store_ntohll`. -/
abbrev storeHtonll := Bytes.htonll

end Flowd
