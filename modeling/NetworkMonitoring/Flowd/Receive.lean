import NetworkMonitoring.Flowd.NetFlow1
import NetworkMonitoring.Flowd.NetFlow5
import NetworkMonitoring.Flowd.NetFlow7
import NetworkMonitoring.Flowd.PeerTable

/-!
# flowd — from the socket to the decoders

`receive_packet` and `process_packet` of `flowd.c`. The address a datagram is attributed to is taken
from its header where the emulator has put one there, and from the socket otherwise; it has to
belong to a peer, and a peer is only made for an address that an allowed device matches.

A step of the collector is a datagram received, a packet processed or a reconfiguration; the main
loop reconfigures when the input queue is empty.
-/

namespace Flowd

open Bytes ErrorLoops

/-! ## Configuration -/

/-- `struct allowed_device`. -/
structure AllowedDevice where
  addr : Xaddr
  masklen : UInt32
  deriving DecidableEq

/-- `struct flowd_config`, by what is read of it here. -/
structure FlowdConfig where
  allowedDevices : List AllowedDevice := []
  deriving DecidableEq

/-- One of the allowed devices matches the address. -/
def FlowdConfig.matches (conf : FlowdConfig) (addr : Xaddr) : Bool :=
  conf.allowedDevices.any fun ad => addrNetmatch addr ad.addr ad.masklen.toNat == 0

/-- The check for address authorization of `new_peer`. -/
def FlowdConfig.allows (conf : FlowdConfig) (addr : Xaddr) : Bool :=
  conf.allowedDevices.isEmpty || conf.matches addr

/-- `scrub_peers`. -/
def Peers.scrub (peers : Peers) (conf : FlowdConfig) : Peers :=
  if conf.allowedDevices = [] then peers
  else
    let kept := peers.peerList.filter fun peer => conf.matches peer.origin
    { peers with
      peerList := kept
      numPeers := peers.numPeers - (peers.peerList.length - kept.length) }

/-! ## Receiving -/

/-- What `recvfrom` returns: the address of the sender and the `len` bytes of `buf`. -/
structure Datagram where
  sender : SockAddr
  fromlen : ℕ
  packet : List UInt8
  recvSec : ℤ := 0
  recvUsec : ℤ := 0
  /-- `sizeof(buf)`. -/
  length_le : packet.length ≤ 2048

/-- The first bytes of the packet as `receive_packet` reads them from its copy on the heap; `heap`
is what stands in memory otherwise. -/
def Datagram.tmpPacket (d : Datagram) (heap : Mem) : Mem := fun i => d.packet.getD i (heap i)

/-- The version in the header. -/
def Datagram.version (d : Datagram) (heap : Mem) : UInt16 := htons ((d.tmpPacket heap).u16 0)

/-- What the header of a datagram says of the agent. -/
inductive Attribution where
  | agent (flowSource : Xaddr)
  /-- The address cannot be converted. -/
  | invalid
  | unsupported

/-- A socket address that has been converted, or has not. -/
def Attribution.ofXaddr : Option Xaddr → Attribution
  | some flowSource => .agent flowSource
  | none => .invalid

/-- The agent of a header with `emulator_monitor_adr` at the offset given. The address is converted
with the length of the sender's one. -/
def Datagram.emulatorSource (d : Datagram) (heap : Mem) (offset : ℕ) : Attribution :=
  if (d.tmpPacket heap).u32 offset > 0 then
    .ofXaddr (addrSaToXaddr (.inet ((d.tmpPacket heap).octets offset 4)) d.fromlen)
  else .ofXaddr (addrSaToXaddr d.sender d.fromlen)

/-- The agent a datagram is attributed to. -/
def Datagram.attribution (d : Datagram) (heap : Mem) : Attribution :=
  if d.version heap = 1 then d.emulatorSource heap 16
  else if d.version heap = 5 then d.emulatorSource heap 24
  else .unsupported

/-- Which of the allocations of a call of `receive_packet` succeed. -/
structure Allocs where
  fp : Bool := true
  tmpFp : Bool := true
  tmpPacket : Bool := true
  peer : Bool := true
  packet : Bool := true

/-- The collector: its configuration, the peers and the input queue, first packet first. -/
structure Collector where
  conf : FlowdConfig
  peers : Peers := {}
  inputQueue : List FlowPacket := []

namespace Collector

/-- The peers after `find_peer` and `new_peer`; `none` where the agent is not authorised. -/
def findOrNewPeer (limits : PeerLimits) (allocs : Allocs) (c : Collector) (flowSource : Xaddr) :
    Except Fault (Option Peers) :=
  match c.peers.findPeer flowSource with
  | some _ => .ok (some c.peers)
  | none =>
    if !c.conf.allows flowSource then .ok none
    else if !allocs.peer then .error .exit
    else (c.peers.newPeer limits c.conf.allows flowSource).map some

/-- Count an invalid packet of the peer with an address. -/
def countInvalid (peers : Peers) (flowSource : Xaddr) : Peers :=
  match peers.findPeer flowSource with
  | none => peers
  | some peer => peers.putPeer flowSource peer peer.invalid

/-- The packet a datagram becomes. -/
def packetOf (d : Datagram) (flowSource : Xaddr) : FlowPacket where
  recvSec := d.recvSec
  recvUsec := d.recvUsec
  flowSource := flowSource
  packet := d.packet

/-- The end of `receive_packet`, for an authorised agent. -/
def queuePacket (allocs : Allocs) (c : Collector) (d : Datagram) (flowSource : Xaddr)
    (peers : Peers) : Collector × Option ℤ :=
  if d.packet.length < 4 then ({ c with peers := countInvalid peers flowSource }, some 1)
  else if !allocs.packet then ({ c with peers := peers }, some 0)
  else
    ({ c with peers := peers, inputQueue := c.inputQueue ++ [packetOf d flowSource] }, some 1)

/-- `receive_packet`, with the value it returns; `recv` is what the first call of `recvfrom` returns
that is not interrupted, `none` where that is an error. -/
def receivePacket (limits : PeerLimits) (allocs : Allocs) (heap : Mem) (c : Collector) :
    Option Datagram → Except Fault (Collector × Option ℤ)
  | none => .ok (c, some 0)
  | some d =>
    if !allocs.fp || !allocs.tmpFp || !allocs.tmpPacket then .ok (c, some 0)
    else match d.attribution heap with
    -- the function returns without a value
    | .unsupported => .ok (c, none)
    | .invalid => .ok (c, some 1)
    | .agent flowSource => do
      match ← c.findOrNewPeer limits allocs flowSource with
      | none => return (c, some 1)
      | some peers => return c.queuePacket allocs d flowSource peers

end Collector

/-! ## Processing -/

/-- What a call of `process_packet` finds in memory that nothing has been written to: the variable
`tv` of `process_netflow_v1` and the heap behind the packet. -/
structure Unwritten where
  tvUsec : ℤ
  behind : Fin 3 → UInt8

/-- The version in the header of a packet. -/
def FlowPacket.version (fp : FlowPacket) : UInt16 :=
  htons (UInt16.ofNat (leNat (fp.packet.take 2)))

/-- The versions `process_packet` has a decoder for. -/
def decodedVersions : List UInt16 := [1, 5, 7, 9]

/-- The `switch` of `process_packet`: the peer after it and the records handed to `process_flow`. -/
def processVersion (limits : PeerLimits) (mem : Unwritten) (fp : FlowPacket) (peer : PeerState) :
    Except Fault (PeerState × List StoreFlowComplete) :=
  if fp.version = 1 then .ok (processNetflowV1 mem.tvUsec fp peer)
  else if fp.version = 5 then .ok (processNetflowV5 fp peer)
  else if fp.version = 7 then .ok (processNetflowV7 fp peer)
  else if fp.version = 9 then processNetflowV9 (.heap mem.behind) limits fp.packet.length fp peer
  else .ok (peer, [])

namespace Collector

/-- One round of `process_input_queue`. -/
def processPacket (limits : PeerLimits) (mem : Unwritten) (c : Collector) :
    Except Fault (Collector × List StoreFlowComplete) :=
  match c.inputQueue with
  | [] => .ok (c, [])
  | fp :: inputQueue =>
    match c.peers.findPeer fp.flowSource with
    -- expired between reception and processing
    | none => .ok ({ c with inputQueue := inputQueue }, [])
    | some peer => do
      let (peer', flows) ← processVersion limits mem fp peer
      return ({ c with
        peers := c.peers.putPeer fp.flowSource peer peer'
        inputQueue := inputQueue }, flows)

/-- A step of the collector hands records to `process_flow`. -/
inductive Step (limits : PeerLimits) : Collector → List StoreFlowComplete → Collector → Prop where
  | reconfigure {c : Collector} (conf : FlowdConfig) (hempty : c.inputQueue = []) :
    Step limits c [] { c with conf := conf, peers := c.peers.scrub conf }
  | receive {c c' : Collector} {ret : Option ℤ} (allocs : Allocs) (heap : Mem)
    (recv : Option Datagram) (h : c.receivePacket limits allocs heap recv = .ok (c', ret)) :
    Step limits c [] c'
  | process {c c' : Collector} {flows : List StoreFlowComplete} (mem : Unwritten)
    (h : c.processPacket limits mem = .ok (c', flows)) : Step limits c flows c'

/-- The states of the collector in a run that starts with no peers. -/
inductive Reachable (limits : PeerLimits) : Collector → Prop where
  | start (conf : FlowdConfig) : Reachable limits { conf := conf }
  | step {c c' : Collector} {flows : List StoreFlowComplete} (hc : Reachable limits c)
    (h : Step limits c flows c') : Reachable limits c'

end Collector

end Flowd
