import NetworkMonitoring.Softflowd.Export

/-!
# softflowd — the NetFlow v1 exporter

`send_netflow_v1` of `netflow1.c`. The packet buffer is a header and the records written behind
it, as for NetFlow v5. Version 1 always exports the totals of a flow, one direction per call, and
its record has two fields `as_src` and `as_dst` behind the emulator's monitor address.

In the first direction the two fields are assigned twice. The second assignment takes the arrays
`as_src` and `as_dst` of the flow without an index, so what it stores is the low half of their
addresses in memory.
-/

namespace Softflowd

open Bytes InetText

/-- `struct NF1_HEADER`. -/
structure Nf1Header where
  version : UInt16 := 0
  flows : UInt16 := 0
  uptimeMs : UInt32 := 0
  timeSec : UInt32 := 0
  timeNanosec : UInt32 := 0
  /-- Added to support the emulator functions. -/
  emulatorMonitorAdr : InAddr := fun _ => 0
  deriving DecidableEq

/-- `struct NF1_FLOW`. -/
structure Nf1Flow where
  srcIp : InAddr := fun _ => 0
  destIp : InAddr := fun _ => 0
  nexthopIp : InAddr := fun _ => 0
  ifIndexIn : UInt16 := 0
  ifIndexOut : UInt16 := 0
  flowPackets : UInt32 := 0
  flowOctets : UInt32 := 0
  flowStart : UInt32 := 0
  flowFinish : UInt32 := 0
  srcPort : UInt16 := 0
  destPort : UInt16 := 0
  pad1 : UInt16 := 0
  protocol : UInt8 := 0
  tos : UInt8 := 0
  tcpFlags : UInt8 := 0
  pad2 : UInt8 := 0
  pad3 : UInt8 := 0
  pad4 : UInt8 := 0
  reserved1 : UInt32 := 0
  /-- Added to support the emulator functions. -/
  emulatorMonitorAdr : InAddr := fun _ => 0
  /-- Added to support AS source and destination. -/
  asSrc : UInt16 := 0
  asDst : UInt16 := 0
  deriving DecidableEq

/-- The memory of a header. -/
def Nf1Header.bytes (h : Nf1Header) : List UInt8 :=
  le16 h.version ++ (le16 h.flows ++ (le32 h.uptimeMs ++ (le32 h.timeSec ++ (le32 h.timeNanosec ++
    List.ofFn h.emulatorMonitorAdr))))

/-- The memory of a record; its fields leave no padding between them. -/
def Nf1Flow.bytes (f : Nf1Flow) : List UInt8 :=
  List.ofFn f.srcIp ++ (List.ofFn f.destIp ++ (List.ofFn f.nexthopIp ++ (le16 f.ifIndexIn ++
    (le16 f.ifIndexOut ++ (le32 f.flowPackets ++ (le32 f.flowOctets ++ (le32 f.flowStart ++
    (le32 f.flowFinish ++ (le16 f.srcPort ++ (le16 f.destPort ++ (le16 f.pad1 ++
    (f.protocol :: f.tos :: f.tcpFlags :: f.pad2 :: f.pad3 :: f.pad4 :: (le32 f.reserved1 ++
    (List.ofFn f.emulatorMonitorAdr ++ (le16 f.asSrc ++ le16 f.asDst)))))))))))))))

@[simp]
theorem Nf1Header.length_bytes (h : Nf1Header) : h.bytes.length = 20 := by
  simp [Nf1Header.bytes]

@[simp]
theorem Nf1Flow.length_bytes (f : Nf1Flow) : f.bytes.length = 56 := by
  simp [Nf1Flow.bytes]

/-- `NF1_MAXFLOWS`. -/
def nf1MaxFlows : ℕ := 24

/-- What a call of `send_netflow_v1` is given besides the flows: the flag `using_emulator`, the
current time, `*system_boot_time`, `inOut`, and where the arrays of a flow lie in memory. -/
structure V1Env where
  usingEmulator : Bool
  now : Timeval
  boot : Timeval
  inOut : ℤ
  /-- The low half of the address of the array `as_src` of a flow. -/
  asSrcArray : Flow → UInt16
  /-- The low half of the address of the array `as_dst` of a flow. -/
  asDstArray : Flow → UInt16

/-- Whether direction `d` of a flow is exported. -/
def V1Env.selects (env : V1Env) (f : Flow) (d : Dir) : Bool :=
  f.octets d > 0 && env.inOut == d.val

/-- The record of direction `d` of a flow. The block of the first direction assigns the AS numbers
a second time. -/
def V1Env.record (env : V1Env) (f : Flow) (d : Dir) : Nf1Flow where
  emulatorMonitorAdr := if env.usingEmulator then f.selectedMonitor else fun _ => 0
  srcIp := (f.addr d).v4
  destIp := (f.addr d.other).v4
  srcPort := f.port d
  destPort := f.port d.other
  flowPackets := htonl (f.packets d)
  flowOctets := htonl (f.octets d)
  flowStart := htonl (timevalSubMs f.flowStart env.boot)
  flowFinish := htonl (timevalSubMs f.flowLast env.boot)
  protocol := f.protocol
  tcpFlags := f.tcpFlags d
  asSrc := if d = 0 then env.asSrcArray f else (f.asSrc d).toUInt16
  asDst := if d = 0 then env.asDstArray f else (f.asDst d.other).toUInt16

/-- The local variables of `send_netflow_v1`. -/
structure V1Send where
  numPackets : ℕ := 0
  offset : ℕ := 0
  j : ℕ := 0
  hdr : Nf1Header := {}
  /-- The records behind the header in `packet`. -/
  flows : List Nf1Flow := []
  /-- `*flows_exported`. -/
  exported : UInt64
  net : Net

/-- The header of a packet that has no records yet. -/
def V1Env.header (env : V1Env) : Nf1Header where
  version := htons 1
  flows := 0
  uptimeMs := htonl (timevalSubMs env.now env.boot)
  timeSec := htonl (UInt32.ofInt env.now.sec)
  timeNanosec := htonl (UInt32.ofInt (env.now.usec * 1000))
  emulatorMonitorAdr := fun _ => 0

namespace V1Send

/-- Send the packet: the first `offset` bytes of the buffer. The state is in `error` when `send`
fails and the function returns `-1`. -/
def flush (st : V1Send) : Except V1Send V1Send :=
  let st := { st with hdr := { st.hdr with flows := htons st.hdr.flows } }
  match st.net.send ((st.hdr.bytes ++ st.flows.flatMap Nf1Flow.bytes).take st.offset) with
  | .error net => .error { st with net := net }
  | .ok net => .ok { st with
      net := net
      exported := st.exported + UInt64.ofNat st.j
      j := 0
      numPackets := st.numPackets + 1 }

/-- Send the packet when it has no room for two more records. -/
def makeRoom (st : V1Send) : Except V1Send V1Send :=
  if st.j ≥ nf1MaxFlows - 1 then st.flush else .ok st

/-- Start a new packet; `hdr->flows` is filled in as we go. -/
def start (env : V1Env) (st : V1Send) : V1Send :=
  { st with hdr := env.header, flows := [], offset := 20 }

/-- Write the record of direction `d`, if it is exported. -/
def put (env : V1Env) (f : Flow) (st : V1Send) (d : Dir) : V1Send :=
  if env.selects f d then
    { st with
      flows := st.flows ++ [env.record f d]
      offset := st.offset + 56
      j := st.j + 1
      hdr := { st.hdr with flows := st.hdr.flows + 1 } }
  else st

/-- Copy the emulator monitor source adr. -/
def nameMonitor (env : V1Env) (f : Flow) (st : V1Send) : V1Send :=
  if st.j = 0 ∧ env.usingEmulator then
    { st with hdr := { st.hdr with emulatorMonitorAdr := f.selectedMonitor } }
  else st

/-- One iteration of the loop over the flows. -/
def step (env : V1Env) (st : V1Send) (f : Flow) : Except V1Send V1Send := do
  let st ← st.makeRoom
  let st := if st.j = 0 then st.start env else st
  -- NetFlow v.1 doesn't do IPv6
  if f.af ≠ afInet then return st
  else return put env f (put env f (nameMonitor env f st) 0) 1

end V1Send

/-- The loop of `send_netflow_v1` and the datagram it sends for what is left over. -/
def sendLoopV1 (env : V1Env) (flows : List Flow) (st : V1Send) : Except V1Send V1Send := do
  let st ← flows.foldlM (V1Send.step env) st
  -- Send any leftovers
  if st.j ≠ 0 then st.flush else return st

/-- `send_netflow_v1`. -/
def sendNetflowV1 (usingEmulator : Bool) (now : Timeval) (asSrcArray asDstArray : Flow → UInt16) :
    NetflowSendFunc :=
  fun flows flowsExported boot inOut ex =>
    match sendLoopV1 ⟨usingEmulator, now, boot, inOut, asSrcArray, asDstArray⟩ flows
        { exported := flowsExported, net := ex.net } with
    | .error st => .ok (-1, st.exported, { ex with net := st.net })
    | .ok st => .ok (st.numPackets, st.exported, { ex with net := st.net })

end Softflowd
